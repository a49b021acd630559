import SessionShell.Proofs.Action.Observed
import SessionShell.Proofs.Console.Chronicle
import SessionShell.Proofs.Team.Pact
import SessionShell.Proofs.Team.Shadow

/-!
A console at work, with any number of threads that use it.

A thread prints at both outlets, asks for lines, starts the workers and waits for both outlets. What
it does beside the console is its own affair, as long as it leaves alone what is queued and written.
-/

namespace SessionShell

open Action

variable {σ κ α β : Type} {allowed : ThreadId → σ → σ → Prop}

/-- Where a console is found, and which of the roles are those of its workers. -/
structure PressSite (σ κ : Type) where
  place : ConsoleAt σ
  life : Life σ κ
  worker : StreamName → κ
  stream? : κ → Option StreamName

namespace ConsoleAt

variable (place : ConsoleAt σ)

def outlet : Outlet → StreamAt σ String
  | .out => place.out
  | .err => place.err

def startStream : StreamName → Action σ Unit
  | .out => place.out.start
  | .err => place.err.start
  | .input => place.input.start

def write : Outlet → String → Action σ Unit
  | .out => place.writeOut
  | .err => place.writeError

variable {place}

theorem get_outlet (x : Outlet) (s : σ) : (place.outlet x).get s = (place.get s).stream x := by
  cases x <;> rfl

theorem set_outlet (x : Outlet) (v : StreamService String) (s : σ) :
    (place.outlet x).set v s = place.set ((place.get s).setStream x v) s := by
  cases x <;> rfl

theorem write_eq (x : Outlet) (text : String) : place.write x text = place.modify
    (·.write x text) := by
  cases x <;> rfl

end ConsoleAt

namespace PressSite

variable (site : PressSite σ κ)

/-- A step that leaves alone what is queued and written, and starts no worker. -/
def Spares (s s' : σ) : Prop :=
  (site.place.get s').press = (site.place.get s).press ∧
    ∃ news, site.life.pending s' = site.life.pending s ++ news ∧
      ∀ joined ∈ news, site.stream? joined.2 = none

variable {site}

theorem spares_of_nobody {s s' : σ} (hpress : (site.place.get s').press = (site.place.get s).press)
    (hpending : site.life.pending s' = site.life.pending s) : site.Spares s s' :=
  ⟨hpress, [], by simp [hpending], nofun⟩

theorem spares_refl (s : σ) : site.Spares s s :=
  spares_of_nobody rfl rfl

end PressSite

/-! ## What a thread can do -/

inductive PressCall (site : PressSite σ κ) where
  | print (x : Outlet) (text : String)
  | ask (line : LineRequest)
  | start (stream : StreamName)
  | sync
  | own {α : Type} (p : Action σ α) (h : Within site.Spares p)

namespace PressCall

variable {site : PressSite σ κ}

def Reply : PressCall site → Type
  | .print .. | .ask _ | .start _ | .sync => Unit
  | @own _ _ _ α _ _ => α

def plain : (call : PressCall site) → Action σ call.Reply
  | .print .out text => site.place.print text
  | .print .err text => site.place.printError text
  | .ask line => site.place.requestLine line.prompt line.mailbox
  | .start stream => site.place.startStream stream
  | .sync => site.place.sync
  | .own p _ => p

def printNoted (site : PressSite σ κ) (x : Outlet) (text : String) :
    Action (σ × ConsoleRecord) Unit :=
  stepNoted (fun s => ((), (site.place.outlet x).set (((site.place.outlet x).get s).submit text) s))
    fun me _ _ r => r.note (.printed x me text)

def askNoted (site : PressSite σ κ) (line : LineRequest) : Action (σ × ConsoleRecord) Unit :=
  stepNoted (fun s => ((), site.place.input.set ((site.place.input.get s).submit line) s))
    fun _ _ _ r => r.ask line

def markNoted (site : PressSite σ κ) (x : Outlet) : Action (σ × ConsoleRecord) Nat :=
  stepNoted (fun s =>
      let (mark, service) := ((site.place.outlet x).get s).submitMark
      (mark, (site.place.outlet x).set service s))
    fun _ _ mark r => r.mark x mark

def reachedNoted (site : PressSite σ κ) (x : Outlet) (mark : Nat)
    (notes : ConsoleRecord → ConsoleRecord) : Action (σ × ConsoleRecord) Unit :=
  awaitNoted (fun s => if ((site.place.outlet x).get s).hasReached mark then some ((), s) else none)
    fun _ _ _ r => notes r

def syncNoted (site : PressSite σ κ) : Action (σ × ConsoleRecord) Unit := do
  silent (site.place.startStream .out)
  let mark ← markNoted site .out
  reachedNoted site .out mark id
  silent (site.place.startStream .err)
  let other ← markNoted site .err
  reachedNoted site .err other (·.note (.synced mark))

def recorded : (call : PressCall site) → Action (σ × ConsoleRecord) call.Reply
  | .print x text => printNoted site x text
  | .ask line => askNoted site line
  | .start stream => silent (site.place.startStream stream)
  | .sync => syncNoted site
  | .own p _ => silent p

theorem follows_syncNoted : Follows allowed (syncNoted site) site.place.sync := by
  have hsync : site.place.sync = (do
      site.place.startStream .out
      let mark ← Action.step fun s =>
        let (mark, service) := ((site.place.outlet .out).get s).submitMark
        (mark, (site.place.outlet .out).set service s)
      Action.await fun s =>
        if ((site.place.outlet .out).get s).hasReached mark then some ((), s) else none
      site.place.startStream .err
      let mark ← Action.step fun s =>
        let (mark, service) := ((site.place.outlet .err).get s).submitMark
        (mark, (site.place.outlet .err).set service s)
      Action.await fun s =>
        if ((site.place.outlet .err).get s).hasReached mark then some ((), s) else none) := rfl
  rw [hsync]
  exact (follows_silent _).bind fun _ => (follows_stepNoted _ _).bind fun mark =>
    (follows_awaitNoted _ _).bind fun _ => (follows_silent _).bind fun _ =>
      (follows_stepNoted _ _).bind fun other => follows_awaitNoted _ _

theorem follows_recorded (call : PressCall site) : Follows allowed call.recorded call.plain := by
  cases call with
  | print x text =>
    have hprint : Follows allowed (printNoted site x text) ((site.place.outlet x).submit text) :=
      follows_stepNoted _ _
    cases x <;> exact hprint
  | ask line =>
    have hask : Follows allowed (askNoted site line) (site.place.input.submit line) :=
      follows_stepNoted _ _
    exact hask
  | start stream => exact follows_silent _
  | sync => exact follows_syncNoted
  | own p h => exact follows_silent p

end PressCall

abbrev PressErrand (site : PressSite σ κ) (α : Type) :=
  Program (PressCall site) PressCall.Reply α

namespace PressErrand

variable {site : PressSite σ κ}

def plain (errand : PressErrand site α) : Action σ α :=
  errand.expand PressCall.plain

def recorded (errand : PressErrand site α) : Action (σ × ConsoleRecord) α :=
  errand.expand PressCall.recorded

theorem follows_recorded (errand : PressErrand site α) :
    Follows allowed errand.recorded errand.plain :=
  follows_expand errand PressCall.follows_recorded

end PressErrand

/-! ## Programs made of calls -/

namespace PressSite

variable {site : PressSite σ κ} {ε : Type}

/-- Made of calls that come to their end. What follows a crash is not done, so a call that could
crash would not be one step of an attempt. -/
inductive Uses (site : PressSite σ κ) {α : Type} : Action σ α → Prop where
  | done (a : α) : Uses site (.done a)
  | crash : Uses site .crash
  | call (c : PressCall site) (hc : NeverCrashes c.plain) {next : c.Reply → Action σ α}
      (h : ∀ reply, Uses site (next reply)) : Uses site (c.plain >>= next)

theorem Uses.exists_errand {p : Action σ α} (h : site.Uses p) :
    ∃ errand : PressErrand site α, errand.plain = p := by
  induction h with
  | done a => exact ⟨.done a, rfl⟩
  | crash => exact ⟨.crash, rfl⟩
  | call c hc h ih =>
    choose errand herrand using ih
    refine ⟨.ask c errand, ?_⟩
    exact congrArg (c.plain >>= ·) (funext herrand)

theorem Uses.bind {p : Action σ α} {f : α → Action σ β} (hp : site.Uses p)
    (hf : ∀ a, site.Uses (f a)) : site.Uses (p >>= f) := by
  induction hp with
  | done a => exact hf a
  | crash => exact .crash
  | call c hc h ih =>
    rw [bind_assoc]
    exact .call c hc ih

theorem Uses.attempt {p : Action σ α} (hp : site.Uses p) : site.Uses p.attempt := by
  induction hp with
  | done a => exact .done _
  | crash => exact .done _
  | call c hc h ih =>
    rw [hc.attempt_bind]
    exact .call c hc ih

theorem Uses.discard {p : Action σ α} (hp : site.Uses p) : site.Uses (Functor.discard p) :=
  hp.bind fun _ => .done _

theorem Uses.run_bind {p : ExceptT ε (Action σ) α} {f : α → ExceptT ε (Action σ) β}
    (hp : site.Uses p.run) (hf : ∀ a, site.Uses (f a).run) : site.Uses (p >>= f).run :=
  Uses.bind hp fun r => by
    cases r with
    | ok a => exact hf a
    | error e => exact .done _

theorem Uses.lift {p : Action σ α} (hp : site.Uses p) :
    site.Uses (liftM p : ExceptT ε (Action σ) α).run :=
  hp.bind fun _ => .done _

theorem Uses.lift_bind {p : Action σ α} {f : α → ExceptT ε (Action σ) β} (hp : site.Uses p)
    (hf : ∀ a, site.Uses (f a).run) :
    site.Uses ((liftM p : ExceptT ε (Action σ) α) >>= f).run :=
  Uses.run_bind (Uses.lift hp) hf

theorem uses_call (c : PressCall site) (hc : NeverCrashes c.plain) : site.Uses c.plain := by
  have h : site.Uses (c.plain >>= pure) := .call c hc fun reply => .done reply
  rwa [bind_pure] at h

theorem uses_of_within {p : Action σ α} (h : Within site.Spares p) : site.Uses p := by
  induction p with
  | done a => exact .done a
  | crash => exact .crash
  | ask act next ih =>
    exact .call (.own (Program.call act) ⟨h.1, fun _ => trivial⟩) (fun _ => trivial)
      fun answer => ih answer (h.2 answer)

theorem uses_expand {Call : Type _} {Reply : Call → Type} (p : Program Call Reply α)
    {f : (c : Call) → Action σ (Reply c)} (hf : ∀ c, site.Uses (f c)) : site.Uses (p.expand f) := by
  induction p with
  | done a => exact .done a
  | crash => exact .crash
  | ask call next ih => exact (hf call).bind ih

end PressSite

/-! ## What a worker does -/

/-- A console with its workers, and the roles of all other threads. -/
structure Press (σ κ : Type) extends PressSite σ κ where
  role : {k : κ // stream? k = none} → PressErrand toPressSite (Option {k : κ // stream? k = none})

namespace Press

/-- The roles do what they are said to do, and the console is kept in a place of its own. -/
structure Lawful (w : Press σ κ) : Prop where
  get_set : ∀ c s, w.place.get (w.place.set c s) = c
  pending_set : ∀ c s, w.life.pending (w.place.set c s) = w.life.pending s
  get_launch : ∀ stream s, w.place.get (w.place.launch stream s) = w.place.get s
  pending_launch : ∀ stream s, ∃ id,
    w.life.pending (w.place.launch stream s) = w.life.pending s ++ [(id, w.worker stream)]
  get_adopt : ∀ s, w.place.get (w.life.takeStarted s).2 = w.place.get s
  pending_adopt : ∀ s, w.life.pending (w.life.takeStarted s).2 = []
  stream?_worker : ∀ stream, w.stream? (w.worker stream) = some stream
  workers : ∀ k stream, w.stream? k = some stream → w.life.program k = (do
    w.place.work stream
    return some k)
  others : ∀ k, w.life.program k.val = (do return (← (w.role k).plain).map Subtype.val)

variable (w : Press σ κ)

def takeNoted (x : Outlet) : Action (σ × ConsoleRecord) (Queued String) :=
  awaitNoted (fun s => ((w.place.outlet x).get s).take?.map fun r =>
    (r.1, (w.place.outlet x).set r.2 s))
    fun _ _ q r => match q with
      | .request text => r.take x text
      | .mark _ => r

def writeNoted (x : Outlet) (text : String) : Action (σ × ConsoleRecord) Unit :=
  stepNoted (fun s => ((), w.place.set ((w.place.get s).write x text) s)) fun _ _ _ r =>
    r.write x text

def serveOutlet (x : Outlet) : Action (σ × ConsoleRecord) Unit := do
  match ← w.takeNoted x with
  | .request text => discard (w.writeNoted x text).attempt
  | .mark mark =>
    silent (Action.update fun s =>
      (w.place.outlet x).set (((w.place.outlet x).get s).reach mark) s)

def takeAskNoted : Action (σ × ConsoleRecord) (Queued LineRequest) :=
  awaitNoted (fun s => (w.place.input.get s).take?.map fun r => (r.1, w.place.input.set r.2 s))
    fun _ _ _ r => r.takeAsk

def promptNoted (prompt : String) : Action (σ × ConsoleRecord) Unit :=
  stepNoted (fun s => ((), w.place.set ((w.place.get s).write .out prompt) s))
    fun _ _ _ r => r.prompt prompt

def reply (request : LineRequest) (outcome : ReadOutcome) : Action σ Unit :=
  w.place.modify fun c =>
    c.setMailbox request.mailbox ((c.mailbox request.mailbox).post outcome)

def serveRecorded (request : LineRequest) : Action (σ × ConsoleRecord) Unit := do
  PressCall.syncNoted w.toPressSite
  w.promptNoted request.prompt
  let outcome ← silent w.place.readLine
  silent (w.reply request outcome)

def serveInput : Action (σ × ConsoleRecord) Unit := do
  match ← w.takeAskNoted with
  | .request request => discard (w.serveRecorded request).attempt
  | .mark mark =>
    silent (Action.update fun s => w.place.input.set ((w.place.input.get s).reach mark) s)

def workRecorded : StreamName → Action (σ × ConsoleRecord) Unit
  | .out => w.serveOutlet .out
  | .err => w.serveOutlet .err
  | .input => w.serveInput

/-- The same life with a record beside the state. -/
def recorded : Life (σ × ConsoleRecord) κ where
  program k :=
    match h : w.stream? k with
    | some stream => do
      w.workRecorded stream
      return some k
    | none => do return (← (w.role ⟨k, h⟩).recorded).map Subtype.val
  takeStarted γ := ((w.life.takeStarted γ.1).1, ((w.life.takeStarted γ.1).2, γ.2))
  isOver γ := w.life.isOver γ.1

/-! ## Without the record -/

variable {w}

theorem follows_serveOutlet (x : Outlet) :
    Follows allowed (w.serveOutlet x) ((w.place.outlet x).serveNext (w.place.write x)) := by
  refine (follows_awaitNoted _ _).bind fun q => ?_
  cases q with
  | mark mark => exact follows_silent _
  | request text =>
    have hwrite : Follows allowed (w.writeNoted x text) (w.place.write x text) := by
      rw [ConsoleAt.write_eq]
      exact follows_stepNoted _ _
    exact hwrite.attempt.bind fun _ => .done ()

theorem follows_serveRecorded (request : LineRequest) :
    Follows allowed (w.serveRecorded request) (w.place.serveLine request) :=
  PressCall.follows_syncNoted.bind fun _ => (follows_stepNoted _ _).bind fun _ =>
    (follows_silent _).bind fun _ => follows_silent _

theorem follows_workRecorded (stream : StreamName) :
    Follows allowed (w.workRecorded stream) (w.place.work stream) := by
  cases stream with
  | out => exact follows_serveOutlet .out
  | err => exact follows_serveOutlet .err
  | input =>
    refine (follows_awaitNoted _ _).bind fun q => ?_
    cases q with
    | mark mark => exact follows_silent _
    | request request => exact (follows_serveRecorded request).attempt.bind fun _ => .done ()

theorem program_worker {k : κ} {stream : StreamName} (h : w.stream? k = some stream) :
    w.recorded.program k = (do
      w.workRecorded stream
      return some k) := by
  simp only [recorded]
  split
  · next other hother =>
    cases hother.symm.trans h
    rfl
  · next hnone => cases hnone.symm.trans h

theorem program_other {k : κ} (h : w.stream? k = none) :
    w.recorded.program k = (do return (← (w.role ⟨k, h⟩).recorded).map Subtype.val) := by
  simp only [recorded]
  split
  · next other hother => cases hother.symm.trans h
  · rfl

theorem follows_recorded (hw : w.Lawful) : w.recorded.Follows w.life fun _ _ _ => True := by
  constructor
  · intro k
    cases hk : w.stream? k with
    | some stream =>
      rw [hw.workers k stream hk, program_worker hk]
      exact (follows_workRecorded stream).bind fun _ => .done _
    | none =>
      have hother := hw.others ⟨k, hk⟩
      simp only at hother
      rw [hother, program_other hk]
      exact (w.role ⟨k, hk⟩).follows_recorded.bind fun _ => .done _
  · exact fun _ _ => rfl

end Press

end SessionShell
