import SessionShell.Proofs.ParentHook.Aside
import SessionShell.Shell.Loop

/-!
The way of an exit hook from the child to the parent.

A record is kept of who has the hook: the child, the thread that ends it, the tasks of the parent,
the thread that takes it off them. It is called by one of these threads, or dropped with the tasks.
-/

namespace SessionShell

open Action Shell

/-- Who has the hook, and since the child has ended, for which code. -/
inductive Holder where
  | child
  | ender (who : Nat) (code : Int)
  | queue (ahead : Nat) (code : Int)
  | server (who : Nat) (code : Int)
  | called (code : Int)
  | dropped (code : Int)
  deriving DecidableEq, Repr

namespace Holder

def thread? : Holder → Option Nat
  | .ender who _ => some who
  | .server who _ => some who
  | _ => none

def isHandedOver : Holder → Bool
  | .child => false
  | .ender _ _ => false
  | _ => true

/-- Whether the hook has come out of the tasks of the parent, or has never been among them, to be
called. -/
def isTaken : Holder → Bool
  | .server _ _ => true
  | .called _ => true
  | _ => false

end Holder

structure Passage where
  holder : Holder
  /-- Whether the parent was disposed of by the time the code was recorded. -/
  late : Bool
  calls : List Int
  deriving DecidableEq, Repr

namespace Passage

def start : Passage :=
  ⟨.child, false, []⟩

def call (code : Int) (r : Passage) : Passage :=
  { r with holder := .called code, calls := r.calls ++ [code] }

def serve (who : Nat) (r : Passage) : Passage :=
  match r.holder with
  | .server other code => if other = who then r.call code else r
  | _ => r

end Passage

namespace ParentHook

/-! ## What is noted -/

section Notes

variable (k : ParentHook) (who : Nat) (code : Int)

def childHook : ExitHook :=
  .inParent k.parent k.hook

def noteCode : Shell → Except ShellError (Option ExitHook) → Passage → Passage
  | s, .ok _, r => { r with holder := .ender who code, late := (s.session k.parent).disposed }
  | _, .error _, r => r

def noteGiven : Shell → Unit → Passage → Passage :=
  fun s _ r => { r with holder := .queue (s.session k.parent).tasks.length code }

def noteTaken : Shell → Option Task → Passage → Passage
  | _, none, r => r
  | _, some _, r =>
    match r.holder with
    | .queue 0 code => { r with holder := .server who code }
    | .queue (ahead + 1) code => { r with holder := .queue ahead code }
    | _ => r

def noteDropped : Shell → Unit → Passage → Passage :=
  fun _ _ r =>
    match r.holder with
    | .queue _ code => { r with holder := .dropped code }
    | _ => r

end Notes

/-! ## Deeds -/

/-- What a thread may do that has to do with the hook, or happens aside of it. -/
inductive Deed (k : ParentHook) : Type 1 where
  | endChild (code : Int) (handsOn : Bool)
  | endParent (code : Int) (removes handsOn : Bool)
  /-- The next task of the parent is taken, and run if it is a hook. -/
  | serve
  | aside {α : Type} (act : Action Shell α) (h : Within k.Aside act)

namespace Deed

variable {k : ParentHook}

def Reply : k.Deed → Type
  | .endChild _ _ => Except ShellError Unit
  | .endParent _ _ _ => Except ShellError Unit
  | .serve => Option Task
  | @Deed.aside _ α _ _ => α

end Deed

section Told

variable (k : ParentHook) (who : Nat)

def serveNext : Action Shell (Option Task) := do
  let task? ← takeTask k.parent
  match task? with
  | some (.runHook hook code) => runTask k.parent (.runHook hook code)
  | _ => pure ()
  return task?

def serveTold : Action (Shell × Passage) (Option Task) := do
  let task? ← noted (noteTaken who) (takeTask k.parent)
  match task? with
  | some (.runHook hook code) =>
    record (Passage.serve who)
    silent (runTask k.parent (.runHook hook code))
  | _ => pure ()
  return task?

abbrev Recorded := ExceptT ShellError (Action (Shell × Passage))

def giveTold (code : Int) : Recorded Unit := do
  ExceptT.mk (silent (ensureLive k.parent).run)
  ExceptT.lift (noted (k.noteGiven code) (updateSession k.parent fun session =>
    { session with tasks := session.tasks ++ [.runHook k.hook code] }))

def handOver (code : Int) : Action (Shell × Passage) Unit := do
  match ← (k.giveTold code).run with
  | .ok () => pure ()
  | .error _ =>
    record (Passage.call code)
    silent (runHook code k.hook)

def leaveTold (code : Int) (hook? : Option ExitHook) (handsOn : Bool) :
    Action (Shell × Passage) Bool :=
  if hook? = some k.childHook then do
    discard (k.handOver code).attempt
    silent (leave k.child code none handsOn)
  else silent (leave k.child code hook? handsOn)

def endChildTold (code : Int) (handsOn : Bool) : Recorded Unit := do
  let hook? ← ExceptT.mk (noted (k.noteCode who code) (recordCode k.child code).run)
  let wasLast ← ExceptT.lift (k.leaveTold code hook? handsOn)
  ExceptT.lift (silent (dispose k.child))
  if wasLast then ExceptT.lift (silent (terminate code))

def disposeTold : Action (Shell × Passage) Unit := do
  let hook? ← silent (markDisposed k.parent)
  silent (dropHook? hook?)
  silent (cancelJobs k.parent)
  noted noteDropped (dropTasks k.parent)
  silent (setCurrent k.parent false)
  silent (release k.parent)

def endParentTold (code : Int) (removes handsOn : Bool) : Recorded Unit := do
  let hook? ← ExceptT.mk (silent (recordCode k.parent code).run)
  if removes then
    let wasLast ← ExceptT.lift (silent (leave k.parent code hook? handsOn))
    ExceptT.lift k.disposeTold
    if wasLast then ExceptT.lift (silent (terminate code))
  else
    ExceptT.lift k.disposeTold
    ExceptT.lift (silent (dropHook? hook?))

end Told

namespace Deed

variable {k : ParentHook}

def perform : (d : k.Deed) → Action Shell d.Reply
  | .endChild code handsOn => (finish k.child code true handsOn).run
  | .endParent code removes handsOn => (finish k.parent code removes handsOn).run
  | .serve => k.serveNext
  | .aside act _ => act

def told (who : Nat) : (d : k.Deed) → Action (Shell × Passage) d.Reply
  | .endChild code handsOn => (k.endChildTold who code handsOn).run
  | .endParent code removes handsOn => (k.endParentTold code removes handsOn).run
  | .serve => k.serveTold who
  | .aside act _ => silent act

end Deed

/-- What a thread does, one deed after the other. -/
abbrev Script (k : ParentHook) := Program k.Deed Deed.Reply Unit

/-! ## Without the record -/

variable {k : ParentHook} {who : Nat}

theorem erases_giveTold (code : Int) :
    Erases (k.giveTold code).run (schedule k.parent (.runHook k.hook code)).run :=
  Erases.run_bind (erases_silent _) fun _ =>
    Erases.lift (erases_noted (k.noteGiven code) (updateSession k.parent _))

theorem erases_handOver (code : Int) : Erases (k.handOver code) (runHook code k.childHook) :=
  Erases.bind (erases_giveTold code) fun r => by
    cases r with
    | ok => exact .done _
    | error => exact .note (erases_silent _)

theorem erases_leaveTold (code : Int) (hook? : Option ExitHook) (handsOn : Bool) :
    Erases (k.leaveTold code hook? handsOn) (leave k.child code hook? handsOn) := by
  by_cases h : hook? = some k.childHook
  · subst h
    rw [leaveTold, if_pos rfl]
    exact Erases.bind (Erases.bind (erases_handOver code).attempt fun _ => .done _) fun _ =>
      erases_silent _
  · rw [leaveTold, if_neg h]
    exact erases_silent _

theorem erases_endChildTold (code : Int) (handsOn : Bool) :
    Erases (k.endChildTold who code handsOn).run (finish k.child code true handsOn).run := by
  refine Erases.run_bind (erases_noted _ _) fun hook? =>
    Erases.run_bind (Erases.lift (erases_leaveTold code hook? handsOn)) fun wasLast =>
    Erases.run_bind (Erases.lift (erases_silent (dispose k.child))) fun _ => ?_
  cases wasLast with
  | true => exact Erases.lift (erases_silent (terminate code))
  | false => exact .done _

theorem erases_disposeTold : Erases k.disposeTold (dispose k.parent) :=
  Erases.bind (erases_silent _) fun _ => Erases.bind (erases_silent _) fun _ =>
    Erases.bind (erases_silent _) fun _ => Erases.bind (erases_noted _ _) fun _ =>
    Erases.bind (erases_silent _) fun _ => erases_silent _

theorem erases_endParentTold (code : Int) (removes handsOn : Bool) :
    Erases (k.endParentTold code removes handsOn).run
      (finish k.parent code removes handsOn).run := by
  refine Erases.run_bind (erases_silent _) fun hook? => ?_
  cases removes with
  | true =>
    refine Erases.run_bind (Erases.lift (erases_silent _)) fun wasLast =>
      Erases.run_bind (Erases.lift erases_disposeTold) fun _ => ?_
    cases wasLast with
    | true => exact Erases.lift (erases_silent (terminate code))
    | false => exact .done _
  | false =>
    exact Erases.run_bind (Erases.lift erases_disposeTold) fun _ =>
      Erases.lift (erases_silent (dropHook? hook?))

theorem erases_serveTold : Erases (k.serveTold who) k.serveNext :=
  Erases.bind (erases_noted _ _) fun task? => by
    split
    · next hook code =>
      exact .note
        (Erases.bind (erases_silent (runTask k.parent (.runHook hook code))) fun _ => .done _)
    · exact .done _

theorem Deed.erases_told (d : k.Deed) : Erases (d.told who) d.perform := by
  cases d with
  | endChild code handsOn => exact erases_endChildTold code handsOn
  | endParent code removes handsOn => exact erases_endParentTold code removes handsOn
  | serve => exact erases_serveTold
  | aside act => exact erases_silent act

theorem erases_script (p : k.Script) :
    Erases (p.expand (Deed.told who)) (p.expand Deed.perform) := by
  induction p with
  | done a => exact .done a
  | crash => exact .crash
  | ask d next ih => exact Erases.bind d.erases_told ih

/-! ## The record and the shell -/

def Fits (k : ParentHook) (s : Shell) (r : Passage) : Prop :=
  match r.holder with
  | .child => (s.session k.child).exitState = ⟨none, some k.childHook, false⟩ ∧ r.calls = []
  | .ender _ code => (s.session k.child).exitCode = some code ∧
      (s.session k.child).disposed = false ∧ r.calls = [] ∧
      (r.late = true → (s.session k.parent).disposed = true)
  | .queue ahead code => (s.session k.child).exitCode = some code ∧ r.calls = [] ∧ r.late = false ∧
      (s.session k.parent).tasks[ahead]? = some (.runHook k.hook code)
  | .server _ code => (s.session k.child).exitCode = some code ∧ r.calls = [] ∧ r.late = false
  | .called code => (s.session k.child).exitCode = some code ∧ r.calls = [code]
  | .dropped code => (s.session k.child).exitCode = some code ∧ r.calls = [] ∧ r.late = false ∧
      (s.session k.parent).disposed = true

structure Inv (k : ParentHook) (γ : Shell × Passage) : Prop where
  parent : k.parent < γ.1.sessions.size
  child : k.child < γ.1.sessions.size
  fits : k.Fits γ.1 γ.2

variable {s s' : Shell} {r r' : Passage}

/-- The record fits as long as the child stays as it is, and the hook stays where it is in
the queue. -/
theorem Fits.of_same (h : k.Fits s r)
    (hstate : (s'.session k.child).exitState = (s.session k.child).exitState)
    (hdisposed : (s.session k.parent).disposed = true → (s'.session k.parent).disposed = true)
    (hqueue : ∀ ahead code, r.holder = .queue ahead code →
      (s.session k.parent).tasks[ahead]? = some (.runHook k.hook code) →
      (s'.session k.parent).tasks[ahead]? = some (.runHook k.hook code)) : k.Fits s' r := by
  have hcode : (s'.session k.child).exitCode = (s.session k.child).exitCode :=
    congrArg ExitState.exitCode hstate
  have hlive : (s'.session k.child).disposed = (s.session k.child).disposed :=
    congrArg ExitState.disposed hstate
  rcases r with ⟨holder, late, calls⟩
  cases holder with
  | child => exact ⟨hstate.trans h.1, h.2⟩
  | ender who code =>
    exact ⟨hcode.trans h.1, hlive.trans h.2.1, h.2.2.1, fun hl => hdisposed (h.2.2.2 hl)⟩
  | queue ahead code =>
    exact ⟨hcode.trans h.1, h.2.1, h.2.2.1, hqueue ahead code rfl h.2.2.2⟩
  | server who code | called code => exact ⟨hcode.trans h.1, h.2⟩
  | dropped code => exact ⟨hcode.trans h.1, h.2.1, h.2.2.1, hdisposed h.2.2.2⟩

theorem Fits.known (h : k.Fits s r) :
    (s.session k.child).exitCode.isSome ∨ (s.session k.child).exitHook.isSome := by
  unfold Fits at h
  split at h
  · have hhook : (s.session k.child).exitHook = some k.childHook := congrArg ExitState.exitHook h.1
    exact .inr (by rw [hhook]; rfl)
  all_goals exact .inl (by rw [h.1]; rfl)

theorem Fits.of_handedOver (h : k.Fits s r) (hover : r.holder.isHandedOver = true)
    (hcode : (s'.session k.child).exitCode = (s.session k.child).exitCode)
    (hdisposed : (s.session k.parent).disposed = true → (s'.session k.parent).disposed = true)
    (htasks : (s'.session k.parent).tasks = (s.session k.parent).tasks) : k.Fits s' r := by
  rcases r with ⟨holder, late, calls⟩
  cases holder with
  | child | ender => cases hover
  | queue ahead code => exact ⟨hcode.trans h.1, h.2.1, h.2.2.1, htasks ▸ h.2.2.2⟩
  | server who code | called code => exact ⟨hcode.trans h.1, h.2⟩
  | dropped code => exact ⟨hcode.trans h.1, h.2.1, h.2.2.1, hdisposed h.2.2.2⟩

theorem Inv.of_aside (h : k.Inv (s, r)) (haside : k.Aside s s') : k.Inv (s', r) := by
  obtain ⟨hparent, hchild, hfits⟩ := h
  refine ⟨Nat.lt_of_lt_of_le hparent haside.size, Nat.lt_of_lt_of_le hchild haside.size,
    hfits.of_same (haside.child hchild hfits.known) (haside.disposed hparent) ?_⟩
  intro ahead code _ htask
  rcases haside.tasks hparent with hsame | ⟨task, happend⟩
  · rwa [hsame]
  · have hlt : ahead < (s.session k.parent).tasks.length := (List.getElem?_eq_some_iff.mp htask).1
    rw [happend, List.getElem?_append_left hlt]
    exact htask

theorem Inv.isHandedOver {γ : Shell × Passage} (h : k.Inv γ)
    (hdisposed : (γ.1.session k.child).disposed = true) : γ.2.holder.isHandedOver = true := by
  obtain ⟨-, -, hfits⟩ := h
  unfold Fits at hfits
  split at hfits
  · exact absurd (congrArg ExitState.disposed hfits.1) (by simp [Session.exitState, hdisposed])
  · exact absurd hfits.2.1 (by simp [hdisposed])
  all_goals
    next heq => rw [heq]; rfl

/-! ## Changes -/

/-- A step of the record, by a thread that it is due to if the hook comes into its hands or out of
them. -/
inductive Passage.Step (due : Nat → Prop) (exited : Bool) : Passage → Passage → Prop where
  | same (r : Passage) : Step due exited r r
  | ended {i : Nat} {code : Int} {late : Bool} {calls : List Int} (h : due i) :
      Step due exited ⟨.child, late, calls⟩ ⟨.ender i code, exited, calls⟩
  | given {i ahead : Nat} {code : Int} {late : Bool} {calls : List Int} (h : due i) :
      Step due exited ⟨.ender i code, late, calls⟩ ⟨.queue ahead code, late, calls⟩
  | refused {i : Nat} {code : Int} {late : Bool} {calls : List Int} (h : due i) :
      Step due exited ⟨.ender i code, late, calls⟩ ⟨.called code, late, calls ++ [code]⟩
  | ahead {n : Nat} {code : Int} {late : Bool} {calls : List Int} :
      Step due exited ⟨.queue (n + 1) code, late, calls⟩ ⟨.queue n code, late, calls⟩
  | taken {i : Nat} {code : Int} {late : Bool} {calls : List Int} (h : due i) :
      Step due exited ⟨.queue 0 code, late, calls⟩ ⟨.server i code, late, calls⟩
  | served {i : Nat} {code : Int} {late : Bool} {calls : List Int} (h : due i) :
      Step due exited ⟨.server i code, late, calls⟩ ⟨.called code, late, calls ++ [code]⟩
  | dropped {n : Nat} {code : Int} {late : Bool} {calls : List Int} :
      Step due exited ⟨.queue n code, late, calls⟩ ⟨.dropped code, late, calls⟩

def TooLate (k : ParentHook) (γ : Shell × Passage) : Prop :=
  γ.2.holder = .child ∧ (γ.1.session k.parent).disposed = true ∨
    γ.2.holder ≠ .child ∧ γ.2.late = true

structure Change (k : ParentHook) (due : Nat → Prop) (γ γ' : Shell × Passage) : Prop where
  inv : k.Inv γ → k.Inv γ'
  disposed : k.Inv γ → (γ.1.session k.parent).disposed = true →
    (γ'.1.session k.parent).disposed = true
  kept : ∀ i, γ.2.holder.thread? = some i → ¬due i → γ'.2 = γ.2
  fresh : ∀ i, γ'.2.holder.thread? = some i → ¬due i → γ.2.holder.thread? = some i
  handedOver : γ.2.holder.isHandedOver = true → γ'.2.holder.isHandedOver = true
  taken : γ.2.holder.isTaken = true → γ'.2.holder.isTaken = true
  tooLate : k.Inv γ → k.TooLate γ → k.TooLate γ'

namespace Change

variable {due due' : Nat → Prop} {γ γ' γ'' : Shell × Passage}

theorem mono (h : k.Change due γ γ') (hdue : ∀ i, due i → due' i) : k.Change due' γ γ' :=
  ⟨h.inv, h.disposed, fun i hi hn => h.kept i hi fun hd => hn (hdue i hd),
    fun i hi hn => h.fresh i hi fun hd => hn (hdue i hd), h.handedOver, h.taken, h.tooLate⟩

theorem refl (γ : Shell × Passage) : k.Change due γ γ :=
  ⟨id, fun _ => id, fun _ _ _ => rfl, fun _ hi _ => hi, id, id, fun _ => id⟩

theorem trans (h : k.Change due γ γ') (h' : k.Change due γ' γ'') : k.Change due γ γ'' := by
  refine ⟨fun hinv => h'.inv (h.inv hinv),
    fun hinv hd => h'.disposed (h.inv hinv) (h.disposed hinv hd), fun i hi hn => ?_,
    fun i hi hn => h.fresh i (h'.fresh i hi hn) hn, fun ho => h'.handedOver (h.handedOver ho),
    fun ht => h'.taken (h.taken ht), fun hinv hl => h'.tooLate (h.inv hinv) (h.tooLate hinv hl)⟩
  have hsame := h.kept i hi hn
  exact (h'.kept i (by rw [hsame]; exact hi) hn).trans hsame

theorem of_step (hstep : Passage.Step due (s.session k.parent).disposed r r')
    (hdisposed : k.Inv (s, r) → (s.session k.parent).disposed = true →
      (s'.session k.parent).disposed = true)
    (hinv : k.Inv (s, r) → k.Inv (s', r')) : k.Change due (s, r) (s', r') := by
  have hlate : k.Inv (s, r) → k.TooLate (s, r) → k.TooLate (s', r') := by
    rintro hinv (⟨hchild, hgone⟩ | ⟨hended, hlate⟩)
    · have hgone' := hdisposed hinv hgone
      cases hstep with
      | same => exact .inl ⟨hchild, hgone'⟩
      | ended => exact .inr ⟨Holder.noConfusion, hgone⟩
      | _ => cases hchild
    · cases hstep with
      | same => exact .inr ⟨hended, hlate⟩
      | ended => exact absurd rfl hended
      | _ => exact .inr ⟨Holder.noConfusion, hlate⟩
  refine ⟨hinv, hdisposed, ?_, ?_, ?_, ?_, hlate⟩
  · intro j hj hn
    cases hstep with
    | same => rfl
    | given h | refused h | served h =>
      cases hj
      exact absurd h hn
    | ended | ahead | taken | dropped => cases hj
  · intro j hj hn
    cases hstep with
    | same => exact hj
    | ended h | taken h =>
      cases hj
      exact absurd h hn
    | given | refused | ahead | served | dropped => cases hj
  · intro ho
    cases hstep with
    | same => exact ho
    | ended | given | refused => cases ho
    | ahead | taken | served | dropped => rfl
  · intro ht
    cases hstep with
    | same => exact ht
    | served => rfl
    | ended | given | refused | ahead | taken | dropped => cases ht

theorem of_aside (h : k.Aside s s') : k.Change due (s, r) (s', r) :=
  of_step (.same r) (fun hinv => h.disposed hinv.parent) fun hinv => hinv.of_aside h

end Change

end ParentHook

end SessionShell
