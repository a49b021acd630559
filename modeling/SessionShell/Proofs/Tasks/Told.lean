import SessionShell.Proofs.Tasks.Order
import SessionShell.Proofs.Tasks.Watch
import SessionShell.Proofs.Team.Shadow

/-!
A shell that keeps the log of one session's tasks.

Whoever starts the session, and the session's own thread, say what they are at. What all others do
to the session shows from what it has to do before and after each of their steps.
-/

namespace SessionShell

open Action Shell TaskEvent

variable {α β ε : Type}

namespace TaskLog

def news (byItself : Bool) (x x' : Session) : TaskLog :=
  (x'.tasks.drop x.tasks.length).map TaskEvent.scheduled ++
    if x'.disposed && !x.disposed then [.ended byItself] else []

def observer (id : SessionId) (byItself : Bool) : Observer Shell TaskLog where
  allowed _ _ _ := true
  notes _ s s' log := log ++ news byItself (s.session id) (s'.session id)

abbrev watched (id : SessionId) (byItself : Bool) (p : Action Shell α) :
    Action (Shell × TaskLog) α :=
  (observer id byItself).observe p

abbrev tell (e : TaskEvent) : Action (Shell × TaskLog) Unit :=
  record (· ++ [e])

abbrev telling (e : α → List TaskEvent) (p : Action Shell α) : Action (Shell × TaskLog) α :=
  noted (fun _ a log => log ++ e a) p

section Follows

variable {allowed : ThreadId → Shell → Shell → Prop}

theorem follows_watched (id : SessionId) (byItself : Bool) (p : Action Shell α) :
    Follows allowed (watched id byItself p) p :=
  (Observer.follows_observe p).mono fun _ _ _ _ => rfl

theorem follows_telling (e : α → List TaskEvent) (p : Action Shell α) :
    Follows allowed (telling e p) p :=
  (erases_noted _ p).follows

theorem Follows.lift_bind {p' : Action (Shell × TaskLog) α} {p : Action Shell α}
    {f' : α → Action (Shell × TaskLog) (Except ε β)} {f : α → ExceptT ε (Action Shell) β}
    (hp : Follows allowed p' p) (hf : ∀ a, Follows allowed (f' a) (f a).run) :
    Follows allowed (p' >>= f') ((liftM p : ExceptT ε (Action Shell) α) >>= f).run := by
  rw [run_lift_bind]
  exact hp.bind hf

end Follows

/-! ## The start -/

def withdraw (id : SessionId) : Checked Unit := do
  discard (leaveRegistry id)
  dispose id
  throw threadRefused

def startThreadTold (id : SessionId) : Action (Shell × TaskLog) Bool :=
  noted (fun s started log => if started then log ++ [launched s.threads.size] else log)
    (startThread id)

def enterTold (id : SessionId) (takesFocus : Bool) :
    Action (Shell × TaskLog) (Except ShellError Unit) := do
  watched id false (enterRegistry id)
  watched id false (if takesFocus then takeFocus id else drainFocus id)
  watched id false consolePlace.start
  if ← startThreadTold id then return .ok ()
  else watched id false (withdraw id).run

def startTold (id : SessionId) (n : Nat) (query : String) (takesFocus : Bool) :
    Action (Shell × TaskLog) (Except ShellError Unit) := do
  match ← watched id false (ensureLive id).run with
  | .error e => return .error e
  | .ok () =>
    match ← watched id false (languageFor query) with
    | none => return .error (.unknownLanguage query)
    | some language =>
      match ← telling (fun r => if r.isOk then [claimed n] else [])
        (setLanguage id language).run with
      | .error e => return .error e
      | .ok () =>
        telling (fun _ => [booting language]) (pushBoot id language)
        enterTold id takesFocus

theorem follows_startTold (id : SessionId) (n : Nat) (query : String) (takesFocus : Bool) :
    Follows (fun _ _ _ => True) (startTold id n query takesFocus)
      (startWith id query takesFocus).run := by
  have hthread : Follows (fun _ _ _ => True)
      (do if ← startThreadTold id then return .ok () else watched id false (withdraw id).run)
      (do
        let started ← startThread id
        unless started do
          discard (leaveRegistry id)
          dispose id
          throw threadRefused : Checked Unit).run := by
    refine Follows.lift_bind (erases_noted _ _).follows fun started => ?_
    cases started with
    | true => exact .done _
    | false => exact follows_watched id false (withdraw id).run
  refine Follows.bind (follows_watched _ _ _) fun r => ?_
  cases r with
  | error e => exact .done _
  | ok u =>
    refine Follows.lift_bind (follows_watched _ _ _) fun language? => ?_
    cases language? with
    | none => exact .done _
    | some language =>
      refine Follows.bind (follows_telling _ _) fun r => ?_
      cases r with
      | error e => exact .done _
      | ok u =>
        refine Follows.lift_bind (follows_telling _ _) fun _ =>
          Follows.lift_bind (follows_watched _ _ _) fun _ => ?_
        cases takesFocus with
        | true =>
          exact Follows.lift_bind (follows_watched _ _ _) fun _ =>
            Follows.lift_bind (follows_watched _ _ _) fun _ => hthread
        | false =>
          exact Follows.lift_bind (follows_watched _ _ _) fun _ =>
            Follows.lift_bind (follows_watched _ _ _) fun _ => hthread

/-! ## Tasks -/

def bootTold (id : SessionId) (language : Language) : Action (Shell × TaskLog) Unit := do
  let name := (← watched id true (getSession id)).name
  let interpreter := (Interpreter.ofKind language.kind).bindHost name id
  let script? ← watched id true (Action.read fun s => s.preload.scriptFor? language.name)
  let interpreter ← watched id true (match script? with
    | some path => preloadWith path interpreter
    | none => pure interpreter)
  tell preloaded
  let interactive ← telling (fun _ => [installed]) (install id interpreter)
  watched id true do
    let endIsFinal ← Action.read (·.console.endIsFinal)
    if interactive && !endIsFinal then sayLine id (greeting name language)

def performTold (id : SessionId) : Task → Action (Shell × TaskLog) (Except Fault (Option String))
  | .boot language => do
    bootTold id language
    return .ok none
  | task => watched id true (perform id task).run

def excuse (id : SessionId) (fault : Fault) : Action Shell (Option α) := do
  if ← isLive id then reportError fault
  return none

def guardedTold (id : SessionId) (task : Task) :
    Action (Shell × TaskLog) (Option (Option String)) := do
  match ← (performTold id task).attempt with
  | some (.ok result) => return some result
  | some (.error fault) => watched id true (excuse id fault)
  | none => watched id true (excuse id (.plain "internal error: task panicked"))

def runTaskTold (id : SessionId) (task : Task) : Action (Shell × TaskLog) Unit := do
  let result ← guardedTold id task
  watched id true (sayResult id result)
  tell (.finished task)

theorem follows_bootTold (id : SessionId) (language : Language) :
    Follows (fun _ _ _ => True) (bootTold id language) (boot id language) := by
  refine Follows.bind (follows_watched _ _ _) fun session =>
    Follows.bind (follows_watched _ _ _) fun script? => ?_
  have hrest : ∀ interpreter, Follows (fun _ _ _ => True)
      (do
        tell preloaded
        let interactive ← telling (fun _ => [installed]) (install id interpreter)
        watched id true do
          let endIsFinal ← Action.read (·.console.endIsFinal)
          if interactive && !endIsFinal then sayLine id (greeting session.name language))
      (do
        let interactive ← install id interpreter
        let endIsFinal ← Action.read (·.console.endIsFinal)
        if interactive && !endIsFinal then sayLine id (greeting session.name language)) :=
    fun interpreter => .note (Follows.bind (follows_telling _ _) fun _ => follows_watched _ _ _)
  cases script? with
  | some path => exact Follows.bind (follows_watched _ _ _) hrest
  | none => exact hrest _

theorem follows_performTold (id : SessionId) (task : Task) :
    Follows (fun _ _ _ => True) (performTold id task) (perform id task).run := by
  cases task with
  | boot language => exact Follows.lift_bind (follows_bootTold id language) fun _ => .done _
  | runHook | script => exact follows_watched _ _ _

theorem Follows.tell_last {p' : Action (Shell × TaskLog) Unit} {p : Action Shell Unit}
    (h : Follows (fun _ _ _ => True) p' p) (e : TaskEvent) :
    Follows (fun _ _ _ => True) (p' >>= fun _ => tell e) p := by
  have htell : Follows (fun _ _ _ => True) (tell e >>= fun _ => pure ())
      (pure () : Action Shell Unit) :=
    .note (.done ())
  have hp : p >>= (fun _ => pure ()) = p := bind_pure p
  rw [← hp]
  exact Follows.bind h fun _ => htell

theorem follows_runTaskTold (id : SessionId) (task : Task) :
    Follows (fun _ _ _ => True) (runTaskTold id task) (runTask id task) := by
  have hguarded : Follows (fun _ _ _ => True) (guardedTold id task)
      (guarded id (perform id task)) := by
    refine Follows.bind (follows_performTold id task).attempt fun result? => ?_
    match result? with
    | some (.ok result) => exact .done _
    | some (.error fault) => exact follows_watched _ _ _
    | none => exact follows_watched _ _ _
  exact Follows.bind hguarded fun result => Follows.tell_last (follows_watched _ _ _) _

/-! ## The loop -/

def advanceTold (id : SessionId) : Phase → Action (Shell × TaskLog) (Option Phase)
  | .idle => do
    if ← watched id true (isLive id) then
      match ← telling (fun task? => [task?.elim drained took]) (takeTask id) with
      | some task =>
        runTaskTold id task
        return some .idle
      | none =>
        if ← watched id true (isLive id) then
          let main ← telling (fun _ => [turned]) (takeMain id)
          return some (← watched id true (turn id main))
        else return none
    else return none
  | phase => watched id true (advance id phase)

theorem follows_advanceTold (id : SessionId) (phase : Phase) :
    Follows (fun _ _ _ => True) (advanceTold id phase) (advance id phase) := by
  cases phase with
  | idle =>
    refine Follows.bind (follows_watched _ _ _) fun live => ?_
    cases live with
    | false => exact .done _
    | true =>
      refine Follows.bind (follows_telling _ _) fun task? => ?_
      cases task? with
      | some task => exact Follows.bind (follows_runTaskTold id task) fun _ => .done _
      | none =>
        have hmain : (do return some (← runMain id) : Action Shell (Option Phase)) = (do
            let main ← takeMain id
            return some (← turn id main)) := by
          rw [runMain_eq]
          exact Program.bind_assoc _ _ _
        refine Follows.bind (follows_watched _ _ _) fun still => ?_
        cases still with
        | false => exact .done _
        | true =>
          refine hmain ▸ Follows.bind (follows_telling _ _) fun main => ?_
          exact Follows.bind (follows_watched _ _ _) fun _ => .done _
  | entering | reading | batch | collecting | lingering => exact follows_watched _ _ _

/-! ## All threads -/

def programTold (id : SessionId) : Role → Action (Shell × TaskLog) (Option Role)
  | .session other phase =>
    if other = id then do return (← advanceTold id phase).map (Role.session id)
    else watched id false (program (.session other phase))
  | role => watched id false (program role)

/-- The life of the shell, with the log of one session's tasks. -/
def lifeTold (id : SessionId) : Life (Shell × TaskLog) Role where
  program := programTold id
  takeStarted γ := ((life.takeStarted γ.1).1, ((life.takeStarted γ.1).2, γ.2))
  isOver γ := life.isOver γ.1

theorem follows_programTold (id : SessionId) (role : Role) :
    Follows (fun _ _ _ => True) (programTold id role) (program role) := by
  cases role with
  | stream | compiler => exact follows_watched _ _ _
  | session other phase =>
    by_cases ho : other = id
    · subst ho
      simp only [programTold, if_true]
      exact Follows.bind (follows_advanceTold other phase) fun _ => .done _
    · simp only [programTold, ho, if_false]
      exact follows_watched _ _ _

theorem follows_lifeTold (id : SessionId) : (lifeTold id).Follows life fun _ _ _ => True :=
  ⟨follows_programTold id, fun _ _ => rfl⟩

/-! ## From outside -/

def demandTold (id : SessionId) (n : Nat) : (r : Demand) → Action (Shell × TaskLog) r.Reply
  | .start session query takesFocus =>
    if session = id then startTold id n query takesFocus
    else watched id false (startWith session query takesFocus).run
  | r => watched id false r.run

def visitTold {id : SessionId} (n : Nat) (visit : Visit id) :
    Action (Shell × TaskLog) (Option Role) := do
  return (← visit.expand (demandTold id n)).map Subtype.val

theorem follows_demandTold (id : SessionId) (n : Nat) (r : Demand) :
    Follows (fun _ _ _ => True) (demandTold id n r) r.run := by
  cases r with
  | start session query takesFocus =>
    by_cases hs : session = id
    · subst hs
      simp only [demandTold]
      exact follows_startTold session n query takesFocus
    · simp only [demandTold, hs]
      exact follows_watched _ _ _
  | _ => exact follows_watched _ _ _

theorem follows_visitTold {id : SessionId} (n : Nat) (visit : Visit id) :
    Follows (fun _ _ _ => True) (visitTold n visit) visit.run :=
  Follows.bind (follows_expand visit (follows_demandTold id n)) fun _ => .done _

end TaskLog

end SessionShell
