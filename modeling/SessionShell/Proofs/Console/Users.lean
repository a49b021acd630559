import SessionShell.Proofs.Console.Press
import SessionShell.Proofs.Shell.Hooks
import SessionShell.Shell.Life

/-!
How the threads of a shell use its console.

Whatever sessions, jobs and batches do, they print, ask for lines, start the workers and wait
for both outlets, and the rest of what they do leaves the console alone. So a shell is a
console at work.
-/

namespace SessionShell

open Action PressSite

namespace Shell

def pressSite : PressSite Shell Role where
  place := consolePlace
  life := life
  worker := .stream
  stream?
    | .stream name => some name
    | _ => none

abbrev Uses {α : Type} (p : Action Shell α) : Prop :=
  pressSite.Uses p

variable {id : SessionId} {α β ε : Type}

theorem uses_pure (a : α) : Uses (pure a) :=
  .done a

def pressView (s : Shell) :=
  (s.console.press, s.started)

theorem spares_of_pressView {s s' : Shell} (h : s'.pressView = s.pressView) :
    pressSite.Spares s s' :=
  spares_of_nobody (congrArg Prod.fst h) (congrArg Prod.snd h)

theorem uses_of_keeps {p : Action Shell α} (h : Keeps pressView p) : Uses p :=
  uses_of_within (h.within fun _ _ => spares_of_pressView)

theorem uses_step {f : Shell → α × Shell} (h : ∀ s, (f s).2.pressView = s.pressView) :
    Uses (step f) :=
  uses_of_keeps (keeps_step h)

theorem uses_update {f : Shell → Shell} (h : ∀ s, (f s).pressView = s.pressView) :
    Uses (update f) :=
  uses_step h

theorem uses_updateSession (f : Session → Session) : Uses (updateSession id f) :=
  uses_update fun _ => rfl

theorem uses_await {f : Shell → Option (α × Shell)}
    (h : ∀ s a s', f s = some (a, s') → s'.pressView = s.pressView) : Uses (await f) :=
  uses_of_keeps (keeps_await h)

theorem uses_awaitMap {ω : Type} {find : Shell → Option ω} {f : Shell → ω → α × Shell}
    (h : ∀ s x, (f s x).2.pressView = s.pressView) :
    Uses (await fun s => (find s).map (f s)) := by
  refine uses_await fun s a s' hs => ?_
  obtain ⟨x, -, heq⟩ := Option.map_eq_some_iff.mp hs
  obtain rfl : (f s x).2 = s' := congrArg Prod.snd heq
  exact h s x

theorem uses_read (f : Shell → α) : Uses (read f) :=
  uses_step fun _ => rfl

theorem uses_self : Uses (self : Action Shell ThreadId) :=
  uses_of_within (within_self spares_refl)

theorem uses_tryUpdate (f : Session → Except ShellError Session) : Uses (tryUpdate id f).run :=
  uses_of_within (within_step fun s => by
    split
    · exact spares_of_nobody rfl rfl
    · exact spares_refl s)

/-! ## The calls -/

theorem uses_print (text : String) : Uses (consolePlace.print text) :=
  uses_call (.print .out text : PressCall pressSite) fun _ => trivial

theorem uses_printError (text : String) : Uses (consolePlace.printError text) :=
  uses_call (.print .err text : PressCall pressSite) fun _ => trivial

theorem uses_requestLine (prompt : String) (mailbox : Nat) :
    Uses (consolePlace.requestLine prompt mailbox) :=
  uses_call (.ask ⟨prompt, mailbox⟩ : PressCall pressSite) fun _ => trivial

theorem uses_consoleStart : Uses consolePlace.start := by
  have hstart : ∀ stream, Uses (consolePlace.startStream stream) := fun stream =>
    uses_call (.start stream : PressCall pressSite) (by cases stream <;> exact fun _ => trivial)
  exact (hstart .out).bind fun _ => (hstart .err).bind fun _ => hstart .input

theorem uses_consoleSync : Uses consolePlace.sync :=
  uses_call (.sync : PressCall pressSite) fun _ _ _ _ _ _ => trivial

/-! ## Writing -/

theorem uses_note (event : Event) : Uses (note event) :=
  uses_update fun _ => rfl

theorem uses_currentThread : Uses currentThread :=
  uses_of_keeps keeps_currentThread

theorem uses_isUiThread : Uses isUiThread :=
  uses_self.bind fun _ => uses_read _

theorem uses_ensureLive : Uses (ensureLive id).run :=
  uses_of_keeps keeps_ensureLive

theorem uses_out (text : String) : Uses (out id text).run :=
  Uses.run_bind uses_ensureLive fun _ => Uses.lift (uses_print text)

theorem uses_sayLine (text : String) : Uses (sayLine id text) :=
  (uses_out _).discard

theorem uses_reportError (fault : Fault) : Uses (reportError fault) :=
  (uses_read _).bind fun _ => uses_printError _

theorem uses_warning (message : String) : Uses (warning message) :=
  (uses_read _).bind fun _ => uses_printError _

theorem uses_sayResult (result : Option (Option String)) : Uses (sayResult id result) := by
  unfold sayResult
  split
  · exact uses_sayLine _
  · exact uses_pure _

theorem uses_guarded {act : ExceptT Fault (Action Shell) α} (h : Uses act.run) :
    Uses (guarded id act) := by
  have hreport : ∀ fault, Uses (do
      if ← isLive id then reportError fault
      return none : Action Shell (Option α)) := fun fault => by
    refine (uses_read _).bind fun live => ?_
    split
    · exact (uses_reportError fault).bind fun _ => uses_pure _
    · exact uses_pure _
  refine h.attempt.bind fun result? => ?_
  match result? with
  | some (.ok a) => exact uses_pure _
  | some (.error fault) => exact hreport fault
  | none => exact hreport _

/-! ## Focus -/

theorem uses_acquire : Uses (acquire id) :=
  (uses_step fun _ => rfl).bind fun _ =>
    uses_awaitMap fun _ _ => rfl

theorem uses_release : Uses (release id) :=
  uses_updateSession _

theorem uses_setCurrent (current : Bool) : Uses (setCurrent id current) :=
  uses_updateSession _

theorem uses_grantFocus : Uses (grantFocus id) :=
  (uses_setCurrent true).bind fun _ => uses_release

theorem uses_takeFocus : Uses (takeFocus id) := by
  refine (uses_read _).bind fun previous? => ?_
  cases previous? with
  | none => exact uses_setCurrent true
  | some previous =>
    dsimp only
    split
    · exact uses_acquire.bind fun _ => (uses_setCurrent false).bind fun _ => uses_setCurrent true
    · exact uses_setCurrent true

theorem uses_renderPrompt (goesOn : Bool) : Uses (renderPrompt id goesOn) :=
  (uses_read _).bind fun _ => uses_step fun _ => rfl

theorem uses_askLine (text : String) : Uses (askLine id text).run := by
  have hbegin : Uses (beginAsking id) := uses_await fun s _ s' hs => by
    split at hs
    · cases hs
    · cases hs
      exact rfl
  have hreply : ∀ mailbox, Uses (consolePlace.awaitReply mailbox) := fun mailbox =>
    uses_await fun s _ s' hs => by
      split at hs
      · next outcome c heq =>
        cases hs
        obtain rfl : (s.console.takeReply mailbox).2 = c := congrArg Prod.snd heq
        exact rfl
      · cases hs
  exact Uses.run_bind uses_ensureLive fun _ => Uses.lift_bind hbegin fun _ =>
    Uses.lift_bind (uses_read _) fun session =>
    Uses.lift_bind (uses_update fun _ => rfl) fun _ =>
    Uses.lift_bind (uses_requestLine _ _) fun _ =>
    Uses.lift_bind (hreply _) fun _ =>
    Uses.lift_bind (uses_updateSession _) fun _ => uses_pure _

theorem uses_prompt (text : String) : Uses (prompt id text).run := by
  refine Uses.run_bind uses_ensureLive fun _ =>
    Uses.lift_bind uses_acquire fun _ =>
    Uses.lift_bind (uses_askLine text) fun outcome =>
    Uses.lift_bind uses_release fun _ => ?_
  cases outcome <;> exact uses_pure _

theorem uses_jumpTo (index : Nat) : Uses (jumpTo id index).run := by
  refine Uses.run_bind uses_ensureLive fun _ =>
    Uses.lift_bind uses_acquire fun _ =>
    Uses.lift_bind (uses_read _) fun target? => ?_
  cases target? with
  | none =>
    exact Uses.lift_bind uses_grantFocus fun _ =>
      Uses.lift_bind (uses_read _) fun _ => uses_pure _
  | some target =>
    refine Uses.lift_bind (uses_read _) fun other => ?_
    split
    · exact Uses.lift_bind uses_grantFocus fun _ => uses_pure _
    · split
      · exact Uses.lift uses_grantFocus
      · exact Uses.lift_bind (uses_setCurrent false) fun _ =>
          Uses.lift uses_grantFocus

/-! ## Hooks -/

theorem uses_modifyChannel (channel : Nat) (f : Channel → Channel) :
    Uses (update (modifyChannel channel f)) :=
  uses_update fun _ => rfl

theorem keeps_schedule_pressView (task : Task) : Keeps pressView (schedule id task).run :=
  Keeps.run_bind keeps_ensureLive fun _ => Keeps.lift (keeps_update fun _ => rfl)

theorem uses_runHook (code : Int) (hook : ExitHook) : Uses (runHook code hook) :=
  uses_of_keeps ((holdsOfHookSteps_keeps (fun _ _ _ => keeps_update fun _ => rfl) (fun _ _ => rfl)
    (fun _ _ => rfl) fun _ => keeps_schedule_pressView).runHook code hook)

theorem uses_dropHook? (hook? : Option ExitHook) : Uses (dropHook? hook?) :=
  uses_of_keeps (keeps_dropHook? (fun _ _ _ => rfl) hook?)

theorem uses_setExitHook (hook : ExitHook) : Uses (setExitHook id hook).run := by
  refine Uses.bind (uses_tryUpdate _) fun result => ?_
  cases result with
  | ok => exact uses_pure _
  | error e => exact Uses.lift_bind (uses_dropHook? (some hook)) fun _ => uses_pure _

/-! ## Ends of sessions -/

theorem uses_dispose : Uses (dispose id) := by
  have hmark : Uses (markDisposed id) := uses_step fun s => by
    dsimp only
    cases (s.session id).compiling <;> rfl
  have hjobs : Uses (cancelJobs id) := uses_of_keeps (keeps_cancelJobs fun _ _ => rfl)
  have htasks : Uses (dropTasks id) := uses_of_keeps (keeps_dropTasks fun _ _ _ => rfl)
  exact hmark.bind fun hook? => (uses_dropHook? hook?).bind fun _ => hjobs.bind fun _ =>
    htasks.bind fun _ => (uses_setCurrent false).bind fun _ => uses_release

def stop (code : Int) : Action Shell Unit := do
  if ← Action.read (·.endsProcess) then
    Action.update fun s => { s with ended := some code }
    Action.halt
  else note (.ended code)

theorem within_stop (code : Int) : Within pressSite.Spares (stop code) := by
  refine (within_read spares_refl _).bind fun endsProcess => ?_
  cases endsProcess with
  | true =>
    exact (within_update fun _ => spares_of_nobody rfl rfl).bind fun _ => within_halt
  | false => exact within_update fun _ => spares_of_nobody rfl rfl

theorem uses_terminate (code : Int) : Uses (terminate code) :=
  uses_consoleSync.bind fun _ => uses_of_within (within_stop code)

theorem uses_leaveRegistry : Uses (leaveRegistry id) :=
  uses_step fun _ => rfl

theorem uses_handOn (index remaining : Nat) : Uses (handOn index remaining) := by
  refine (uses_read _).bind fun target? => ?_
  cases target? with
  | none => exact uses_pure _
  | some target => exact uses_grantFocus

theorem uses_leave (code : Int) (hook? : Option ExitHook) (handsOn : Bool) :
    Uses (leave id code hook? handsOn) := by
  have hrest : Uses (leave id code none handsOn) := by
    refine (uses_step fun _ => rfl).bind fun wasCurrent =>
      uses_leaveRegistry.bind fun removal => ?_
    cases removal with
    | last => exact uses_pure _
    | absent => exact uses_pure _
    | removed index remaining =>
      dsimp only
      split
      · exact (uses_handOn index remaining).bind fun _ => uses_pure _
      · exact uses_pure _
  cases hook? with
  | none => exact hrest
  | some hook => exact (uses_runHook code hook).attempt.discard.bind fun _ => hrest

theorem uses_finish (code : Int) (removes handsOn : Bool) :
    Uses (finish id code removes handsOn).run := by
  have hrecord : Uses (recordCode id code).run := uses_of_within (within_step fun s => by
    dsimp only
    split
    · exact spares_refl s
    · exact spares_of_nobody rfl rfl)
  refine Uses.run_bind hrecord fun hook? => ?_
  cases removes with
  | true =>
    refine Uses.lift_bind (uses_leave code hook? handsOn) fun wasLast =>
      Uses.lift_bind uses_dispose fun _ => ?_
    cases wasLast with
    | true => exact Uses.lift (uses_terminate code)
    | false => exact uses_pure _
  | false =>
    exact Uses.lift_bind uses_dispose fun _ =>
      Uses.lift (uses_dropHook? hook?)

theorem uses_exitWith (code : ReservedCode) : Uses (exitWith id code).run :=
  uses_finish _ true true

theorem uses_exit (code : Int) : Uses (exit id code).run := by
  refine Uses.run_bind uses_ensureLive fun _ => ?_
  cases ExitCode.remapWarning? code with
  | none => exact uses_finish _ true true
  | some message =>
    exact Uses.lift_bind (uses_warning message) fun _ => uses_finish _ true true

theorem uses_killAll (code? : Option Int) : Uses (killAll id code?).run := by
  refine Uses.run_bind uses_ensureLive fun _ =>
    Uses.lift_bind (uses_read _) fun others =>
    Uses.run_bind ?_ fun _ => uses_finish _ true true
  induction others with
  | nil => exact uses_pure _
  | cons victim others ih =>
    refine Uses.run_bind (Uses.bind (Uses.lift
      (uses_finish _ true false)) fun result => ?_) fun _ => ih
    cases result <;> exact uses_pure _

theorem uses_awaitExit (target : SessionId) (extra : ExitHook) :
    Uses (awaitExit target extra).run := by
  refine Uses.lift_bind uses_self fun me =>
    Uses.lift_bind (uses_read _) fun session => ?_
  split
  · exact uses_pure _
  · refine Uses.lift_bind uses_isUiThread fun ui => ?_
    split
    · exact uses_pure _
    · refine Uses.lift_bind (uses_step fun _ => rfl) fun latch =>
        Uses.lift_bind (uses_setExitHook _) fun result => ?_
      have hlatch : Uses (awaitLatch latch) := uses_await fun s _ s' hs => by
        split at hs
        · cases hs
          exact rfl
        · cases hs
      split
      · exact Uses.lift_bind hlatch fun _ => Uses.lift (uses_read _)
      · exact Uses.lift (uses_read _)
      · exact uses_pure _

/-! ## Starts of sessions -/

theorem uses_startThread : Uses (startThread id) :=
  uses_of_within (within_step fun s => by
    split
    · exact spares_refl s
    · refine ⟨rfl, [(s.threads.size, .session id .entering)], rfl, fun joined hin => ?_⟩
      cases List.mem_singleton.mp hin
      rfl)

theorem uses_startWith (query : String) (takesFocus : Bool) :
    Uses (startWith id query takesFocus).run := by
  refine Uses.run_bind uses_ensureLive fun _ =>
    Uses.lift_bind (uses_read _) fun language? => ?_
  cases language? with
  | none => exact uses_pure _
  | some language =>
    refine Uses.run_bind (uses_tryUpdate _) fun _ =>
      Uses.lift_bind (uses_updateSession _) fun _ =>
      Uses.lift_bind (uses_update fun _ => rfl) fun _ => ?_
    have hrest : Uses (do
        consolePlace.start
        let started ← startThread id
        unless started do
          discard (leaveRegistry id)
          dispose id
          throw threadRefused : Checked Unit).run := by
      refine Uses.lift_bind uses_consoleStart fun _ =>
        Uses.lift_bind uses_startThread fun started => ?_
      cases started with
      | true => exact uses_pure _
      | false =>
        refine Uses.run_bind (Uses.bind
          (Uses.lift uses_leaveRegistry) fun r => ?_) fun _ =>
          Uses.lift_bind uses_dispose fun _ => uses_pure _
        cases r <;> exact uses_pure _
    cases takesFocus with
    | true => exact Uses.lift_bind uses_takeFocus fun _ => hrest
    | false => exact Uses.lift_bind (uses_updateSession _) fun _ => hrest

theorem uses_forkWith (options : ForkOptions) (main : MainTask) :
    Uses (forkWith id options main).run := by
  refine Uses.lift_bind (uses_read _) fun language =>
    Uses.lift_bind (uses_read _) fun parent =>
    Uses.lift_bind (uses_step fun _ => rfl) fun child =>
    Uses.run_bind (uses_tryUpdate _) fun _ => ?_
  cases childHook id options
  case' some hook => refine Uses.run_bind (uses_setExitHook hook) fun _ => ?_
  -- with a hook or without one, the child is started and disposed of if that fails
  all_goals
    refine Uses.lift_bind (uses_startWith language false) fun result => ?_
    cases result with
    | ok => exact uses_pure _
    | error e => exact Uses.lift_bind uses_dispose fun _ => uses_pure _

theorem uses_fork (options : ForkOptions) : Uses (fork id options).run := by
  refine Uses.lift_bind (uses_read _) fun session => ?_
  cases session.disposed with
  | true => exact Uses.lift_bind (uses_dropHook? _) fun _ => uses_pure _
  | false =>
    have hmain : Uses (childMain options) := by
      unfold childMain
      split
      · exact uses_pure _
      · refine (uses_read _).bind fun file? => ?_
        cases file? <;> exact uses_pure _
    refine Uses.lift_bind hmain fun main? => ?_
    cases main? with
    | some main => exact Uses.run_bind (uses_forkWith options main) fun _ => uses_pure _
    | none =>
      refine Uses.lift_bind (uses_reportError _) fun _ => ?_
      cases options.hook with
      | none => exact uses_pure _
      | some hook => exact Uses.lift_bind (uses_runHook _ hook) fun _ => uses_pure _

/-! ## Jobs -/

theorem pressView_ring {alarm : Alarm} {s s' : Shell} (h : worldPlace.ring? alarm s = some s') :
    s'.pressView = s.pressView := by
  obtain rfl := WorldAt.eq_of_ring? h
  rfl

theorem uses_setAlarm (ms : Nat) (polls : Bool) : Uses (worldPlace.setAlarm ms polls) :=
  uses_self.bind fun _ => uses_step fun _ => rfl

theorem uses_sleep (ms : Nat) : Uses (worldPlace.sleep ms) := by
  refine (uses_setAlarm ms false).bind fun alarm => uses_await fun s _ s' hs => ?_
  obtain ⟨s₁, hring, heq⟩ := Option.map_eq_some_iff.mp hs
  cases heq
  exact pressView_ring hring

theorem uses_hear (job : JobId) (event : JobEvent) : Uses (hear job event) := by
  have hend : ∀ (listener : SessionListener) (code : ReservedCode), Uses (endWith listener code) :=
    fun listener code => by
      unfold endWith
      split
      · exact (uses_exitWith code).discard
      · exact uses_pure _
  have hreport : ∀ (listener : SessionListener) (fault : Fault),
      Uses (reportIfLive listener fault) := fun listener fault => by
    refine (uses_read _).bind fun live => ?_
    split
    · exact uses_reportError fault
    · exact uses_pure _
  cases event with
  | status batch =>
    have hsay : ∀ (session : SessionId) (ps : List Progress),
        Uses (ps.forM fun p => sayLine session p.text) := fun session ps => by
      induction ps with
      | nil => exact uses_pure _
      | cons p ps ih => exact (uses_sayLine _).bind fun _ => ih
    have hrest : ∀ (listener : SessionListener) (last : Action Shell Unit), Uses last → Uses (do
        let settings ← getSettings
        let live ← isLive listener.session
        if live then do
          (batch.filter (isShown settings)).forM fun p => sayLine listener.session p.text
          last
        else last) := fun listener last hlast => by
      refine (uses_read _).bind fun settings => (uses_read _).bind fun live => ?_
      split
      · exact (hsay _ _).bind fun _ => hlast
      · exact hlast
    refine (uses_read _).bind fun listener => ?_
    simp only [hearStatus]
    split <;> split
    · exact (uses_note _).bind fun _ => hrest listener _ (hend _ _)
    · exact (uses_note _).bind fun _ => hrest listener _ (uses_pure _)
    · exact hrest listener _ (hend _ _)
    · exact hrest listener _ (uses_pure _)
  | fail fault =>
    exact Uses.bind (uses_update fun _ => rfl) fun _ =>
      (uses_read _).bind fun listener => hreport listener fault
  | abort fault =>
    exact (uses_read _).bind fun listener => (hreport listener fault).bind fun _ => hend listener _
  | succeed => exact (uses_read _).bind fun listener => hend listener _

theorem uses_poolModify (f : Pool SessionListener → Pool SessionListener) :
    Uses (poolPlace.modify f) :=
  uses_update fun _ => rfl

theorem uses_poolStart : Uses poolPlace.start := by
  have hlaunched : ∀ (counts : List Nat) (s : Shell),
      pressSite.Spares s (counts.foldl (fun s _ => poolPlace.launch s) s) := fun counts s => by
    induction counts generalizing s with
    | nil => exact spares_refl s
    | cons count counts ih =>
      obtain ⟨hpress, news, hnews, hroles⟩ := ih (poolPlace.launch s)
      refine ⟨hpress, (s.threads.size, .compiler) :: news, ?_, fun joined hin => ?_⟩
      · refine hnews.trans ?_
        change (s.started ++ [(s.threads.size, .compiler)]) ++ news = _
        simp [Life.pending, pressSite, life]
      · rcases List.mem_cons.mp hin with rfl | hin
        · rfl
        · exact hroles joined hin
  refine uses_of_within (within_update fun s => ?_)
  dsimp only
  split
  · exact spares_refl s
  · exact hlaunched _ { s with pool := { s.pool with started := true } }

theorem uses_poolAnswerWork (job : JobId) (call : WorkCall) :
    Uses (poolPlace.answerWork job call) := by
  cases call with
  | isCancelled => exact uses_read _
  | cancel => exact uses_poolModify (·.cancel job)
  | sleep ms => exact uses_sleep ms
  | gate name =>
    refine uses_await fun s _ s' hs => ?_
    split at hs
    · cases hs
      exact rfl
    · cases hs
  | file call => exact uses_step fun _ => rfl

theorem uses_poolRun (job : JobId) : Uses (poolPlace.run job) := by
  refine (uses_read _).bind fun record? => ?_
  cases record? with
  | none => exact uses_pure _
  | some record =>
    refine (uses_expand _ fun c => ?_).bind fun _ =>
      (uses_poolModify _).bind fun _ => uses_pure _
    cases c with
    | now => exact uses_read _
    | work call => exact uses_poolAnswerWork job call
    | notify event => exact uses_hear job event

theorem uses_poolWork : Uses poolPlace.work :=
  (uses_awaitMap fun _ _ => rfl).bind fun job =>
    (uses_poolRun job).attempt.bind fun _ => uses_poolModify _

theorem uses_compile (source output target : String) (options : TargetOptions) :
    Uses (compile id source output target options).run := by
  refine Uses.lift_bind (uses_read _) fun session => ?_
  cases session.disposed with
  | true => exact uses_pure _
  | false =>
    cases CompileTarget.ofName? target with
    | none => exact uses_pure _
    | some target =>
      exact Uses.lift_bind (uses_step fun _ => rfl) fun job =>
        Uses.lift_bind (uses_poolStart.bind fun _ => uses_poolModify _) fun _ =>
        Uses.lift (uses_step fun _ => rfl)

theorem uses_jobAt (index : Nat) : Uses (jobAt id index).run := by
  refine Uses.run_bind uses_ensureLive fun _ =>
    Uses.lift_bind (uses_read _) fun session => ?_
  cases session.jobs[index]? <;> exact uses_pure _

theorem uses_cancelAt (index : Nat) : Uses (cancelAt id index).run :=
  Uses.run_bind (uses_jobAt index) fun _ =>
    Uses.lift (uses_update fun _ => rfl)

theorem uses_join (index : Nat) : Uses (join id index).run := by
  refine Uses.run_bind (uses_jobAt index) fun job =>
    Uses.lift_bind (uses_read _) fun finished =>
    Uses.lift_bind uses_isUiThread fun ui => ?_
  split
  · exact Uses.lift_bind (uses_read _) fun _ => uses_pure _
  · exact Uses.lift_bind (uses_awaitMap fun _ _ => rfl) fun _ =>
      uses_pure _

/-! ## Evaluation -/

theorem uses_asFault {p : Checked α} (h : Uses p.run) : Uses (asFault p) :=
  h.bind fun result => by cases result <;> exact uses_pure _

theorem uses_link (path : String) : Uses (link id path) := by
  refine uses_ensureLive.bind fun r => ?_
  cases r with
  | error e => exact (uses_reportError _).bind fun _ => uses_pure _
  | ok u =>
    refine Uses.bind (uses_step fun s => ?_) fun result => ?_
    · split <;> rfl
    · cases result with
      | none => exact uses_pure _
      | some e =>
        cases e with
        | alreadyLinked => exact (uses_warning _).bind fun _ => uses_pure _
        | _ => exact (uses_reportError _).bind fun _ => uses_pure _

theorem uses_waitAt (index : Nat) : Uses (waitAt index).run := by
  refine Uses.lift_bind (uses_read _) fun target? => ?_
  cases target? with
  | none => exact Uses.lift_bind (uses_read _) fun _ => uses_pure _
  | some target => exact uses_awaitExit target .nothing

theorem uses_forkScript (script : String) : Uses (forkScript id script).run := by
  refine Uses.run_bind (uses_fork _) fun child? => ?_
  cases child? with
  | some child => exact Uses.lift (uses_read _)
  | none => exact uses_pure _

theorem uses_answerHost (r : HostRequest SessionId) : Uses (answerHost r) := by
  obtain ⟨id, call⟩ := r
  cases call with
  | name => exact (uses_read _).bind fun _ => uses_pure _
  | out text => exact uses_asFault (uses_out text)
  | exit code => exact uses_asFault (uses_exit code)
  | jump index => exact uses_asFault (uses_jumpTo index)
  | fork script => exact uses_asFault (uses_forkScript script)
  | link path => exact (uses_link path).bind fun _ => uses_pure _
  | kill code? => exact uses_asFault (uses_killAll code?)
  | list => exact (uses_read _).bind fun _ => uses_pure _
  | wait index => exact uses_asFault (uses_waitAt index)
  | compile source output => exact uses_compile source output _ []
  | cancel index => exact uses_asFault (uses_cancelAt index)
  | join index => exact uses_asFault (uses_join index)
  | jobs => exact (uses_read _).bind fun _ => uses_pure _

theorem uses_evalWith (interpreter : SessionInterpreter) (text : String) (source : Option String) :
    Uses (evalWith interpreter text source) :=
  (uses_expand _ uses_answerHost).attempt.bind fun result? => by
    cases result? <;> exact uses_pure _

theorem uses_claimInterpreter : Uses (claimInterpreter id).run := by
  have hcheck : Uses (checkOwner id).run := by
    refine Uses.lift_bind uses_self fun me =>
      Uses.lift_bind (uses_read _) fun session => ?_
    cases session.owner with
    | none => exact uses_pure _
    | some owner =>
      dsimp only
      split <;> exact uses_pure _
  refine Uses.run_bind hcheck fun _ =>
    Uses.lift_bind (uses_step fun _ => rfl) fun i? => ?_
  cases i? with
  | some interpreter => exact uses_pure _
  | none =>
    exact Uses.run_bind uses_ensureLive fun _ =>
      Uses.lift_bind (uses_read _) fun _ => uses_pure _

theorem uses_evaluate (text : String) (source : Option String) :
    Uses (evaluate id text source).run := by
  refine Uses.bind (uses_asFault uses_claimInterpreter) fun result => ?_
  cases result with
  | error fault => exact uses_pure _
  | ok interpreter =>
    exact (uses_evalWith interpreter text source).bind fun _ =>
      (uses_updateSession _).bind fun _ => uses_pure _

theorem uses_preloadWith (path : String) (interpreter : SessionInterpreter) :
    Uses (preloadWith path interpreter) := by
  refine (uses_read _).bind fun text => ?_
  cases text with
  | error e => exact (uses_reportError _).bind fun _ => uses_pure _
  | ok text =>
    refine (uses_evalWith interpreter text _).bind fun (result, interpreter) => ?_
    cases result with
    | error fault => exact (uses_reportError _).bind fun _ => uses_pure _
    | ok _ => exact uses_pure _

theorem uses_boot (language : Language) : Uses (boot id language) := by
  have hinstall : ∀ name interpreter, Uses (do
      let interactive ← install id interpreter
      let endIsFinal ← Action.read (·.console.endIsFinal)
      if interactive && !endIsFinal then sayLine id (greeting name language)) :=
    fun name interpreter => by
      refine (uses_of_within (within_step fun s => ?_)).bind fun interactive =>
        (uses_read _).bind fun endIsFinal => ?_
      · dsimp only
        split
        · exact spares_refl s
        · exact spares_of_nobody rfl rfl
      · split
        · exact uses_sayLine _
        · exact uses_pure _
  refine (uses_read _).bind fun session => (uses_read _).bind fun script? => ?_
  cases script? with
  | some path => exact (uses_preloadWith path _).bind (hinstall _)
  | none => exact hinstall _ _

/-! ## Tasks -/

theorem uses_runScript (t : TaskScript) : Uses (runScript id t).run := by
  have hresult : Uses (runScript id { t with note := none, exit := none }).run := by
    unfold runScript
    cases t.eval with
    | some text => exact uses_evaluate text none
    | none =>
      cases t.fail with
      | some fault => exact uses_pure _
      | none =>
        cases t.crashes with
        | true => exact .crash
        | false => exact uses_pure _
  have hexit : Uses (runScript id { t with note := none }).run := by
    unfold runScript
    cases t.exit with
    | some code =>
      exact Uses.run_bind (uses_asFault (uses_exit code)) fun _ => hresult
    | none => exact hresult
  unfold runScript
  cases t.note with
  | some tag =>
    exact Uses.lift_bind uses_currentThread fun _ =>
      Uses.lift_bind (uses_note _) fun _ => hexit
  | none => exact hexit

theorem uses_perform (task : Task) : Uses (perform id task).run := by
  cases task with
  | boot language => exact Uses.lift_bind (uses_boot language) fun _ => uses_pure _
  | runHook hook code => exact Uses.lift_bind (uses_runHook code hook) fun _ => uses_pure _
  | script t => exact uses_runScript t

theorem uses_runTask (task : Task) : Uses (runTask id task) :=
  (uses_guarded (uses_perform task)).bind fun result => uses_sayResult result

/-! ## Statements and scripts -/

theorem uses_rest : Uses (rest id) :=
  (uses_updateSession _).bind fun _ => uses_pure _

theorem uses_onEndOfInput : Uses (onEndOfInput id) := by
  have hlast : ∀ handedOn : Bool, Uses (do
      unless handedOn do discard (exitWith id .noInput).run) := fun handedOn => by
    cases handedOn with
    | true => exact uses_pure _
    | false => exact (uses_exitWith _).discard
  refine (uses_read _).bind fun count => (uses_read _).bind fun endIsFinal => ?_
  split
  · refine (uses_read _).bind fun index? => ?_
    cases index? with
    | none => exact hlast false
    | some index =>
      refine (uses_jumpTo _).bind fun result => ?_
      cases result with
      | ok => exact hlast true
      | error => exact hlast false
  · exact hlast false

theorem uses_evaluateStatement (statement : String) : Uses (evaluateStatement id statement) := by
  unfold evaluateStatement
  split
  · exact uses_pure _
  · exact (uses_guarded (uses_evaluate statement none)).bind fun result => uses_sayResult result

theorem uses_readStatement (before : Option String) : Uses (readStatement id before) := by
  refine (uses_renderPrompt _).bind fun text => (uses_prompt text).bind fun outcome => ?_
  match outcome with
  | .error e =>
    refine (uses_read _).bind fun live => ?_
    split
    · exact (uses_reportError _).bind fun _ => uses_rest
    · exact uses_rest
  | .ok .endOfInput =>
    cases before with
    | none => exact uses_onEndOfInput.bind fun _ => uses_rest
    | some statement => exact (uses_evaluateStatement statement).bind fun _ => uses_rest
  | .ok (.line line) =>
    refine (uses_read _).bind fun settings => ?_
    split
    · exact uses_pure _
    · exact (uses_evaluateStatement _).bind fun _ => uses_rest

theorem uses_afterScript (after : AfterScript) : Uses (afterScript id after) := by
  cases after with
  | exit => exact (uses_exitWith _).discard
  | interactive =>
    refine (uses_read _).bind fun count => (uses_read _).bind fun session => ?_
    split
    · refine (uses_read _).bind fun index? => ?_
      cases index? with
      | none => exact uses_pure _
      | some index => exact (uses_jumpTo _).discard
    · exact uses_pure _

theorem uses_runScriptMain (source : ScriptSource) (name : String) (after : AfterScript) :
    Uses (runScriptMain id source name after) := by
  have hinterpret : Uses (interpret id source name).run := by
    refine Uses.lift_bind (uses_read _) fun text => ?_
    cases text with
    | error e => exact uses_pure _
    | ok text => exact uses_evaluate text (some name)
  refine (uses_guarded hinterpret).bind fun result => (uses_sayResult result).bind fun _ =>
    (uses_read _).bind fun session => ?_
  split
  · exact uses_afterScript after
  · exact uses_pure _

/-! ## Batches -/

theorem uses_receive (channel : Nat) : Uses (receive channel) := by
  refine Uses.bind ((uses_setAlarm _ _).bind fun alarm =>
    uses_await fun s _ s' hs => ?_) fun _ => uses_pure _
  split at hs
  · next x t heq =>
    cases hs
    dsimp only at heq
    cases hcode : takeCode? channel s with
    | some taken =>
      rw [hcode] at heq
      cases heq
      simp only [takeCode?] at hcode
      split at hcode
      · cases hcode
        exact rfl
      · cases hcode
    | none =>
      rw [hcode] at heq
      dsimp only at heq
      split at heq
      · cases heq
        exact rfl
      · cases heq
  · obtain ⟨s₁, hring, heq⟩ := Option.map_eq_some_iff.mp hs
    cases heq
    exact pressView_ring hring

theorem uses_record (run : BatchRun) (label : String) (code : Int) :
    Uses (Shell.record id run label code) := by
  refine (uses_read _).bind fun settings => ?_
  dsimp only
  split
  · exact (uses_sayLine _).bind fun _ => uses_pure _
  · exact uses_pure _

theorem uses_recordAll (run : BatchRun) (codes : List (String × Int)) :
    Uses (recordAll id run codes) := by
  induction codes generalizing run with
  | nil => exact uses_pure _
  | cons code codes ih => exact (uses_record run code.1 code.2).bind fun run => ih run

theorem uses_giveFocus (child : SessionId) : Uses (giveFocus id child) := by
  refine (uses_read _).bind fun session => ?_
  split
  · refine (uses_read _).bind fun index? => ?_
    cases index? with
    | some index => exact (uses_jumpTo index).discard
    | none => exact uses_pure _
  · exact uses_pure _

theorem uses_refocus (run : BatchRun) : Uses (refocus id run) := by
  refine (uses_read _).bind fun session => ?_
  split
  · refine (uses_read _).bind fun child? => ?_
    cases child? with
    | some child => exact uses_giveFocus child.session
    | none => exact uses_pure _
  · exact uses_pure _

theorem uses_startTarget (run : BatchRun) (target : String) : Uses (startTarget id run target) := by
  refine (uses_modifyChannel _ _).bind fun _ => (uses_read _).bind fun isScript =>
    (uses_fork _).bind fun child? => ?_
  match child? with
  | .ok none => exact uses_pure _
  | .ok (some child) =>
    cases isScript with
    | true => exact uses_pure _
    | false => exact (uses_giveFocus child).bind fun _ => uses_pure _
  | .error e => exact (uses_reportError _).bind fun _ => uses_record run target _

theorem uses_nextTarget (run : BatchRun) : Uses (nextTarget id run) := by
  have hlast : Uses (nextTarget.finishTargets run) :=
    (uses_modifyChannel _ _).bind fun _ => uses_pure _
  unfold nextTarget
  split
  · next target targets _ =>
    refine (uses_read _).bind fun live => ?_
    split
    · exact (uses_startTarget _ target).bind fun _ => (uses_read _).bind fun _ => uses_pure _
    · exact hlast
  · exact hlast

theorem uses_collect (run : BatchRun) (last : Bool) : Uses (collect id run last) := by
  unfold collect
  split
  · exact uses_pure _
  · refine (uses_receive _).bind fun received => ?_
    cases received with
    | code label code => exact (uses_record _ label code).bind fun _ => uses_pure _
    | closed => exact uses_pure _
    | nothing =>
      refine (uses_read _).bind fun hostLive => (uses_read _).bind fun anyLive => ?_
      split
      · exact (uses_refocus run).bind fun _ => uses_pure _
      · exact (uses_step fun _ => rfl).bind fun codes =>
          (uses_recordAll run codes).bind fun _ => uses_pure _

theorem uses_linger (run : BatchRun) : Uses (linger id run) := by
  refine (uses_read _).bind fun hostLive => (uses_read _).bind fun anyLive => ?_
  split
  · exact (uses_sleep _).bind fun _ => uses_pure _
  · refine (uses_read _).bind fun live => ?_
    split
    · exact (uses_finish run.code true true).discard.bind fun _ => uses_rest
    · exact uses_rest

/-! ## The loop -/

theorem uses_runMain : Uses (runMain id) := by
  refine Uses.bind (uses_step fun _ => rfl) fun main => ?_
  cases main with
  | interactive => exact uses_readStatement none
  | script source name after =>
    exact (uses_runScriptMain source name after).bind fun _ => uses_rest
  | compile job =>
    exact Uses.bind ((uses_updateSession _).bind fun _ =>
      (uses_poolRun job).discard.bind fun _ => uses_updateSession _) fun _ => uses_rest
  | batch targets => exact (uses_step fun _ => rfl).bind fun _ => uses_pure _

theorem uses_advance (phase : Phase) : Uses (advance id phase) := by
  cases phase with
  | entering => exact uses_self.bind fun me => (uses_updateSession _).bind fun _ => uses_pure _
  | idle =>
    refine (uses_read _).bind fun live => ?_
    cases live with
    | false => exact uses_pure _
    | true =>
      have htake : Uses (takeTask id) := uses_of_within (within_step fun s => by
        split
        · exact spares_refl s
        · exact spares_of_nobody rfl rfl)
      refine htake.bind fun task? => ?_
      cases task? with
      | some task => exact (uses_runTask task).bind fun _ => uses_pure _
      | none =>
        refine (uses_read _).bind fun still => ?_
        cases still with
        | false => exact uses_pure _
        | true => exact uses_runMain.bind fun _ => uses_pure _
  | reading statement => exact (uses_readStatement (some statement)).bind fun _ => uses_pure _
  | batch run => exact (uses_nextTarget run).bind fun _ => uses_pure _
  | collecting run last => exact (uses_collect run last).bind fun _ => uses_pure _
  | lingering run => exact (uses_linger run).bind fun _ => uses_pure _

/-! ## A shell as a console at work -/

abbrev Follower :=
  {role : Role // pressSite.stream? role = none}

theorem exists_errand_of_role (k : Follower) :
    ∃ errand : PressErrand pressSite (Option Follower),
      life.program k.val = (do return (← errand.plain).map Subtype.val) := by
  obtain ⟨role, hrole⟩ := k
  cases role with
  | stream name => cases hrole
  | compiler =>
    have huses :
        Uses (do poolPlace.work; return some ⟨.compiler, rfl⟩ : Action Shell (Option Follower)) :=
      uses_poolWork.bind fun _ => uses_pure _
    obtain ⟨errand, herrand⟩ := huses.exists_errand
    refine ⟨errand, ?_⟩
    rw [herrand]
    simp only [bind_assoc, pure_bind, Option.map_some]
    rfl
  | session id phase =>
    have huses : Uses (do return (← advance id phase).map fun phase => ⟨.session id phase, rfl⟩ :
        Action Shell (Option Follower)) := (uses_advance phase).bind fun _ => uses_pure _
    obtain ⟨errand, herrand⟩ := huses.exists_errand
    refine ⟨errand, ?_⟩
    rw [herrand]
    simp only [bind_assoc, pure_bind, Option.map_map]
    rfl

/-- The workers of the console are those of the shell, and all its other threads use the console by
its calls only. -/
theorem exists_lawful_press : ∃ w : Press Shell Role, w.toPressSite = pressSite ∧ w.Lawful := by
  choose errand herrand using exists_errand_of_role
  refine ⟨{ toPressSite := pressSite, role := errand }, rfl, ?_⟩
  exact
    { get_set := fun _ _ => rfl
      pending_set := fun _ _ => rfl
      get_launch := fun _ _ => rfl
      pending_launch := fun _ s => ⟨s.threads.size, rfl⟩
      get_adopt := fun _ => rfl
      pending_adopt := fun _ => rfl
      stream?_worker := fun _ => rfl
      workers := fun role stream h => by
        cases role with
        | stream name =>
          cases h
          rfl
        | compiler => cases h
        | session => cases h
      others := herrand }

theorem exists_errand_of_call {act : Action Shell Answer} (h : Uses act) :
    ∃ errand : PressErrand pressSite (Option Follower),
      (answering act).bind
      (fun _ => .done none) = (do return (← errand.plain).map Subtype.val) := by
  have hanswering : Uses (answering act) := uses_self.bind fun _ => h.attempt.bind fun _ =>
    uses_update fun _ => rfl
  have huses : Uses (do answering act; return none : Action Shell (Option Follower)) :=
    hanswering.bind fun _ => uses_pure _
  obtain ⟨errand, herrand⟩ := huses.exists_errand
  refine ⟨errand, ?_⟩
  rw [herrand]
  simp only [bind_assoc, pure_bind, Option.map_none]
  rfl

end Shell

end SessionShell
