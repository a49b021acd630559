import SessionShell.Proofs.Tasks.Bystanders
import SessionShell.Shell.Life

/-!
Threads that are watched for what they do to one session.

A watch says what the thread relies on, what it guarantees, and what holds as long as its steps are
ordinary. It is enough that the session is there and that what has ended stays so. Then whatever the
shell has a thread do, short of what is done on the thread of the session or to start it, keeps to
the watch.
-/

namespace SessionShell

open Action Shell

def Shell.turn (id : SessionId) : MainTask → Action Shell Phase
  | .interactive => readStatement id none
  | .script source name after => do
    runScriptMain id source name after
    rest id
  | .compile job => do
    runCompile id job
    rest id
  | .batch targets => beginBatch targets

theorem Shell.runMain_eq (id : SessionId) : runMain id = takeMain id >>= turn id := rfl

structure Watch (id : SessionId) (ν : Type) where
  observer : Observer Shell ν
  rely : Shell × ν → Shell × ν → Prop
  guar : Shell × ν → Shell × ν → Prop
  me : ThreadId
  holds : Shell × ν → Prop
  refl : ∀ γ, rely γ γ
  stable : Stable rely holds
  known : ∀ γ, holds γ → id < γ.1.sessions.size
  disposed : ∀ γ γ', rely γ γ' → (γ.1.session id).disposed = true →
    (γ'.1.session id).disposed = true
  step : ∀ s r s', holds (s, r) → Ordinary id s s' →
    guar (s, r) (s', observer.notes me s s' r) ∧ holds (s', observer.notes me s s' r)

namespace Watch

variable {id other : SessionId} {ν α β ε : Type} {w : Watch id ν}

abbrev Goes (w : Watch id ν) (p : Action Shell α) (Q : α → Prop) : Prop :=
  Lasts w.observer w.rely w.guar w.me w.holds p Q

abbrev Keeps (w : Watch id ν) (p : Action Shell α) : Prop :=
  w.Goes p fun _ => True

def ended (w : Watch id ν) : Watch id ν :=
  { w with
    holds := fun γ => w.holds γ ∧ (γ.1.session id).disposed = true
    stable := fun γ γ' h hr => ⟨w.stable γ γ' h.1 hr, w.disposed γ γ' hr h.2⟩
    known := fun γ h => w.known γ h.1
    step := fun s r s' h hs =>
      have hstep := w.step s r s' h.1 hs
      ⟨hstep.1, hstep.2, hs.disposed h.2⟩ }

section Combinators

variable {Q : α → Prop} {R : β → Prop}

theorem goes_pure {a : α} (h : Q a) : w.Goes (pure a) Q :=
  lasts_pure w.stable h

theorem keeps_pure (a : α) : w.Keeps (pure a) :=
  goes_pure trivial

theorem Goes.bind {p : Action Shell α} {f : α → Action Shell β} (hp : w.Goes p Q)
    (hf : ∀ a, Q a → w.Goes (f a) R) : w.Goes (p >>= f) R :=
  Lasts.bind w.refl hp hf

theorem Keeps.bind {p : Action Shell α} {f : α → Action Shell β} (hp : w.Keeps p)
    (hf : ∀ a, w.Keeps (f a)) : w.Keeps (p >>= f) :=
  Goes.bind hp fun a _ => hf a

theorem Keeps.discard {p : Action Shell α} (hp : w.Keeps p) : w.Keeps (Functor.discard p) :=
  Lasts.discard w.stable w.refl hp

theorem Keeps.attempt {p : Action Shell α} (hp : w.Keeps p) : w.Keeps (Program.attempt p) :=
  Lasts.mono (Lasts.attempt hp) fun _ _ => trivial

theorem Goes.lift_bind {p : Action Shell α} {f : α → ExceptT ε (Action Shell) β}
    (hp : w.Goes p Q) (hf : ∀ a, Q a → w.Keeps (f a).run) :
    w.Keeps ((liftM p : ExceptT ε (Action Shell) α) >>= f).run :=
  Lasts.lift_bind w.refl hp hf

theorem Keeps.run_bind {p : ExceptT ε (Action Shell) α} {f : α → ExceptT ε (Action Shell) β}
    (hp : w.Keeps p.run) (hf : ∀ a, w.Keeps (f a).run) : w.Keeps (p >>= f).run :=
  Lasts.run_bind w.stable w.refl hp (fun a _ => hf a) fun _ _ => trivial

theorem Keeps.lift_bind {p : Action Shell α} {f : α → ExceptT ε (Action Shell) β}
    (hp : w.Keeps p) (hf : ∀ a, w.Keeps (f a).run) :
    w.Keeps ((liftM p : ExceptT ε (Action Shell) α) >>= f).run :=
  Goes.lift_bind hp fun a _ => hf a

theorem Keeps.lift {p : Action Shell α} (hp : w.Keeps p) :
    w.Keeps (liftM p : ExceptT ε (Action Shell) α).run :=
  hp.bind fun _ => keeps_pure _

theorem keeps_of_within {p : Action Shell α} (hp : Within (Ordinary id) p) : w.Keeps p :=
  lasts_of_within w.stable w.step hp

theorem keeps_of_plain {p : Action Shell α} (hp : Within Plain p) : w.Keeps p :=
  keeps_of_within (ordinary_of_plain hp)

theorem keeps_read (f : Shell → α) : w.Keeps (read f) :=
  keeps_of_plain (chore_read f)

end Combinators

/-! ## Ends of sessions -/

theorem upholds_markDisposed (hook : other = id) :
    Upholds w.rely w.guar w.me w.holds (w.observer.observe (markDisposed other))
      (Fate.Returns fun _ => w.ended.holds) := by
  subst hook
  refine upholds_observe_step w.stable (fun _ => w.ended.stable) fun s r h _ => ?_
  obtain ⟨hguar, hholds⟩ := w.step s r _ h ordinary_markedDisposed
  have hknown := w.known _ h
  have hsize :
      other < ((s.session other).compiling.elim s fun job => cancelJob job s).sessions.size := by
    cases (s.session other).compiling <;> exact hknown
  exact ⟨hguar, hholds, by rw [session_modifySession_self _ hsize]⟩

theorem keeps_dropTasks (h : other = id → ∀ γ, w.holds γ → (γ.1.session id).disposed = true) :
    w.Keeps (dropTasks other) :=
  lasts_step w.stable fun s r hs =>
    have hstep := w.step s r _ hs (ordinary_droppedTasks fun ho => h ho _ hs)
    ⟨hstep.1, hstep.2, trivial⟩

theorem keeps_disposeRest (hook? : Option ExitHook)
    (h : other = id → ∀ γ, w.holds γ → (γ.1.session id).disposed = true) :
    w.Keeps (do dropHook? hook?; cancelJobs other; dropTasks other; setCurrent other false
                release other) :=
  Keeps.bind (keeps_of_plain (plain_dropHook? hook?)) fun _ =>
    Keeps.bind (keeps_of_plain chore_cancelJobs) fun _ => Keeps.bind (keeps_dropTasks h) fun _ =>
    Keeps.bind (keeps_of_plain (chore_setCurrent false)) fun _ => keeps_of_plain chore_release

theorem keeps_dispose : w.Keeps (dispose other) := by
  by_cases ho : other = id
  · refine Upholds.lasts_bind (upholds_markDisposed ho) w.refl fun hook? γ hγ => ?_
    have hrest : w.ended.Keeps (do
        dropHook? hook?; cancelJobs other; dropTasks other; setCurrent other false;
          release other) :=
      keeps_disposeRest hook? fun _ γ hγ => hγ.2
    exact (hrest.upholds γ hγ).mono fun _ _ h => ⟨h.1.1, h.2⟩
  · exact Keeps.bind (keeps_of_within (within_step fun _ => ordinary_markedDisposed)) fun hook? =>
      keeps_disposeRest hook? fun h => absurd h ho

theorem keeps_finish (code : Int) (removes handsOn : Bool) :
    w.Keeps (finish other code removes handsOn).run := by
  refine Keeps.run_bind (keeps_of_within (ordinary_recordCode code)) fun hook? => ?_
  cases removes with
  | true =>
    refine Keeps.lift_bind (keeps_of_within (ordinary_leave code hook? handsOn)) fun wasLast =>
      Keeps.lift_bind keeps_dispose fun _ => ?_
    cases wasLast with
    | true => exact Keeps.lift (keeps_of_plain (plain_terminate code))
    | false => exact keeps_pure _
  | false =>
    exact Keeps.lift_bind keeps_dispose fun _ =>
      Keeps.lift (keeps_of_plain (plain_dropHook? hook?))

theorem keeps_exitWith (code : ReservedCode) : w.Keeps (exitWith other code).run :=
  keeps_finish _ true true

theorem keeps_exit (code : Int) : w.Keeps (exit other code).run := by
  refine Keeps.run_bind (keeps_of_plain chore_ensureLive) fun _ => ?_
  cases ExitCode.remapWarning? code with
  | none => exact keeps_finish _ true true
  | some message =>
    exact Keeps.lift_bind (keeps_of_plain (chore_warning message)) fun _ => keeps_finish _ true true

theorem keeps_killAll (code? : Option Int) : w.Keeps (killAll other code?).run := by
  refine Keeps.run_bind (keeps_of_plain chore_ensureLive) fun _ =>
    Keeps.lift_bind (keeps_read _) fun others => Keeps.run_bind ?_ fun _ => keeps_finish _ true true
  induction others with
  | nil => exact keeps_pure _
  | cons victim others ih =>
    refine Keeps.run_bind (Keeps.bind (Keeps.lift (keeps_finish _ true false)) fun result => ?_)
      fun _ => ih
    cases result <;> exact keeps_pure _

theorem keeps_setExitHook (hook : ExitHook) : w.Keeps (setExitHook other hook).run := by
  have hput : w.Keeps (putExitHook other hook).run :=
    keeps_of_within (ordinary_tryUpdate fun _ x x' heq => by
      split at heq
      · cases heq
      · split at heq
        · cases heq
        · cases heq
          rfl)
  refine Keeps.bind hput fun result => ?_
  cases result with
  | ok => exact keeps_pure _
  | error e =>
    exact Keeps.lift_bind (keeps_of_plain (plain_dropHook? (some hook))) fun _ => keeps_pure _

theorem keeps_setMain (main : MainTask) : w.Keeps (setMain other main).run :=
  keeps_of_within (ordinary_tryUpdate fun _ x x' heq => by
    split at heq
    · cases heq
    · cases heq
      rfl)

theorem keeps_awaitExit (target : SessionId) (extra : ExitHook) :
    w.Keeps (awaitExit target extra).run := by
  refine Keeps.lift_bind (keeps_of_plain chore_self) fun me =>
    Keeps.lift_bind (keeps_read _) fun session => ?_
  split
  · exact keeps_pure _
  · refine Keeps.lift_bind (keeps_of_plain chore_isUiThread) fun ui => ?_
    split
    · exact keeps_pure _
    · refine Keeps.lift_bind (keeps_of_plain (plain_same (fun _ => rfl) fun _ => rfl)) fun latch =>
        Keeps.lift_bind (keeps_setExitHook _) fun result => ?_
      split
      · exact Keeps.lift_bind (keeps_of_plain (chore_awaitLatch latch)) fun _ =>
          Keeps.lift (keeps_read _)
      · exact Keeps.lift (keeps_read _)
      · exact keeps_pure _

/-! ## Children -/

theorem goes_newSession (name : String) (script : Option String) :
    w.Goes (newSession name script) fun child => child ≠ id := by
  refine lasts_step w.stable fun s r h => ?_
  have hknown := w.known _ h
  have hmade : Ordinary id s { s with
      console := s.console.addMailbox.2
      sessions :=
        s.sessions.push (Session.new name script s.console.addMailbox.1 s.settings.escapeMode)
        } := by
    refine .of_errand ?_ (by simp) rfl
    simp [Shell.session, Array.getElem?_push, Nat.ne_of_lt hknown]
  have hstep := w.step s r _ h hmade
  exact ⟨hstep.1, hstep.2, Nat.ne_of_gt hknown⟩

theorem keeps_startThread (ho : other ≠ id) : w.Keeps (startThread other) := by
  refine keeps_of_within (within_step fun s => ?_)
  split
  · exact .of_errand rfl (Nat.le_refl _) rfl
  · refine ⟨Nat.le_refl _, rfl, fun h => h, .inl rfl, [(s.threads.size, .session other .entering)],
      rfl,
      fun t role hin => ?_⟩
    cases List.mem_singleton.mp hin
    exact ho

theorem keeps_startWith (ho : other ≠ id) (query : String) (takesFocus : Bool) :
    w.Keeps (startWith other query takesFocus).run := by
  refine Keeps.run_bind (keeps_of_plain chore_ensureLive) fun _ =>
    Keeps.lift_bind (keeps_read _) fun language? => ?_
  cases language? with
  | none => exact keeps_pure _
  | some language =>
    have hother : ∀ f, w.Keeps (updateSession other f) := fun f =>
      keeps_of_within (within_update fun _ => ordinary_modify fun h => absurd h ho)
    refine Keeps.run_bind (keeps_of_within (ordinary_tryUpdate fun h => absurd h ho)) fun _ =>
      Keeps.lift_bind (hother _) fun _ =>
      Keeps.lift_bind (keeps_of_plain (plain_same (fun _ => rfl) fun _ => rfl)) fun _ => ?_
    have hrest : w.Keeps (do
        consolePlace.start
        let started ← startThread other
        unless started do
          discard (leaveRegistry other)
          dispose other
          throw threadRefused : Checked Unit).run := by
      refine Keeps.lift_bind (keeps_of_plain chore_consoleStart) fun _ =>
        Keeps.lift_bind (keeps_startThread ho) fun started => ?_
      cases started with
      | true => exact keeps_pure _
      | false =>
        refine Keeps.run_bind
          (Keeps.bind (Keeps.lift (keeps_of_plain plain_leaveRegistry)) fun r => ?_)
          fun _ => Keeps.lift_bind keeps_dispose fun _ => keeps_pure _
        cases r <;> exact keeps_pure _
    cases takesFocus with
    | true => exact Keeps.lift_bind (keeps_of_plain plain_takeFocus) fun _ => hrest
    | false => exact Keeps.lift_bind (hother _) fun _ => hrest

theorem keeps_startChild (hchild : other ≠ id) (language : String) : w.Keeps (do
    match ← caught (startWith other language false) with
    | .ok () => return other
    | .error e =>
      dispose other
      throw e : Checked SessionId).run := by
  refine Keeps.lift_bind (keeps_startWith hchild language false) fun result => ?_
  cases result with
  | ok => exact keeps_pure _
  | error e => exact Keeps.lift_bind keeps_dispose fun _ => keeps_pure _

theorem keeps_forkWith (options : ForkOptions) (main : MainTask) :
    w.Keeps (forkWith other options main).run := by
  refine Keeps.lift_bind (keeps_read _) fun language => Keeps.lift_bind (keeps_read _) fun parent =>
    Goes.lift_bind (goes_newSession _ _) fun child hchild =>
    Keeps.run_bind (keeps_setMain main) fun _ => ?_
  cases childHook other options with
  | none => exact keeps_startChild hchild language
  | some hook =>
    exact Keeps.run_bind (keeps_setExitHook hook) fun _ => keeps_startChild hchild language

theorem keeps_fork (options : ForkOptions) : w.Keeps (fork other options).run := by
  refine Keeps.lift_bind (keeps_read _) fun session => ?_
  cases session.disposed with
  | true =>
    exact Keeps.lift_bind (keeps_of_plain (plain_dropHook? _)) fun _ => keeps_pure _
  | false =>
    have hmain : w.Keeps (childMain options) := by
      unfold childMain
      split
      · exact keeps_pure _
      · refine Keeps.bind (keeps_read _) fun file? => ?_
        cases file? <;> exact keeps_pure _
    refine Keeps.lift_bind hmain fun main? => ?_
    cases main? with
    | some main => exact Keeps.run_bind (keeps_forkWith options main) fun _ => keeps_pure _
    | none =>
      refine Keeps.lift_bind (keeps_of_plain (chore_reportError _)) fun _ => ?_
      cases options.hook with
      | none => exact keeps_pure _
      | some hook =>
        exact Keeps.lift_bind (keeps_of_within (ordinary_runHook _ hook)) fun _ => keeps_pure _

/-! ## What scripts ask for -/

theorem keeps_asFault {p : Checked α} (h : w.Keeps p.run) : w.Keeps (asFault p) :=
  h.bind fun result => by cases result <;> exact keeps_pure _

theorem keeps_waitAt (index : Nat) : w.Keeps (waitAt index).run := by
  refine Keeps.lift_bind (keeps_read _) fun target? => ?_
  cases target? with
  | none => exact Keeps.lift_bind (keeps_read _) fun _ => keeps_pure _
  | some target => exact keeps_awaitExit target .nothing

theorem keeps_forkScript (script : String) : w.Keeps (forkScript other script).run := by
  refine Keeps.run_bind (keeps_fork _) fun child? => ?_
  cases child? with
  | some child => exact Keeps.lift (keeps_read _)
  | none => exact keeps_pure _

theorem keeps_answerHost (r : HostRequest SessionId) : w.Keeps (answerHost r) := by
  obtain ⟨other, call⟩ := r
  cases call with
  | name => exact Keeps.bind (keeps_read _) fun _ => keeps_pure _
  | out text => exact keeps_asFault (keeps_of_plain (chore_out text))
  | exit code => exact keeps_asFault (keeps_exit code)
  | jump index => exact keeps_asFault (keeps_of_plain (chore_jumpTo index))
  | fork script => exact keeps_asFault (keeps_forkScript script)
  | link path => exact Keeps.bind (keeps_of_plain (chore_link path)) fun _ => keeps_pure _
  | kill code? => exact keeps_asFault (keeps_killAll code?)
  | list => exact Keeps.bind (keeps_read _) fun _ => keeps_pure _
  | wait index => exact keeps_asFault (keeps_waitAt index)
  | compile source output => exact keeps_of_plain (chore_compile source output _ [])
  | cancel index => exact keeps_asFault (keeps_of_plain (chore_cancelAt index))
  | join index => exact keeps_asFault (keeps_of_plain (chore_join index))
  | jobs => exact Keeps.bind (keeps_read _) fun _ => keeps_pure _

theorem keeps_expand {Call : Type _} {Reply : Call → Type} (p : Program Call Reply α)
    {f : (c : Call) → Action Shell (Reply c)} (hf : ∀ c, w.Keeps (f c)) : w.Keeps (p.expand f) := by
  induction p with
  | done a => exact keeps_pure a
  | crash => exact lasts_crash w.stable
  | ask call next ih => exact Keeps.bind (hf call) ih

theorem keeps_evalWith (interpreter : SessionInterpreter) (text : String) (source : Option String) :
    w.Keeps (evalWith interpreter text source) :=
  Keeps.bind (keeps_expand _ keeps_answerHost).attempt fun result? => by
    cases result? <;> exact keeps_pure _

theorem keeps_evaluate (text : String) (source : Option String) :
    w.Keeps (evaluate other text source).run := by
  refine Keeps.bind (keeps_of_plain (plain_asFault plain_claimInterpreter)) fun result => ?_
  cases result with
  | error fault => exact keeps_pure _
  | ok interpreter =>
    exact Keeps.bind (keeps_evalWith interpreter text source) fun _ =>
      Keeps.bind (keeps_of_plain (plain_putInterpreter _)) fun _ => keeps_pure _

theorem keeps_preloadWith (path : String) (interpreter : SessionInterpreter) :
    w.Keeps (preloadWith path interpreter) := by
  refine Keeps.bind (keeps_read _) fun text => ?_
  cases text with
  | error e => exact Keeps.bind (keeps_of_plain (chore_reportError _)) fun _ => keeps_pure _
  | ok text =>
    refine Keeps.bind (keeps_evalWith interpreter text _) fun (result, interpreter) => ?_
    cases result with
    | error fault => exact Keeps.bind (keeps_of_plain (chore_reportError _)) fun _ => keeps_pure _
    | ok _ => exact keeps_pure _

/-! ## Jobs -/

theorem keeps_hear (job : JobId) (event : JobEvent) : w.Keeps (hear job event) := by
  have hend : ∀ (listener : SessionListener) (code : ReservedCode),
      w.Keeps (endWith listener code) := fun listener code => by
    unfold endWith
    split
    · exact Keeps.discard (keeps_exitWith code)
    · exact keeps_pure _
  cases event with
  | status batch =>
    have hsay : ∀ (session : SessionId) (ps : List Progress),
        w.Keeps (ps.forM fun p => sayLine session p.text) := fun session ps => by
      induction ps with
      | nil => exact keeps_pure _
      | cons p ps ih => exact Keeps.bind (keeps_of_plain (chore_sayLine _)) fun _ => ih
    have hrest : ∀ (listener : SessionListener) (last : Action Shell Unit), w.Keeps last →
      w.Keeps (do
        let settings ← getSettings
        let live ← isLive listener.session
        if live then do
          (batch.filter (isShown settings)).forM fun p => sayLine listener.session p.text
          last
        else last) := fun listener last hlast => by
      refine Keeps.bind (keeps_read _) fun settings => Keeps.bind (keeps_read _) fun live => ?_
      split
      · exact Keeps.bind (hsay _ _) fun _ => hlast
      · exact hlast
    refine Keeps.bind (keeps_read _) fun listener => ?_
    simp only [hearStatus]
    split <;> split
    · exact Keeps.bind (keeps_of_plain (plain_note _)) fun _ => hrest listener _ (hend _ _)
    · exact Keeps.bind (keeps_of_plain (plain_note _)) fun _ => hrest listener _ (keeps_pure _)
    · exact hrest listener _ (hend _ _)
    · exact hrest listener _ (keeps_pure _)
  | fail fault =>
    exact Keeps.bind (keeps_of_plain (plain_same (fun _ => rfl) fun _ => rfl)) fun _ =>
      Keeps.bind (keeps_read _) fun listener => keeps_of_plain (chore_reportIfLive listener fault)
  | abort fault =>
    exact Keeps.bind (keeps_read _) fun listener =>
      Keeps.bind (keeps_of_plain (chore_reportIfLive listener fault)) fun _ => hend listener _
  | succeed => exact Keeps.bind (keeps_read _) fun listener => hend listener _

theorem keeps_poolRun (job : JobId) : w.Keeps (poolPlace.run job) := by
  refine Keeps.bind (keeps_read _) fun record? => ?_
  cases record? with
  | none => exact keeps_pure _
  | some record =>
    refine Keeps.bind (keeps_expand _ fun c => ?_) fun _ =>
      Keeps.bind (keeps_of_plain (plain_poolModify _)) fun _ => keeps_pure _
    cases c with
    | now => exact keeps_read _
    | work call => exact keeps_of_plain (chore_answerWork job call)
    | notify event => exact keeps_hear job event

theorem keeps_poolWork : w.Keeps poolPlace.work := by
  refine Keeps.bind (keeps_of_plain (within_await fun s _ s' hs => ?_)) fun job =>
    Keeps.bind (keeps_poolRun job).attempt fun _ => keeps_of_plain (plain_poolModify _)
  obtain ⟨taken, -, heq⟩ := Option.map_eq_some_iff.mp hs
  cases heq
  exact .of_same rfl rfl

/-! ## The loop -/

theorem keeps_guarded {act : ExceptT Fault (Action Shell) α} (h : w.Keeps act.run) :
    w.Keeps (guarded other act) := by
  have hreport : ∀ fault, w.Keeps (do
      if ← isLive other then reportError fault
      return none : Action Shell (Option α)) := fun fault => by
    refine Keeps.bind (keeps_read _) fun live => ?_
    split
    · exact Keeps.bind (keeps_of_plain (chore_reportError fault)) fun _ => keeps_pure _
    · exact keeps_pure _
  refine Keeps.bind h.attempt fun result? => ?_
  match result? with
  | some (.ok a) => exact keeps_pure _
  | some (.error fault) => exact hreport fault
  | none => exact hreport _

theorem keeps_evaluateStatement (statement : String) :
    w.Keeps (evaluateStatement other statement) := by
  unfold evaluateStatement
  split
  · exact keeps_pure _
  · exact Keeps.bind (keeps_guarded (keeps_evaluate statement none)) fun result =>
      keeps_of_plain (chore_sayResult result)

theorem keeps_onEndOfInput : w.Keeps (onEndOfInput other) := by
  have hlast : ∀ handedOn : Bool, w.Keeps (do
      unless handedOn do discard (exitWith other .noInput).run) := fun handedOn => by
    cases handedOn with
    | true => exact keeps_pure _
    | false => exact Keeps.discard (keeps_exitWith _)
  refine Keeps.bind (keeps_read _) fun count => Keeps.bind (keeps_read _) fun endIsFinal => ?_
  split
  · refine Keeps.bind (keeps_read _) fun index? => ?_
    cases index? with
    | none => exact hlast false
    | some index =>
      refine Keeps.bind (keeps_of_plain (chore_jumpTo _)) fun result => ?_
      cases result with
      | ok => exact hlast true
      | error => exact hlast false
  · exact hlast false

theorem keeps_readStatement (before : Option String) : w.Keeps (readStatement other before) := by
  refine Keeps.bind (keeps_of_plain (chore_renderPrompt _)) fun text =>
    Keeps.bind (keeps_of_plain (chore_prompt text)) fun outcome => ?_
  match outcome with
  | .error e =>
    refine Keeps.bind (keeps_read _) fun live => ?_
    split
    · exact Keeps.bind (keeps_of_plain (chore_reportError _)) fun _ => keeps_of_plain plain_rest
    · exact keeps_of_plain plain_rest
  | .ok .endOfInput =>
    cases before with
    | none => exact Keeps.bind keeps_onEndOfInput fun _ => keeps_of_plain plain_rest
    | some statement =>
      exact Keeps.bind (keeps_evaluateStatement statement) fun _ => keeps_of_plain plain_rest
  | .ok (.line line) =>
    refine Keeps.bind (keeps_read _) fun settings => ?_
    split
    · exact keeps_pure _
    · exact Keeps.bind (keeps_evaluateStatement _) fun _ => keeps_of_plain plain_rest

theorem keeps_interpret (source : ScriptSource) (name : String) :
    w.Keeps (interpret other source name).run := by
  refine Keeps.lift_bind (keeps_of_plain (plain_readScript source)) fun text => ?_
  cases text with
  | error e => exact keeps_pure _
  | ok text => exact keeps_evaluate text (some name)

theorem keeps_afterScript (after : AfterScript) : w.Keeps (afterScript other after) := by
  cases after with
  | exit => exact Keeps.discard (keeps_exitWith _)
  | interactive =>
    refine Keeps.bind (keeps_read _) fun count => Keeps.bind (keeps_read _) fun session => ?_
    split
    · refine Keeps.bind (keeps_read _) fun index? => ?_
      cases index? with
      | none => exact keeps_pure _
      | some index => exact Keeps.discard (keeps_of_plain (chore_jumpTo _))
    · exact keeps_pure _

theorem keeps_runScriptMain (source : ScriptSource) (name : String) (after : AfterScript) :
    w.Keeps (runScriptMain other source name after) := by
  refine Keeps.bind (keeps_guarded (keeps_interpret source name)) fun result =>
    Keeps.bind (keeps_of_plain (chore_sayResult result)) fun _ =>
    Keeps.bind (keeps_read _) fun session => ?_
  split
  · exact keeps_afterScript after
  · exact keeps_pure _

theorem keeps_runCompile (job : JobId) : w.Keeps (runCompile other job) :=
  Keeps.bind (keeps_of_plain (plain_setCompiling _)) fun _ =>
    Keeps.bind (keeps_poolRun job).discard fun _ => keeps_of_plain (plain_setCompiling _)

theorem keeps_turn (main : MainTask) : w.Keeps (turn other main) := by
  cases main with
  | interactive => exact keeps_readStatement none
  | script source name after =>
    exact Keeps.bind (keeps_runScriptMain source name after) fun _ => keeps_of_plain plain_rest
  | compile job => exact Keeps.bind (keeps_runCompile job) fun _ => keeps_of_plain plain_rest
  | batch targets =>
    exact Keeps.bind (keeps_of_plain (plain_same (fun _ => rfl) fun _ => rfl)) fun _ => keeps_pure _

theorem keeps_startTarget (run : BatchRun) (target : String) :
    w.Keeps (startTarget other run target) := by
  refine Keeps.bind (keeps_of_plain (plain_modifyChannel _ _)) fun _ =>
    Keeps.bind (keeps_read _) fun isScript => Keeps.bind (keeps_fork _) fun child? => ?_
  match child? with
  | .ok none => exact keeps_pure _
  | .ok (some child) =>
    cases isScript with
    | true => exact keeps_pure _
    | false => exact Keeps.bind (keeps_of_plain (chore_giveFocus child)) fun _ => keeps_pure _
  | .error e =>
    exact Keeps.bind (keeps_of_plain (chore_reportError _)) fun _ =>
      keeps_of_plain (plain_record run target _)

theorem keeps_nextTarget (run : BatchRun) : w.Keeps (nextTarget other run) := by
  have hlast : w.Keeps (nextTarget.finishTargets run) :=
    Keeps.bind (keeps_of_plain (plain_modifyChannel _ _)) fun _ => keeps_pure _
  unfold nextTarget
  split
  · next target targets _ =>
    refine Keeps.bind (keeps_read _) fun live => ?_
    split
    · exact Keeps.bind (keeps_startTarget _ target) fun _ =>
        Keeps.bind (keeps_read _) fun _ => keeps_pure _
    · exact hlast
  · exact hlast

theorem keeps_linger (run : BatchRun) : w.Keeps (linger other run) := by
  refine Keeps.bind (keeps_read _) fun hostLive => Keeps.bind (keeps_read _) fun anyLive => ?_
  split
  · exact Keeps.bind (keeps_of_plain (chore_sleep _)) fun _ => keeps_pure _
  · refine Keeps.bind (keeps_read _) fun live => ?_
    split
    · exact Keeps.bind (Keeps.discard (keeps_finish run.code true true)) fun _ =>
        keeps_of_plain plain_rest
    · exact keeps_of_plain plain_rest

end Watch

end SessionShell

/-!
What may go on in a shell beside a session, on threads of its own, of other sessions and
from outside.
-/

namespace SessionShell

open Action Shell

namespace Watch

variable {id other : SessionId} {ν α β : Type} {w : Watch id ν}

/-! ## Tasks -/

theorem keeps_crash : w.Keeps (.crash : Action Shell α) :=
  lasts_crash w.stable

theorem keeps_scriptResult (t : TaskScript) : w.Keeps (match t.eval with
    | some text => evaluate other text none
    | none =>
      match t.fail with
      | some fault => throw fault
      | none => if t.crashes then ExceptT.mk .crash else pure t.print :
    ExceptT Fault (Action Shell) (Option String)).run := by
  cases t.eval with
  | some text => exact keeps_evaluate text none
  | none =>
    cases t.fail with
    | some fault => exact keeps_pure _
    | none =>
      cases t.crashes with
      | true => exact keeps_crash
      | false => exact keeps_pure _

theorem keeps_behindNote (t : TaskScript) : w.Keeps (do
    match t.exit with
    | some code => ExceptT.mk (asFault (exit other code))
    | none => pure ()
    match t.eval with
    | some text => evaluate other text none
    | none =>
      match t.fail with
      | some fault => throw fault
      | none => if t.crashes then ExceptT.mk .crash else return t.print :
    ExceptT Fault (Action Shell) (Option String)).run := by
  cases t.exit with
  | some code =>
    exact Keeps.run_bind (keeps_asFault (keeps_exit code)) fun _ => keeps_scriptResult t
  | none => exact keeps_scriptResult t

theorem keeps_runScript (t : TaskScript) : w.Keeps (runScript other t).run := by
  unfold runScript
  cases t.note with
  | some tag =>
    exact Keeps.lift_bind (keeps_of_plain chore_currentThread) fun _ =>
      Keeps.lift_bind (keeps_of_plain (plain_note _)) fun _ => keeps_behindNote t
  | none => exact keeps_behindNote t

theorem keeps_sayGreeting (interactive : Bool) (text : String) : w.Keeps (do
    let endIsFinal ← Action.read (·.console.endIsFinal)
    if interactive && !endIsFinal then sayLine other text) := by
  refine Keeps.bind (keeps_read _) fun endIsFinal => ?_
  split
  · exact keeps_of_plain (chore_sayLine _)
  · exact keeps_pure _

theorem keeps_boot (language : Language) : w.Keeps (boot other language) := by
  refine Keeps.bind (keeps_read _) fun session => Keeps.bind (keeps_read _) fun script? => ?_
  have hinstall : ∀ interpreter, w.Keeps (do
      let interactive ← install other interpreter
      let endIsFinal ← Action.read (·.console.endIsFinal)
      if interactive && !endIsFinal then sayLine other (greeting session.name language)) :=
    fun interpreter => Keeps.bind (keeps_of_plain (plain_install interpreter)) fun interactive =>
      keeps_sayGreeting interactive _
  cases script? with
  | some path => exact Keeps.bind (keeps_preloadWith path _) hinstall
  | none => exact hinstall _

theorem keeps_perform (task : Task) : w.Keeps (perform other task).run := by
  cases task with
  | boot language => exact Keeps.lift_bind (keeps_boot language) fun _ => keeps_pure _
  | runHook hook code =>
    exact Keeps.lift_bind (keeps_of_within (ordinary_runHook code hook)) fun _ => keeps_pure _
  | script t => exact keeps_runScript t

theorem keeps_runTask (task : Task) : w.Keeps (runTask other task) :=
  Keeps.bind (keeps_guarded (keeps_perform task)) fun result => keeps_of_plain
    (chore_sayResult result)

/-! ## Sessions -/

theorem keeps_advance (ho : other ≠ id) (phase : Phase) : w.Keeps (advance other phase) := by
  have hother : ∀ f, Within (Ordinary id) (updateSession other f) := fun f =>
    within_update fun _ => ordinary_modify fun h => absurd h ho
  cases phase with
  | entering =>
    exact Keeps.bind (keeps_of_plain chore_self) fun me =>
      Keeps.bind (keeps_of_within (hother _)) fun _ => keeps_pure _
  | idle =>
    refine Keeps.bind (keeps_read _) fun live => ?_
    cases live with
    | false => exact keeps_pure _
    | true =>
      have htake : Within (Ordinary id) (takeTask other) := within_step fun s => by
        split
        · exact .of_errand rfl (Nat.le_refl _) rfl
        · exact ordinary_modify fun h => absurd h ho
      refine Keeps.bind (keeps_of_within htake) fun task? => ?_
      cases task? with
      | some task => exact Keeps.bind (keeps_runTask task) fun _ => keeps_pure _
      | none =>
        refine Keeps.bind (keeps_read _) fun still => ?_
        cases still with
        | false => exact keeps_pure _
        | true =>
          exact Keeps.bind (Keeps.bind (keeps_of_plain plain_takeMain) keeps_turn) fun _ =>
            keeps_pure _
  | reading statement =>
    exact Keeps.bind (keeps_readStatement (some statement)) fun _ => keeps_pure _
  | batch run => exact Keeps.bind (keeps_nextTarget run) fun _ => keeps_pure _
  | collecting run last =>
    exact Keeps.bind (keeps_of_plain (plain_collect run last)) fun _ => keeps_pure _
  | lingering run => exact Keeps.bind (keeps_linger run) fun _ => keeps_pure _

theorem goes_program {role : Role} (h : ¬role.IsOf id) :
    w.Goes (life.program role) fun role? => ∀ role', role? = some role' → ¬role'.IsOf id := by
  cases role with
  | stream name =>
    exact Goes.bind (Q := fun _ => True) (keeps_of_plain (chore_consoleWork name)) fun _ _ =>
      goes_pure fun _ heq => by cases heq; exact h
  | compiler =>
    exact Goes.bind (Q := fun _ => True) keeps_poolWork fun _ _ =>
      goes_pure fun _ heq => by cases heq; exact h
  | session other phase =>
    refine Goes.bind (Q := fun _ => True) (keeps_advance h phase) fun phase? _ => goes_pure ?_
    intro role' heq
    obtain ⟨phase', -, rfl⟩ := Option.map_eq_some_iff.mp heq
    exact h

end Watch

/-! ## From outside -/

inductive Demand where
  | own {α : Type} (act : Action Shell α) (h : Within Plain act)
  | newSession (name : String) (script : Option String)
  | start (session : SessionId) (language : String) (takesFocus : Bool)
  | fork (session : SessionId) (options : ForkOptions)
  | schedule (session : SessionId) (task : Task)
  | setMain (session : SessionId) (main : MainTask)
  | setExitHook (session : SessionId) (hook : ExitHook)
  | exit (session : SessionId) (code : Int)
  | finish (session : SessionId) (code : Int) (removes handsOn : Bool)
  | dispose (session : SessionId)
  | killAll (session : SessionId) (code? : Option Int)
  | awaitExit (session : SessionId) (extra : ExitHook)
  | evaluate (session : SessionId) (text : String) (source : Option String)

namespace Demand

def Reply : Demand → Type
  | @own α _ _ => α
  | newSession _ _ => SessionId
  | start _ _ _ => Except ShellError Unit
  | fork _ _ => Except ShellError (Option SessionId)
  | schedule _ _ => Except ShellError Unit
  | setMain _ _ => Except ShellError Unit
  | setExitHook _ _ => Except ShellError Unit
  | exit _ _ => Except ShellError Unit
  | finish _ _ _ _ => Except ShellError Unit
  | dispose _ => Unit
  | killAll _ _ => Except ShellError Unit
  | awaitExit _ _ => Except ShellError Int
  | evaluate _ _ _ => Except Fault (Option String)

def run : (r : Demand) → Action Shell r.Reply
  | own act _ => act
  | newSession name script => Shell.newSession name script
  | start session language takesFocus => (startWith session language takesFocus).run
  | fork session options => (Shell.fork session options).run
  | schedule session task => (Shell.schedule session task).run
  | setMain session main => (Shell.setMain session main).run
  | setExitHook session hook => (Shell.setExitHook session hook).run
  | exit session code => (Shell.exit session code).run
  | finish session code removes handsOn => (Shell.finish session code removes handsOn).run
  | dispose session => Shell.dispose session
  | killAll session code? => (Shell.killAll session code?).run
  | awaitExit session extra => (Shell.awaitExit session extra).run
  | evaluate session text source => (Shell.evaluate session text source).run

def Starts (id : SessionId) : Demand → Prop
  | start session _ _ => session = id
  | _ => False

end Demand

theorem Watch.keeps_demand {id : SessionId} {ν : Type} {w : Watch id ν} {r : Demand}
    (h : ¬r.Starts id) : w.Keeps r.run := by
  cases r with
  | own act hact => exact keeps_of_plain hact
  | newSession name script => exact Lasts.mono (goes_newSession name script) fun _ _ => trivial
  | start session language takesFocus => exact keeps_startWith h language takesFocus
  | fork session options => exact keeps_fork options
  | schedule session task => exact keeps_of_within (ordinary_schedule task)
  | setMain session main => exact keeps_setMain main
  | setExitHook session hook => exact keeps_setExitHook hook
  | exit session code => exact keeps_exit code
  | finish session code removes handsOn => exact keeps_finish code removes handsOn
  | dispose session => exact keeps_dispose
  | killAll session code? => exact keeps_killAll code?
  | awaitExit session extra => exact keeps_awaitExit session extra
  | evaluate session text source => exact keeps_evaluate text source

abbrev Visit (id : SessionId) :=
  Program Demand Demand.Reply (Option {role : Role // ¬role.IsOf id})

def Visit.run {id : SessionId} (visit : Visit id) : Action Shell (Option Role) := do
  return (← visit.expand Demand.run).map Subtype.val

end SessionShell
