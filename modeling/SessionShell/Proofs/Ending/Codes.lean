import SessionShell.Proofs.Ending.Ledger
import SessionShell.Proofs.Shell.Stillness

/-!
Which exit codes scripts can have stored, and where.

A script ends its own session by an exit, and all sessions by a kill. The code of an exit is moved
out of the way of the signals of the shell before it is stored. That of a kill is not.
-/

namespace SessionShell

namespace ExitCode

/-- Tells that a session has ended in a way that no script has chosen. -/
def IsSignal (code : Int) : Prop :=
  ∃ r ∈ [ReservedCode.noFile, .noInput, .compileFail, .compileAbort, .killed], code = r.code

/-- Reserved for anything but success. -/
def IsTaken (code : Int) : Prop :=
  ∃ r, r ≠ ReservedCode.success ∧ code = r.code

theorem ofCode?_eq_none_iff {code : Int} :
    ReservedCode.ofCode? code = none ↔ ∀ r : ReservedCode, code ≠ r.code := by
  have hall : ∀ r, r ∈ ReservedCode.all := fun r => by cases r <;> decide
  simp only [ReservedCode.ofCode?, List.find?_eq_none, decide_eq_true_eq]
  exact ⟨fun h r heq => h r (hall r) heq.symm, fun h r _ heq => h r heq.symm⟩

theorem sanitize_code (r : ReservedCode) : ExitCode.sanitize r.code =
    (if r = .success then r else if r = .illegalCode then .illegalCodeAlt
      else .illegalCode).code := by
  cases r <;> rfl

theorem sanitize_of_free {code : Int} (h : ∀ r : ReservedCode, code ≠ r.code) :
    sanitize code = code := by
  rw [sanitize, ofCode?_eq_none_iff.mpr h]

theorem not_isSignal_sanitize (code : Int) : ¬IsSignal (sanitize code) := by
  rintro ⟨signal, hsignal, heq⟩
  by_cases hfree : ∀ r : ReservedCode, code ≠ r.code
  · rw [sanitize_of_free hfree] at heq
    exact hfree signal heq
  · push Not at hfree
    obtain ⟨r, rfl⟩ := hfree
    rw [sanitize_code] at heq
    revert signal
    cases r <;> decide

theorem code_injective : Function.Injective ReservedCode.code := by
  intro r r' h
  cases r <;> cases r' <;> first | rfl | exact absurd h (by decide)

theorem sanitize_eq_iff {code : Int} : sanitize code = code ↔ ¬IsTaken code := by
  by_cases hfree : ∀ r : ReservedCode, code ≠ r.code
  · refine ⟨fun _ => ?_, fun _ => sanitize_of_free hfree⟩
    rintro ⟨r, -, heq⟩
    exact hfree r heq
  · push Not at hfree
    obtain ⟨r, rfl⟩ := hfree
    by_cases hr : r = .success
    · subst hr
      refine ⟨fun _ => ?_, fun _ => rfl⟩
      rintro ⟨r, hr, heq⟩
      exact hr (code_injective heq.symm)
    · refine ⟨fun h => ?_, fun h => absurd ⟨r, hr, rfl⟩ h⟩
      rw [sanitize_code, if_neg hr] at h
      cases r <;> first | exact absurd rfl hr | exact absurd h (by decide)

end ExitCode

namespace Shell

open Action

variable {s s' : Shell} {id other : SessionId} {code : Int} {α : Type}
  {may : SessionId → Int → Prop}

/-- Stores no exit codes but some of those it may, in sessions that have none. -/
structure StoresOnly (may : SessionId → Int → Prop) (s s' : Shell) : Prop where
  size : s.sessions.size ≤ s'.sessions.size
  codes : ∀ id, (s'.session id).exitCode = (s.session id).exitCode ∨
    (s.session id).exitCode = none ∧ ∃ code, (s'.session id).exitCode = some code ∧ may id code

theorem StoresOnly.of_same (hsize : s.sessions.size ≤ s'.sessions.size)
    (h : ∀ id, (s'.session id).exitCode = (s.session id).exitCode) : StoresOnly may s s' :=
  ⟨hsize, fun id => .inl (h id)⟩

theorem StoresOnly.refl (s : Shell) : StoresOnly may s s :=
  .of_same (Nat.le_refl _) fun _ => rfl

theorem StoresOnly.of_still (h : Still s s') : StoresOnly may s s' :=
  .of_same (Nat.le_of_eq h.size.symm) fun id => congrArg Session.Ties.exitCode (h.ties id)

theorem StoresOnly.of_outline (h : s'.outline = s.outline) : StoresOnly may s s' := by
  have hsessions : s'.sessions.map Session.outline = s.sessions.map Session.outline :=
    congrArg Prod.snd h
  have hof : ∀ (t : Shell) (id : SessionId), (t.session id).exitCode =
      ((t.sessions.map Session.outline)[id]?.getD default).exitCode := by
    intro t id
    rw [Shell.session, Array.getElem?_map]
    cases t.sessions[id]? <;> rfl
  refine .of_same (Nat.le_of_eq ?_) fun id => ?_
  · simpa using (congrArg Array.size hsessions).symm
  · rw [hof, hof, hsessions]

theorem storesOnly_modifySession {f : Session → Session}
    (h : ∀ session, (f session).exitCode = session.exitCode) :
    StoresOnly may s (modifySession id f s) :=
  .of_same (Nat.le_of_eq (size_modifySession f).symm) fun _ => read_modifySession h

/-- Every step of it stores only what it may, whatever state it finds. -/
abbrev Storing (may : SessionId → Int → Prop) (p : Action Shell α) : Prop :=
  Within (StoresOnly may) p

theorem storing_of_still {p : Action Shell α} (h : Within Still p) : Storing may p :=
  h.mono fun _ _ => .of_still

theorem storing_of_quiet {p : Action Shell α} (h : Quiet p) : Storing may p :=
  h.within fun _ _ => .of_outline

theorem storing_read (f : Shell → α) : Storing may (read f) :=
  within_read .refl f

theorem storing_updateSession {f : Session → Session}
    (h : ∀ session, (f session).exitCode = session.exitCode) : Storing may (updateSession id f) :=
  within_update fun _ => storesOnly_modifySession h

/-! ## The end of a session -/

theorem storing_recordCode (h : may id code) : Storing may (recordCode id code).run := by
  refine within_step fun s => ?_
  dsimp only
  split
  · exact .refl s
  · next hopen =>
    push Not at hopen
    refine ⟨Nat.le_of_eq (size_modifySession _).symm, fun other => ?_⟩
    by_cases ho : other = id
    · subst ho
      rcases Nat.lt_or_ge other s.sessions.size with hlt | hge
      · rw [session_modifySession_self _ hlt]
        exact .inr ⟨by simpa using hopen.2, code, rfl, h⟩
      · rw [session_of_size_le hge, session_of_size_le (by rwa [size_modifySession])]
        exact .inl rfl
    · rw [session_modifySession_of_ne _ ho]
      exact .inl rfl

theorem storing_markDisposed : Storing may (markDisposed id) := by
  refine within_step fun s => ?_
  dsimp only
  cases (s.session id).compiling with
  | none => exact storesOnly_modifySession fun _ => rfl
  | some job =>
    have hcancelled : (cancelJob job s).sessions = s.sessions := rfl
    refine .of_same (Nat.le_of_eq ?_) fun other => ?_
    · rw [Option.elim_some, size_modifySession, hcancelled]
    · have hcode : ∀ t : Shell, ((modifySession id (fun session =>
          { session with
            disposed := true
            compiling := none
            interpreter := none
            main := none
            exitHook := none }) t).session other).exitCode = (t.session other).exitCode :=
        fun _ => read_modifySession fun _ => rfl
      exact hcode _

theorem storing_dispose : Storing may (dispose id) :=
  Within.bind storing_markDisposed fun hook? =>
    Within.bind (storing_of_quiet (quiet_dropHook? hook?)) fun _ =>
    Within.bind (storing_of_quiet quiet_cancelJobs) fun _ =>
    Within.bind (storing_of_quiet quiet_dropTasks) fun _ =>
    Within.bind (storing_of_still (chore_setCurrent false)) fun _ => storing_of_still chore_release

theorem storing_leaveRegistry : Storing may (leaveRegistry id) :=
  within_step fun _ => .of_same (Nat.le_refl _) fun _ => rfl

theorem storing_leave_unhooked (handsOn : Bool) : Storing may (leave id code none handsOn) := by
  refine Within.bind (storing_of_still chore_loseFocus) fun wasCurrent =>
    Within.bind storing_leaveRegistry fun removal => ?_
  cases removal with
  | last => exact within_pure _
  | absent => exact within_pure _
  | removed index remaining =>
    dsimp only
    split
    · exact Within.bind (storing_of_still (chore_handOn index remaining)) fun _ => within_pure _
    · exact within_pure _

theorem storing_leave (hook? : Option ExitHook) (handsOn : Bool) :
    Storing may (leave id code hook? handsOn) := by
  cases hook? with
  | none => exact storing_leave_unhooked handsOn
  | some hook =>
    exact Within.bind (Within.discard (storing_of_quiet (quiet_runHook code hook)).attempt) fun _ =>
      @storing_leave_unhooked id code may handsOn

/-- What remains of an end when the exit code is recorded. -/
theorem storing_recorded (removes handsOn : Bool) (hook? : Option ExitHook) : Storing may (do
    if removes then
      let wasLast ← leave id code hook? handsOn
      dispose id
      if wasLast then terminate code
    else
      dispose id
      dropHook? hook? : Checked Unit).run := by
  cases removes with
  | true =>
    refine Within.run_bind (Within.lift (storing_leave hook? handsOn)) fun wasLast =>
      Within.run_bind (Within.lift storing_dispose) fun _ => ?_
    cases wasLast with
    | true => exact Within.lift (storing_of_quiet (quiet_terminate code))
    | false => exact within_pure _
  | false =>
    exact Within.run_bind (Within.lift storing_dispose) fun _ =>
      Within.lift (storing_of_quiet (quiet_dropHook? hook?))

theorem storing_finish (removes handsOn : Bool) (h : may id code) :
    Storing may (finish id code removes handsOn).run :=
  Within.run_bind (storing_recordCode h) (storing_recorded removes handsOn)

theorem storing_exit (h : may id (ExitCode.sanitize code)) : Storing may (exit id code).run := by
  refine Within.run_bind (storing_of_still chore_ensureLive) fun _ => ?_
  cases ExitCode.remapWarning? code with
  | none => exact storing_finish true true h
  | some message =>
    exact Within.run_bind (Within.lift (storing_of_still (chore_warning message))) fun _ =>
      storing_finish true true h

def killCode (code? : Option Int) : Int :=
  code?.getD ReservedCode.killed.code

theorem storing_killOthers {others : List SessionId} (h : ∀ other, may other code) :
    Storing may (others.forM fun other => discard (caught (finish other code true false)) :
      Checked Unit).run := by
  induction others with
  | nil => exact within_pure _
  | cons other others ih =>
    refine Within.run_bind (Within.bind (Within.lift (storing_finish true false (h other)))
      fun result => ?_) fun _ => ih
    cases result <;> exact within_pure _

theorem storing_killAll {code? : Option Int} (h : ∀ other, may other (killCode code?)) :
    Storing may (killAll id code?).run :=
  Within.run_bind (storing_of_still chore_ensureLive) fun _ =>
    Within.run_bind (Within.lift (storing_read _)) fun _ =>
    Within.run_bind (storing_killOthers h) fun _ => storing_finish true true (h id)

/-! ## Children -/

theorem storing_tryUpdate {f : Session → Except ShellError Session}
    (h : ∀ session session', f session = .ok session' → session'.exitCode = session.exitCode) :
    Storing may (tryUpdate id f).run := by
  refine within_step fun s => ?_
  split
  · next session' heq =>
    refine ⟨Nat.le_of_eq (size_modifySession _).symm, fun other => .inl ?_⟩
    by_cases ho : other = id
    · subst ho
      rcases Nat.lt_or_ge other s.sessions.size with hlt | hge
      · rw [session_modifySession_self _ hlt]
        exact h _ _ heq
      · rw [session_of_size_le hge, session_of_size_le (by rwa [size_modifySession])]
    · rw [session_modifySession_of_ne _ ho]
  · exact .refl s

theorem storing_setMain (main : MainTask) : Storing may (setMain id main).run := by
  refine storing_tryUpdate fun session session' heq => ?_
  split at heq
  · cases heq
  · cases heq
    rfl

theorem storing_setLanguage (language : Language) : Storing may (setLanguage id language).run := by
  refine storing_tryUpdate fun session session' heq => ?_
  split at heq
  · cases heq
  · cases heq
    rfl

theorem storing_putExitHook (hook : ExitHook) : Storing may (putExitHook id hook).run := by
  refine storing_tryUpdate fun session session' heq => ?_
  split at heq
  · cases heq
  · split at heq
    · cases heq
    · cases heq
      rfl

theorem storing_setExitHook (hook : ExitHook) : Storing may (setExitHook id hook).run := by
  refine Within.bind (storing_putExitHook hook) fun result => ?_
  cases result with
  | ok => exact within_pure _
  | error e =>
    exact Within.run_bind (Within.lift (storing_of_quiet (quiet_dropHook? (some hook)))) fun _ =>
      within_pure _

theorem storing_newSession (name : String) (script : Option String) :
    Storing may (newSession name script) := by
  refine within_step fun s => .of_same (by simp) fun other => ?_
  rcases Nat.lt_trichotomy other s.sessions.size with hlt | rfl | hgt
  · simp [Shell.session, Array.getElem?_push, Nat.ne_of_lt hlt]
  · simp [Shell.session, Session.new]
    rfl
  · rw [session_of_size_le (Nat.le_of_lt hgt),
      session_of_size_le (by simpa using Nat.succ_le_of_lt hgt)]

theorem storing_takeFocus : Storing may (takeFocus id) := by
  refine Within.bind (storing_read _) fun previous? => ?_
  cases previous? with
  | none => exact storing_of_still (chore_setCurrent true)
  | some previous =>
    dsimp only
    split
    · exact Within.bind (storing_of_still chore_acquire) fun _ =>
        Within.bind (storing_of_still (chore_setCurrent false)) fun _ =>
        storing_of_still (chore_setCurrent true)
    · exact storing_of_still (chore_setCurrent true)

theorem storing_startThread : Storing may (startThread id) := by
  refine within_step fun s => ?_
  split
  · exact .refl s
  · exact .of_same (Nat.le_refl _) fun _ => rfl

theorem storing_startWith (query : String) (takesFocus : Bool) :
    Storing may (startWith id query takesFocus).run := by
  refine Within.run_bind (storing_of_still chore_ensureLive) fun _ =>
    Within.run_bind (Within.lift (storing_read _)) fun language? => ?_
  cases language? with
  | none => exact within_pure _
  | some language =>
    refine Within.run_bind (storing_setLanguage language) fun _ =>
      Within.run_bind (Within.lift (storing_updateSession fun _ => rfl)) fun _ =>
      Within.run_bind (Within.lift (within_update fun _ => .of_same (Nat.le_refl _) fun _ => rfl))
        fun _ => ?_
    have hrest : Storing may (do
        consolePlace.start
        let started ← startThread id
        unless started do
          discard (leaveRegistry id)
          dispose id
          throw threadRefused : Checked Unit).run := by
      refine Within.run_bind (Within.lift (storing_of_still chore_consoleStart)) fun _ =>
        Within.run_bind (Within.lift storing_startThread) fun started => ?_
      cases started with
      | true => exact within_pure _
      | false =>
        exact Within.run_bind (Within.bind (Within.lift storing_leaveRegistry) fun r => by
            cases r <;> exact within_pure _) fun _ =>
          Within.run_bind (Within.lift storing_dispose) fun _ => within_pure _
    cases takesFocus with
    | true => exact Within.run_bind (Within.lift storing_takeFocus) fun _ => hrest
    | false =>
      exact Within.run_bind (Within.lift (storing_updateSession fun _ => rfl)) fun _ => hrest

theorem storing_forkWith_started (child : SessionId) (language : String) :
    Storing may (do
      match ← caught (startWith child language false) with
      | .ok () => return child
      | .error e =>
        dispose child
        throw e : Checked SessionId).run := by
  refine Within.run_bind (Within.lift (storing_startWith language false)) fun result => ?_
  cases result with
  | ok => exact within_pure _
  | error e => exact Within.run_bind (Within.lift storing_dispose) fun _ => within_pure _

theorem storing_forkWith (options : ForkOptions) (main : MainTask) :
    Storing may (forkWith id options main).run := by
  refine Within.run_bind (Within.lift (storing_read _)) fun language =>
    Within.run_bind (Within.lift (storing_read _)) fun parent =>
    Within.run_bind (Within.lift (storing_newSession _ _)) fun child =>
    Within.run_bind (storing_setMain main) fun _ => ?_
  cases childHook id options with
  | none => exact storing_forkWith_started child language
  | some hook =>
    exact Within.run_bind (storing_setExitHook hook) fun _ =>
      storing_forkWith_started child language

theorem storing_childMain (options : ForkOptions) : Storing may (childMain options) := by
  unfold childMain
  split
  · exact within_pure _
  · refine Within.bind (storing_read _) fun file? => ?_
    cases file? <;> exact within_pure _

theorem storing_fork (options : ForkOptions) : Storing may (fork id options).run := by
  refine Within.run_bind (Within.lift (storing_read _)) fun session => ?_
  cases session.disposed with
  | true =>
    exact Within.run_bind (Within.lift (storing_of_quiet (quiet_dropHook? _))) fun _ =>
      within_pure _
  | false =>
    refine Within.run_bind (Within.lift (storing_childMain options)) fun main? => ?_
    cases main? with
    | some main => exact Within.run_bind (storing_forkWith options main) fun _ => within_pure _
    | none =>
      refine Within.run_bind (Within.lift (storing_of_quiet (quiet_reportError _))) fun _ => ?_
      cases options.hook with
      | none => exact within_pure _
      | some hook =>
        exact Within.run_bind (Within.lift (storing_of_quiet (quiet_runHook _ hook))) fun _ =>
          within_pure _

/-! ## What scripts ask for -/

theorem storing_awaitExit (target : SessionId) (extra : ExitHook) :
    Storing may (awaitExit target extra).run := by
  refine Within.run_bind (Within.lift (storing_of_still chore_self)) fun me =>
    Within.run_bind (Within.lift (storing_read _)) fun session => ?_
  split
  · exact within_pure _
  · refine Within.run_bind (Within.lift (storing_of_still chore_isUiThread)) fun ui => ?_
    split
    · exact within_pure _
    · refine Within.run_bind
        (Within.lift (within_step fun _ => .of_same (Nat.le_refl _) fun _ => rfl))
        fun latch => Within.run_bind (Within.lift (storing_setExitHook _)) fun result => ?_
      split
      · refine Within.run_bind (Within.lift (within_await fun s a s' hs => ?_)) fun _ =>
          Within.lift (storing_read _)
        split at hs
        · cases hs
          exact .refl s
        · cases hs
      · exact Within.lift (storing_read _)
      · exact within_pure _

theorem storing_waitAt (index : Nat) : Storing may (waitAt index).run := by
  refine Within.run_bind (Within.lift (storing_read _)) fun target? => ?_
  cases target? with
  | none => exact Within.run_bind (Within.lift (storing_read _)) fun _ => within_pure _
  | some target => exact storing_awaitExit target .nothing

theorem storing_forkScript (script : String) : Storing may (forkScript id script).run := by
  refine Within.run_bind (storing_fork _) fun child? => ?_
  cases child? with
  | some child => exact Within.lift (storing_read _)
  | none => exact within_pure _

theorem storing_asFault {p : Checked α} (h : Storing may p.run) : Storing may (asFault p) :=
  h.bind fun result => by cases result <;> exact within_pure _

end Shell

/-- The codes that a request can have stored, and the sessions. -/
def HostRequest.MayStore (r : HostRequest SessionId) (id : SessionId) (code : Int) : Prop :=
  match r.call with
  | .exit chosen => id = r.host ∧ code = ExitCode.sanitize chosen
  | .kill chosen? => code = Shell.killCode chosen?
  | _ => False

namespace Shell

open Action

variable {s s' : Shell} {id other : SessionId} {code : Int} {may : SessionId → Int → Prop}

theorem storing_answerHost (r : HostRequest SessionId)
    (h : ∀ id code, r.MayStore id code → may id code) : Storing may (answerHost r) := by
  obtain ⟨id, call⟩ := r
  cases call with
  | name => exact Within.bind (storing_read _) fun _ => within_pure _
  | out text => exact storing_asFault (storing_of_still (chore_out text))
  | exit code => exact storing_asFault (storing_exit (h id _ ⟨rfl, rfl⟩))
  | jump index => exact storing_asFault (storing_of_still (chore_jumpTo index))
  | fork script => exact storing_asFault (storing_forkScript script)
  | link path => exact Within.bind (storing_of_still (chore_link path)) fun _ => within_pure _
  | kill code? => exact storing_asFault (storing_killAll fun other => h other _ rfl)
  | list => exact Within.bind (storing_read _) fun _ => within_pure _
  | wait index => exact storing_asFault (storing_waitAt index)
  | compile source output => exact storing_of_still (chore_compile source output _ [])
  | cancel index => exact storing_asFault (storing_of_still (chore_cancelAt index))
  | join index => exact storing_asFault (storing_of_still (chore_join index))
  | jobs => exact Within.bind (storing_read _) fun _ => within_pure _

/-- Whatever a script is answered, and whatever others do in between, a step of its evaluation
stores only what the script may ask to be stored. -/
theorem storing_evalWith (interpreter : SessionInterpreter) (text : String)
    (source : Option String) :
    Storing (fun id code => ∃ r, (interpreter.eval text source).MayAsk r ∧ r.MayStore id code)
      (evalWith interpreter text source) := by
  have hscript : Storing
      (fun id code => ∃ r, (interpreter.eval text source).MayAsk r ∧ r.MayStore id code)
      ((interpreter.eval text source).expand answerHost) :=
    within_expand fun r hr => storing_answerHost r fun id code hcode => ⟨r, hr, hcode⟩
  refine Within.bind hscript.attempt fun result? => ?_
  cases result? <;> exact within_pure _

/-! ## What has become of a call that was not refused -/

structure KeepsCodes (s s' : Shell) : Prop where
  size : s.sessions.size ≤ s'.sessions.size
  codes : ∀ id code, (s.session id).exitCode = some code → (s'.session id).exitCode = some code

theorem StoresOnly.keeps (h : StoresOnly may s s') : KeepsCodes s s' := by
  refine ⟨h.size, fun id code hcode => ?_⟩
  rcases h.codes id with hsame | ⟨hnone, -⟩
  · rw [hsame, hcode]
  · rw [hnone] at hcode
    cases hcode

theorem KeepsCodes.refl (s : Shell) : KeepsCodes s s :=
  ⟨Nat.le_refl _, fun _ _ h => h⟩

theorem Storing.upholds {α : Type} {me : ThreadId} {P : Shell → Prop} {p : Action Shell α}
    (hp : Storing may p) (hP : Stable KeepsCodes P) :
    Upholds KeepsCodes (StoresOnly may) me P p fun _ => P := by
  intro s hs
  induction p generalizing s with
  | done a => exact fun s' hr => hP s s' hs hr
  | crash => exact fun s' hr => hP s s' hs hr
  | ask act next ih =>
    intro s' answer s'' hr hact
    have hstored := hp.1 me s' answer s'' hact
    exact ⟨hstored, ih answer (hp.2 answer) s'' (hP s' s'' (hP s s' hs hr) hstored.keeps)⟩

/-- If the call was not refused, the code is stored. -/
def LeavesCode (id : SessionId) (code : Int) (fate : Fate (Except ShellError Unit)) (s : Shell) :
    Prop :=
  fate = .returned (.ok ()) → (s.session id).exitCode = some code

section

variable {me : ThreadId} {removes handsOn : Bool}

theorem stable_known : Stable KeepsCodes fun s => id < s.sessions.size :=
  fun _ _ h hr => Nat.lt_of_lt_of_le h hr.size

theorem stable_stored : Stable KeepsCodes fun s => (s.session id).exitCode = some code :=
  fun _ _ h hr => hr.codes id code h

theorem upholds_recordCode_stored (h : may id code) :
    Upholds KeepsCodes (StoresOnly may) me (fun s => id < s.sessions.size) (recordCode id code).run
      (Fate.Returns fun r s => r.isOk = true → (s.session id).exitCode = some code) := by
  intro s hs s' answer s'' hr hact
  have hlt := stable_known s s' hs hr
  refine ⟨(storing_recordCode h).1 me s' answer s'' hact, fun t ht hok => ?_⟩
  refine stable_stored s'' t ?_ ht
  have hstep := Option.some.inj hact
  dsimp only at hstep
  split at hstep
  · cases hstep
    cases hok
  · cases hstep
    exact congrArg Session.exitCode (session_modifySession_self _ hlt)

theorem upholds_finish_stored (h : may id code) :
    Upholds KeepsCodes (StoresOnly may) me (fun s => id < s.sessions.size)
      (finish id code removes handsOn).run (LeavesCode id code) := by
  refine Upholds.run_bind (upholds_recordCode_stored h) .refl (fun hook? s hs => ?_) fun e s _ => ?_
  · exact ((storing_recorded removes handsOn hook?).upholds stable_stored s (hs rfl)).mono
      fun fate s' hs' _ => hs'
  · rintro s' - heq
    cases heq

theorem Storing.run_bind_leavesCode {α : Type} {p : Checked α} {f : α → Checked Unit}
    (hp : Storing may p.run) (hf : ∀ a, Upholds KeepsCodes (StoresOnly may) me
      (fun s => id < s.sessions.size) (f a).run (LeavesCode id code)) :
    Upholds KeepsCodes (StoresOnly may) me (fun s => id < s.sessions.size) (p >>= f).run
      (LeavesCode id code) := by
  intro s hs
  refine (hp.upholds stable_known s hs).bind_fate .refl (fun r s' hs' => ?_) fun s' _ heq => ?_
  · cases r with
    | ok a => exact hf a s' hs'
    | error e =>
      rintro t - heq
      cases heq
  · cases heq

theorem upholds_exit_stored (h : may id (ExitCode.sanitize code)) :
    Upholds KeepsCodes (StoresOnly may) me (fun s => id < s.sessions.size) (exit id code).run
      (LeavesCode id (ExitCode.sanitize code)) := by
  refine Storing.run_bind_leavesCode (storing_of_still chore_ensureLive) fun _ => ?_
  cases ExitCode.remapWarning? code with
  | none => exact upholds_finish_stored h
  | some message =>
    exact Storing.run_bind_leavesCode (Within.lift (storing_of_still (chore_warning message)))
      fun _ => upholds_finish_stored h

theorem upholds_killAll_stored {code? : Option Int} (h : ∀ other, may other (killCode code?)) :
    Upholds KeepsCodes (StoresOnly may) me (fun s => id < s.sessions.size) (killAll id code?).run
      (LeavesCode id (killCode code?)) :=
  Storing.run_bind_leavesCode (storing_of_still chore_ensureLive) fun _ =>
    Storing.run_bind_leavesCode (Within.lift (storing_read _)) fun _ =>
    Storing.run_bind_leavesCode (storing_killOthers h) fun _ => upholds_finish_stored (h id)

end

/-- What scripts can have stored. A step of a script's evaluation stores nothing but what the
script may ask for, whatever state it finds. An exit stores the code moved out of the way of the
signals, in the session alone. A kill stores its code as it is, so it can pose as a signal if the
code is taken. -/
theorem stored_by_scripts (interpreter : SessionInterpreter) (text : String)
    (source : Option String)
    (me : ThreadId) (id : SessionId) (chosen : Int) (chosen? : Option Int) :
    Storing (fun id code => ∃ r, (interpreter.eval text source).MayAsk r ∧ r.MayStore id code)
      (evalWith interpreter text source) ∧
    Upholds KeepsCodes (StoresOnly fun other code => other = id ∧ code = ExitCode.sanitize chosen)
      me (fun s => id < s.sessions.size) (exit id chosen).run
      (LeavesCode id (ExitCode.sanitize chosen)) ∧
    Upholds KeepsCodes (StoresOnly fun _ code => code = killCode chosen?)
      me (fun s => id < s.sessions.size) (killAll id chosen?).run
      (LeavesCode id (killCode chosen?)) ∧
    ¬ExitCode.IsSignal (ExitCode.sanitize chosen) ∧
    (killCode (some chosen) = ExitCode.sanitize chosen ↔ ¬ExitCode.IsTaken chosen) :=
  ⟨storing_evalWith interpreter text source, upholds_exit_stored ⟨rfl, rfl⟩,
    upholds_killAll_stored fun _ => rfl, ExitCode.not_isSignal_sanitize chosen,
    eq_comm.trans ExitCode.sanitize_eq_iff⟩

/-- Two sessions, the first of which is in focus. -/
def twoSessions : Shell :=
  let new : Shell := .new (.default 1) (.empty "") .empty ⟨[], true⟩ true false
  let one : Shell := aloneOr 0 (start 0 "calc").run (aloneOr 0 (newSession "a" none) new)
  aloneOr 0 (fork 0 {}).run one

def killRequest : HostRequest SessionId :=
  ⟨0, .kill (some 31)⟩

/-- Where that leaves them, when nothing is left to do but to wait for the output. -/
def killed : Shell :=
  ((answerHost killRequest).advance 1 twoSessions).2.2

/-- The code of that kill is stored in both sessions, and it poses as a signal of the shell. -/
theorem signal_of_kill :
    (twoSessions.session 0).exitCode = none ∧ (twoSessions.session 1).exitCode = none ∧
    (killed.session 0).exitCode = some 31 ∧ (killed.session 1).exitCode = some 31 ∧
    ExitCode.sanitize 31 = 47 ∧ ExitCode.IsSignal 31 :=
  ⟨rfl, rfl, rfl, rfl, rfl, .noFile, by decide, rfl⟩

/-- An exit and a kill of the first of them, each with the code for a missing file. -/
theorem stored_by_scripts_noFile :
    0 < twoSessions.sessions.size ∧
    Safe KeepsCodes (StoresOnly fun other code => other = 0 ∧ code = 47) 1 (LeavesCode 0 47)
      (exit 0 31).run twoSessions ∧
    Safe KeepsCodes (StoresOnly fun _ code => code = 31) 1 (LeavesCode 0 31)
      (killAll 0 (some 31)).run twoSessions := by
  have hknown : 0 < twoSessions.sessions.size := by decide
  obtain ⟨-, hexit, hkill, -⟩ := stored_by_scripts .bare "" none 1 0 31 (some 31)
  exact ⟨hknown, hexit _ hknown, hkill _ hknown⟩

end Shell

end SessionShell
