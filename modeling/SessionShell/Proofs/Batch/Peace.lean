import SessionShell.Proofs.Batch.Record
import SessionShell.Proofs.Ending.Codes

/-!
Scripts that neither fork nor kill.

All that such a script does to sessions that it can keep in mind is to end its own. So whatever
steps are taken while it is evaluated on the thread of its session are peaceful.
-/

namespace SessionShell

open Action

/-- Asks a session for something else than to make another one or to end all. -/
def HostRequest.IsPeaceful (r : HostRequest SessionId) : Prop :=
  match r.call with
  | .fork _ => False
  | .kill _ => False
  | _ => True

namespace Shell

variable {id target : SessionId} {code : Int} {α ε : Type}

abbrev Peopled (p : Action Shell α) : Prop :=
  Within (fun s s' => s'.sessions.size = s.sessions.size) p

theorem peopled_of_still {p : Action Shell α} (h : Within Still p) : Peopled p :=
  h.mono fun _ _ hstill => hstill.size

theorem peopled_of_quiet {p : Action Shell α} (h : Quiet p) : Peopled p :=
  h.within fun s s' hsame => by
    have hsessions := congrArg (fun o : Registry × Array Session => o.2.size) hsame
    simpa [outline] using hsessions

theorem peopled_read (f : Shell → α) : Peopled (read f) :=
  within_step fun _ => rfl

theorem peopled_recordCode : Peopled (recordCode id code).run :=
  within_step fun s => by
    dsimp only
    split
    · rfl
    · exact size_modifySession _

theorem peopled_markDisposed : Peopled (markDisposed id) :=
  within_step fun s => by
    dsimp only
    cases (s.session id).compiling with
    | none => exact size_modifySession _
    | some job => exact size_modifySession (s := cancelJob job s) _

theorem peopled_dispose : Peopled (dispose id) :=
  Within.bind peopled_markDisposed fun hook? =>
    Within.bind (peopled_of_quiet (quiet_dropHook? hook?)) fun _ =>
    Within.bind (peopled_of_quiet quiet_cancelJobs) fun _ =>
    Within.bind (peopled_of_quiet quiet_dropTasks) fun _ =>
    Within.bind (peopled_of_still (chore_setCurrent false)) fun _ => peopled_of_still chore_release

theorem peopled_leave (hook? : Option ExitHook) (handsOn : Bool) :
    Peopled (leave id code hook? handsOn) := by
  have hleave : Peopled (leave id code none handsOn) := by
    refine Within.bind (peopled_of_still chore_loseFocus) fun wasCurrent =>
      Within.bind (within_step fun _ => rfl) fun removal => ?_
    cases removal with
    | last => exact within_pure _
    | absent => exact within_pure _
    | removed index remaining =>
      dsimp only
      split
      · exact Within.bind (peopled_of_still (chore_handOn index remaining)) fun _ => within_pure _
      · exact within_pure _
  cases hook? with
  | none => exact hleave
  | some hook =>
    exact Within.bind (Within.discard (peopled_of_quiet (quiet_runHook code hook)).attempt) fun _ =>
      hleave

theorem peopled_finish (handsOn : Bool) : Peopled (finish id code true handsOn).run := by
  refine Within.run_bind peopled_recordCode fun hook? =>
    Within.run_bind (Within.lift (peopled_leave hook? handsOn)) fun wasLast =>
    Within.run_bind (Within.lift peopled_dispose) fun _ => ?_
  cases wasLast with
  | true => exact Within.lift (peopled_of_quiet (quiet_terminate code))
  | false => exact within_pure _

theorem peopled_exit : Peopled (exit id code).run := by
  refine Within.run_bind (peopled_of_still chore_ensureLive) fun _ => ?_
  cases ExitCode.remapWarning? code with
  | none => exact peopled_finish true
  | some message =>
    exact Within.run_bind (Within.lift (peopled_of_still (chore_warning message))) fun _ =>
      peopled_finish true

theorem peopled_setExitHook (hook : ExitHook) : Peopled (setExitHook id hook).run := by
  have hput : Peopled (putExitHook id hook).run := within_step fun s => by
    split
    · exact size_modifySession _
    · rfl
  refine Within.bind hput fun result => ?_
  cases result with
  | ok => exact within_pure _
  | error e =>
    exact Within.run_bind (Within.lift (peopled_of_quiet (quiet_dropHook? (some hook)))) fun _ =>
      within_pure _

theorem peopled_awaitExit (extra : ExitHook) : Peopled (awaitExit target extra).run := by
  refine Within.run_bind (Within.lift (peopled_of_still chore_self)) fun me =>
    Within.run_bind (Within.lift (peopled_read _)) fun session => ?_
  split
  · exact within_pure _
  · refine Within.run_bind (Within.lift (peopled_of_still chore_isUiThread)) fun ui => ?_
    split
    · exact within_pure _
    · refine Within.run_bind (Within.lift (within_step fun _ => rfl)) fun latch =>
        Within.run_bind (Within.lift (peopled_setExitHook _)) fun result => ?_
      split
      · refine Within.run_bind (Within.lift (within_await fun s a s' hs => ?_)) fun _ =>
          Within.lift (peopled_read _)
        split at hs
        · cases hs
          rfl
        · cases hs
      · exact Within.lift (peopled_read _)
      · exact within_pure _

theorem peopled_waitAt (index : Nat) : Peopled (waitAt index).run := by
  refine Within.run_bind (Within.lift (peopled_read _)) fun target? => ?_
  cases target? with
  | none => exact Within.run_bind (Within.lift (peopled_read _)) fun _ => within_pure _
  | some target => exact peopled_awaitExit .nothing

theorem peopled_asFault {p : Checked α} (h : Peopled p.run) : Peopled (asFault p) :=
  h.bind fun result => by cases result <;> exact within_pure _

theorem peopled_answerHost (r : HostRequest SessionId) (h : r.IsPeaceful) :
    Peopled (answerHost r) := by
  obtain ⟨id, call⟩ := r
  cases call with
  | name => exact Within.bind (peopled_read _) fun _ => within_pure _
  | out text => exact peopled_asFault (peopled_of_still (chore_out text))
  | exit code => exact peopled_asFault peopled_exit
  | jump index => exact peopled_asFault (peopled_of_still (chore_jumpTo index))
  | fork script => exact h.elim
  | link path => exact Within.bind (peopled_of_still (chore_link path)) fun _ => within_pure _
  | kill code? => exact h.elim
  | list => exact Within.bind (peopled_read _) fun _ => within_pure _
  | wait index => exact peopled_asFault (peopled_waitAt index)
  | compile source output => exact peopled_of_still (chore_compile source output _ [])
  | cancel index => exact peopled_asFault (peopled_of_still (chore_cancelAt index))
  | join index => exact peopled_asFault (peopled_of_still (chore_join index))
  | jobs => exact Within.bind (peopled_read _) fun _ => within_pure _

end Shell

namespace BatchSite

open Shell

variable {b : BatchSite} {s s' : Shell} {id : SessionId}

/-- Is peaceful when it is taken by the thread of a session. -/
def PeacefulFor (b : BatchSite) (id : SessionId) (s s' : Shell) : Prop :=
  ∀ me, (s.session id).owner = some me → b.Peaceful me s s'

theorem peacefulFor_of_storesOnly (hsize : s'.sessions.size = s.sessions.size)
    (h : StoresOnly (fun other _ => other = id) s s') : b.PeacefulFor id s s' := by
  refine fun me howner => ⟨.inr hsize, fun other _ => ?_⟩
  rcases h.codes other with hsame | ⟨-, code, -, rfl⟩
  · exact .inl hsame
  · exact .inr howner

theorem peaceful_evalWith {interpreter : SessionInterpreter} (hown : interpreter.BindsOnly (· = id))
    (text : String) (source : Option String)
    (h : ∀ r, (interpreter.eval text source).MayAsk r → r.IsPeaceful) :
    Within (b.PeacefulFor id) (evalWith interpreter text source) := by
  have hscript : Within (b.PeacefulFor id) ((interpreter.eval text source).expand answerHost) := by
    refine within_expand fun r hr => ?_
    have hhost : r.host = id := (Interpreter.asks_eval hown text source).of_mayAsk hr
    have hstores : Storing (fun other _ => other = id) (answerHost r) := by
      refine storing_answerHost r fun other code hmay => ?_
      obtain ⟨host, call⟩ := r
      cases call with
      | exit chosen => exact hmay.1.trans hhost
      | kill chosen? => exact (h _ hr).elim
      | _ => exact hmay.elim
    exact ((peopled_answerHost r (h r hr)).and hstores).mono fun _ _ hboth =>
      peacefulFor_of_storesOnly hboth.1 hboth.2
  refine Within.bind hscript.attempt fun result? => ?_
  cases result? <;> exact within_pure _

end BatchSite

end SessionShell
