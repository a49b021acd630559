import SessionShell.Proofs.Action.Observed
import SessionShell.Proofs.Shell.Hooks
import SessionShell.Shell.Life

/-!
Chores: what is done all the time.

Sessions write, read, wait and hand the focus on, jobs run, and workers are started. None of this
makes a session or ends one, gives it a task or takes one away, sets an exit hook or runs one,
enters the registry or leaves it, or sends anything to a batch. What several arguments need of
chores is said here once, of any relation that lets such steps pass.
-/

namespace SessionShell

open Action

structure Session.Ties where
  exitCode : Option Int
  disposed : Bool
  exitHook : Option ExitHook
  owner : Option ThreadId
  deriving DecidableEq

def Session.ties (s : Session) : Session.Ties :=
  ⟨s.exitCode, s.disposed, s.exitHook, s.owner⟩

structure Session.Duty where
  main : Option MainTask
  tasks : List Task
  interpreter : Option (Interpreter SessionId)

def Session.duty (s : Session) : Session.Duty :=
  ⟨s.main, s.tasks, s.interpreter⟩

/-- What chores do not change of a session. -/
def Session.lot (s : Session) : Session.Ties × Session.Duty × Option Language :=
  (s.ties, s.duty, s.language)

def Role.IsService : Role → Prop
  | .stream _ => True
  | .compiler => True
  | .session .. => False

def Event.ended? : Event → Option Int
  | .ended code => some code
  | _ => none

namespace Shell

/-- The codes with which the last session was said to have exited. -/
def endedCodes (s : Shell) : List Int :=
  s.events.toList.filterMap Event.ended?

def rim (s : Shell) : (Registry × Array Channel) × (Settings × Bool) × (List Int × Option Int) ×
    Array ThreadName × List (ThreadId × Role) :=
  ((s.registry, s.channels), (s.settings, s.endsProcess), (s.endedCodes, s.ended), s.threads,
    s.started)

def SparesSessions (s : Shell) : Prop :=
  ∀ r ∈ s.pool.jobs, r.listener.endsSession = false

def frame (s : Shell) :=
  (s.sessions, s.pool.jobs, s.rim)

/-- A relation that lets all chores pass. -/
class AllowsChores (R : Shell → Shell → Prop) : Prop where
  trans {s s' s'' : Shell} (h : R s s') (h' : R s' s'') : R s s''
  same {s s' : Shell} (h : (s'.sessions, s'.rim) = (s.sessions, s.rim))
    (hspares : s.SparesSessions → s'.SparesSessions) : R s s'
  session {s : Shell} {id : SessionId} {f : Session → Session} (h : ∀ x, (f x).lot = x.lot) :
    R s (modifySession id f s)
  launch {s : Shell} {name : ThreadName} {role : Role} (h : role.IsService) :
    R s (launch name role s)

variable {R : Shell → Shell → Prop} [AllowsChores R] {s s' : Shell} {id : SessionId} {α β ρ : Type}

theorem AllowsChores.refl (s : Shell) : R s s :=
  AllowsChores.same rfl id

theorem AllowsChores.frame (h : s'.frame = s.frame) : R s s' := by
  simp only [Shell.frame, Prod.mk.injEq] at h
  refine AllowsChores.same (by rw [h.1, h.2.2]) fun hs => ?_
  rw [SparesSessions, h.2.1]
  exact hs

theorem chore_modifyJob {job : JobId} {f : JobRecord SessionListener → JobRecord SessionListener}
    (h : ∀ r, (f r).listener.endsSession = r.listener.endsSession) :
    R s { s with pool := s.pool.modifyJob job f } := by
  refine AllowsChores.same rfl fun hs r hr => ?_
  obtain ⟨i, hi, rfl⟩ := Array.mem_iff_getElem.mp hr
  have hlt : i < s.pool.jobs.size := by simpa [Pool.modifyJob] using hi
  have hin := hs _ (Array.getElem_mem hlt)
  simp only [Pool.modifyJob, Array.getElem_modify]
  split
  · rw [h]
    exact hin
  · exact hin

theorem chore_cancelJob (job : JobId) : R s (cancelJob job s) :=
  chore_modifyJob (by exact fun _ => rfl)

theorem chore_foldl {f : Shell → β → Shell} (h : ∀ s b, R s (f s b)) (bs : List β) (s : Shell) :
    R s (bs.foldl f s) := by
  induction bs generalizing s with
  | nil => exact AllowsChores.refl s
  | cons b bs ih => exact AllowsChores.trans (h s b) (ih _)

theorem chore_step {f : Shell → α × Shell} (h : ∀ s, (f s).2.frame = s.frame) :
    Within R (step f) :=
  within_step fun s => AllowsChores.frame (h s)

theorem chore_updateSession {f : Session → Session} (h : ∀ x, (f x).lot = x.lot) :
    Within R (updateSession id f) :=
  within_update fun _ => AllowsChores.session h

theorem chore_read (f : Shell → α) : Within R (read f) :=
  within_read AllowsChores.refl f

theorem chore_self : Within R (self : Action Shell ThreadId) :=
  within_self AllowsChores.refl

theorem chore_of_keeps {p : Action Shell α} (h : Keeps (fun s => s) p) : Within R p :=
  h.within fun s s' heq => by
    rw [show s' = s from heq]
    exact AllowsChores.refl s

/-! ## Output -/

theorem chore_print (text : String) : Within R (consolePlace.print text) :=
  chore_step fun _ => rfl

theorem chore_printError (text : String) : Within R (consolePlace.printError text) :=
  chore_step fun _ => rfl

theorem chore_note {event : Event} (h : event.ended? = none) : Within R (note event) :=
  chore_step fun s => by simp [frame, rim, endedCodes, h]

theorem chore_currentThread : Within R currentThread :=
  chore_of_keeps keeps_currentThread

theorem chore_isUiThread : Within R isUiThread :=
  Within.bind chore_self fun _ => chore_read _

theorem chore_ensureLive : Within R (ensureLive id).run :=
  chore_of_keeps keeps_ensureLive

theorem chore_out (text : String) : Within R (out id text).run :=
  Within.run_bind chore_ensureLive fun _ => Within.lift (chore_print text)

theorem chore_sayLine (text : String) : Within R (sayLine id text) :=
  Within.discard (chore_out _)

theorem chore_reportError (fault : Fault) : Within R (reportError fault) :=
  Within.bind (chore_read _) fun _ => chore_printError _

theorem chore_warning (message : String) : Within R (warning message) :=
  Within.bind (chore_read _) fun _ => chore_printError _

/-! ## Streams -/

section Stream

variable {slot : StreamAt Shell ρ}

theorem chore_streamStart (hset : ∀ service s, (slot.set service s).frame = s.frame)
    (hlaunch : ∀ s, R s (slot.launch s)) : Within R slot.start :=
  within_update fun s => by
    dsimp only
    split
    · exact AllowsChores.refl s
    · exact AllowsChores.trans (AllowsChores.frame (hset _ s)) (hlaunch _)

theorem chore_streamSync (hset : ∀ service s, (slot.set service s).frame = s.frame)
    (hlaunch : ∀ s, R s (slot.launch s)) : Within R slot.sync := by
  refine Within.bind (chore_streamStart hset hlaunch) fun _ =>
    Within.bind (chore_step fun s => hset _ s) fun mark => within_await fun s _ s' hs => ?_
  split at hs
  · cases hs
    exact AllowsChores.refl s
  · cases hs

theorem chore_serveNext {serve : ρ → Action Shell Unit}
    (hset : ∀ service s, (slot.set service s).frame = s.frame)
    (hserve : ∀ r, Within R (serve r)) : Within R (slot.serveNext serve) := by
  refine Within.bind (within_await fun s _ s' hs => ?_) fun q => ?_
  · obtain ⟨taken, -, heq⟩ := Option.map_eq_some_iff.mp hs
    cases heq
    exact AllowsChores.frame (hset _ s)
  · cases q with
    | request r => exact (hserve r).attempt.discard
    | mark id => exact within_update fun s => AllowsChores.frame (hset _ s)

end Stream

theorem chore_consoleStart : Within R consolePlace.start :=
  Within.bind (chore_streamStart (fun _ _ => rfl) fun _ => AllowsChores.launch trivial) fun _ =>
    Within.bind (chore_streamStart (fun _ _ => rfl) fun _ => AllowsChores.launch trivial) fun _ =>
      chore_streamStart (fun _ _ => rfl) fun _ => AllowsChores.launch trivial

theorem chore_consoleSync : Within R consolePlace.sync :=
  Within.bind (chore_streamSync (fun _ _ => rfl) fun _ => AllowsChores.launch trivial) fun _ =>
    chore_streamSync (fun _ _ => rfl) fun _ => AllowsChores.launch trivial

theorem chore_consoleModify (f : Console → Console) : Within R (consolePlace.modify f) :=
  chore_step fun _ => rfl

theorem chore_serveLine (r : LineRequest) : Within R (consolePlace.serveLine r) := by
  refine Within.bind chore_consoleSync fun _ => Within.bind (chore_consoleModify _) fun _ =>
    Within.bind (within_await fun s _ s' hs => ?_) fun _ => chore_consoleModify _
  obtain ⟨taken, -, heq⟩ := Option.map_eq_some_iff.mp hs
  cases heq
  exact AllowsChores.frame rfl

theorem chore_consoleWork (name : StreamName) : Within R (consolePlace.work name) := by
  cases name with
  | out => exact chore_serveNext (fun _ _ => rfl) fun _ => chore_consoleModify _
  | err => exact chore_serveNext (fun _ _ => rfl) fun _ => chore_consoleModify _
  | input => exact chore_serveNext (fun _ _ => rfl) chore_serveLine

/-! ## Focus -/

theorem chore_setCurrent (current : Bool) : Within R (setCurrent id current) :=
  chore_updateSession fun _ => rfl

theorem chore_release : Within R (release id) :=
  chore_updateSession fun _ => rfl

theorem chore_grantFocus : Within R (grantFocus id) :=
  Within.bind (chore_setCurrent true) fun _ => chore_release

theorem chore_acquire : Within R (acquire id) := by
  refine Within.bind (within_step fun s => ?_) fun ticket => within_await fun s _ s' hs => ?_
  · exact AllowsChores.session fun _ => rfl
  · obtain ⟨focus, -, heq⟩ := Option.map_eq_some_iff.mp hs
    cases heq
    exact AllowsChores.session fun _ => rfl

theorem chore_loseFocus : Within R (loseFocus id) :=
  within_step fun _ => AllowsChores.session fun _ => rfl

theorem chore_handOn (index remaining : Nat) : Within R (handOn index remaining) := by
  refine Within.bind (chore_read _) fun target? => ?_
  cases target? with
  | none => exact within_pure _
  | some target => exact chore_grantFocus

theorem chore_jumpTo (index : Nat) : Within R (jumpTo id index).run := by
  refine Within.run_bind chore_ensureLive fun _ => Within.run_bind
    (Within.lift chore_acquire) fun _ =>
    Within.run_bind (Within.lift (chore_read _)) fun target? => ?_
  cases target? with
  | none =>
    exact Within.run_bind (Within.lift chore_grantFocus) fun _ =>
      Within.run_bind (Within.lift (chore_read _)) fun _ => within_pure _
  | some target =>
    refine Within.run_bind (Within.lift (chore_read _)) fun other => ?_
    split
    · exact Within.run_bind (Within.lift chore_grantFocus) fun _ => within_pure _
    · split
      · exact Within.lift chore_grantFocus
      · exact Within.run_bind (Within.lift (chore_setCurrent false)) fun _ =>
          Within.lift chore_grantFocus

theorem chore_drainFocus : Within R (drainFocus id) :=
  chore_updateSession fun _ => rfl

theorem chore_giveFocus (child : SessionId) : Within R (giveFocus id child) := by
  refine Within.bind (chore_read _) fun session => ?_
  split
  · refine Within.bind (chore_read _) fun index? => ?_
    cases index? with
    | some index => exact Within.discard (chore_jumpTo index)
    | none => exact within_pure _
  · exact within_pure _

theorem chore_refocus (run : BatchRun) : Within R (refocus id run) := by
  refine Within.bind (chore_read _) fun session => ?_
  split
  · refine Within.bind (chore_read _) fun child? => ?_
    cases child? with
    | some child => exact chore_giveFocus child.session
    | none => exact within_pure _
  · exact within_pure _

theorem chore_askLine (text : String) : Within R (askLine id text).run := by
  refine Within.run_bind chore_ensureLive fun _ => Within.run_bind (Within.lift ?_) fun _ =>
    Within.run_bind (Within.lift (chore_read _)) fun session =>
    Within.run_bind (Within.lift (chore_consoleModify _)) fun _ =>
    Within.run_bind (Within.lift (chore_step fun _ => rfl)) fun _ =>
    Within.run_bind (Within.lift ?_) fun outcome =>
    Within.run_bind (Within.lift ?_) fun _ => within_pure _
  · refine within_await fun s _ s' hs => ?_
    split at hs
    · cases hs
    · cases hs
      exact AllowsChores.session fun _ => rfl
  · refine within_await fun s _ s' hs => ?_
    split at hs
    · cases hs
      exact AllowsChores.frame rfl
    · cases hs
  · exact chore_updateSession fun _ => rfl

theorem chore_prompt (text : String) : Within R (prompt id text).run := by
  refine Within.run_bind chore_ensureLive fun _ => Within.run_bind
    (Within.lift chore_acquire) fun _ =>
    Within.run_bind (Within.lift (chore_askLine text)) fun outcome =>
    Within.run_bind (Within.lift chore_release) fun _ => ?_
  cases outcome <;> exact within_pure _

theorem chore_renderPrompt (goesOn : Bool) : Within R (renderPrompt id goesOn) := by
  refine Within.bind (chore_read _) fun context => within_step fun s => ?_
  exact AllowsChores.session fun _ => rfl

/-! ## Disposal -/

theorem chore_cancelJobs : Within R (cancelJobs id) := by
  refine within_update fun s => ?_
  have hcancelled : R s (((s.session id).jobs.filter fun job => !s.pool.isFinished job).foldl
      (fun s job => cancelJob job s) s) := 
    chore_foldl (f := fun s job => cancelJob job s) (fun _ job => chore_cancelJob job) _ s
  exact AllowsChores.trans hcancelled (AllowsChores.session (by exact fun _ => rfl))

/-! ## Time -/

theorem chore_setAlarm (ms : Nat) (polls : Bool) : Within R (worldPlace.setAlarm ms polls) :=
  Within.bind chore_self fun _ => chore_step fun _ => rfl

theorem chore_ring {alarm : Alarm} (h : worldPlace.ring? alarm s = some s') : R s s' := by
  obtain rfl := WorldAt.eq_of_ring? h
  exact AllowsChores.frame rfl

theorem chore_sleep (ms : Nat) : Within R (worldPlace.sleep ms) := by
  refine Within.bind (chore_setAlarm ms false) fun alarm => within_await fun s _ s' hs => ?_
  obtain ⟨s₁, hring, heq⟩ := Option.map_eq_some_iff.mp hs
  cases heq
  exact chore_ring hring

theorem chore_awaitLatch (latch : Nat) : Within R (awaitLatch latch) :=
  within_await fun s _ s' hs => by
    split at hs
    · cases hs
      exact AllowsChores.refl s
    · cases hs

/-! ## Jobs -/

theorem chore_poolEnqueue (job : JobId) : Within R (poolPlace.modify (·.enqueue job)) :=
  chore_step fun _ => rfl

theorem chore_poolModifyJob {job : JobId}
    {f : JobRecord SessionListener → JobRecord SessionListener}
    (h : ∀ r, (f r).listener.endsSession = r.listener.endsSession) :
    Within R (poolPlace.modify (·.modifyJob job f)) :=
  within_update fun _ => chore_modifyJob h

theorem chore_poolSubmit (job : JobId) : Within R (poolPlace.submit job) := by
  refine Within.bind (within_update fun s => ?_) fun _ => chore_poolEnqueue job
  dsimp only
  split
  · exact AllowsChores.refl s
  · have hlaunch : ∀ (s : Shell) (_ : Nat), R s (poolPlace.launch s) :=
      fun _ _ => AllowsChores.launch (by trivial)
    have hset : R s (poolPlace.set { poolPlace.get s with started := true } s) :=
      AllowsChores.frame rfl
    exact AllowsChores.trans hset (chore_foldl hlaunch _ _)

theorem chore_answerWork (job : JobId) (call : WorkCall) :
    Within R (poolPlace.answerWork job call) := by
  cases call with
  | isCancelled => exact chore_read _
  | cancel => exact within_update fun _ => chore_cancelJob job
  | sleep ms => exact chore_sleep ms
  | gate name =>
    refine within_await fun s _ s' hs => ?_
    split at hs
    · cases hs
      exact AllowsChores.refl s
    · cases hs
  | file call => exact chore_step fun _ => rfl

theorem chore_reportIfLive (listener : SessionListener) (fault : Fault) :
    Within R (reportIfLive listener fault) := by
  refine Within.bind (chore_read _) fun live => ?_
  split
  · exact chore_reportError fault
  · exact within_pure _

theorem chore_addJob (task : CompileTask) {listener : SessionListener}
    (h : listener.endsSession = false) : Within R (addJob task listener) := by
  refine within_step fun s => AllowsChores.same rfl fun hs r hr => ?_
  rcases Array.mem_push.mp hr with hin | rfl
  · exact hs r hin
  · exact h

theorem chore_keepJob (job : JobId) : Within R (keepJob id job) :=
  within_step fun _ => AllowsChores.session (by exact fun _ => rfl)

theorem chore_compile (source output target : String) (options : TargetOptions) :
    Within R (compile id source output target options).run := by
  refine Within.run_bind (Within.lift (chore_read _)) fun session => ?_
  cases session.disposed with
  | true => exact within_pure _
  | false =>
    cases CompileTarget.ofName? target with
    | none => exact within_pure _
    | some target =>
      exact Within.run_bind (Within.lift (chore_addJob _ (by rfl))) fun job =>
        Within.run_bind (Within.lift (chore_poolSubmit job)) fun _ =>
        Within.lift (chore_keepJob job)

theorem chore_jobAt (index : Nat) : Within R (jobAt id index).run := by
  refine Within.run_bind chore_ensureLive fun _ =>
    Within.run_bind (Within.lift (chore_read _)) fun session => ?_
  cases session.jobs[index]? <;> exact within_pure _

theorem chore_cancelAt (index : Nat) : Within R (cancelAt id index).run :=
  Within.run_bind (chore_jobAt index) fun job =>
    Within.lift (within_update fun _ => chore_cancelJob job)

theorem chore_join (index : Nat) : Within R (join id index).run := by
  refine Within.run_bind (chore_jobAt index) fun job =>
    Within.run_bind (Within.lift (chore_read _)) fun finished =>
    Within.run_bind (Within.lift chore_isUiThread) fun ui => ?_
  split
  · exact Within.run_bind (Within.lift (chore_read _)) fun _ => within_pure _
  · refine Within.run_bind (Within.lift (within_await fun s _ s' hs => ?_)) fun _ => within_pure _
    obtain ⟨outcome, -, heq⟩ := Option.map_eq_some_iff.mp hs
    cases heq
    exact AllowsChores.refl s

/-! ## Evaluation -/

theorem chore_link (path : String) : Within R (link id path) := by
  refine Within.bind chore_ensureLive fun r => ?_
  cases r with
  | error e => exact Within.bind (chore_reportError _) fun _ => within_pure _
  | ok u =>
    refine Within.bind (within_step fun s => ?_) fun result => ?_
    · split
      · exact AllowsChores.frame rfl
      · exact AllowsChores.refl s
    · cases result with
      | none => exact within_pure _
      | some e =>
        cases e with
        | alreadyLinked => exact Within.bind (chore_warning _) fun _ => within_pure _
        | _ => exact Within.bind (chore_reportError _) fun _ => within_pure _

theorem chore_checkOwner : Within R (checkOwner id).run := by
  refine Within.run_bind (Within.lift chore_self) fun me =>
    Within.run_bind (Within.lift (chore_read _)) fun session => ?_
  cases session.owner with
  | none => exact within_pure _
  | some owner =>
    dsimp only
    split <;> exact within_pure _

theorem chore_sayResult (result : Option (Option String)) : Within R (sayResult id result) := by
  unfold sayResult
  split
  · exact chore_sayLine _
  · exact within_pure _

end Shell

end SessionShell
