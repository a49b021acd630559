import SessionShell.Proofs.Action.Logged
import SessionShell.Proofs.Ending.Posts
import SessionShell.Proofs.Job.Minutes

/-!
A job that a session runs, and ends with.

The listener decides with which code the session ends, and the run answers an outcome. Unless
something else ends the session before, the two agree, whatever is built and whenever it is
cancelled, and the end comes behind all that the session has to say of the job.
-/

namespace SessionShell

open Action Shell

structure CompileUnit where
  session : SessionId
  job : JobId
  task : CompileTask
  monitored : Bool
  settings : Settings

namespace CompileUnit

variable (u : CompileUnit)

def listener (failed : Bool) : SessionListener :=
  ⟨u.session, u.monitored, true, failed⟩

/-- What a step submits, and the exit code if it records one. -/
def signs (s s' : Shell) : List Sign :=
  (s'.posted.1.drop s.posted.1.length).map .said ++
    (s'.posted.2.drop s.posted.2.length).map .complained ++
    if (s.session u.session).exitCode = none then
      (s'.session u.session).exitCode.toList.map .ended
    else []

structure Ready (failed : Bool) (s : Shell) : Prop where
  settings : s.settings = u.settings
  known : u.session < s.sessions.size
  live : (s.session u.session).disposed = false
  out : s.console.out.discipline = .fifo
  err : s.console.err.discipline = .fifo
  listener : s.pool.jobs[u.job]?.map (·.listener) = some (u.listener failed)

/-- Others may do anything but end the session. They may cancel the job. -/
structure Undisturbed (x x' : Shell × List Sign) : Prop where
  log : x'.2 = x.2
  exitCode : (x'.1.session u.session).exitCode = (x.1.session u.session).exitCode
  live : (x'.1.session u.session).disposed = (x.1.session u.session).disposed
  settings : x'.1.settings = x.1.settings
  known : u.session < x.1.sessions.size → u.session < x'.1.sessions.size
  out : x'.1.console.out.discipline = x.1.console.out.discipline
  err : x'.1.console.err.discipline = x.1.console.err.discipline
  record : x'.1.pool.jobs[u.job]?.map (fun r => (r.job, r.listener)) =
    x.1.pool.jobs[u.job]?.map fun r => (r.job, r.listener)

/-- If the session has ended, the job is over, and all that there was to say of it was said
before. -/
def Faithful (log : List Sign) : Prop :=
  ∀ code, Sign.ended code ∈ log → ∃ c : JobCourse, c.Builds u.task.build ∧
    c.ToldAs u.settings u.task log

/-- Every step of the job leaves a faithful log. -/
def Honest (_ x' : Shell × List Sign) : Prop :=
  u.Faithful x'.2

/-- The session has ended with the code of an outcome, which the job has come to. -/
structure Concludes (outcome : Outcome) (x : Shell × List Sign) : Prop where
  exitCode : (x.1.session u.session).exitCode = some outcome.code.code
  course : ∃ c : JobCourse, c.Builds u.task.build ∧ c.outcome = outcome ∧
    c.ToldAs u.settings u.task x.2

structure Shows (m : Minutes) (x : Shell × List Sign) : Prop where
  log : x.2 = m.signs
  exitCode : (x.1.session u.session).exitCode = m.code
  ready : m.code = none → u.Ready m.failed x.1
  faithful : u.Faithful m.signs

variable {u} {m : Minutes} {x x' : Shell × List Sign} {me : ThreadId} {α β : Type}

theorem Undisturbed.refl (x : Shell × List Sign) : u.Undisturbed x x :=
  ⟨rfl, rfl, rfl, rfl, id, rfl, rfl, rfl⟩

theorem Undisturbed.listener (h : u.Undisturbed x x') :
    x'.1.pool.jobs[u.job]?.map (·.listener) = x.1.pool.jobs[u.job]?.map (·.listener) := by
  have hrecord := congrArg (Option.map Prod.snd) h.record
  rw [Option.map_map, Option.map_map] at hrecord
  exact hrecord

theorem stable_shows (m : Minutes) : Stable u.Undisturbed (u.Shows m) := fun _ _ h hr =>
  ⟨hr.log.trans h.log, hr.exitCode.trans h.exitCode, fun hm =>
    have hready := h.ready hm
    ⟨hr.settings.trans hready.settings, hr.known hready.known, hr.live.trans hready.live,
      hr.out.trans hready.out, hr.err.trans hready.err, hr.listener.trans hready.listener⟩,
    h.faithful⟩

theorem Shows.faithful_log (h : u.Shows m x) : u.Faithful x.2 :=
  (congrArg u.Faithful h.log).mpr h.faithful

theorem stable_concludes (outcome : Outcome) : Stable u.Undisturbed (u.Concludes outcome) :=
  fun _ _ h hr => ⟨hr.exitCode.trans h.exitCode, hr.log ▸ h.course⟩

theorem Concludes.faithful {outcome : Outcome} (h : u.Concludes outcome x) : u.Faithful x.2 := by
  obtain ⟨c, hbuilds, -, htold⟩ := h.course
  exact fun _ _ => ⟨c, hbuilds, htold⟩

theorem signs_eq {s s' : Shell} (said complained : List String)
    (hposted : s'.posted = (s.posted.1 ++ said, s.posted.2 ++ complained))
    (hcode : (s'.session u.session).exitCode = (s.session u.session).exitCode) :
    u.signs s s' = said.map .said ++ complained.map .complained := by
  rw [signs, hposted, hcode]
  cases (s.session u.session).exitCode <;> simp

theorem signs_of_posted {s s' : Shell} (hposted : s'.posted = s.posted)
    (hcode : (s'.session u.session).exitCode = (s.session u.session).exitCode) :
    u.signs s s' = [] := by
  exact signs_eq [] [] (by simp [hposted]) hcode

theorem signs_self (s : Shell) : u.signs s s = [] :=
  signs_of_posted rfl rfl

/-! ## While the session is live -/

def aside (u : CompileUnit) (s : Shell) :=
  (s.posted, s.settings, s.sessions, (s.console.out.discipline, s.console.err.discipline),
    s.pool.jobs[u.job]?.map (·.listener))

theorem upholds_aside {p : Action Shell α} (hp : Keeps u.aside p) (hcrash : NeverCrashes p) :
    Upholds u.Undisturbed u.Honest me (u.Shows m) (logged u.signs p)
      (Fate.Returns fun _ => u.Shows m) := by
  refine upholds_logged_within (hp.within (R := fun s s' => u.aside s' = u.aside s) fun _ _ => id)
    hcrash (stable_shows m) fun s s' log haside h => ?_
  simp only [aside, Prod.mk.injEq] at haside
  obtain ⟨hposted, hsettings, hsessions, ⟨hout, herr⟩, hlistener⟩ := haside
  have hsession : s'.session u.session = s.session u.session := by
    rw [Shell.session, Shell.session, hsessions]
  refine ⟨signs_of_posted hposted (by rw [hsession]), h.faithful_log, h.log,
    hsession.symm ▸ h.exitCode, fun hm => ?_, h.faithful⟩
  have hready := h.ready hm
  exact ⟨hsettings.trans hready.settings, hsessions ▸ hready.known, hsession.symm ▸ hready.live,
    hout.trans hready.out, herr.trans hready.err, hlistener.trans hready.listener⟩

theorem faithful_of_open (h : m.Open) : u.Faithful m.signs :=
  fun code hcode => (h.signs code hcode).elim

theorem Shows.step {m' : Minutes} {s s' : Shell} {log : List Sign} (h : u.Shows m (s, log))
    (hsigns : m.signs ++ u.signs s s' = m'.signs)
    (hcode : (s'.session u.session).exitCode = m'.code)
    (hready : m'.code = none → u.Ready m'.failed s') (hfaithful : u.Faithful m'.signs) :
    u.Honest (s, log) (s', log ++ u.signs s s') ∧ u.Shows m' (s', log ++ u.signs s s') := by
  have hlog : log ++ u.signs s s' = m'.signs := by rw [show log = m.signs from h.log, hsigns]
  exact ⟨(congrArg u.Faithful hlog).mpr hfaithful, hlog, hcode, hready, hfaithful⟩

theorem upholds_look_bind {f : Shell → α} {K : α → Prop} {next : α → Action Shell β}
    {Q : Fate β → Shell × List Sign → Prop} (hopen : m.Open)
    (hf : ∀ s, u.Ready m.failed s → K (f s)) (hnext : ∀ a, K a →
      Upholds u.Undisturbed u.Honest me (u.Shows m) (logged u.signs (next a)) Q) :
    Upholds u.Undisturbed u.Honest me (u.Shows m) (logged u.signs (read f >>= next)) Q := by
  have hread : Upholds u.Undisturbed u.Honest me (u.Shows m) (logged u.signs (read f))
      (Fate.Returns fun a x => K a ∧ u.Shows m x) :=
    upholds_logged_read signs_self (stable_shows m)
      (fun a x x' h hr => ⟨h.1, stable_shows m x x' h.2 hr⟩) fun x h =>
      ⟨h.faithful_log, hf x.1 (h.ready hopen.code), h⟩
  exact Upholds.logged_bind hread .refl fun a x h => hnext a h.1 x h.2

theorem upholds_print (hopen : m.Open) (text : String) :
    Upholds u.Undisturbed u.Honest me (u.Shows m) (logged u.signs (consolePlace.print text))
      (Fate.Returns fun _ => u.Shows (m.say [text])) := by
  refine upholds_logged_step (stable_shows _) (fun _ => stable_shows _) fun s log h => ?_
  have hready := h.ready hopen.code
  have hsubmit := StreamService.requests_submit hready.out text
  refine h.step ?_ h.exitCode (fun _ => ?_) (faithful_of_open (hopen.say _))
  · have hsigns :
      u.signs s { s with console := { s.console with out := s.console.out.submit text } } =
        [.said text] := 
        signs_eq [text] [] (by simp [posted, hsubmit]) rfl
    exact congrArg (m.signs ++ ·) hsigns
  · exact ⟨hready.settings, hready.known, hready.live,
      (StreamService.discipline_enqueue).trans hready.out, hready.err, hready.listener⟩

theorem upholds_printError (hopen : m.Open) (fault : Fault) :
    Upholds u.Undisturbed u.Honest me (u.Shows m)
      (logged u.signs (consolePlace.printError (faultText u.settings fault)))
      (Fate.Returns fun _ => u.Shows (m.complain u.settings fault)) := by
  refine upholds_logged_step (stable_shows _) (fun _ => stable_shows _) fun s log h => ?_
  have hready := h.ready hopen.code
  let text := faultText u.settings fault
  have hsubmit := StreamService.requests_submit hready.err text
  refine h.step ?_ h.exitCode (fun _ => ?_) (faithful_of_open (hopen.complain fault))
  · have hsigns :
      u.signs s { s with console := { s.console with err := s.console.err.submit text } } =
        [.complained text] := 
        signs_eq [] [text] (by simp [posted, hsubmit]) rfl
    exact congrArg (m.signs ++ ·) hsigns
  · exact ⟨hready.settings, hready.known, hready.live, hready.out,
      StreamService.discipline_enqueue.trans hready.err, hready.listener⟩

theorem upholds_sayLine (hopen : m.Open) (text : String) :
    Upholds u.Undisturbed u.Honest me (u.Shows m) (logged u.signs (sayLine u.session text))
      (Fate.Returns fun _ => u.Shows (m.say [text ++ "\n"])) := by
  have hprint : Upholds u.Undisturbed u.Honest me (u.Shows m)
      (logged u.signs (liftM (consolePlace.print (text ++ "\n")) : Checked Unit).run)
      (Fate.Returns fun _ => u.Shows (m.say [text ++ "\n"])) :=
    Upholds.logged_bind (upholds_print hopen _) .refl fun _ =>
      upholds_pure _ (stable_shows _) fun _ h => h
  have hout : Upholds u.Undisturbed u.Honest me (u.Shows m)
      (logged u.signs (outLine u.session text).run)
      (Fate.Returns fun _ => u.Shows (m.say [text ++ "\n"])) := by
    refine upholds_look_bind (K := fun session => session.disposed = false) hopen
      (fun s h => h.live) fun session hlive => ?_
    have hislive : session.isLive = true := by simp [Session.isLive, hlive]
    change Upholds u.Undisturbed u.Honest me (u.Shows m) (logged u.signs
      ((if session.isLive then pure () else throw (.hasExited session.name) : Checked Unit) >>=
        fun _ => liftM (consolePlace.print (text ++ "\n"))).run) _
    rw [if_pos hislive]
    exact hprint
  exact Upholds.logged_bind hout .refl fun _ => upholds_pure _ (stable_shows _) fun _ h => h

theorem upholds_sayAll (hopen : m.Open) (shown : List Progress) :
    Upholds u.Undisturbed u.Honest me (u.Shows m)
      (logged u.signs (shown.forM fun p => sayLine u.session p.text))
      (Fate.Returns fun _ => u.Shows (m.say (shown.map fun p => p.text ++ "\n"))) := by
  induction shown generalizing m with
  | nil =>
    refine upholds_pure _ (stable_shows _) fun x h => ?_
    change u.Shows (m.say []) x
    rwa [Minutes.say_nil]
  | cons p shown ih =>
    refine Upholds.logged_bind (upholds_sayLine hopen p.text) .refl fun _ => ?_
    have hrest := ih (hopen.say [p.text ++ "\n"])
    rw [Minutes.say_say] at hrest
    exact hrest

theorem upholds_reportIfLive (hopen : m.Open) (failed : Bool) (fault : Fault) :
    Upholds u.Undisturbed u.Honest me (u.Shows m)
      (logged u.signs (reportIfLive (u.listener failed) fault))
      (Fate.Returns fun _ => u.Shows (m.complain u.settings fault)) := by
  refine upholds_look_bind (K := (· = true)) hopen
    (fun s h => by simp [Session.isLive, h.live, listener])
    fun live hlive => ?_
  subst hlive
  refine upholds_look_bind (K := (· = u.settings)) hopen (fun s h => h.settings) fun settings h =>
    ?_
  subst h
  exact upholds_printError hopen fault

theorem upholds_markFailed (hopen : m.Open) :
    Upholds u.Undisturbed u.Honest me (u.Shows m) (logged u.signs (markFailed u.job))
      (Fate.Returns fun _ => u.Shows { m with failed := true }) := by
  refine upholds_logged_step (stable_shows _) (fun _ => stable_shows _) fun s log h => ?_
  have hready := h.ready hopen.code
  refine h.step ?_ h.exitCode (fun _ => ?_) h.faithful
  · exact (congrArg (m.signs ++ ·) (signs_of_posted rfl rfl)).trans (List.append_nil _)
  · refine ⟨hready.settings, hready.known, hready.live, hready.out, hready.err, ?_⟩
    obtain ⟨r, hr, hlistener⟩ := Option.map_eq_some_iff.mp hready.listener
    have hfailed : { r.listener with failed := true } = u.listener true := by
      rw [hlistener]
      rfl
    simp [Pool.modifyJob, Array.getElem?_modify, hr, hfailed]

/-! ## The end of the session -/

theorem upholds_recordCode (outcome : Outcome) (hopen : m.Open)
    (hfaithful : u.Faithful (m.close outcome).signs) :
    Upholds u.Undisturbed u.Honest me (u.Shows m)
      (logged u.signs (recordCode u.session outcome.code.code).run)
      (Fate.Returns fun r x => r.isOk = true ∧ u.Shows (m.close outcome) x) := by
  refine upholds_logged_step (stable_shows _)
    (fun r x x' h hr => ⟨h.1, stable_shows _ x x' h.2 hr⟩) fun s log h => ?_
  have hready := h.ready hopen.code
  have hnone : (s.session u.session).exitCode = none := h.exitCode.trans hopen.code
  have hfree : ¬((s.session u.session).disposed ∨ (s.session u.session).exitCode.isSome) := by
    simp [hready.live, hnone]
  dsimp only
  rw [if_neg hfree]
  let ended := modifySession u.session
    (fun session => { session with exitCode := some outcome.code.code, exitHook := none }) s
  have hcode : (ended.session u.session).exitCode = some outcome.code.code :=
    congrArg Session.exitCode (session_modifySession_self _ hready.known)
  have hsigns : u.signs s ended = [.ended outcome.code.code] := by
    have hposted : ended.posted = s.posted := rfl
    simp [signs, hposted, hnone, hcode]
  obtain ⟨hhonest, hshows⟩ := h.step (congrArg (m.signs ++ ·) hsigns) hcode
    (fun hm => (Option.some_ne_none _ hm).elim) hfaithful
  exact ⟨hhonest, rfl, hshows⟩

theorem upholds_parting (outcome : Outcome) (hook? : Option ExitHook) :
    Upholds u.Undisturbed u.Honest me (u.Shows (m.close outcome))
      (logged u.signs (parting u.session outcome.code.code hook? true).run)
      (Fate.Returns fun _ => u.Shows (m.close outcome)) := by
  have hsteps : Within (fun s s' => StoresOnly (fun _ _ => False) s s' ∧ s'.posted = s.posted)
      (parting u.session outcome.code.code hook? true).run :=
    storing_parting.and (mute_parting.within fun _ _ => id)
  refine upholds_logged_within hsteps neverCrashes_parting (stable_shows _) fun s s' log hstep h =>
    ?_
  have hcode : (s'.session u.session).exitCode = (s.session u.session).exitCode :=
    (hstep.1.codes u.session).resolve_right fun ⟨_, _, _, hmay⟩ => hmay
  exact ⟨signs_of_posted hstep.2 hcode, h.faithful_log, h.log, hcode.trans h.exitCode,
    fun hnone => (Option.some_ne_none _ hnone).elim, h.faithful⟩

theorem upholds_endWith (failed : Bool) (outcome : Outcome) (hopen : m.Open)
    (hfaithful : u.Faithful (m.close outcome).signs) :
    Upholds u.Undisturbed u.Honest me (u.Shows m)
      (logged u.signs (endWith (u.listener failed) outcome.code))
      (Fate.Returns fun _ => u.Shows (m.close outcome)) := by
  have hfinish : Upholds u.Undisturbed u.Honest me (u.Shows m)
      (logged u.signs (finish u.session outcome.code.code true true).run)
      (Fate.Returns fun _ => u.Shows (m.close outcome)) := by
    rw [finish_eq]
    refine Upholds.logged_run_bind (upholds_recordCode outcome hopen hfaithful) .refl
      (fun hook? x h => upholds_parting outcome hook? x h.2) fun e x h => ?_
    cases h.1
  exact Upholds.logged_bind hfinish .refl fun _ => upholds_pure _ (stable_shows _) fun _ h => h

theorem upholds_hearStatus (hopen : m.Open) (batch : List Progress)
    (hfaithful : u.Faithful (m.hear u.settings (.status batch)).signs) :
    Upholds u.Undisturbed u.Honest me (u.Shows m)
      (logged u.signs (hearStatus (u.listener m.failed) batch))
      (Fate.Returns fun _ => u.Shows (m.hear u.settings (.status batch))) := by
  let shown := m.say (Progress.lines u.settings batch)
  have hend : Upholds u.Undisturbed u.Honest me (u.Shows shown) (logged u.signs (do
      if m.failed && batch.any (·.terminal) then
        endWith (u.listener m.failed) Outcome.failed.code))
      (Fate.Returns fun _ => u.Shows (m.hear u.settings (.status batch))) := by
    by_cases hlast : (m.failed && batch.any (·.terminal)) = true
    · have hhear : m.hear u.settings (.status batch) = shown.close .failed := if_pos hlast
      rw [hhear] at hfaithful ⊢
      rw [if_pos hlast]
      exact upholds_endWith _ .failed (hopen.say _) hfaithful
    · have hhear : m.hear u.settings (.status batch) = shown := if_neg hlast
      rw [hhear, if_neg hlast]
      exact upholds_pure _ (stable_shows _) fun _ h => h
  have hrest : Upholds u.Undisturbed u.Honest me (u.Shows m) (logged u.signs (do
      let settings ← getSettings
      if ← isLive u.session then
        (batch.filter (isShown settings)).forM fun p => sayLine u.session p.text
      if m.failed && batch.any (·.terminal) then
        endWith (u.listener m.failed) Outcome.failed.code))
      (Fate.Returns fun _ => u.Shows (m.hear u.settings (.status batch))) := by
    refine upholds_look_bind (K := (· = u.settings)) hopen (fun s h => h.settings) fun settings h =>
      ?_
    subst h
    refine upholds_look_bind (K := (· = true)) hopen
      (fun s h => by simp [Session.isLive, h.live]) fun live hlive => ?_
    subst hlive
    exact Upholds.logged_bind (upholds_sayAll hopen _) .refl fun _ => hend
  have hnote : Upholds u.Undisturbed u.Honest me (u.Shows m)
    (logged u.signs (note (.progress batch)))
      (Fate.Returns fun _ => u.Shows m) :=
    upholds_aside (keeps_update fun _ => rfl) fun _ => trivial
  unfold hearStatus
  by_cases hmonitored : (u.listener m.failed).monitored = true
  · rw [if_pos hmonitored]
    exact Upholds.logged_bind hnote .refl fun _ => hrest
  · rw [if_neg hmonitored]
    exact hrest

theorem upholds_hear (hopen : m.Open) (event : JobEvent)
    (hfaithful : u.Faithful (m.hear u.settings event).signs) :
    Upholds u.Undisturbed u.Honest me (u.Shows m) (logged u.signs (hear u.job event))
      (Fate.Returns fun _ => u.Shows (m.hear u.settings event)) := by
  have hlistener {m : Minutes} (s : Shell) (h : u.Ready m.failed s) :
      s.pool.jobs[u.job]?.elim default (·.listener) = u.listener m.failed := by
    obtain ⟨r, hr, hl⟩ := Option.map_eq_some_iff.mp h.listener
    rw [hr]
    exact hl
  cases event with
  | status batch =>
    refine upholds_look_bind (K := (· = u.listener m.failed)) hopen hlistener fun l hl => ?_
    subst hl
    exact upholds_hearStatus hopen batch hfaithful
  | fail fault =>
    refine Upholds.logged_bind (upholds_markFailed hopen) .refl fun _ => ?_
    refine upholds_look_bind (K := (· = u.listener true)) hopen.fail hlistener fun l hl => ?_
    subst hl
    exact upholds_reportIfLive hopen.fail true fault
  | abort fault =>
    refine upholds_look_bind (K := (· = u.listener m.failed)) hopen hlistener fun l hl => ?_
    subst hl
    exact Upholds.logged_bind (upholds_reportIfLive hopen _ fault) .refl fun _ =>
      upholds_endWith _ .aborted (hopen.complain fault) hfaithful
  | succeed =>
    refine upholds_look_bind (K := (· = u.listener m.failed)) hopen hlistener fun l hl => ?_
    subst hl
    exact upholds_endWith _ .succeeded hopen hfaithful

/-! ## The run of the job -/

theorem keeps_aside_cancel : Keeps u.aside (poolPlace.modify (·.cancel u.job)) := by
  refine keeps_update fun s => ?_
  have hlistener : (s.pool.cancel u.job).jobs[u.job]?.map (·.listener) =
      s.pool.jobs[u.job]?.map (·.listener) := by
    cases hr : s.pool.jobs[u.job]? <;> simp [Pool.cancel, Pool.modifyJob, Array.getElem?_modify, hr]
  exact congrArg (fun l => (s.posted, s.settings, s.sessions,
    (s.console.out.discipline, s.console.err.discipline), l)) hlistener

theorem keeps_aside_sleep (ms : Nat) : Keeps u.aside (worldPlace.sleep ms) := by
  refine Keeps.bind (Keeps.bind keeps_self fun _ => keeps_step fun _ => rfl) fun alarm =>
    keeps_await fun s _ s' hs => ?_
  obtain ⟨s₁, hring, heq⟩ := Option.map_eq_some_iff.mp hs
  cases heq
  obtain rfl := WorldAt.eq_of_ring? hring
  rfl

theorem keeps_aside_work (call : WorkCall) : Keeps u.aside (poolPlace.answerWork u.job call) := by
  cases call with
  | isCancelled => exact keeps_read _
  | cancel => exact keeps_aside_cancel
  | sleep ms => exact keeps_aside_sleep ms
  | gate name =>
    refine keeps_await fun s _ s' hs => ?_
    split at hs
    · cases hs
      rfl
    · cases hs
  | file call => exact keeps_step fun _ => rfl

theorem neverCrashes_work (call : WorkCall) : NeverCrashes (poolPlace.answerWork u.job call) := by
  cases call with
  | sleep ms => exact fun _ _ _ => trivial
  | _ => exact fun _ => trivial

theorem upholds_run :
    Upholds u.Undisturbed u.Honest me (u.Shows Minutes.new)
      (logged u.signs ((CompileJob.new u.task).run.expand (poolPlace.answer u.job)))
      (Fate.Returns fun a => u.Concludes a.1) := by
  rw [logged_expand]
  have hserved := CompileJob.hearing_run u.task
  refine Upholds.mono (R := fun a x => ∃ heard, (∃ c : JobCourse, c.HeardAs u.task heard ∧
      a.1 = c.outcome) ∧ u.Shows (Minutes.of u.settings heard) x) ?_ ?_
  · refine hserved.upholds (P := fun heard => u.Shows (Minutes.of u.settings heard))
      (CompileJob.crashFree_run _) .refl
      (fun _ => stable_shows _) fun call heard hunended hnext => ?_
    have hopen : (Minutes.of u.settings heard).Open := Minutes.open_of_unended hunended
    cases call with
    | now =>
      exact (upholds_aside (keeps_read _) fun _ => trivial).mono fun _ _ h => ⟨heard, rfl, h⟩
    | work call =>
      exact (upholds_aside (keeps_aside_work call) (neverCrashes_work call)).mono
        fun _ _ h => ⟨heard, rfl, h⟩
    | notify event =>
      have hhear := Minutes.of_append u.settings heard [event]
      refine (upholds_hear hopen event ?_).mono fun _ _ h => ⟨heard ++ [event], rfl, hhear ▸ h⟩
      obtain ⟨r, hr⟩ := hnext () (heard ++ [event]) rfl
      change u.Faithful
        ([event].foldl (Minutes.hear u.settings) (Minutes.of u.settings heard)).signs
      rw [← hhear]
      cases r with
      | none => exact faithful_of_open (Minutes.open_of_unended hr)
      | some a =>
        obtain ⟨c, hheard, -⟩ := hr
        exact fun _ _ => ⟨c, hheard.builds, (Minutes.of_heardAs u.settings hheard).1⟩
  · rintro a x ⟨heard, ⟨c, hheard, hc⟩, hshows⟩
    obtain ⟨htold, hcode⟩ := Minutes.of_heardAs u.settings hheard
    exact ⟨hc ▸ hshows.exitCode.trans hcode, c, hheard.builds, hc.symm, hshows.log ▸ htold⟩

theorem upholds_keep (outcome : Outcome) (job : CompileJob) :
    Upholds u.Undisturbed u.Honest me (u.Concludes outcome)
      (logged u.signs (do
        poolPlace.modify (·.modifyJob u.job fun r => { r with job })
        return outcome))
      (Fate.Returns u.Concludes) := by
  have hkeeps : Within (fun s s' : Shell => s'.posted = s.posted ∧ s'.sessions = s.sessions)
      (poolPlace.modify (·.modifyJob u.job fun r => { r with job })) :=
    within_update fun _ => ⟨rfl, rfl⟩
  refine Upholds.logged_bind (upholds_logged_within hkeeps (fun _ => trivial) (stable_concludes _)
    fun s s' log hstep h => ?_) .refl fun _ => upholds_pure _ (stable_concludes _) fun _ h => h
  have hcode : (s'.session u.session).exitCode = (s.session u.session).exitCode := by
    rw [Shell.session, Shell.session, hstep.2]
  exact ⟨signs_of_posted hstep.1 hcode, h.faithful, hcode.trans h.exitCode, h.course⟩

/-! ## When something else ends the session -/

/-- A job stores the codes of outcomes, and none where one is stored. -/
abbrev StoresOutcomes (p : Action Shell α) : Prop :=
  Storing (fun _ code => ∃ outcome : Outcome, code = outcome.code.code) p

theorem storesOutcomes_endWith (listener : SessionListener) (outcome : Outcome) :
    StoresOutcomes (endWith listener outcome.code) := by
  unfold endWith
  split
  · exact Within.discard (storing_finish true true ⟨outcome, rfl⟩)
  · exact within_pure _

theorem storesOutcomes_hearStatus (listener : SessionListener) (batch : List Progress) :
    StoresOutcomes (hearStatus listener batch) := by
  have hsay (progress : List Progress) :
      StoresOutcomes (progress.forM fun p => sayLine listener.session p.text) := by
    induction progress with
    | nil => exact within_pure _
    | cons p progress ih => exact Within.bind (storing_of_still (chore_sayLine _)) fun _ => ih
  have hend : StoresOutcomes (do
      if listener.failed && batch.any (·.terminal) then endWith listener Outcome.failed.code) := by
    split
    · exact storesOutcomes_endWith listener .failed
    · exact within_pure _
  have hrest : StoresOutcomes (do
      let settings ← getSettings
      if ← isLive listener.session then
        (batch.filter (isShown settings)).forM fun p => sayLine listener.session p.text
      if listener.failed && batch.any (·.terminal) then endWith listener Outcome.failed.code) := by
    refine Within.bind (storing_read _) fun settings => Within.bind (storing_read _) fun live => ?_
    cases live with
    | true => exact Within.bind (hsay _) fun _ => hend
    | false => exact hend
  unfold hearStatus
  cases listener.monitored with
  | true => exact Within.bind (storing_of_still (chore_note rfl)) fun _ => hrest
  | false => exact hrest

theorem storesOutcomes_hear (job : JobId) (event : JobEvent) : StoresOutcomes (hear job event) := by
  cases event with
  | status batch =>
    exact Within.bind (storing_read _) fun listener => storesOutcomes_hearStatus listener batch
  | fail fault =>
    exact Within.bind (storing_of_still (within_update fun _ => chore_modifyJob fun _ => rfl))
      fun _ =>
      Within.bind (storing_read _) fun listener => storing_of_still
        (chore_reportIfLive listener fault)
  | abort fault =>
    exact Within.bind (storing_read _) fun listener =>
      Within.bind (storing_of_still (chore_reportIfLive listener fault)) fun _ =>
      storesOutcomes_endWith listener .aborted
  | succeed =>
    exact Within.bind (storing_read _) fun listener => storesOutcomes_endWith listener .succeeded

theorem storesOutcomes_run (job : JobId) : StoresOutcomes (poolPlace.run job) := by
  refine Within.bind (storing_read _) fun record? => ?_
  cases record? with
  | none => exact within_pure _
  | some record =>
    refine Within.bind (within_expand fun call _ => ?_) fun _ =>
      Within.bind (storing_of_still (chore_poolModifyJob fun _ => rfl)) fun _ => within_pure _
    cases call with
    | now => exact storing_read _
    | work call => exact storing_of_still (chore_answerWork job call)
    | notify event => exact storesOutcomes_hear job event

/-! ## The whole -/

/-- The job was added for the session and has not been run, and nothing has ended the session. -/
structure Starts (u : CompileUnit) (s : Shell) : Prop where
  ready : u.Ready false s
  exitCode : (s.session u.session).exitCode = none
  fresh : s.pool.jobs[u.job]?.map (·.job) = some (.new u.task)

def IsFresh (u : CompileUnit) (x : Shell × List Sign) : Prop :=
  x.1.pool.jobs[u.job]?.map (·.job) = some (.new u.task)

theorem stable_isFresh : Stable u.Undisturbed u.IsFresh := fun x x' h hr => by
  have hrecord := congrArg (Option.map Prod.fst) hr.record
  rw [Option.map_map, Option.map_map] at hrecord
  exact hrecord.trans h

/-- A job that a session runs ends it with the code of the outcome that the run answers. If nothing
else ends the session, it ends once, behind every line that was selected and behind the report of
the fault, whatever was built and whenever the job was cancelled; until then it says what belongs to
the job. If something else does, the code that was stored stays. -/
theorem ends_with_outcome (u : CompileUnit) (me : ThreadId) (s : Shell) (h : u.Starts s) :
    Safe u.Undisturbed u.Honest me (Fate.Returns u.Concludes)
      (logged u.signs (poolPlace.run u.job)) (s, []) ∧
    StoresOutcomes (poolPlace.run u.job) ∧
    Outcome.succeeded.code.code = 0 ∧ Outcome.failed.code.code = 0x5F ∧
      Outcome.aborted.code.code = 0x6F := by
  have hstart : u.Shows .new (s, []) ∧ u.IsFresh (s, []) :=
    ⟨⟨rfl, h.exitCode, fun _ => h.ready, faithful_of_open Minutes.open_new⟩, h.fresh⟩
  have hread : Upholds u.Undisturbed u.Honest me (fun x => u.Shows .new x ∧ u.IsFresh x)
      (logged u.signs (read fun s => (poolPlace.get s).jobs[u.job]?))
      (Fate.Returns fun record? x =>
        record?.map (·.job) = some (.new u.task) ∧ u.Shows .new x) :=
    upholds_logged_read signs_self
      (fun x x' hx hr => ⟨stable_shows _ x x' hx.1 hr, stable_isFresh x x' hx.2 hr⟩)
      (fun _ x x' hx hr => ⟨hx.1, stable_shows _ x x' hx.2 hr⟩)
      fun x hx => ⟨hx.1.faithful_log, hx.2, hx.1⟩
  refine ⟨Upholds.logged_bind hread .refl (fun record? => ?_) (s, []) hstart,
    storesOutcomes_run u.job, rfl, rfl, rfl⟩
  rintro x ⟨hjob, hx⟩
  obtain ⟨⟨job, listener, cancelled, outcome?⟩, rfl, rfl⟩ := Option.map_eq_some_iff.mp hjob
  exact Upholds.logged_bind upholds_run .refl (fun result => upholds_keep result.1 result.2) x hx

/-- A build that cancels its own job and then fails. -/
def selfCancelling : CompileUnit where
  session := 0
  job := 0
  task := BuildStep.task "t" [.post "begun" none 1, .post "half" (some (1, 2)) 1, .cancel,
    .fail (.plain "broken")]
  monitored := true
  settings := .default 1

/-- The first of two sessions is to run it. -/
def beforeRun : Shell :=
  aloneOr 0 (addJob selfCancelling.task (selfCancelling.listener false)) twoSessions

theorem ends_with_outcome_selfCancelling :
    selfCancelling.Starts beforeRun ∧
    Safe selfCancelling.Undisturbed selfCancelling.Honest 1 (Fate.Returns selfCancelling.Concludes)
      (logged selfCancelling.signs (poolPlace.run 0)) (beforeRun, []) ∧
    ((logged selfCancelling.signs (poolPlace.run 0)).runAlone? 1 (beforeRun, [])).map
        (fun r => (r.1, r.2.2)) =
      some (.aborted, [.said "[t] begun\n", .said "[t] aborted: broken\n",
        .complained (faultText (.default 1) (.plain "broken")), .ended 0x6F]) := by
  have hstarts : selfCancelling.Starts beforeRun :=
    ⟨⟨rfl, by decide, rfl, rfl, rfl, rfl⟩, rfl, rfl⟩
  exact ⟨hstarts, (ends_with_outcome selfCancelling 1 beforeRun hstarts).1, rfl⟩

end CompileUnit

end SessionShell
