import SessionShell.Proofs.Job.Desk

/-!
A job tells its listener everything once.

It builds unless it was cancelled before, delivers what still waits with one last report behind it,
and tells its end by one callback. Running it again changes nothing.
-/

namespace SessionShell

namespace JobEvent

def batch? : JobEvent → Option (List Progress)
  | .status batch => some batch
  | _ => none

def isCallback : JobEvent → Bool
  | .status _ => false
  | _ => true

@[simp] theorem batch?_status (batch : List Progress) : (status batch).batch? = some batch :=
  rfl

@[simp] theorem isCallback_status (batch : List Progress) : (status batch).isCallback = false :=
  rfl

theorem filterMap_batch?_status (batches : List (List Progress)) :
    (batches.map status).filterMap batch? = batches := by
  induction batches with
  | nil => rfl
  | cons batch batches ih => simp [ih]

theorem filter_isCallback_status (batches : List (List Progress)) :
    (batches.map status).filter isCallback = [] := by
  simp

end JobEvent

namespace CompileJob

/-- Runs a job again and again, and tells what each run answers. -/
def runs : Nat → CompileJob → JobProgram (List Outcome × CompileJob)
  | 0, job => return ([], job)
  | n + 1, job => do
    let (outcome, job) ← job.run
    let (outcomes, job) ← runs n job
    return (outcome :: outcomes, job)

end CompileJob

structure JobCourse where
  /-- Whether the job was found cancelled before its build. -/
  early : Bool
  built : List (Exchange BuildCall.Reply)
  result : Except Fault String
  /-- Whether it was found cancelled after its build. -/
  late : Bool

namespace JobCourse

def Builds (c : JobCourse) (b : Build String) : Prop :=
  if c.early then c.built = [] ∧ c.result = .error (Fault.of .cancelled)
  else ∃ result?, b.run.Goes c.built result? ∧
    c.result = result?.getD (.error (Fault.plain "build panicked"))

def outcome (c : JobCourse) : Outcome :=
  match c.result with
  | .ok _ => .succeeded
  | .error fault => if c.late || fault.isCancelled then .aborted else .failed

def callback (c : JobCourse) : JobEvent :=
  match c.result with
  | .ok _ => .succeed
  | .error fault => if c.late || fault.isCancelled then .abort fault else .fail fault

def message (c : JobCourse) (task : CompileTask) : String :=
  match c.result with
  | .ok output => task.doneMessage output
  | .error fault => CompileTask.abortMessage fault

def lastReport (c : JobCourse) (task : CompileTask) : Progress :=
  { Progress.new task.title (c.message task) with terminal := true }

def lastLook (c : JobCourse) : List (Exchange WorkCall.Reply) :=
  match c.result with
  | .ok _ => []
  | .error _ => [⟨.isCancelled, c.late⟩]

def asks (c : JobCourse) : List (Exchange WorkCall.Reply) :=
  ⟨.isCancelled, c.early⟩ :: c.built.filterMap workOf? ++ c.lastLook

def ending (c : JobCourse) (batch : List Progress) : List JobEvent :=
  if c.outcome = .failed then [c.callback, .status batch] else [.status batch, c.callback]

theorem batch?_callback (c : JobCourse) : c.callback.batch? = none := by
  unfold callback
  cases c.result with
  | ok output => rfl
  | error fault => cases h : c.late || fault.isCancelled <;> simp [h, JobEvent.batch?]

theorem isCallback_callback (c : JobCourse) : c.callback.isCallback = true := by
  unfold callback
  cases c.result with
  | ok output => rfl
  | error fault => cases h : c.late || fault.isCancelled <;> simp [h, JobEvent.isCallback]

theorem filterMap_batch?_ending (c : JobCourse) (batch : List Progress) :
    (c.ending batch).filterMap JobEvent.batch? = [batch] := by
  unfold ending
  split <;> simp [batch?_callback]

theorem filter_isCallback_ending (c : JobCourse) (batch : List Progress) :
    (c.ending batch).filter JobEvent.isCallback = [c.callback] := by
  unfold ending
  split <;> simp [isCallback_callback]

/-- From one desk to another a job has gone through this, with these reports to begin with. -/
structure IsOf (c : JobCourse) (world : Nat → Moment) (task : CompileTask)
    (pending : List Progress) (d d' : Desk) : Prop where
  builds : c.Builds task.build
  asked : d'.asked = d.asked ++ c.asks
  heard : ∃ (batches : List (List Progress)) (batch : List Progress),
    d'.heard = d.heard ++ batches.map .status ++ c.ending (batch ++ [c.lastReport task]) ∧
      batches.flatten ++ batch = pending ++ c.built.filterMap (reportOf? task.title)
  early : c.early = (d.cancelled || (world d.turn).cancels)
  late : ∃ now : Desk, Desk.Token world (c.built.any isCancelling) d now ∧ now.turn ≤ d'.turn ∧
    c.late = now.cancelled

end JobCourse

namespace Desk

variable {world : Nat → Moment} {d : Desk}

def look (world : Nat → Moment) (d : Desk) : Bool × Desk :=
  answer world (.work .isCancelled) d

theorem look_snd_asked (world : Nat → Moment) (d : Desk) :
    (look world d).2.asked = d.asked ++ [⟨.isCancelled, (look world d).1⟩] :=
  rfl

theorem token_look (world : Nat → Moment) (d : Desk) : Token world false d (look world d).2 :=
  token_answer world (.work .isCancelled) d

theorem look_snd_cancelled (world : Nat → Moment) (d : Desk) :
    (look world d).2.cancelled = (look world d).1 :=
  Bool.or_false _

theorem run_isCancelled (world : Nat → Moment) (d : Desk) :
    run world CompileJob.isCancelled d = (some (look world d).1, (look world d).2) :=
  rfl

theorem run_result (world : Nat → Moment) (job : CompileJob) (d : Desk) :
    ∃ (c : JobCourse) (throttle : Throttle) (d' : Desk),
      run world job.result d = (some (c.result, throttle), d') ∧ c.Builds job.task.build ∧
        c.early = (look world d).1 ∧ c.late = (look world d').1 ∧
        Carried world job.title c.built job.throttle throttle (look world d).2 d' := by
  unfold CompileJob.result
  rw [run_bind (run_isCancelled world d)]
  cases hearly : (look world d).1 with
  | true =>
    refine ⟨⟨true, [], .error (Fault.of .cancelled), (look world (look world d).2).1⟩, job.throttle,
      (look world d).2, rfl, ?_, rfl, rfl, .refl⟩
    simp [JobCourse.Builds]
  | false =>
    obtain ⟨built, result?, throttle, d', hrun, hgoes, hcarried⟩ :=
      run_carryOut world job.title job.task.build.run job.throttle (look world d).2
    refine ⟨⟨false, built, result?.getD (.error (Fault.plain "build panicked")), (look world d').1⟩,
      throttle, d', run_bind hrun, ?_, rfl, rfl, hcarried⟩
    simp only [JobCourse.Builds, Bool.false_eq_true, if_false]
    exact ⟨result?, hgoes, rfl⟩

def concluded (world : Nat → Moment) (batch : List Progress) (d : Desk) : Desk :=
  (answer world (.notify (.status batch)) (answer world .now d).2).2

theorem run_conclude (world : Nat → Moment) (job : CompileJob) (c : JobCourse) (outcome : Outcome)
    (throttle : Throttle) (d : Desk) : ∃ job', job'.outcome = some outcome ∧
      run world (job.conclude outcome (c.message job.task) throttle) d = (some job',
        concluded world (throttle.pending.toList ++ [c.lastReport job.task]) d) :=
  ⟨_, rfl, rfl⟩

theorem run_notify (world : Nat → Moment) (event : JobEvent) (d : Desk) :
    run world (CompileJob.notify event) d = (some (), (answer world (.notify event) d).2) :=
  rfl

structure Ended (c : JobCourse) (task : CompileTask) (rest : List Progress) (d d' : Desk) :
    Prop where
  asked : d'.asked = d.asked ++ c.lastLook
  heard : d'.heard = d.heard ++ c.ending (rest ++ [c.lastReport task])
  turn : d.turn < d'.turn

section

variable {c : JobCourse} {task : CompileTask} {rest : List Progress} {fault : Fault}

theorem ended_of_ok {output : String} (hc : c.result = .ok output) : Ended c task rest d
    (answer world (.notify .succeed) (concluded world (rest ++ [c.lastReport task]) d)).2 := by
  have hsucceeded : c.outcome = .succeeded := by simp [JobCourse.outcome, hc]
  constructor
  · simp [concluded, answer, JobCourse.lastLook, hc]
  · simp [concluded, answer, JobCourse.ending, hsucceeded, JobCourse.callback, hc]
  · simp only [concluded, answer]
    omega

theorem ended_of_cut (hc : c.result = .error fault)
    (hcut : (c.late || fault.isCancelled) = true) (hlate : c.late = (look world d).1) :
    Ended c task rest d (answer world (.notify (.abort fault))
      (concluded world (rest ++ [c.lastReport task]) (look world d).2)).2 := by
  have haborted : c.outcome = .aborted := by simp [JobCourse.outcome, hc, hcut]
  constructor
  · simp [concluded, answer, JobCourse.lastLook, hc, hlate, look]
  · simp [concluded, answer, JobCourse.ending, haborted, JobCourse.callback, hc, hcut, look]
  · simp only [concluded, answer, look]
    omega

theorem ended_of_failed (hc : c.result = .error fault)
    (hcut : (c.late || fault.isCancelled) = false) (hlate : c.late = (look world d).1) :
    Ended c task rest d (concluded world (rest ++ [c.lastReport task])
      (answer world (.notify (.fail fault)) (look world d).2).2) := by
  have hfailed : c.outcome = .failed := by simp [JobCourse.outcome, hc, hcut]
  constructor
  · simp [concluded, answer, JobCourse.lastLook, hc, hlate, look]
  · simp [concluded, answer, JobCourse.ending, hfailed, JobCourse.callback, hc, hcut, look]
  · simp only [concluded, answer, look]
    omega

end

theorem isOf_of_carried {c : JobCourse} {job : CompileJob} {throttle : Throttle} {d₁ d' : Desk}
    (hbuilds : c.Builds job.task.build) (hearly : c.early = (look world d).1)
    (hlate : c.late = (look world d₁).1)
    (hcarried : Carried world job.title c.built job.throttle throttle (look world d).2 d₁)
    (hended : Ended c job.task throttle.pending.toList d₁ d') :
    c.IsOf world job.task job.throttle.pending.toList d d' := by
  obtain ⟨batches, hbatches, hflow⟩ := hcarried.heard
  refine ⟨hbuilds, ?_, ⟨batches, throttle.pending.toList, ?_, hflow⟩, hearly, ?_⟩
  · rw [hended.asked, hcarried.asked, look_snd_asked, ← hearly]
    simp [JobCourse.asks]
  · rw [hended.heard, hbatches]
    rfl
  · have htoken := (token_look world d).trans (hcarried.token.trans (token_look world d₁))
    rw [Bool.false_or, Bool.or_false] at htoken
    exact ⟨_, htoken, hended.turn, hlate.trans (look_snd_cancelled world d₁).symm⟩

theorem run_run (world : Nat → Moment) (job : CompileJob) (h : job.outcome = none) (d : Desk) :
    ∃ (c : JobCourse) (job' : CompileJob) (d' : Desk),
      run world job.run d = (some (c.outcome, job'), d') ∧ job'.outcome = some c.outcome ∧
        c.IsOf world job.task job.throttle.pending.toList d d' := by
  obtain ⟨c, throttle, d₁, hresult, hbuilds, hearly, hlate, hcarried⟩ := run_result world job d
  have hlast (outcome : Outcome) (d₂ : Desk) := run_conclude world job c outcome throttle d₂
  unfold CompileJob.run
  rw [h]
  simp only
  rw [run_bind hresult]
  cases hc : c.result with
  | ok output =>
    obtain ⟨job', houtcome, hconclude⟩ := hlast .succeeded d₁
    have hsucceeded : c.outcome = .succeeded := by simp [JobCourse.outcome, hc]
    simp only [JobCourse.message, hc] at hconclude ⊢
    rw [run_bind hconclude, run_bind (run_notify world .succeed _)]
    exact ⟨c, job', _, by rw [hsucceeded]; rfl, by rw [hsucceeded, houtcome],
      isOf_of_carried hbuilds hearly hlate hcarried (ended_of_ok hc)⟩
  | error fault =>
    simp only
    rw [run_bind (run_isCancelled world d₁), ← hlate]
    cases hcut : c.late || fault.isCancelled with
    | true =>
      obtain ⟨job', houtcome, hconclude⟩ := hlast .aborted (look world d₁).2
      have haborted : c.outcome = .aborted := by simp [JobCourse.outcome, hc, hcut]
      simp only [JobCourse.message, hc] at hconclude
      simp only [if_true]
      rw [run_bind hconclude, run_bind (run_notify world (.abort fault) _)]
      exact ⟨c, job', _, by rw [haborted]; rfl, by rw [haborted, houtcome],
        isOf_of_carried hbuilds hearly hlate hcarried (ended_of_cut hc hcut hlate)⟩
    | false =>
      obtain ⟨job', houtcome, hconclude⟩ :=
        hlast .failed (answer world (.notify (.fail fault)) (look world d₁).2).2
      have hfailed : c.outcome = .failed := by simp [JobCourse.outcome, hc, hcut]
      simp only [JobCourse.message, hc] at hconclude
      simp only [Bool.false_eq_true, if_false]
      rw [run_bind (run_notify world (.fail fault) _), run_bind hconclude]
      exact ⟨c, job', _, by rw [hfailed]; rfl, by rw [hfailed, houtcome],
        isOf_of_carried hbuilds hearly hlate hcarried (ended_of_failed hc hcut hlate)⟩

theorem run_run_of_outcome (world : Nat → Moment) {job : CompileJob} {outcome : Outcome}
    (h : job.outcome = some outcome) (d : Desk) :
    run world job.run d = (some (outcome, job), d) := by
  unfold CompileJob.run
  rw [h]
  rfl

theorem run_runs_of_outcome (world : Nat → Moment) {job : CompileJob} {outcome : Outcome}
    (h : job.outcome = some outcome) (n : Nat) (d : Desk) :
    run world (CompileJob.runs n job) d = (some (List.replicate n outcome, job), d) := by
  induction n with
  | zero => rfl
  | succ n ih =>
    unfold CompileJob.runs
    rw [run_bind (run_run_of_outcome world h d), run_bind ih]
    rfl

end Desk

/-- What a listener has heard of a job that was run, and what the job has asked. -/
structure JobCourse.IsToldOnce (c : JobCourse) (world : Nat → Moment) (task : CompileTask)
    (cancelled : Bool) (d : Desk) : Prop where
  builds : c.Builds task.build
  asked : d.asked = c.asks
  /-- Nothing that was reported is lost, and one last report follows. -/
  progress : (d.heard.filterMap JobEvent.batch?).flatten =
    c.built.filterMap (reportOf? task.title) ++ [c.lastReport task]
  terminal : (d.heard.filterMap JobEvent.batch?).flatten.filter (·.terminal) = [c.lastReport task]
  callback : d.heard.filter JobEvent.isCallback = [c.callback]
  /-- How the callback and the last report are ordered. -/
  ending : ∃ (batches : List (List Progress)) (batch : List Progress),
    d.heard = batches.map .status ++ c.ending (batch ++ [c.lastReport task])
  early : c.early = (cancelled || (world 0).cancels)
  late : cancelled = true ∨ c.built.any isCancelling = true → c.late = true
  cause : c.late = true → cancelled = true ∨ c.built.any isCancelling = true ∨
    ∃ k, k < d.turn ∧ (world k).cancels = true

theorem JobCourse.IsOf.toldOnce {c : JobCourse} {world : Nat → Moment} {task : CompileTask}
    {cancelled : Bool} {d : Desk} (h : c.IsOf world task [] (.new cancelled) d) :
    c.IsToldOnce world task cancelled d := by
  obtain ⟨batches, batch, hheard, hflow⟩ := h.heard
  obtain ⟨now, htoken, hturn, hlate⟩ := h.late
  replace hheard : d.heard = batches.map .status ++ c.ending (batch ++ [c.lastReport task]) :=
    hheard
  have hprogress : (d.heard.filterMap JobEvent.batch?).flatten =
      c.built.filterMap (reportOf? task.title) ++ [c.lastReport task] := by
    rw [hheard, List.filterMap_append, JobEvent.filterMap_batch?_status,
      JobCourse.filterMap_batch?_ending, List.flatten_append]
    simpa [← List.append_assoc] using hflow
  refine ⟨h.builds, h.asked, hprogress, ?_, ?_, ⟨batches, batch, hheard⟩, h.early, ?_, ?_⟩
  · rw [hprogress, List.filter_append, List.filter_eq_nil_iff.mpr]
    · rfl
    · intro p hp
      obtain ⟨exchange, -, hreport⟩ := List.mem_filterMap.mp hp
      simp [terminal_of_reportOf? hreport]
  · rw [hheard, List.filter_append, JobEvent.filter_isCallback_status,
      JobCourse.filter_isCallback_ending, List.nil_append]
  · rw [hlate]
    exact htoken.kept
  · intro hset
    rw [hlate] at hset
    rcases htoken.cause hset with hset | hset | ⟨k, -, hlt, hk⟩
    · exact .inl hset
    · exact .inr (.inl hset)
    · exact .inr (.inr ⟨k, by omega, hk⟩)

/-- Whatever the clock shows and whoever cancels when, a job that is run at least once tells its
listener everything once, and every run answers the same. -/
theorem CompileJob.notifies_once (world : Nat → Moment) (task : CompileTask) (interval : Nat)
    (cancelled : Bool) (n : Nat) : ∃ (c : JobCourse) (job : CompileJob) (d : Desk),
      Desk.run world (runs (n + 1) { CompileJob.new task with throttle := .new interval })
          (.new cancelled) = (some (List.replicate (n + 1) c.outcome, job), d) ∧
        c.IsToldOnce world task cancelled d := by
  obtain ⟨c, job, d, hrun, houtcome, hc⟩ := Desk.run_run world
    { CompileJob.new task with throttle := .new interval } rfl (.new cancelled)
  refine ⟨c, job, d, ?_, hc.toldOnce⟩
  unfold runs
  rw [Desk.run_bind hrun, Desk.run_bind (Desk.run_runs_of_outcome world houtcome n d)]
  rfl

/-- The second report waits for the end, and a build that cancels its job and fails is aborted. -/
example (file : (call : FileCall) → call.Reply) :
    (Desk.run (fun _ => ⟨0, false, file⟩)
      (CompileJob.runs 2 (.new (BuildStep.task "t" [.post "a" none 2, .cancel, .checkpoint])))
      (.new false)).2.heard =
    [.status [.new "t" "a"],
      .status [.new "t" "a",
        { Progress.new "t" "aborted: job was cancelled" with terminal := true }],
      .abort (Fault.of .cancelled)] := by
  cbv

end SessionShell
