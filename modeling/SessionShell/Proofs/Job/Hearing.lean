import SessionShell.Proofs.Job.Notification
import SessionShell.Proofs.Program.Serving

/-!
What a job's listener has heard at any moment.

Until the job ends, it has heard batches and at most that the build has failed. Then it has heard
what the job's course comes to, and hears nothing more.
-/

namespace SessionShell

def JobCall.hearing : Serving JobCall.Reply (List JobEvent)
  | .now, heard, _, heard' => heard' = heard
  | .work _, heard, _, heard' => heard' = heard
  | .notify event, heard, _, heard' => heard' = heard ++ [event]

def JobEvent.Unended (heard : List JobEvent) : Prop :=
  ∃ batches : List (List Progress), heard = batches.map .status ∨
    ∃ fault, heard = batches.map .status ++ [.fail fault]

structure JobCourse.HeardAs (c : JobCourse) (task : CompileTask) (heard : List JobEvent) :
    Prop where
  builds : c.Builds task.build
  heard : ∃ (batches : List (List Progress)) (batch : List Progress),
    heard = batches.map .status ++ c.ending (batch ++ [c.lastReport task]) ∧
      batches.flatten ++ batch = c.built.filterMap (reportOf? task.title)

namespace CompileJob

variable {α : Type} {heard : List JobEvent}

def Batches (heard heard' : List JobEvent) (batches : List (List Progress)) : Prop :=
  heard' = heard ++ batches.map .status

theorem Batches.trans {heard' heard'' : List JobEvent} {batches batches' : List (List Progress)}
    (h : Batches heard heard' batches) (h' : Batches heard' heard'' batches') :
    Batches heard heard'' (batches ++ batches') := by
  simp only [Batches] at *
  simp [h', h]

theorem hearing_now (heard : List JobEvent) :
    (Program.call JobCall.now : JobProgram Nat).Served JobCall.hearing
      (fun _ heard' => heard' = heard) heard :=
  Program.served_call rfl fun _ _ h => h

theorem hearing_isCancelled (heard : List JobEvent) :
    isCancelled.Served JobCall.hearing (fun _ heard' => heard' = heard) heard :=
  ⟨rfl, fun _ _ h => h⟩

theorem hearing_post (title message : String) (share : Option (UInt64 × UInt64))
    (throttle : Throttle) :
    (post title message share throttle).Served JobCall.hearing
      (fun r heard' => ∃ batches, Batches heard heard' batches ∧ ∀ throttle', r = some throttle' →
        batches.flatten ++ throttle'.pending.toList =
          throttle.pending.toList ++ [report title message share]) heard := by
  have hnone : ∃ batches, Batches heard heard batches ∧
      ∀ throttle', (none : Option Throttle) = some throttle' →
        batches.flatten ++ throttle'.pending.toList =
          throttle.pending.toList ++ [report title message share] :=
            ⟨[], by simp [Batches], by simp⟩
  refine Program.Served.bind (hearing_now heard) (fun now heard' hheard' => ?_) ?_
  · subst hheard'
    have hflow := throttle.offer_delivers now (report title message share)
    cases hoffer : throttle.offer now (report title message share) with
    | mk batch? throttle' =>
      rw [hoffer] at hflow
      cases batch? with
      | none =>
        refine ⟨[], by simp [Batches], ?_⟩
        rintro _ ⟨⟩
        exact hflow
      | some batch =>
        refine ⟨hnone, fun _ heard' hheard' => ?_⟩
        cases hheard'
        refine ⟨[batch], by simp [Batches], ?_⟩
        rintro _ ⟨⟩
        exact hflow
  · rintro _ rfl
    exact hnone

theorem hearing_carryOut (title : String) (p : Program BuildCall BuildCall.Reply α)
    (throttle : Throttle) :
    (carryOut title p throttle).Served JobCall.hearing
      (fun r heard' => ∃ batches, Batches heard heard' batches ∧
        ∀ result? throttle', r = some (result?, throttle') → ∃ built, p.Goes built result? ∧
          batches.flatten ++ throttle'.pending.toList =
            throttle.pending.toList ++ built.filterMap (reportOf? title)) heard := by
  induction p generalizing throttle heard with
  | done a =>
    refine ⟨[], by simp [Batches], ?_⟩
    rintro _ _ ⟨⟩
    exact ⟨[], .done a, by simp⟩
  | crash =>
    refine ⟨[], by simp [Batches], ?_⟩
    rintro _ _ ⟨⟩
    exact ⟨[], .crash, by simp⟩
  | ask call next ih =>
    cases call with
    | post message share =>
      refine (hearing_post title message share throttle).bind (fun throttle' heard' h => ?_) ?_
      case refine_2 =>
        rintro heard' ⟨batches, hbatches, -⟩
        exact ⟨batches, hbatches, by simp⟩
      obtain ⟨batches, hbatches, hflow⟩ := h
      refine (ih () throttle').mono ?_
      rintro r heard'' ⟨batches', hbatches', hrest⟩
      refine ⟨_, hbatches.trans hbatches', fun result? throttle'' hr => ?_⟩
      obtain ⟨built, hgoes, hflow'⟩ := hrest result? throttle'' hr
      refine ⟨_, .ask hgoes, ?_⟩
      rw [List.flatten_append, List.append_assoc, hflow', ← List.append_assoc, hflow throttle' rfl]
      simp [reportOf?]
    | work call =>
      refine ⟨⟨[], by simp [Batches], by simp⟩, fun reply heard' hheard' => ?_⟩
      cases hheard'
      refine (ih reply throttle).mono ?_
      rintro r heard'' ⟨batches, hbatches, hrest⟩
      refine ⟨batches, hbatches, fun result? throttle' hr => ?_⟩
      obtain ⟨built, hgoes, hflow⟩ := hrest result? throttle' hr
      exact ⟨_, .ask hgoes, hflow⟩

theorem hearing_result (task : CompileTask) :
    (CompileJob.new task).result.Served JobCall.hearing
      (fun r heard => ∃ batches, Batches [] heard batches ∧
        ∀ result throttle, r = some (result, throttle) → ∃ early built,
          (∀ late, (⟨early, built, result, late⟩ : JobCourse).Builds task.build) ∧
            batches.flatten ++ throttle.pending.toList =
              built.filterMap (reportOf? task.title)) [] := by
  refine Program.Served.bind (hearing_isCancelled []) (fun (cancelled : Bool) heard hheard => ?_) ?_
  · subst hheard
    cases cancelled with
    | true =>
      refine ⟨[], by simp [Batches], ?_⟩
      rintro _ _ ⟨⟩
      refine ⟨true, [], ?_, by simp [CompileJob.new, Throttle.new]⟩
      simp [JobCourse.Builds]
    | false =>
      refine (hearing_carryOut task.title task.build.run (CompileJob.new task).throttle).bind ?_ ?_
      · rintro ⟨result?, throttle⟩ heard ⟨batches, hbatches, hrest⟩
        obtain ⟨built, hgoes, hflow⟩ := hrest result? throttle rfl
        refine ⟨batches, hbatches, ?_⟩
        rintro _ _ ⟨⟩
        refine ⟨false, built, fun late => ?_, by simpa [CompileJob.new, Throttle.new] using hflow⟩
        simp only [JobCourse.Builds, Bool.false_eq_true, if_false]
        exact ⟨result?, hgoes, rfl⟩
      · rintro heard ⟨batches, hbatches, -⟩
        exact ⟨batches, hbatches, by simp⟩
  · rintro heard rfl
    exact ⟨[], by simp [Batches], by simp⟩

theorem hearing_conclude (job : CompileJob) (outcome : Outcome) (message : String)
    (throttle : Throttle) (heard : List JobEvent) :
    (job.conclude outcome message throttle).Served JobCall.hearing
      (fun r heard' => r.elim (heard' = heard) fun _ => heard' = heard ++
        [.status (throttle.pending.toList ++
          [{ Progress.new job.title message with terminal := true }])]) heard :=
  ⟨rfl, fun _ heard' (hnow : heard' = heard) => ⟨hnow, fun _ _ h => by
    subst hnow
    exact h⟩⟩

theorem hearing_run (task : CompileTask) :
    (CompileJob.new task).run.Served JobCall.hearing
      (fun r heard => r.elim (JobEvent.Unended heard) fun a =>
        ∃ c : JobCourse, c.HeardAs task heard ∧ a.1 = c.outcome) [] := by
  have hunended (batches : List (List Progress)) : JobEvent.Unended (batches.map .status) :=
    ⟨batches, .inl rfl⟩
  unfold run
  refine (hearing_result task).bind ?_ ?_
  · rintro ⟨result, throttle⟩ heard ⟨batches, hbatches, hrest⟩
    obtain ⟨early, built, hbuilds, hflow⟩ := hrest result throttle rfl
    obtain rfl : heard = batches.map .status := by simpa [Batches] using hbatches
    have hstatus (batch : List Progress) :
        JobEvent.Unended (batches.map .status ++ [.status batch]) := by
      simpa using hunended (batches ++ [batch])
    cases result with
    | ok output =>
      refine (hearing_conclude _ _ _ throttle _).bind ?_ (by rintro _ rfl; exact hunended batches)
      rintro job heard rfl
      refine ⟨hstatus _, fun _ heard' hheard' => ?_⟩
      cases hheard'
      exact ⟨⟨early, built, .ok output, false⟩,
        ⟨hbuilds false, batches, throttle.pending.toList, by
          simp [JobCourse.ending, JobCourse.outcome, JobCourse.callback, JobCourse.lastReport,
            JobCourse.message, CompileJob.new, CompileJob.title], hflow⟩, rfl⟩
    | error fault =>
      refine Program.Served.bind (hearing_isCancelled _) (fun (late : Bool) heard hheard => ?_)
        (by rintro _ rfl; exact hunended batches)
      subst hheard
      let c : JobCourse := ⟨early, built, .error fault, late⟩
      split
      · rename_i hcut
        have haborted : c.outcome = .aborted := if_pos hcut
        have hcallback : c.callback = .abort fault := if_pos hcut
        refine (hearing_conclude _ _ _ throttle _).bind ?_ (by rintro _ rfl; exact hunended batches)
        rintro job heard rfl
        refine ⟨hstatus _, fun _ heard' hheard' => ?_⟩
        cases hheard'
        refine ⟨c, ⟨hbuilds late, batches, throttle.pending.toList, ?_, hflow⟩, haborted.symm⟩
        simp [JobCourse.ending, haborted, hcallback, c, JobCourse.lastReport, JobCourse.message,
          CompileJob.new, CompileJob.title]
      · rename_i hcut
        have hfailed : c.outcome = .failed := if_neg hcut
        have hcallback : c.callback = .fail fault := if_neg hcut
        have hfail : JobEvent.Unended (batches.map .status ++ [.fail fault]) :=
          ⟨batches, .inr ⟨fault, rfl⟩⟩
        refine ⟨hunended batches, fun _ heard' hheard' => ?_⟩
        cases hheard'
        refine (hearing_conclude _ _ _ throttle _).bind ?_ (by rintro _ rfl; exact hfail)
        rintro job heard rfl
        refine ⟨c, ⟨hbuilds late, batches, throttle.pending.toList, ?_, hflow⟩, hfailed.symm⟩
        simp [JobCourse.ending, hfailed, hcallback, c, JobCourse.lastReport, JobCourse.message,
          CompileJob.new, CompileJob.title]
  · rintro heard ⟨batches, hbatches, -⟩
    obtain rfl : heard = batches.map .status := by simpa [Batches] using hbatches
    exact hunended batches

/-! ## A job never crashes -/

theorem crashFree_post (title message : String) (share : Option (UInt64 × UInt64))
    (throttle : Throttle) : (post title message share throttle).CrashFree := by
  refine (Program.crashFree_call _).bind fun now => ?_
  rcases throttle.offer now (report title message share) with ⟨batch?, throttle'⟩
  cases batch? with
  | none => trivial
  | some batch => exact fun _ => trivial

theorem crashFree_carryOut (title : String) (p : Program BuildCall BuildCall.Reply α)
    (throttle : Throttle) : (carryOut title p throttle).CrashFree := by
  induction p generalizing throttle with
  | done a => trivial
  | crash => trivial
  | ask call next ih =>
    cases call with
    | post message share =>
      exact (crashFree_post title message share throttle).bind fun throttle => ih () throttle
    | work call => exact fun reply => ih reply throttle

theorem crashFree_result (job : CompileJob) : job.result.CrashFree := by
  refine (Program.crashFree_call _).bind fun (cancelled : Bool) => ?_
  cases cancelled with
  | true => trivial
  | false => exact (crashFree_carryOut _ _ _).bind fun _ => trivial

theorem crashFree_run (job : CompileJob) : job.run.CrashFree := by
  unfold run
  split
  · trivial
  · refine (crashFree_result job).bind fun r => ?_
    obtain ⟨result, throttle⟩ := r
    cases result with
    | ok output => exact fun _ _ _ => trivial
    | error fault =>
      refine (Program.crashFree_call _).bind fun late => ?_
      split
      · exact fun _ _ _ => trivial
      · exact fun _ _ _ => trivial

end CompileJob

end SessionShell
