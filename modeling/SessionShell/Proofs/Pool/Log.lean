import Mathlib.Data.List.Nodup
import SessionShell.Compile.Pool
import SessionShell.Proofs.Stream.Order

/-!
What is seen of a pool, and the log of it: which jobs were submitted, taken, cancelled, run and
waited for, in the order in which it happened.

A log is lawful when every event in it may follow those before it. What is to be shown of the jobs
is then read off the log.
-/

namespace SessionShell

/-! ## What is seen of a pool -/

namespace Pool

variable {κ : Type} {p p' : Pool κ} {id other : JobId}

def core (p : Pool κ) : Nat × Bool × List JobId × Array (CompileJob × Bool × Option Outcome) :=
  (p.size, p.started, p.waiting, p.jobs.map fun r => (r.job, r.cancelled, r.outcome))

def job? (p : Pool κ) (id : JobId) : Option CompileJob :=
  p.jobs[id]?.map (·.job)

def IsFresh (p : Pool κ) (id : JobId) : Prop :=
  ∃ job, p.job? id = some job ∧ job.outcome = none

theorem getElem?_core (h : p'.core = p.core) (id : JobId) :
    p'.jobs[id]?.map (fun r => (r.job, r.cancelled, r.outcome)) =
      p.jobs[id]?.map fun r => (r.job, r.cancelled, r.outcome) := by
  have hjobs := congrArg (fun core => core.2.2.2[id]?) h
  simpa [core] using hjobs

theorem size_of_core (h : p'.core = p.core) : p'.jobs.size = p.jobs.size := by
  simpa [core] using congrArg (fun core => core.2.2.2.size) h

theorem job?_of_core (h : p'.core = p.core) : p'.job? id = p.job? id := by
  simpa [job?, Function.comp_def] using congrArg (Option.map Prod.fst) (getElem?_core h id)

theorem outcome?_of_core (h : p'.core = p.core) : p'.outcome? id = p.outcome? id := by
  have := congrArg (fun r => r.bind fun t : CompileJob × Bool × Option Outcome => t.2.2)
    (getElem?_core h id)
  simpa [outcome?, Option.bind_map, Function.comp_def] using this

theorem IsFresh.of_job (h : p.IsFresh id) (hjob : p'.job? id = p.job? id) : p'.IsFresh id := by
  obtain ⟨job, hid, hfresh⟩ := h
  exact ⟨job, hjob.trans hid, hfresh⟩

theorem isCancelled_of_core (h : p'.core = p.core) : p'.isCancelled id = p.isCancelled id := by
  have := congrArg (fun r => r.any fun t : CompileJob × Bool × Option Outcome => t.2.1)
    (getElem?_core h id)
  simpa [isCancelled, Option.any_map, Function.comp_def] using this

section Add

variable {task : CompileTask} {listener : κ}

@[simp] theorem size_add : (p.add task listener).2.size = p.size := rfl
@[simp] theorem started_add : (p.add task listener).2.started = p.started := rfl
@[simp] theorem waiting_add : (p.add task listener).2.waiting = p.waiting := rfl

@[simp] theorem jobs_size_add : (p.add task listener).2.jobs.size = p.jobs.size + 1 := by
  simp [add]

theorem getElem?_add (h : other ≠ p.jobs.size) :
    (p.add task listener).2.jobs[other]? = p.jobs[other]? := by
  simp [add, Array.getElem?_push, h]

theorem getElem?_add_self :
    (p.add task listener).2.jobs[p.jobs.size]? = some ⟨.new task, listener, false, none⟩ := by
  simp [add]

theorem outcome?_add : (p.add task listener).2.outcome? other = p.outcome? other := by
  by_cases h : other = p.jobs.size
  · subst h
    rw [outcome?, getElem?_add_self]
    simp [outcome?]
  · simp [outcome?, getElem?_add h]

theorem isFresh_add (h : other = p.jobs.size ∨ p.IsFresh other) :
    (p.add task listener).2.IsFresh other := by
  by_cases hnew : other = p.jobs.size
  · subst hnew
    exact ⟨.new task, by rw [job?, getElem?_add_self]; rfl, rfl⟩
  · obtain ⟨job, hjob, hfresh⟩ := h.resolve_left hnew
    exact ⟨job, by rwa [job?, getElem?_add hnew], hfresh⟩

theorem isCancelled_add (h : p.isCancelled other = true) :
    (p.add task listener).2.isCancelled other = true := by
  have hne : other ≠ p.jobs.size := by
    rintro rfl
    simp [isCancelled] at h
  rwa [isCancelled, getElem?_add hne]

end Add

section Modify

variable {f : JobRecord κ → JobRecord κ}

@[simp] theorem size_modifyJob : (p.modifyJob id f).size = p.size := rfl
@[simp] theorem started_modifyJob : (p.modifyJob id f).started = p.started := rfl
@[simp] theorem waiting_modifyJob : (p.modifyJob id f).waiting = p.waiting := rfl

@[simp] theorem jobs_size_modifyJob : (p.modifyJob id f).jobs.size = p.jobs.size := by
  simp [modifyJob]

theorem getElem?_modifyJob_self : (p.modifyJob id f).jobs[id]? = p.jobs[id]?.map f := by
  simp [modifyJob, Array.getElem?_modify]

theorem getElem?_modifyJob_of_ne (h : other ≠ id) :
    (p.modifyJob id f).jobs[other]? = p.jobs[other]? := by
  simp [modifyJob, Array.getElem?_modify, Ne.symm h]

theorem job?_modifyJob_of_ne (h : other ≠ id) : (p.modifyJob id f).job? other = p.job? other := by
  rw [job?, getElem?_modifyJob_of_ne h, job?]

theorem job?_modifyJob (h : ∀ r, (f r).job = r.job) :
    (p.modifyJob id f).job? other = p.job? other := by
  by_cases hne : other = id
  · subst hne
    simp [job?, getElem?_modifyJob_self, Function.comp_def, h]
  · exact job?_modifyJob_of_ne hne

theorem outcome?_modifyJob_of_ne (h : other ≠ id) :
    (p.modifyJob id f).outcome? other = p.outcome? other := by
  rw [outcome?, getElem?_modifyJob_of_ne h, outcome?]

theorem outcome?_modifyJob (h : ∀ r, (f r).outcome = r.outcome) :
    (p.modifyJob id f).outcome? other = p.outcome? other := by
  by_cases hne : other = id
  · subst hne
    simp [outcome?, getElem?_modifyJob_self, Option.bind_map, Function.comp_def, h]
  · exact outcome?_modifyJob_of_ne hne

theorem isCancelled_modifyJob (h : ∀ r, r.cancelled = true → (f r).cancelled = true)
    (hc : p.isCancelled other = true) : (p.modifyJob id f).isCancelled other = true := by
  by_cases hne : other = id
  · subst hne
    cases hr : p.jobs[other]? with
    | none => simp [isCancelled, hr] at hc
    | some r =>
      have hcr : r.cancelled = true := by simpa [isCancelled, hr] using hc
      simp [isCancelled, getElem?_modifyJob_self, hr, h r hcr]
  · rwa [isCancelled, getElem?_modifyJob_of_ne hne]

theorem isFresh_modifyJob_of_ne (h : other ≠ id) :
    (p.modifyJob id f).IsFresh other ↔ p.IsFresh other := by
  rw [IsFresh, job?_modifyJob_of_ne h, IsFresh]

theorem exists_of_lt (h : id < p.jobs.size) : ∃ r, p.jobs[id]? = some r :=
  ⟨p.jobs[id], Array.getElem?_eq_getElem h⟩

theorem isCancelled_cancel (h : id < p.jobs.size) : (p.cancel id).isCancelled id = true := by
  obtain ⟨r, hr⟩ := exists_of_lt h
  simp [cancel, isCancelled, getElem?_modifyJob_self, hr]

theorem outcome?_finish (h : id < p.jobs.size) (outcome : Outcome) :
    (p.modifyJob id fun r => { r with outcome := some outcome }).outcome? id = some outcome := by
  obtain ⟨r, hr⟩ := exists_of_lt h
  simp [outcome?, getElem?_modifyJob_self, hr]

end Modify

theorem take?_eq (h : p.take? = some (id, p')) :
    p.waiting = id :: p'.waiting ∧ p' = { p with waiting := p'.waiting } := by
  unfold take? at h
  split at h
  · cases h
  · next waiting hwaiting =>
    cases h
    exact ⟨hwaiting, rfl⟩

end Pool

/-! ## The log -/

inductive PoolEvent where
  | submitted (id : JobId)
  | taken (id : JobId)
  | entered (id : JobId)
  /-- The listener of a job that runs has crashed, and the run with it. -/
  | panicked (id : JobId)
  /-- The run of a job has ended, with an outcome unless it has crashed. -/
  | ended (id : JobId) (outcome? : Option Outcome)
  | cancelled (id : JobId)
  | awaited (id : JobId) (outcome : Outcome)
  deriving DecidableEq, Repr

namespace PoolEvent

@[simp]
def submitted? : PoolEvent → Option JobId
  | .submitted id => some id
  | _ => none

@[simp]
def taken? : PoolEvent → Option JobId
  | .taken id => some id
  | _ => none

@[simp]
def ended? : PoolEvent → Option JobId
  | .ended id _ => some id
  | _ => none

end PoolEvent

namespace PoolLog

variable {log log' : List PoolEvent} {event : PoolEvent} {id : JobId} {size : Nat}

def submitted (log : List PoolEvent) : List JobId :=
  log.filterMap PoolEvent.submitted?

def taken (log : List PoolEvent) : List JobId :=
  log.filterMap PoolEvent.taken?

def ended (log : List PoolEvent) : List JobId :=
  log.filterMap PoolEvent.ended?

/-- The jobs that were taken and whose runs have not ended. -/
def running (log : List PoolEvent) : List JobId :=
  (taken log).filter fun id => id ∉ ended log

@[simp] theorem submitted_append : submitted (log ++ log') = submitted log ++ submitted log' :=
  List.filterMap_append ..

@[simp] theorem taken_append : taken (log ++ log') = taken log ++ taken log' :=
  List.filterMap_append ..

@[simp] theorem ended_append : ended (log ++ log') = ended log ++ ended log' :=
  List.filterMap_append ..

@[simp] theorem submitted_singleton : submitted [event] = event.submitted?.toList := by
  cases event <;> rfl

@[simp] theorem taken_singleton : taken [event] = event.taken?.toList := by
  cases event <;> rfl

@[simp] theorem ended_singleton : ended [event] = event.ended?.toList := by
  cases event <;> rfl

theorem mem_running : id ∈ running log ↔ id ∈ taken log ∧ id ∉ ended log := by
  simp [running]

theorem mem_ended : id ∈ ended log ↔ ∃ outcome?, .ended id outcome? ∈ log := by
  simp only [ended, List.mem_filterMap]
  constructor
  · rintro ⟨event, hin, hevent⟩
    cases event <;> simp at hevent
    subst hevent
    exact ⟨_, hin⟩
  · rintro ⟨outcome?, hin⟩
    exact ⟨_, hin, rfl⟩

theorem submitted_snoc_of_not (h : event.submitted? = none) :
    submitted (log ++ [event]) = submitted log := by
  rw [submitted_append, submitted_singleton, h, Option.toList_none, List.append_nil]

theorem taken_snoc_of_not (h : event.taken? = none) : taken (log ++ [event]) = taken log := by
  rw [taken_append, taken_singleton, h, Option.toList_none, List.append_nil]

theorem ended_snoc_of_not (h : event.ended? = none) : ended (log ++ [event]) = ended log := by
  rw [ended_append, ended_singleton, h, Option.toList_none, List.append_nil]

theorem running_snoc_of_not (htaken : event.taken? = none) (hended : event.ended? = none) :
    running (log ++ [event]) = running log := by
  rw [running, taken_snoc_of_not htaken, ended_snoc_of_not hended, running]

theorem running_snoc_taken (hid : id ∉ ended log) :
    running (log ++ [.taken id]) = running log ++ [id] := by
  simp [running, hid]

theorem running_snoc_ended {outcome? : Option Outcome} :
    running (log ++ [.ended id outcome?]) = (running log).filter (· ≠ id) := by
  simp only [running, taken_append, ended_append, taken_singleton, ended_singleton,
    PoolEvent.taken?,
    PoolEvent.ended?, Option.toList_none, Option.toList_some, List.append_nil, List.filter_filter,
    List.mem_append, List.mem_singleton]
  refine List.filter_congr fun other _ => ?_
  by_cases hother : other = id <;> simp [hother]

def MayFollow (size : Nat) (log : List PoolEvent) : PoolEvent → Prop
  | .submitted id => id ∉ submitted log
  | .taken id => (submitted log)[(taken log).length]? = some id ∧ id ∉ ended log ∧
      (running log).length < size
  | .entered id => id ∈ running log ∧ .entered id ∉ log ∧ .cancelled id ∉ log
  | .panicked id => id ∈ running log
  | .ended id outcome? => id ∈ running log ∧
      match outcome? with
      | some outcome => .entered id ∉ log → outcome = .aborted
      | none => .panicked id ∈ log
  | .cancelled _ => True
  | .awaited id outcome => ∃ outcome?, .ended id outcome? ∈ log ∧ outcome?.getD .failed = outcome

inductive Lawful (size : Nat) : List PoolEvent → Prop where
  | nil : Lawful size []
  | snoc {log : List PoolEvent} {event : PoolEvent} (h : Lawful size log)
      (hmay : MayFollow size log event) : Lawful size (log ++ [event])

theorem Lawful.mayFollow (h : Lawful size log) {before after : List PoolEvent}
    (hlog : log = before ++ event :: after) : MayFollow size before event := by
  induction h generalizing after with
  | nil => simp at hlog
  | @snoc log last _ hmay ih =>
    rcases split_snoc hlog with ⟨rfl, rfl⟩ | ⟨after', -, hlog'⟩
    · exact hmay
    · exact ih hlog'

theorem Lawful.of_append (h : Lawful size (log ++ log')) : Lawful size log := by
  induction log' using List.reverseRecOn with
  | nil => simpa using h
  | append_singleton rest event ih =>
    rw [← List.append_assoc] at h
    generalize hlog : log ++ rest ++ [event] = whole at h
    cases h with
    | nil => simp at hlog
    | snoc h _ =>
      obtain ⟨rfl, -⟩ := List.append_inj' hlog rfl
      exact ih h

theorem Lawful.running_le (h : Lawful size log) : (running log).length ≤ size := by
  induction h with
  | nil => exact Nat.zero_le _
  | @snoc log event _ hmay ih =>
    cases event with
    | taken id =>
      rw [running_snoc_taken hmay.2.1, List.length_append]
      exact hmay.2.2
    | ended id outcome? =>
      rw [running_snoc_ended]
      exact Nat.le_trans (List.length_filter_le _ _) ih
    | _ => rwa [running_snoc_of_not rfl rfl]

theorem Lawful.nodup_submitted (h : Lawful size log) : (submitted log).Nodup := by
  induction h with
  | nil => exact List.nodup_nil
  | @snoc log event _ hmay ih =>
    rw [submitted_append]
    cases event with
    | submitted id =>
      have hnew : id ∉ submitted log := hmay
      exact ih.append (List.nodup_singleton id) (by simpa using hnew)
    | _ => simpa using ih

theorem Lawful.taken_initial (h : Lawful size log) : taken log <+: submitted log := by
  induction h with
  | nil => exact List.prefix_rfl
  | @snoc log event _ hmay ih =>
    rw [taken_append, submitted_append]
    cases event with
    | taken id =>
      obtain ⟨rest, hrest⟩ := ih
      have hnext := hmay.1
      rw [← hrest, List.getElem?_append_right (Nat.le_refl _), Nat.sub_self] at hnext
      cases rest with
      | nil => simp at hnext
      | cons first rest =>
        obtain rfl : first = id := by simpa using hnext
        exact ⟨rest, by simp [← hrest]⟩
    | submitted id => simpa using ih.trans (List.prefix_append _ _)
    | _ => simpa using ih

theorem Lawful.ended_subset (h : Lawful size log) : ended log ⊆ taken log := by
  induction h with
  | nil => exact List.Subset.refl _
  | @snoc log event _ hmay ih =>
    rw [ended_append, taken_append]
    cases event with
    | ended id outcome? =>
      intro other hin
      rcases List.mem_append.mp hin with hin | hin
      · exact List.mem_append_left _ (ih hin)
      · obtain rfl : other = id := by simpa using hin
        exact List.mem_append_left _ (mem_running.mp hmay.1).1
    | taken id =>
      intro other hin
      exact List.mem_append_left _ (ih (by simpa using hin))
    | _ => simpa using ih

theorem Lawful.nodup_ended (h : Lawful size log) : (ended log).Nodup := by
  induction h with
  | nil => exact List.nodup_nil
  | @snoc log event _ hmay ih =>
    rw [ended_append]
    cases event with
    | ended id outcome? =>
      have hnew := (mem_running.mp hmay.1).2
      exact ih.append (List.nodup_singleton id) (by simpa using hnew)
    | _ => simpa using ih

theorem Lawful.taken_of_entered (h : Lawful size log) (hin : .entered id ∈ log) :
    id ∈ taken log := by
  obtain ⟨before, after, rfl⟩ := List.append_of_mem hin
  rw [taken_append]
  exact List.mem_append_left _ (mem_running.mp (h.mayFollow rfl).1).1

theorem Lawful.not_entered (h : Lawful size log) {before after : List PoolEvent}
    (hlog : log = before ++ .cancelled id :: after) (hbefore : .entered id ∉ before) :
    .entered id ∉ log := by
  rw [hlog]
  intro hin
  rcases List.mem_append.mp hin with hin | hin
  · exact hbefore hin
  · obtain ⟨middle, rest, rfl⟩ := List.append_of_mem ((List.mem_cons.mp hin).resolve_left (by simp))
    have hsplit : log = (before ++ .cancelled id :: middle) ++ .entered id :: rest := by
      simpa using hlog
    exact (h.mayFollow hsplit).2.2 (by simp)

theorem Lawful.aborted_of_not_entered (h : Lawful size log) {outcome : Outcome}
    (hin : .ended id (some outcome) ∈ log) (hentered : .entered id ∉ log) : outcome = .aborted := by
  obtain ⟨before, after, rfl⟩ := List.append_of_mem hin
  exact (h.mayFollow rfl).2 fun hbefore => hentered (List.mem_append_left _ hbefore)

theorem Lawful.panicked_of_ended (h : Lawful size log) (hin : .ended id none ∈ log) :
    .panicked id ∈ log := by
  obtain ⟨before, after, rfl⟩ := List.append_of_mem hin
  exact List.mem_append_left _ (h.mayFollow rfl).2

end PoolLog

end SessionShell
