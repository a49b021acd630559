import Mathlib.Data.List.Perm.Subperm
import Mathlib.Data.List.Range
import Mathlib.Logic.Function.Basic
import SessionShell.Proofs.Pool.Log

/-!
The record of a pool, and what ties the pool to it.

Beside the log it is kept what each worker has in hand, and which job a thread has made and not
submitted yet. A job is in one place at a time, so it is run once.
-/

namespace SessionShell

structure PoolRecord where
  log : List PoolEvent
  crew : List ThreadId
  hand : ThreadId → Option JobId
  /-- The job a thread has made and not submitted yet. -/
  offer : ThreadId → Option JobId

namespace PoolRecord

open PoolLog

variable {κ : Type}

def new : PoolRecord :=
  ⟨[], [], fun _ => none, fun _ => none⟩

def note (event : PoolEvent) (r : PoolRecord) : PoolRecord :=
  { r with log := r.log ++ [event] }

def make (me : ThreadId) (id : JobId) (r : PoolRecord) : PoolRecord :=
  { r with offer := Function.update r.offer me (some id) }

def hire (crew : List ThreadId) (r : PoolRecord) : PoolRecord :=
  { r with crew }

def submit (me : ThreadId) (id : JobId) (r : PoolRecord) : PoolRecord :=
  { r with offer := Function.update r.offer me none }.note (.submitted id)

def cancel (p : Pool κ) (id : JobId) (r : PoolRecord) : PoolRecord :=
  if id < p.jobs.size then r.note (.cancelled id) else r

def take (me : ThreadId) (id : JobId) (r : PoolRecord) : PoolRecord :=
  { r with hand := Function.update r.hand me (some id) }.note (.taken id)

def finish (me : ThreadId) (id : JobId) (outcome? : Option Outcome) (r : PoolRecord) : PoolRecord :=
  { r with hand := Function.update r.hand me none }.note (.ended id outcome?)

end PoolRecord

structure PoolTally {κ : Type} (n : Nat) (p : Pool κ) (r : PoolRecord) : Prop where
  lawful : PoolLog.Lawful n r.log
  size : p.size = n
  room : 0 < n
  nodup : r.crew.Nodup
  unstarted : p.started = false → r.crew = [] ∧ p.waiting = []
  manned : p.started = true → r.crew.length = n
  line : PoolLog.submitted r.log = PoolLog.taken r.log ++ p.waiting
  made : ∀ id ∈ PoolLog.submitted r.log, id < p.jobs.size
  offers : ∀ t id, r.offer t = some id → id < p.jobs.size ∧ id ∉ PoolLog.submitted r.log
  apart : ∀ t t' id, r.offer t = some id → r.offer t' = some id → t = t'
  hands : ∀ t id, r.hand t = some id → t ∈ r.crew ∧ id ∈ PoolLog.running r.log
  alone : ∀ t t' id, r.hand t = some id → r.hand t' = some id → t = t'
  held : ∀ id ∈ PoolLog.running r.log, ∃ t, r.hand t = some id
  fresh : ∀ id, id < p.jobs.size → id ∉ PoolLog.taken r.log → p.IsFresh id
  outcomes : ∀ id outcome, p.outcome? id = some outcome ↔
    ∃ outcome?, .ended id outcome? ∈ r.log ∧ outcome?.getD .failed = outcome
  cancels : ∀ id, .cancelled id ∈ r.log → p.isCancelled id = true

namespace PoolTally

open PoolLog

variable {κ : Type} {n : Nat} {p p' : Pool κ} {r : PoolRecord} {me t : ThreadId} {id other : JobId}
  {outcome : Outcome}

theorem new (size : Nat) : PoolTally (max size 1) (Pool.new size : Pool κ) .new where
  lawful := .nil
  size := rfl
  room := Nat.lt_of_lt_of_le Nat.one_pos (Nat.le_max_right size 1)
  nodup := List.nodup_nil
  unstarted _ := ⟨rfl, rfl⟩
  manned h := by cases h
  line := rfl
  made := by simp [PoolRecord.new, submitted]
  offers := by simp [PoolRecord.new]
  apart := by simp [PoolRecord.new]
  hands := by simp [PoolRecord.new]
  alone := by simp [PoolRecord.new]
  held := by simp [PoolRecord.new, running, taken]
  fresh := by simp [Pool.new]
  outcomes := by simp [Pool.new, PoolRecord.new, Pool.outcome?]
  cancels := by simp [PoolRecord.new]

theorem crew_le (h : PoolTally n p r) : r.crew.length ≤ n := by
  cases hs : p.started with
  | false => simp [(h.unstarted hs).1]
  | true => exact Nat.le_of_eq (h.manned hs)

theorem taken_lt (h : PoolTally n p r) (hid : id ∈ taken r.log) : id < p.jobs.size :=
  h.made id (h.line ▸ List.mem_append_left _ hid)

theorem of_core (h : PoolTally n p r) (hp : p'.core = p.core) : PoolTally n p' r where
  lawful := h.lawful
  size := (congrArg (·.1) hp).trans h.size
  room := h.room
  nodup := h.nodup
  unstarted hs := by
    have hwaiting : p'.waiting = p.waiting := congrArg (·.2.2.1) hp
    rw [hwaiting]
    exact h.unstarted ((congrArg (·.2.1) hp).symm.trans hs)
  manned hs := h.manned ((congrArg (·.2.1) hp).symm.trans hs)
  line := by
    have hwaiting : p'.waiting = p.waiting := congrArg (·.2.2.1) hp
    rw [hwaiting]
    exact h.line
  made := Pool.size_of_core hp ▸ h.made
  offers := Pool.size_of_core hp ▸ h.offers
  apart := h.apart
  hands := h.hands
  alone := h.alone
  held := h.held
  fresh id hid hout := by
    exact (h.fresh id (Pool.size_of_core hp ▸ hid) hout).of_job (Pool.job?_of_core hp)
  outcomes id outcome := by
    rw [Pool.outcome?_of_core hp]
    exact h.outcomes id outcome
  cancels id hin := (Pool.isCancelled_of_core hp).trans (h.cancels id hin)

theorem note {event : PoolEvent} (h : PoolTally n p r) (hmay : MayFollow n r.log event)
    (hsubmitted : event.submitted? = none) (htaken : event.taken? = none)
    (hended : event.ended? = none)
    (hcancelled : ∀ id, event = .cancelled id → p.isCancelled id = true) :
    PoolTally n p (r.note event) := by
  have hrunning : running (r.note event).log = running r.log := running_snoc_of_not htaken hended
  have hsub : submitted (r.note event).log = submitted r.log := submitted_snoc_of_not hsubmitted
  have htak : taken (r.note event).log = taken r.log := taken_snoc_of_not htaken
  exact {
    lawful := h.lawful.snoc hmay
    size := h.size
    room := h.room
    nodup := h.nodup
    unstarted := h.unstarted
    manned := h.manned
    line := by rw [hsub, htak, h.line]
    made := hsub ▸ h.made
    offers := hsub ▸ h.offers
    apart := h.apart
    hands := hrunning ▸ h.hands
    alone := h.alone
    held := hrunning ▸ h.held
    fresh := htak ▸ h.fresh
    outcomes := fun id outcome => by
      have hne : ∀ outcome?, PoolEvent.ended id outcome? ≠ event := by
        rintro outcome? rfl
        simp at hended
      simpa [PoolRecord.note, hne] using h.outcomes id outcome
    cancels := fun id hin => by
      rcases List.mem_append.mp hin with hin | hin
      · exact h.cancels id hin
      · exact hcancelled id (List.mem_singleton.mp hin).symm }

theorem make {task : CompileTask} {listener : κ} (h : PoolTally n p r) :
    PoolTally n (p.add task listener).2 (r.make me p.jobs.size) := by
  have hnew : ∀ t, r.offer t ≠ some p.jobs.size := fun t ht =>
    absurd (h.offers t _ ht).1 (Nat.lt_irrefl _)
  have hoffer : ∀ t id, (r.make me p.jobs.size).offer t = some id →
      t = me ∧ id = p.jobs.size ∨ t ≠ me ∧ r.offer t = some id := by
    intro t id ht
    by_cases htme : t = me
    · subst htme
      exact .inl ⟨rfl, by simpa [PoolRecord.make] using ht.symm⟩
    · exact .inr ⟨htme, by simpa [PoolRecord.make, htme] using ht⟩
  constructor
  case lawful => exact h.lawful
  case size => exact h.size
  case room => exact h.room
  case nodup => exact h.nodup
  case unstarted => exact h.unstarted
  case manned => exact h.manned
  case line => exact h.line
  case made =>
    intro id hid
    rw [Pool.jobs_size_add]
    exact Nat.lt_succ_of_lt (h.made id hid)
  case offers =>
    intro t id ht
    rw [Pool.jobs_size_add]
    rcases hoffer t id ht with ⟨-, rfl⟩ | ⟨-, ht'⟩
    · exact ⟨Nat.lt_succ_self _, fun hin => absurd (h.made _ hin) (Nat.lt_irrefl _)⟩
    · exact ⟨Nat.lt_succ_of_lt (h.offers t id ht').1, (h.offers t id ht').2⟩
  case apart =>
    intro t t' id ht ht'
    rcases hoffer t id ht with ⟨rfl, rfl⟩ | ⟨-, hold⟩ <;>
      rcases hoffer t' _ ht' with ⟨rfl, hid⟩ | ⟨-, hold'⟩
    · rfl
    · exact absurd hold' (hnew t')
    · exact absurd (hid ▸ hold) (hnew t)
    · exact h.apart t t' id hold hold'
  case hands => exact h.hands
  case alone => exact h.alone
  case held => exact h.held
  case fresh =>
    intro id hid hout
    rw [Pool.jobs_size_add] at hid
    rcases Nat.lt_succ_iff_lt_or_eq.mp hid with hlt | heq
    · exact Pool.isFresh_add (.inr (h.fresh id hlt hout))
    · exact Pool.isFresh_add (.inl heq)
  case outcomes =>
    intro id outcome
    rw [Pool.outcome?_add]
    exact h.outcomes id outcome
  case cancels => exact fun id hin => Pool.isCancelled_add (h.cancels id hin)

theorem hire {crew : List ThreadId} (h : PoolTally n p r) (hs : p.started = false)
    (hnodup : crew.Nodup)
    (hcrew : crew.length = n) : PoolTally n { p with started := true } (r.hire crew) where
  lawful := h.lawful
  size := h.size
  room := h.room
  nodup := hnodup
  unstarted hs' := by cases hs'
  manned _ := hcrew
  line := h.line
  made := h.made
  offers := h.offers
  apart := h.apart
  hands t id ht := by
    have hin := (h.hands t id ht).1
    rw [(h.unstarted hs).1] at hin
    cases hin
  alone := h.alone
  held := h.held
  fresh := h.fresh
  outcomes := h.outcomes
  cancels := h.cancels

theorem submit (h : PoolTally n p r) (hoffer : r.offer me = some id) (hs : p.started = true) :
    PoolTally n (p.enqueue id) (r.submit me id) := by
  obtain ⟨hlt, hout⟩ := h.offers me id hoffer
  have hoffers : ∀ t other, (r.submit me id).offer t = some other →
      t ≠ me ∧ r.offer t = some other := by
    intro t other ht
    by_cases htme : t = me
    · subst htme
      simp [PoolRecord.submit, PoolRecord.note] at ht
    · exact ⟨htme, by simpa [PoolRecord.submit, PoolRecord.note, htme] using ht⟩
  have hrunning : running (r.submit me id).log = running r.log := running_snoc_of_not rfl rfl
  constructor
  case lawful => exact h.lawful.snoc hout
  case size => exact h.size
  case room => exact h.room
  case nodup => exact h.nodup
  case unstarted => exact fun hs' => absurd (hs.symm.trans hs') (by simp)
  case manned => exact h.manned
  case line => simp [PoolRecord.submit, PoolRecord.note, Pool.enqueue, h.line]
  case made =>
    intro other hin
    have hin' : other ∈ submitted r.log ∨ other = id := by
      simpa [PoolRecord.submit, PoolRecord.note] using hin
    rcases hin' with hin' | rfl
    · exact h.made other hin'
    · exact hlt
  case offers =>
    intro t other ht
    obtain ⟨htme, ht'⟩ := hoffers t other ht
    refine ⟨(h.offers t other ht').1, fun hin => ?_⟩
    have hin' : other ∈ submitted r.log ∨ other = id := by
      simpa [PoolRecord.submit, PoolRecord.note] using hin
    rcases hin' with hin' | rfl
    · exact (h.offers t other ht').2 hin'
    · exact htme (h.apart t me other ht' hoffer)
  case apart =>
    exact fun t t' other ht ht' => h.apart t t' other (hoffers t other ht).2
      (hoffers t' other ht').2
  case hands =>
    rw [hrunning]
    exact h.hands
  case alone => exact h.alone
  case held =>
    rw [hrunning]
    exact h.held
  case fresh =>
    have htaken : taken (r.submit me id).log = taken r.log := taken_snoc_of_not rfl
    rw [htaken]
    exact h.fresh
  case outcomes =>
    intro other outcome
    refine (h.outcomes other outcome).trans ?_
    simp [PoolRecord.submit, PoolRecord.note]
  case cancels =>
    intro other hin
    exact h.cancels other (by simpa [PoolRecord.submit, PoolRecord.note] using hin)

theorem cancel (h : PoolTally n p r) : PoolTally n (p.cancel id) (r.cancel p id) := by
  have hflagged : PoolTally n (p.cancel id) r := {
    lawful := h.lawful
    size := h.size
    room := h.room
    nodup := h.nodup
    unstarted := h.unstarted
    manned := h.manned
    line := h.line
    made := by simpa [Pool.cancel] using h.made
    offers := by simpa [Pool.cancel] using h.offers
    apart := h.apart
    hands := h.hands
    alone := h.alone
    held := h.held
    fresh := fun other hlt hout => by
      have hfresh := h.fresh other (by simpa [Pool.cancel] using hlt) hout
      exact hfresh.of_job (Pool.job?_modifyJob fun _ => rfl)
    outcomes := fun other outcome => by
      have hsame : (p.cancel id).outcome? other = p.outcome? other :=
        Pool.outcome?_modifyJob fun _ => rfl
      rw [hsame]
      exact h.outcomes other outcome
    cancels := fun other hin =>
      Pool.isCancelled_modifyJob (fun _ _ => rfl) (h.cancels other hin) }
  unfold PoolRecord.cancel
  split
  · next hlt =>
    refine hflagged.note trivial rfl rfl rfl fun other hother => ?_
    cases hother
    exact Pool.isCancelled_cancel hlt
  · exact hflagged

theorem wait (h : PoolTally n p r) (houtcome : p.outcome? id = some outcome) :
    PoolTally n p (r.note (.awaited id outcome)) :=
  h.note ((h.outcomes id outcome).mp houtcome) rfl rfl rfl fun _ heq => by cases heq

theorem running_lt (h : PoolTally n p r) (hme : me ∈ r.crew) (hhand : r.hand me = none) :
    (running r.log).length < n := by
  have hnodup : (running r.log).Nodup :=
    (h.lawful.taken_initial.sublist.nodup h.lawful.nodup_submitted).filter _
  have hsubset : running r.log ⊆ (r.crew.erase me).filterMap r.hand := by
    intro id hid
    obtain ⟨t, ht⟩ := h.held id hid
    have hne : t ≠ me := by
      rintro rfl
      rw [hhand] at ht
      cases ht
    exact List.mem_filterMap.mpr ⟨t, (List.mem_erase_of_ne hne).mpr (h.hands t id ht).1, ht⟩
  have hlength : (r.crew.erase me).length + 1 = r.crew.length := by
    rw [List.length_erase_of_mem hme]
    exact Nat.sub_add_cancel (List.length_pos_of_mem hme)
  have hle := (hnodup.subperm hsubset).length_le
  have hmap := List.length_filterMap_le r.hand (r.crew.erase me)
  have := h.crew_le
  omega

theorem exists_idle (h : PoolTally n p r) (hs : p.started = true)
    (hroom : (running r.log).length < n) :
    ∃ t ∈ r.crew, r.hand t = none := by
  by_contra hnone
  push Not at hnone
  have hsome : ∀ t ∈ r.crew, (r.hand t).isSome = true := fun t ht =>
    Option.isSome_iff_ne_none.mpr (hnone t ht)
  have hlength : (r.crew.filterMap r.hand).length = n := by
    rw [List.length_filterMap_eq_countP, List.countP_eq_length.mpr hsome, h.manned hs]
  have hnodup : (r.crew.filterMap r.hand).Nodup :=
    h.nodup.filterMap fun t t' id ht ht' => h.alone t t' id ht ht'
  have hsubset : r.crew.filterMap r.hand ⊆ running r.log := by
    intro id hid
    obtain ⟨t, -, ht⟩ := List.mem_filterMap.mp hid
    exact (h.hands t id ht).2
  have := (hnodup.subperm hsubset).length_le
  omega

theorem untaken (h : PoolTally n p r) (ht : p.take? = some (id, p')) :
    id ∉ taken r.log ∧ p'.IsFresh id := by
  obtain ⟨hwaiting, hp'⟩ := Pool.take?_eq ht
  have hline := h.line
  rw [hwaiting] at hline
  have hnodup := h.lawful.nodup_submitted
  rw [hline] at hnodup
  have hout : id ∉ taken r.log := fun hin =>
    (List.nodup_append.mp hnodup).2.2 id hin id List.mem_cons_self rfl
  have hlt := h.made id (hline ▸ List.mem_append_right _ List.mem_cons_self)
  exact ⟨hout, (h.fresh id hlt hout).of_job (by rw [hp']; rfl)⟩

theorem take (h : PoolTally n p r) (hme : me ∈ r.crew) (hhand : r.hand me = none)
    (ht : p.take? = some (id, p')) : PoolTally n p' (r.take me id) := by
  obtain ⟨hwaiting, hp'⟩ := Pool.take?_eq ht
  have hline := h.line
  rw [hwaiting] at hline
  have hout := (h.untaken ht).1
  have hunended : id ∉ ended r.log := fun hin => hout (h.lawful.ended_subset hin)
  have hrunning : running (r.take me id).log = running r.log ++ [id] := running_snoc_taken hunended
  have hhands : ∀ t other, (r.take me id).hand t = some other →
      t = me ∧ other = id ∨ t ≠ me ∧ r.hand t = some other := by
    intro t other htaken
    by_cases htme : t = me
    · subst htme
      exact .inl ⟨rfl, by simpa [PoolRecord.take, PoolRecord.note] using htaken.symm⟩
    · exact .inr ⟨htme, by simpa [PoolRecord.take, PoolRecord.note, htme] using htaken⟩
  have hnotheld : ∀ t, r.hand t ≠ some id := fun t ht =>
    hout (mem_running.mp (h.hands t id ht).2).1
  constructor
  case lawful =>
    refine h.lawful.snoc ⟨?_, hunended, h.running_lt hme hhand⟩
    simp [hline]
  case size => rw [hp']; exact h.size
  case room => exact h.room
  case nodup => exact h.nodup
  case unstarted =>
    rw [hp']
    intro hs
    have hnone := (h.unstarted hs).2
    rw [hwaiting] at hnone
    cases hnone
  case manned => rw [hp']; exact h.manned
  case line => simp [PoolRecord.take, PoolRecord.note, hline]
  case made =>
    rw [hp', show submitted (r.take me id).log = submitted r.log from submitted_snoc_of_not rfl]
    exact h.made
  case offers =>
    rw [hp', show submitted (r.take me id).log = submitted r.log from submitted_snoc_of_not rfl]
    exact h.offers
  case apart => exact h.apart
  case hands =>
    intro t other htaken
    rw [hrunning]
    rcases hhands t other htaken with ⟨rfl, rfl⟩ | ⟨-, hold⟩
    · exact ⟨hme, List.mem_append_right _ (List.mem_singleton_self _)⟩
    · exact ⟨(h.hands t other hold).1, List.mem_append_left _ (h.hands t other hold).2⟩
  case alone =>
    intro t t' other ht ht'
    rcases hhands t other ht with ⟨rfl, rfl⟩ | ⟨-, hold⟩ <;>
      rcases hhands t' _ ht' with ⟨rfl, hid⟩ | ⟨-, hold'⟩
    · rfl
    · exact absurd hold' (hnotheld t')
    · exact absurd (hid ▸ hold) (hnotheld t)
    · exact h.alone t t' other hold hold'
  case held =>
    intro other hin
    rw [hrunning] at hin
    rcases List.mem_append.mp hin with hin | hin
    · obtain ⟨t, hold⟩ := h.held other hin
      have htme : t ≠ me := by
        rintro rfl
        rw [hhand] at hold
        cases hold
      exact ⟨t, by simpa [PoolRecord.take, PoolRecord.note, htme] using hold⟩
    · obtain rfl : other = id := by simpa using hin
      exact ⟨me, by simp [PoolRecord.take, PoolRecord.note]⟩
  case fresh =>
    intro other hlt hnot
    rw [hp'] at hlt ⊢
    exact h.fresh other hlt fun hin => hnot (by simp [PoolRecord.take, PoolRecord.note, hin])
  case outcomes =>
    intro other outcome
    rw [hp']
    refine (h.outcomes other outcome).trans ?_
    simp [PoolRecord.take, PoolRecord.note]
  case cancels =>
    intro other hin
    rw [hp']
    exact h.cancels other (by simpa [PoolRecord.take, PoolRecord.note] using hin)

theorem enter (h : PoolTally n p r) (hhand : r.hand me = some id) (hout : .entered id ∉ r.log)
    (hcancelled : p.isCancelled id = false) : PoolTally n p (r.note (.entered id)) := by
  refine h.note ⟨(h.hands me id hhand).2, hout, fun hin => ?_⟩ rfl rfl rfl fun _ heq => by cases heq
  rw [h.cancels id hin] at hcancelled
  cases hcancelled

theorem rework {job : CompileJob} (h : PoolTally n p r) (hid : id ∈ running r.log) :
    PoolTally n (p.modifyJob id fun j => { j with job }) r where
  lawful := h.lawful
  size := h.size
  room := h.room
  nodup := h.nodup
  unstarted := h.unstarted
  manned := h.manned
  line := h.line
  made := by simpa using h.made
  offers := by simpa using h.offers
  apart := h.apart
  hands := h.hands
  alone := h.alone
  held := h.held
  fresh other hlt hout := by
    have hne : other ≠ id := fun he => hout (he ▸ (mem_running.mp hid).1)
    exact (Pool.isFresh_modifyJob_of_ne hne).mpr (h.fresh other (by simpa using hlt) hout)
  outcomes other outcome := by
    have hsame : (p.modifyJob id fun j => { j with job }).outcome? other = p.outcome? other :=
      Pool.outcome?_modifyJob fun _ => rfl
    rw [hsame]
    exact h.outcomes other outcome
  cancels other hin := Pool.isCancelled_modifyJob (fun _ hc => hc) (h.cancels other hin)

theorem panic (h : PoolTally n p r) (hhand : r.hand me = some id) :
    PoolTally n p (r.note (.panicked id)) :=
  h.note (h.hands me id hhand).2 rfl rfl rfl fun _ heq => by cases heq

theorem finish {outcome? : Option Outcome} (h : PoolTally n p r) (hhand : r.hand me = some id)
    (hmay : MayFollow n r.log (.ended id outcome?)) :
    PoolTally n (p.modifyJob id fun j => { j with outcome := some (outcome?.getD .failed) })
      (r.finish me id outcome?) := by
  obtain ⟨htaken, hunended⟩ := mem_running.mp (h.hands me id hhand).2
  have hrunning : running (r.finish me id outcome?).log = (running r.log).filter (· ≠ id) :=
    running_snoc_ended
  have hhands : ∀ t other, (r.finish me id outcome?).hand t = some other →
      t ≠ me ∧ r.hand t = some other := by
    intro t other ht
    by_cases htme : t = me
    · subst htme
      simp [PoolRecord.finish, PoolRecord.note] at ht
    · exact ⟨htme, by simpa [PoolRecord.finish, PoolRecord.note, htme] using ht⟩
  have hsub : submitted (r.finish me id outcome?).log = submitted r.log := submitted_snoc_of_not rfl
  have htak : taken (r.finish me id outcome?).log = taken r.log := taken_snoc_of_not rfl
  constructor
  case lawful => exact h.lawful.snoc hmay
  case size => exact h.size
  case room => exact h.room
  case nodup => exact h.nodup
  case unstarted => exact h.unstarted
  case manned => exact h.manned
  case line => rw [hsub, htak, h.line]; rfl
  case made => rw [hsub, Pool.jobs_size_modifyJob]; exact h.made
  case offers => rw [hsub, Pool.jobs_size_modifyJob]; exact h.offers
  case apart => exact h.apart
  case hands =>
    intro t other ht
    obtain ⟨htme, hold⟩ := hhands t other ht
    have hne : other ≠ id := fun he => htme (h.alone t me id (he ▸ hold) hhand)
    rw [hrunning]
    exact ⟨(h.hands t other hold).1,
      List.mem_filter.mpr ⟨(h.hands t other hold).2, by simpa using hne⟩⟩
  case alone =>
    exact fun t t' other ht ht' => h.alone t t' other (hhands t other ht).2 (hhands t' other ht').2
  case held =>
    intro other hin
    rw [hrunning] at hin
    obtain ⟨hin, hne⟩ := List.mem_filter.mp hin
    obtain ⟨t, hold⟩ := h.held other hin
    have htme : t ≠ me := by
      rintro rfl
      rw [hhand] at hold
      cases hold
      simp at hne
    exact ⟨t, by simpa [PoolRecord.finish, PoolRecord.note, htme] using hold⟩
  case fresh =>
    intro other hlt hout
    rw [htak] at hout
    have hne : other ≠ id := fun he => hout (he ▸ htaken)
    exact (Pool.isFresh_modifyJob_of_ne hne).mpr (h.fresh other (by simpa using hlt) hout)
  case outcomes =>
    intro other outcome
    by_cases hne : other = id
    · subst hne
      have hold : ∀ outcome?, .ended other outcome? ∉ r.log := fun outcome? hin =>
        hunended (mem_ended.mpr ⟨outcome?, hin⟩)
      rw [Pool.outcome?_finish (h.taken_lt htaken)]
      simp [PoolRecord.finish, PoolRecord.note, hold]
    · rw [Pool.outcome?_modifyJob_of_ne hne]
      refine (h.outcomes other outcome).trans ?_
      simp [PoolRecord.finish, PoolRecord.note, hne]
  case cancels =>
    intro other hin
    refine Pool.isCancelled_modifyJob (fun _ hc => hc) (h.cancels other ?_)
    simpa [PoolRecord.finish, PoolRecord.note] using hin

end PoolTally

end SessionShell
