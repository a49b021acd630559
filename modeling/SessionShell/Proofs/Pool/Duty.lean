import SessionShell.Proofs.Job.Hearing
import SessionShell.Proofs.Pool.Shifts

/-!
What a worker does with the job it has in hand.

The job cannot be another worker's, so its log of events is the worker's own to write: the build is
entered once or, if the job was cancelled before, not at all.
-/

namespace SessionShell

open Action

theorem CompileJob.crashFree_begun {job : CompileJob} (h : job.outcome = none) (cancelled : Bool) :
    (job.begun cancelled).CrashFree := by
  have hrun := crashFree_run job
  rw [run_eq h] at hrun
  exact hrun cancelled

namespace Mill

variable {σ κ ρ α : Type} {w : Mill σ κ ρ} {n : Nat} {γ γ' : σ × PoolRecord} {me t : ThreadId}
  {id : JobId} {id? : Option JobId} {outcome? : Option Outcome} {P : σ × PoolRecord → Prop}

structure OnDuty (w : Mill σ κ ρ) (n : Nat) (me : ThreadId) (id? : Option JobId)
    (γ : σ × PoolRecord) : Prop where
  inv : w.Inv n γ
  crew : me ∈ γ.2.crew
  hand : γ.2.hand me = id?

structure Taken (w : Mill σ κ ρ) (n : Nat) (me : ThreadId) (id : JobId) (γ : σ × PoolRecord) : Prop
    extends w.OnDuty n me (some id) γ where
  out : .entered id ∉ γ.2.log
  fresh : (w.slot.get γ.1).IsFresh id

structure Begun (w : Mill σ κ ρ) (n : Nat) (me : ThreadId) (id : JobId) (cancelled : Bool)
    (γ : σ × PoolRecord) : Prop extends w.OnDuty n me (some id) γ where
  entered : cancelled = false → .entered id ∈ γ.2.log

structure Ran (w : Mill σ κ ρ) (n : Nat) (me : ThreadId) (id : JobId) (outcome? : Option Outcome)
    (γ : σ × PoolRecord) : Prop extends w.OnDuty n me (some id) γ where
  fate : match outcome? with
    | some outcome => .entered id ∉ γ.2.log → outcome = .aborted
    | none => .panicked id ∈ γ.2.log

theorem OnDuty.of_minds (h : w.OnDuty n me id? γ) (hr : w.Minds n me γ γ') : w.OnDuty n me id? γ' :=
  ⟨hr.inv h.inv, hr.crew me h.crew, hr.hand.trans h.hand⟩

theorem Taken.of_minds (h : w.Taken n me id γ) (hr : w.Minds n me γ γ') : w.Taken n me id γ' := by
  obtain ⟨job, hjob, hfresh⟩ := h.fresh
  exact ⟨h.toOnDuty.of_minds hr, fun hin => h.out ((hr.entered id h.hand).mp hin),
    job, (hr.job id h.hand).trans hjob, hfresh⟩

theorem Begun.of_minds {cancelled : Bool} (h : w.Begun n me id cancelled γ)
    (hr : w.Minds n me γ γ') :
    w.Begun n me id cancelled γ' :=
  ⟨h.toOnDuty.of_minds hr, fun hc => hr.log.subset (h.entered hc)⟩

theorem Ran.of_minds (h : w.Ran n me id outcome? γ) (hr : w.Minds n me γ γ') :
    w.Ran n me id outcome? γ' := by
  refine ⟨h.toOnDuty.of_minds hr, ?_⟩
  have hfate := h.fate
  cases outcome? with
  | some outcome => exact fun hout => hfate fun hin => hout (hr.log.subset hin)
  | none => exact hr.log.subset hfate

theorem bears_onDuty (honduty : ∀ γ, P γ → w.OnDuty n me id? γ)
    (hminds : ∀ γ γ', P γ → w.Minds n me γ γ' → P γ') : w.Bears n me P where
  inv γ h := (honduty γ h).inv
  known γ h := (honduty γ h).inv.lt_next (honduty γ h).crew
  stable := hminds

theorem bears_idle : w.Bears n me (w.OnDuty n me none) :=
  bears_onDuty (fun _ h => h) fun _ _ => OnDuty.of_minds

theorem bears_taken : w.Bears n me (w.Taken n me id) :=
  bears_onDuty (fun _ h => h.toOnDuty) fun _ _ => Taken.of_minds

theorem bears_begun {cancelled : Bool} : w.Bears n me (w.Begun n me id cancelled) :=
  bears_onDuty (fun _ h => h.toOnDuty) fun _ _ => Begun.of_minds

theorem bears_ran : w.Bears n me (w.Ran n me id outcome?) :=
  bears_onDuty (fun _ h => h.toOnDuty) fun _ _ => Ran.of_minds

/-! ## The steps of a worker -/

theorem does_of_hand (event? : Option PoolEvent) (hinv : w.Inv n γ')
    (hlog : γ'.2.log = γ.2.log ++ event?.toList)
    (hevent : ∀ t id, t ≠ me → γ.2.hand t = some id → event? ≠ some (.entered id))
    (hnext : w.next γ'.1 = w.next γ.1) (hpending : w.life.pending γ'.1 = w.life.pending γ.1)
    (hcrew : γ'.2.crew = γ.2.crew) (hoffer : γ'.2.offer = γ.2.offer)
    (hhand : ∀ t, t ≠ me → γ'.2.hand t = γ.2.hand t) (hjob : ∀ t id, t ≠ me → γ.2.hand t = some id →
      (w.slot.get γ'.1).job? id = (w.slot.get γ.1).job? id) : w.Does n me γ γ' := by
  have hgrows : w.Grows n γ γ' := ⟨fun _ => hinv, hlog ▸ List.prefix_append _ _,
    Nat.le_of_eq hnext.symm, fun _ ht => hcrew ▸ ht⟩
  refine ⟨hgrows, fun t ht => ⟨⟨hgrows, hhand t ht, fun id hid => ?_, fun id => hjob t id ht⟩,
    by rw [hoffer]⟩, .nobody hcrew hpending⟩
  rw [hlog, List.mem_append]
  refine or_iff_left fun hin => hevent t id ht hid ?_
  cases event? with
  | none => cases hin
  | some event => rw [List.mem_singleton.mp hin]

section Worker

variable (hw : w.Lawful)

include hw

theorem upholds_take :
    Upholds (w.Leaves n me) (w.Does n me) me (w.OnDuty n me none) w.takeNoted
      (Fate.Returns fun id => w.Taken n me id) := by
  refine upholds_awaitNoted bears_idle.stable_leaves (fun _ => bears_taken.stable_leaves)
    fun γ id s hγ hf => ?_
  obtain ⟨⟨id', p⟩, ht, heq⟩ := Option.map_eq_some_iff.mp hf
  cases heq
  have htally := hγ.inv.tally.take hγ.crew hγ.hand ht
  obtain ⟨hout, hfresh⟩ := hγ.inv.tally.untaken ht
  have hnext : w.next (w.slot.set p γ.1) = w.next γ.1 := hw.next_set _ _
  have hinv : w.Inv n (w.slot.set p γ.1, γ.2.take me id) := by
    refine ⟨?_, fun t hle => hγ.inv.unknown t (hnext ▸ hle)⟩
    rw [hw.get_set]
    exact htally
  refine ⟨does_of_hand (some (.taken id)) hinv rfl (by simp) hnext (hw.pending_set _ _) rfl rfl
    (fun t ht => ?_) (fun _ other _ _ => ?_), ⟨hinv, hγ.crew, ?_⟩, ?_, ?_⟩
  · simp [PoolRecord.take, PoolRecord.note, ht]
  · rw [hw.get_set, (Pool.take?_eq ht).2]
    rfl
  · simp [PoolRecord.take, PoolRecord.note]
  · intro hin
    have hin' : .entered id ∈ γ.2.log := by simpa [PoolRecord.take, PoolRecord.note] using hin
    exact hout (hγ.inv.tally.lawful.taken_of_entered hin')
  · rw [hw.get_set]
    exact hfresh

omit hw in
theorem upholds_check :
    Upholds (w.Leaves n me) (w.Does n me) me (w.Taken n me id) (w.checkNoted id)
      (Fate.Returns fun cancelled => w.Begun n me id cancelled) := by
  refine upholds_stepNoted bears_taken.stable_leaves (fun _ => bears_begun.stable_leaves)
    fun γ hγ => ?_
  cases hcancelled : (w.slot.get γ.1).isCancelled id with
  | true =>
    have hleaves : ∀ t, w.Leaves n t γ γ := fun _ => .refl γ
    exact ⟨⟨.refl γ, fun t _ => hleaves t, .nobody rfl rfl⟩, hγ.toOnDuty, fun h => by cases h⟩
  | false =>
    have hinv : w.Inv n (γ.1, γ.2.note (.entered id)) :=
      ⟨hγ.inv.tally.enter hγ.hand hγ.out hcancelled, hγ.inv.unknown⟩
    refine ⟨does_of_hand (some (.entered id)) hinv rfl (fun t other ht hother heq => ?_)
      rfl rfl rfl rfl
      (fun _ _ => rfl) (fun _ _ _ _ => rfl), ⟨hinv, hγ.crew, hγ.hand⟩, fun _ => by
        simp [PoolRecord.note]⟩
    cases heq
    exact ht (hγ.inv.tally.alone t me id hother hγ.hand)

theorem upholds_rework {job : CompileJob} :
    Upholds (w.Leaves n me) (w.Does n me) me (w.Ran n me id outcome?)
      (silent (w.slot.modify (·.modifyJob id fun r => { r with job })))
      (Fate.Returns fun _ => w.Ran n me id outcome?) := by
  change Upholds _ _ me _ (Action.step fun γ : σ × PoolRecord =>
    ((), w.slot.set ((w.slot.get γ.1).modifyJob id fun r => { r with job }) γ.1, γ.2)) _
  refine upholds_step bears_ran.stable_leaves (fun _ => bears_ran.stable_leaves) fun γ hγ => ?_
  have hnext : w.next (w.slot.set ((w.slot.get γ.1).modifyJob id fun r => { r with job }) γ.1) =
      w.next γ.1 := hw.next_set _ _
  have hinv : w.Inv n
      (w.slot.set ((w.slot.get γ.1).modifyJob id fun r => { r with job }) γ.1, γ.2) := by
    refine ⟨?_, fun t hle => hγ.inv.unknown t (hnext ▸ hle)⟩
    rw [hw.get_set]
    exact hγ.inv.tally.rework (hγ.inv.tally.hands me id hγ.hand).2
  refine ⟨does_of_hand none hinv (by simp) (by simp) hnext (hw.pending_set _ _) rfl rfl
    (fun _ _ => rfl) (fun t other ht hother => ?_), ⟨hinv, hγ.crew, hγ.hand⟩, hγ.fate⟩
  rw [hw.get_set]
  refine Pool.job?_modifyJob_of_ne fun he => ht ?_
  exact hγ.inv.tally.alone t me id (he ▸ hother) hγ.hand

theorem upholds_finish :
    Upholds (w.Leaves n me) (w.Does n me) me (w.Ran n me id outcome?) (w.finishNoted id outcome?)
      (Fate.Returns fun _ => w.OnDuty n me none) := by
  refine upholds_stepNoted bears_ran.stable_leaves (fun _ => bears_idle.stable_leaves) fun γ hγ =>
    ?_
  have hnext : w.next (w.slot.set ((w.slot.get γ.1).modifyJob id fun r =>
      { r with outcome := some (outcome?.getD .failed) }) γ.1) = w.next γ.1 := hw.next_set _ _
  have hinv : w.Inv n (w.slot.set ((w.slot.get γ.1).modifyJob id fun r =>
      { r with outcome := some (outcome?.getD .failed) }) γ.1, γ.2.finish me id outcome?) := by
    refine ⟨?_, fun t hle => hγ.inv.unknown t (hnext ▸ hle)⟩
    rw [hw.get_set]
    exact hγ.inv.tally.finish hγ.hand ⟨(hγ.inv.tally.hands me id hγ.hand).2, hγ.fate⟩
  refine ⟨does_of_hand (some (.ended id outcome?)) hinv rfl (by simp) hnext
    (hw.pending_set _ _) rfl rfl
    (fun t ht => ?_) (fun t other _ _ => ?_), hinv, hγ.crew, ?_⟩
  · simp [PoolRecord.finish, PoolRecord.note, ht]
  · rw [hw.get_set]
    exact Pool.job?_modifyJob fun _ => rfl
  · simp [PoolRecord.finish, PoolRecord.note]

/-! ## A job at work -/

theorem within_sleep (ms : Nat) : Within w.Spares (w.slot.world.sleep ms) := by
  refine Within.bind ?_ fun alarm => within_await fun s a s' hs => ?_
  · exact (within_self w.spares_refl).bind fun thread => within_step fun s => hw.spares_world _ s
  · obtain ⟨s₁, hring, heq⟩ := Option.map_eq_some_iff.mp hs
    cases heq
    obtain rfl := WorldAt.eq_of_ring? hring
    exact hw.spares_world _ s

omit hw in
theorem within_gate (name : String) : Within w.Spares (w.slot.world.awaitGate name) := by
  refine within_await fun s a s' hs => ?_
  split at hs
  · cases hs
    exact w.spares_refl s
  · cases hs

omit hw in
theorem upholds_onCrash {p : Action (σ × PoolRecord) α} (h : w.Bears n me P)
    (hhand : ∀ γ, P γ → γ.2.hand me = some id)
    (hp : Upholds (w.Leaves n me) (w.Does n me) me P p fun _ => P) :
    Upholds (w.Leaves n me) (w.Does n me) me P (onCrash (·.note (.panicked id)) p) fun fate γ =>
      P γ ∧ (fate = .crashed → .panicked id ∈ γ.2.log) := by
  have hattempt : Upholds (w.Leaves n me) (w.Does n me) me P p.attempt
      (Fate.Returns fun _ => P) := fun γ hγ => (hp γ hγ).attempt (fun _ _ h => h) fun _ h => h
  refine hattempt.bind .refl fun a? => ?_
  cases a? with
  | some a => exact fun γ hγ γ' hr => ⟨h.stable_leaves γ γ' hγ hr, fun hf => nomatch hf⟩
  | none =>
    have hnoted : Upholds (w.Leaves n me) (w.Does n me) me P
        (record (PoolRecord.note (.panicked id)) : Action (σ × PoolRecord) Unit)
        (Fate.Returns fun _ γ => P γ ∧ .panicked id ∈ γ.2.log) := by
      refine upholds_step h.stable_leaves (fun _ γ γ' hγ hr =>
        ⟨h.stable_leaves γ γ' hγ.1 hr, hr.log.subset hγ.2⟩) fun γ hγ => ?_
      have hinv : w.Inv n (γ.1, γ.2.note (.panicked id)) :=
        ⟨(h.inv γ hγ).tally.panic (hhand γ hγ), (h.inv γ hγ).unknown⟩
      have hserves : w.Serves n me γ (γ.1, γ.2.note (.panicked id)) :=
        ⟨fun t => minds_of_log (some _) hinv rfl (by simp) (Nat.le_refl _) (fun _ h => h) rfl
          fun _ _ => rfl, fun _ _ => rfl, .nobody rfl rfl⟩
      exact ⟨hserves.does, h.stable _ _ hγ (hserves.minds me), by simp [PoolRecord.note]⟩
    refine hnoted.bind .refl fun _ γ hγ γ' hr => ?_
    exact ⟨h.stable_leaves γ γ' hγ.1 hr, fun _ => hr.log.subset hγ.2⟩

theorem upholds_answer (h : w.Bears n me P) (hhand : ∀ γ, P γ → γ.2.hand me = some id)
    (call : JobCall) :
    Upholds (w.Leaves n me) (w.Does n me) me P (w.answerRecorded id call) fun fate γ =>
      P γ ∧ (fate = .crashed → .panicked id ∈ γ.2.log) := by
  have hreturns : ∀ {β : Type} {p : Action (σ × PoolRecord) β},
      Upholds (w.Leaves n me) (w.Does n me) me P p (Fate.Returns fun _ => P) →
      Upholds (w.Leaves n me) (w.Does n me) me P p fun fate γ =>
        P γ ∧ (fate = .crashed → .panicked id ∈ γ.2.log) := fun hp γ hγ =>
    (hp γ hγ).mono fun fate γ' hfate => by
      cases fate with
      | returned => exact ⟨hfate, fun hf => nomatch hf⟩
      | crashed => exact hfate.elim
      | halted => exact hfate.elim
  cases call with
  | now => exact hreturns (upholds_silent_returns h (within_read w.spares_refl _) fun _ => trivial)
  | notify event => exact upholds_onCrash h hhand (upholds_errand hw h (w.hear id event))
  | work call =>
    cases call with
    | isCancelled =>
      exact hreturns (upholds_silent_returns h (within_read w.spares_refl _) fun _ => trivial)
    | cancel => exact hreturns (upholds_cancel hw h id)
    | sleep ms =>
      exact hreturns (upholds_silent_returns h (within_sleep hw ms) fun _ _ _ => trivial)
    | gate name => exact hreturns (upholds_silent_returns h (within_gate name) fun _ => trivial)
    | file call =>
      exact hreturns (upholds_silent_returns h (within_step fun s => hw.spares_world _ s)
        fun _ => trivial)

theorem upholds_expand (h : w.Bears n me P) (hhand : ∀ γ, P γ → γ.2.hand me = some id)
    {Q : α → Prop} {p : JobProgram α} (hp : p.Asks (fun _ => True) Q) (hcrash : p.CrashFree) :
    Upholds (w.Leaves n me) (w.Does n me) me P (p.expand (w.answerRecorded id)) fun fate γ =>
      P γ ∧ (∀ a, fate = .returned a → Q a) ∧ (fate = .crashed → .panicked id ∈ γ.2.log) := by
  induction p with
  | done a =>
    exact fun γ hγ γ' hr => ⟨h.stable_leaves γ γ' hγ hr, fun _ ha => Fate.returned.inj ha ▸ hp,
      fun hf => nomatch hf⟩
  | crash => exact hcrash.elim
  | ask call next ih =>
    exact fun γ hγ => (upholds_answer hw h hhand call γ hγ).bind_fate .refl
      (fun a γ' hγ' => ih a (hp.2 a) (hcrash a) γ' hγ'.1)
      fun _ hP => ⟨hP.1, (fun _ ha => nomatch ha), fun _ => hP.2 rfl⟩

/-- What is known of a job that was run: it was aborted if its build was not entered. -/
def RanTo (w : Mill σ κ ρ) (n : Nat) (me : ThreadId) (id : JobId) (outcome : α → Outcome) :
    Fate α → σ × PoolRecord → Prop
  | .returned a => w.Ran n me id (some (outcome a))
  | .crashed => w.Ran n me id none
  | .halted => fun _ => True

theorem upholds_job {job : CompileJob} (hjob : job.outcome = none) :
    Upholds (w.Leaves n me) (w.Does n me) me (w.Taken n me id) (w.jobRecorded id job)
      (w.RanTo n me id Prod.fst) := by
  unfold jobRecorded
  rw [hjob]
  refine upholds_check.bind .refl fun cancelled γ hγ => ?_
  refine (upholds_expand hw bears_begun (fun _ h => h.hand) (job.asks_begun cancelled)
    (CompileJob.crashFree_begun hjob cancelled) γ hγ).mono fun fate γ' h => ?_
  obtain ⟨hbegun, hreturned, hcrashed⟩ := h
  cases fate with
  | returned r =>
    refine ⟨hbegun.toOnDuty, fun hout => ?_⟩
    cases hcancelled : cancelled with
    | true => exact hreturned r rfl hcancelled
    | false => exact absurd (hbegun.entered hcancelled) hout
  | crashed => exact ⟨hbegun.toOnDuty, hcrashed rfl⟩
  | halted => trivial

theorem upholds_run :
    Upholds (w.Leaves n me) (w.Does n me) me (w.Taken n me id) (w.runRecorded id)
      (w.RanTo n me id fun outcome => outcome) := by
  have hread : Upholds (w.Leaves n me) (w.Does n me) me (w.Taken n me id)
      (silent (Action.read fun s => (w.slot.get s).jobs[id]?))
      (Fate.Returns fun record? γ => w.Taken n me id γ ∧
        ∃ record, record? = some record ∧ record.job.outcome = none) := by
    change Upholds _ _ me _ (Action.step fun γ : σ × PoolRecord =>
      ((w.slot.get γ.1).jobs[id]?, γ)) _
    refine upholds_step bears_taken.stable_leaves
      (fun _ γ γ' hγ hr => ⟨hγ.1.of_minds hr.toMinds, hγ.2⟩) fun γ hγ => ?_
    obtain ⟨job, hjob, hfresh⟩ := hγ.fresh
    obtain ⟨record, hrecord, rfl⟩ := Option.map_eq_some_iff.mp hjob
    have hleaves : ∀ t, w.Leaves n t γ γ := fun _ => .refl γ
    exact ⟨⟨.refl γ, fun t _ => hleaves t, .nobody rfl rfl⟩, hγ, record, hrecord, hfresh⟩
  refine hread.bind .refl fun record? γ hγ => ?_
  obtain ⟨htaken, record, rfl, hfresh⟩ := hγ
  refine (upholds_job hw hfresh γ htaken).bind_fate .refl (fun r γ' hγ' => ?_) fun _ h => h
  refine (upholds_rework hw γ' hγ').bind .refl fun _ γ'' hγ'' γ₃ hr => ?_
  exact hγ''.of_minds hr.toMinds

theorem upholds_work :
    Upholds (w.Leaves n me) (w.Does n me) me (w.OnDuty n me none) w.workRecorded
      (Fate.Returns fun _ => w.OnDuty n me none) := by
  refine (upholds_take hw).bind .refl fun id => ?_
  have hattempt : Upholds (w.Leaves n me) (w.Does n me) me (w.Taken n me id)
      (w.runRecorded id).attempt (Fate.Returns fun outcome? => w.Ran n me id outcome?) :=
    fun γ hγ => (upholds_run hw γ hγ).attempt (fun _ _ h => h) fun _ h => h
  exact hattempt.bind .refl fun outcome? => upholds_finish hw

end Worker

end Mill

end SessionShell
