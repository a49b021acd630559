import SessionShell.Proofs.Pool.Mill

/-!
What the threads beside a pool rely on and guarantee.

Each thread is known by its number. Nobody but itself touches what it has in hand, and the job that
it has made and not submitted yet. So every thread guarantees the same, worker or not: it leaves
alone what belongs to the others.
-/

namespace SessionShell

open Action

namespace Mill

variable {σ κ ρ α : Type} {w : Mill σ κ ρ} {n : Nat} {γ γ' γ'' : σ × PoolRecord} {me t : ThreadId}
  {id : JobId} {P : σ × PoolRecord → Prop}

/-- The pool is as its record says, and nothing belongs to a thread that was not started yet. -/
structure Inv (w : Mill σ κ ρ) (n : Nat) (γ : σ × PoolRecord) : Prop where
  tally : PoolTally n (w.slot.get γ.1) γ.2
  unknown : ∀ t, w.next γ.1 ≤ t → t ∉ γ.2.crew ∧ γ.2.offer t = none

theorem Inv.lt_next (h : w.Inv n γ) (hin : t ∈ γ.2.crew) : t < w.next γ.1 :=
  Nat.lt_of_not_le fun hle => (h.unknown t hle).1 hin

theorem Inv.hand_eq_none (h : w.Inv n γ) (hle : w.next γ.1 ≤ t) : γ.2.hand t = none := by
  cases hhand : γ.2.hand t with
  | none => rfl
  | some id => exact absurd (h.tally.hands t id hhand).1 (h.unknown t hle).1

structure Grows (w : Mill σ κ ρ) (n : Nat) (γ γ' : σ × PoolRecord) : Prop where
  inv : w.Inv n γ → w.Inv n γ'
  log : γ.2.log <+: γ'.2.log
  next : w.next γ.1 ≤ w.next γ'.1
  crew : ∀ t ∈ γ.2.crew, t ∈ γ'.2.crew

structure Minds (w : Mill σ κ ρ) (n : Nat) (t : ThreadId) (γ γ' : σ × PoolRecord) : Prop
    extends w.Grows n γ γ' where
  hand : γ'.2.hand t = γ.2.hand t
  entered : ∀ id, γ.2.hand t = some id → (.entered id ∈ γ'.2.log ↔ .entered id ∈ γ.2.log)
  job : ∀ id, γ.2.hand t = some id →
    (w.slot.get γ'.1).job? id = (w.slot.get γ.1).job? id

structure Leaves (w : Mill σ κ ρ) (n : Nat) (t : ThreadId) (γ γ' : σ × PoolRecord) : Prop
    extends w.Minds n t γ γ' where
  offer : γ'.2.offer t = γ.2.offer t

/-- Who joins by a step. All workers join by the first submission. -/
inductive Staffs (w : Mill σ κ ρ) (n : Nat) (γ γ' : σ × PoolRecord) : Prop where
  | nobody (hcrew : γ'.2.crew = γ.2.crew) (h : w.life.pending γ'.1 = w.life.pending γ.1)
  | one {role : ρ} (hrole : role ≠ w.worker) (hnext : w.next γ'.1 = w.next γ.1 + 1)
      (hcrew : γ'.2.crew = γ.2.crew)
      (h : w.life.pending γ'.1 = w.life.pending γ.1 ++ [(w.next γ.1, role)])
  | workers (hnext : w.next γ'.1 = w.next γ.1 + n) (hcrew : γ'.2.crew = List.range' (w.next γ.1) n)
      (h : w.life.pending γ'.1 =
        w.life.pending γ.1 ++ (List.range' (w.next γ.1) n).map fun t => (t, w.worker))

structure Does (w : Mill σ κ ρ) (n : Nat) (me : ThreadId) (γ γ' : σ × PoolRecord) : Prop where
  grows : w.Grows n γ γ'
  leaves : ∀ t, t ≠ me → w.Leaves n t γ γ'
  staffs : w.Staffs n γ γ'

theorem Grows.refl (γ : σ × PoolRecord) : w.Grows n γ γ :=
  ⟨fun h => h, List.prefix_rfl, Nat.le_refl _, fun _ h => h⟩

theorem Grows.trans (h : w.Grows n γ γ') (h' : w.Grows n γ' γ'') : w.Grows n γ γ'' :=
  ⟨fun hi => h'.inv (h.inv hi), h.log.trans h'.log, Nat.le_trans h.next h'.next,
    fun t ht => h'.crew t (h.crew t ht)⟩

theorem Leaves.refl (γ : σ × PoolRecord) : w.Leaves n t γ γ :=
  ⟨⟨.refl γ, rfl, fun _ _ => Iff.rfl, fun _ _ => rfl⟩, rfl⟩

theorem Leaves.trans (h : w.Leaves n t γ γ') (h' : w.Leaves n t γ' γ'') : w.Leaves n t γ γ'' := by
  have hhand : ∀ id, γ.2.hand t = some id → γ'.2.hand t = some id := fun id hid => h.hand.trans hid
  exact ⟨⟨h.toGrows.trans h'.toGrows, h'.hand.trans h.hand,
    fun id hid => (h'.entered id (hhand id hid)).trans (h.entered id hid),
    fun id hid => (h'.job id (hhand id hid)).trans (h.job id hid)⟩, h'.offer.trans h.offer⟩

theorem leaves_of_core (hcore : (w.slot.get γ'.1).core = (w.slot.get γ.1).core) (hr : γ'.2 = γ.2)
    (hnext : w.next γ.1 ≤ w.next γ'.1) : w.Leaves n t γ γ' := by
  refine ⟨⟨⟨fun h => ⟨?_, fun t ht => ?_⟩, ?_, hnext, ?_⟩, ?_, fun id _ => ?_, fun id _ => ?_⟩, ?_⟩
  · rw [hr]
    exact h.tally.of_core hcore
  · rw [hr]
    exact h.unknown t (Nat.le_trans hnext ht)
  · exact hr ▸ List.prefix_rfl
  · rw [hr]
    exact fun _ h => h
  · rw [hr]
  · rw [hr]
  · exact Pool.job?_of_core hcore
  · rw [hr]

/-! ## The calls of a thread -/

/-- A step of a thread that submits, cancels or waits: it touches what it has made, and nothing that
anybody has in hand. -/
structure Serves (w : Mill σ κ ρ) (n : Nat) (me : ThreadId) (γ γ' : σ × PoolRecord) : Prop where
  minds : ∀ t, w.Minds n t γ γ'
  offer : ∀ t, t ≠ me → γ'.2.offer t = γ.2.offer t
  staffs : w.Staffs n γ γ'

theorem Serves.does (h : w.Serves n me γ γ') : w.Does n me γ γ' :=
  ⟨(h.minds me).toGrows, fun t ht => ⟨h.minds t, h.offer t ht⟩, h.staffs⟩

theorem minds_of_log (event? : Option PoolEvent) (hinv : w.Inv n γ')
    (hlog : γ'.2.log = γ.2.log ++ event?.toList) (hevent : ∀ id, event? ≠ some (.entered id))
    (hnext : w.next γ.1 ≤ w.next γ'.1) (hcrew : ∀ t ∈ γ.2.crew, t ∈ γ'.2.crew)
    (hhand : γ'.2.hand = γ.2.hand)
    (hjob : ∀ id, γ.2.hand t = some id → (w.slot.get γ'.1).job? id = (w.slot.get γ.1).job? id) :
    w.Minds n t γ γ' := by
  refine ⟨⟨fun _ => hinv, hlog ▸ List.prefix_append _ _, hnext, hcrew⟩,
    by rw [hhand], fun id _ => ?_,
    hjob⟩
  rw [hlog, List.mem_append]
  refine or_iff_left fun hin => hevent id ?_
  cases event? with
  | none => cases hin
  | some event => rw [List.mem_singleton.mp hin]

theorem serves_of_spares {s : σ} (hs : w.Spares γ.1 s) : w.Serves n me γ (s, γ.2) := by
  obtain ⟨hcore, hstarts⟩ := hs
  have hnext : w.next γ.1 ≤ w.next s := by
    rcases hstarts with ⟨-, hsame⟩ | ⟨role, -, hmore, -⟩
    · exact Nat.le_of_eq hsame.symm
    · exact hmore ▸ Nat.le_succ _
  have hleaves : ∀ t, w.Leaves n t γ (s, γ.2) := fun t => leaves_of_core hcore rfl hnext
  refine ⟨fun t => (hleaves t).toMinds, fun _ _ => rfl, ?_⟩
  rcases hstarts with ⟨hpending, -⟩ | ⟨role, hrole, hmore, hpending⟩
  · exact .nobody rfl hpending
  · exact .one hrole hmore rfl hpending

theorem serves_wait {outcome : Outcome} (hi : w.Inv n γ)
    (houtcome : (w.slot.get γ.1).outcome? id = some outcome) :
    w.Serves n me γ (γ.1, γ.2.note (.awaited id outcome)) := by
  have hinv : w.Inv n (γ.1, γ.2.note (.awaited id outcome)) := ⟨hi.tally.wait houtcome, hi.unknown⟩
  exact ⟨fun t => minds_of_log (some _) hinv rfl (by simp) (Nat.le_refl _) (fun _ h => h) rfl
    fun _ _ => rfl, fun _ _ => rfl, .nobody rfl rfl⟩

section Calls

variable (hw : w.Lawful)

include hw

theorem serves_add (task : CompileTask) (listener : κ) (hi : w.Inv n γ) (hme : me < w.next γ.1) :
    w.Serves n me γ (w.slot.set ((w.slot.get γ.1).add task listener).2 γ.1,
      γ.2.make me (w.slot.get γ.1).jobs.size) := by
  have hnext : w.next (w.slot.set ((w.slot.get γ.1).add task listener).2 γ.1) = w.next γ.1 :=
    hw.next_set _ _
  have hinv : w.Inv n (w.slot.set ((w.slot.get γ.1).add task listener).2 γ.1,
      γ.2.make me (w.slot.get γ.1).jobs.size) := by
    refine ⟨?_, fun t ht => ?_⟩
    · rw [hw.get_set]
      exact hi.tally.make
    · rw [hnext] at ht
      have hne : t ≠ me := fun he => absurd hme (Nat.not_lt_of_le (he ▸ ht))
      exact ⟨(hi.unknown t ht).1, by simpa [PoolRecord.make, hne] using (hi.unknown t ht).2⟩
  refine ⟨fun t => minds_of_log none hinv (by simp [PoolRecord.make]) (by simp)
    (Nat.le_of_eq hnext.symm) (fun _ h => h) rfl fun id hid => ?_, fun t ht => ?_,
    .nobody rfl (hw.pending_set _ _)⟩
  · have hlt := hi.tally.taken_lt (PoolLog.mem_running.mp (hi.tally.hands t id hid).2).1
    rw [hw.get_set, Pool.job?, Pool.getElem?_add (Nat.ne_of_lt hlt), Pool.job?]
  · simp [PoolRecord.make, ht]

theorem launched (k : Nat) (s : σ) :
    let s' := (List.range k).foldl (fun s _ => w.slot.launch s) s
    w.slot.get s' = w.slot.get s ∧ w.next s' = w.next s + k ∧
      w.life.pending s' =
        w.life.pending s ++ (List.range' (w.next s) k).map fun t => (t, w.worker) := by
  induction k with
  | zero => simp
  | succ k ih =>
    obtain ⟨hget, hnext, hpending⟩ := ih
    simp only [List.range_succ, List.foldl_append, List.foldl_cons, List.foldl_nil]
    refine ⟨(hw.get_launch _).trans hget, ?_, ?_⟩
    · rw [hw.next_launch, hnext, Nat.add_assoc]
    · rw [hw.pending_launch, hpending, hnext, List.range'_1_concat, List.map_append,
        ← List.append_assoc]
      rfl

theorem serves_start (hi : w.Inv n γ) :
    w.Serves n me γ
      ((if (w.slot.get γ.1).started then γ.1
        else (List.range (w.slot.get γ.1).size).foldl (fun s _ => w.slot.launch s)
          (w.slot.set { w.slot.get γ.1 with started := true } γ.1)),
      if (w.slot.get γ.1).started then γ.2
        else γ.2.hire (List.range' (w.next γ.1) (w.slot.get γ.1).size)) := by
  cases hstarted : (w.slot.get γ.1).started with
  | true =>
    simp only [if_true]
    exact serves_of_spares (w.spares_refl γ.1)
  | false =>
    simp only [Bool.false_eq_true, if_false]
    obtain ⟨hget, hnext, hpending⟩ := launched hw (w.slot.get γ.1).size
      (w.slot.set { w.slot.get γ.1 with started := true } γ.1)
    generalize (List.range (w.slot.get γ.1).size).foldl (fun s _ => w.slot.launch s)
      (w.slot.set { w.slot.get γ.1 with started := true } γ.1) = s' at hget hnext hpending ⊢
    rw [hw.get_set] at hget
    rw [hw.next_set, hi.tally.size] at hnext hpending
    rw [hw.pending_set] at hpending
    rw [hi.tally.size]
    have hinv : w.Inv n (s', γ.2.hire (List.range' (w.next γ.1) n)) := by
      refine ⟨?_, fun t ht => ⟨fun hin => ?_, ?_⟩⟩
      · rw [hget]
        exact hi.tally.hire hstarted List.nodup_range' List.length_range'
      · have := List.mem_range'_1.mp hin
        exact absurd (hnext ▸ ht) (Nat.not_le_of_lt this.2)
      · exact (hi.unknown t (Nat.le_trans (Nat.le_add_right _ n) (hnext ▸ ht))).2
    refine ⟨fun t => minds_of_log none hinv (by simp [PoolRecord.hire]) (by simp)
      (hnext ▸ Nat.le_add_right _ n) (fun t ht => ?_) rfl fun id _ => ?_, fun _ _ => rfl,
      .workers hnext rfl hpending⟩
    · rw [(hi.tally.unstarted hstarted).1] at ht
      cases ht
    · exact congrArg (·.job? id) hget

theorem serves_enqueue (hi : w.Inv n γ) (hoffer : γ.2.offer me = some id) (hcrew : γ.2.crew ≠ []) :
    w.Serves n me γ (w.slot.set ((w.slot.get γ.1).enqueue id) γ.1, γ.2.submit me id) := by
  have hnext : w.next (w.slot.set ((w.slot.get γ.1).enqueue id) γ.1) = w.next γ.1 := hw.next_set _ _
  have hoffers : ∀ t, t ≠ me → (γ.2.submit me id).offer t = γ.2.offer t := fun t ht => by
    simp [PoolRecord.submit, PoolRecord.note, ht]
  have hinv : w.Inv n (w.slot.set ((w.slot.get γ.1).enqueue id) γ.1, γ.2.submit me id) := by
    refine ⟨?_, fun t ht => ?_⟩
    · rw [hw.get_set]
      refine hi.tally.submit hoffer ?_
      cases hs : (w.slot.get γ.1).started with
      | true => rfl
      | false => exact absurd (hi.tally.unstarted hs).1 hcrew
    · rw [hnext] at ht
      have hne : t ≠ me := by
        rintro rfl
        rw [(hi.unknown t ht).2] at hoffer
        cases hoffer
      exact ⟨(hi.unknown t ht).1, (hoffers t hne).trans (hi.unknown t ht).2⟩
  exact ⟨fun t => minds_of_log (some _) hinv rfl (by simp) (Nat.le_of_eq hnext.symm)
    (fun _ h => h) rfl
    fun id _ => by rw [hw.get_set]; rfl, hoffers, .nobody rfl (hw.pending_set _ _)⟩

theorem serves_cancel (id : JobId) (hi : w.Inv n γ) :
    w.Serves n me γ (w.slot.set ((w.slot.get γ.1).cancel id) γ.1,
      γ.2.cancel (w.slot.get γ.1) id) := by
  have hnext : w.next (w.slot.set ((w.slot.get γ.1).cancel id) γ.1) = w.next γ.1 := hw.next_set _ _
  have hsame : (γ.2.cancel (w.slot.get γ.1) id).crew = γ.2.crew ∧
      (γ.2.cancel (w.slot.get γ.1) id).hand = γ.2.hand ∧
      (γ.2.cancel (w.slot.get γ.1) id).offer = γ.2.offer := by
    unfold PoolRecord.cancel
    split <;> exact ⟨rfl, rfl, rfl⟩
  have hinv : w.Inv n (w.slot.set ((w.slot.get γ.1).cancel id) γ.1,
      γ.2.cancel (w.slot.get γ.1) id) := by
    refine ⟨?_, fun t ht => ?_⟩
    · rw [hw.get_set]
      exact hi.tally.cancel
    · simp only [hnext] at ht
      simp only [hsame]
      exact hi.unknown t ht
  refine ⟨fun t =>
    minds_of_log (if id < (w.slot.get γ.1).jobs.size then some (.cancelled id) else none)
    hinv ?_ ?_ (Nat.le_of_eq hnext.symm) (by simp [hsame]) hsame.2.1 fun other _ => ?_,
    fun t _ => by rw [hsame.2.2], .nobody hsame.1 (hw.pending_set _ _)⟩
  · unfold PoolRecord.cancel
    split <;> simp [PoolRecord.note]
  · intro other
    split <;> simp
  · rw [hw.get_set]
    exact Pool.job?_modifyJob fun _ => rfl

end Calls

/-! ## What a thread does by calls of the pool -/

structure Bears (w : Mill σ κ ρ) (n : Nat) (me : ThreadId) (P : σ × PoolRecord → Prop) : Prop where
  inv : ∀ γ, P γ → w.Inv n γ
  known : ∀ γ, P γ → me < w.next γ.1
  stable : ∀ γ γ', P γ → w.Minds n me γ γ' → P γ'

theorem Bears.stable_leaves (h : w.Bears n me P) : Stable (w.Leaves n me) P :=
  fun γ γ' hγ hr => h.stable γ γ' hγ hr.toMinds

/-- A thread with a job that it has made and not submitted yet, or with none. -/
def Offers (me : ThreadId) (id? : Option JobId) (γ : σ × PoolRecord) : Prop :=
  γ.2.offer me = id?

theorem stable_offers {id? : Option JobId} :
    Stable (w.Leaves n me) (Offers me id?) :=
  fun _ _ h hr => hr.offer.trans h

def Submits (me : ThreadId) (id : JobId) (γ : σ × PoolRecord) : Prop :=
  Offers me (some id) γ ∧ γ.2.crew ≠ []

theorem stable_submits : Stable (w.Leaves n me) (Submits me id) := by
  refine fun γ γ' h hr => ⟨stable_offers γ γ' h.1 hr, fun hnil => ?_⟩
  obtain ⟨t, ht⟩ := List.exists_mem_of_ne_nil _ h.2
  have hin := hr.crew t ht
  rw [hnil] at hin
  cases hin

theorem submits_started {s : σ} (hi : w.Inv n γ) (h : Offers me (some id) γ) :
    Submits me id (s, if (w.slot.get γ.1).started then γ.2
      else γ.2.hire (List.range' (w.next γ.1) (w.slot.get γ.1).size)) := by
  cases hs : (w.slot.get γ.1).started with
  | true =>
    refine ⟨h, fun hnil => ?_⟩
    have hlength : γ.2.crew.length = n := hi.tally.manned hs
    have hnil' : γ.2.crew = [] := hnil
    simp only [hnil', List.length_nil] at hlength
    exact absurd hi.tally.room (by omega)
  | false =>
    refine ⟨h, fun hnil => ?_⟩
    have hnil' : List.range' (w.next γ.1) (w.slot.get γ.1).size = [] := hnil
    rw [List.range'_eq_nil_iff, hi.tally.size] at hnil'
    exact absurd hi.tally.room (by omega)

theorem upholds_serving (h : w.Bears n me P) {A : σ × PoolRecord → Prop}
    {B : α → σ × PoolRecord → Prop} {f : σ → Option (α × σ)}
    {notes : ThreadId → σ → α → PoolRecord → PoolRecord} (hA : Stable (w.Leaves n me) A)
    (hB : ∀ a, Stable (w.Leaves n me) (B a)) (hserves : ∀ γ a s, P γ → A γ → f γ.1 = some (a, s) →
      w.Serves n me γ (s, notes me γ.1 a γ.2) ∧ B a (s, notes me γ.1 a γ.2)) :
    Upholds (w.Leaves n me) (w.Does n me) me (fun γ => P γ ∧ A γ) (awaitNoted f notes)
      (Fate.Returns fun a γ => P γ ∧ B a γ) := by
  refine upholds_awaitNoted (fun γ γ' hγ hr => ⟨h.stable_leaves γ γ' hγ.1 hr, hA γ γ' hγ.2 hr⟩)
    (fun a γ γ' hγ hr => ⟨h.stable_leaves γ γ' hγ.1 hr, hB a γ γ' hγ.2 hr⟩) fun γ a s hγ hf => ?_
  obtain ⟨hs, ha⟩ := hserves γ a s hγ.1 hγ.2 hf
  exact ⟨hs.does, h.stable _ _ hγ.1 (hs.minds me), ha⟩

theorem stable_true : Stable (w.Leaves n me) fun _ => True :=
  fun _ _ _ _ => trivial

theorem upholds_silent (h : w.Bears n me P) {p : Action σ α} (hp : Within w.Spares p) :
    Upholds (w.Leaves n me) (w.Does n me) me P (silent p) fun _ => P := by
  intro γ hγ
  induction p generalizing γ with
  | done a => exact fun γ' hr => h.stable_leaves γ γ' hγ hr
  | crash => exact fun γ' hr => h.stable_leaves γ γ' hγ hr
  | ask act next ih =>
    intro γ₁ answer γ₂ hr hrun
    obtain ⟨⟨answer', s⟩, hs, heq⟩ := Option.map_eq_some_iff.mp hrun
    cases heq
    have hγ₁ := h.stable_leaves γ γ₁ hγ hr
    have hserves : w.Serves n me γ₁ (s, γ₁.2) := serves_of_spares (hp.1 me γ₁.1 _ s hs)
    exact ⟨hserves.does, ih _ (hp.2 _) _ (h.stable _ _ hγ₁ (hserves.minds me))⟩

theorem upholds_silent_returns (h : w.Bears n me P) {p : Action σ α} (hp : Within w.Spares p)
    (hcrash : NeverCrashes p) :
    Upholds (w.Leaves n me) (w.Does n me) me P (silent p) (Fate.Returns fun _ => P) := by
  have hnever := (neverCrashes_silent hcrash : NeverCrashes (silent p : Action (σ × PoolRecord) α))
  exact fun γ hγ => (upholds_silent h hp γ hγ).returns hnever

section Errands

variable (hw : w.Lawful) (h : w.Bears n me P)

include hw h

theorem upholds_cancel (id : JobId) :
    Upholds (w.Leaves n me) (w.Does n me) me P (PoolCall.cancelNoted w.toPoolSite id)
      (Fate.Returns fun _ => P) :=
  upholds_stepNoted h.stable_leaves (fun _ => h.stable_leaves) fun γ hγ => by
    have hserves : w.Serves n me γ _ := serves_cancel hw id (h.inv γ hγ)
    exact ⟨hserves.does, h.stable _ _ hγ (hserves.minds me)⟩

theorem upholds_submit (task : CompileTask) (listener : κ) :
    Upholds (w.Leaves n me) (w.Does n me) me P
      (PoolCall.recorded (.submit task listener : PoolCall w.toPoolSite))
      (Fate.Returns fun _ => P) := by
  have hadd : Upholds (w.Leaves n me) (w.Does n me) me (fun γ => P γ ∧ True)
      (PoolCall.addNoted w.toPoolSite task listener)
      (Fate.Returns fun id γ => P γ ∧ Offers me (some id) γ) := by
    unfold PoolCall.addNoted stepNoted
    refine upholds_serving (B := fun id => Offers me (some id)) h stable_true
      (fun _ => stable_offers) fun γ id s hγ _ hf => ?_
    cases hf
    exact ⟨serves_add hw task listener (h.inv γ hγ) (h.known γ hγ),
      by simp [Offers, PoolRecord.make]⟩
  have hstart : ∀ id, Upholds (w.Leaves n me) (w.Does n me) me
    (fun γ => P γ ∧ Offers me (some id) γ)
      (PoolCall.startNoted w.toPoolSite) (Fate.Returns fun _ γ => P γ ∧ Submits me id γ) := by
    intro id
    unfold PoolCall.startNoted stepNoted
    refine upholds_serving (A := Offers me (some id)) (B := fun _ => Submits me id) h
      stable_offers (fun _ => stable_submits) fun γ a s hγ ho hf => ?_
    cases hf
    exact ⟨serves_start hw (h.inv γ hγ), submits_started (h.inv γ hγ) ho⟩
  have henqueue : ∀ id, Upholds (w.Leaves n me) (w.Does n me) me
      (fun γ => P γ ∧ Submits me id γ) (PoolCall.enqueueNoted w.toPoolSite id)
      (Fate.Returns fun _ γ => P γ ∧ True) := by
    intro id
    unfold PoolCall.enqueueNoted stepNoted
    refine upholds_serving (A := Submits me id) (B := fun _ _ => True) h
      stable_submits (fun _ => stable_true) fun γ a s hγ hs hf => ?_
    cases hf
    exact ⟨serves_enqueue hw (h.inv γ hγ) hs.1 hs.2, trivial⟩
  intro γ hγ
  refine (hadd γ ⟨hγ, trivial⟩).bind .refl fun id => ?_
  refine (hstart id).bind .refl fun _ => (henqueue id).bind .refl fun _ γ hγ γ' hr => ?_
  exact h.stable_leaves γ γ' hγ.1 hr

theorem upholds_call (call : PoolCall w.toPoolSite) :
    Upholds (w.Leaves n me) (w.Does n me) me P call.recorded fun _ => P := by
  have hreturns : ∀ {α : Type} {p : Action (σ × PoolRecord) α},
      Upholds (w.Leaves n me) (w.Does n me) me P p (Fate.Returns fun _ => P) →
      Upholds (w.Leaves n me) (w.Does n me) me P p fun _ => P := fun hp γ hγ =>
    (hp γ hγ).mono fun fate γ' hfate => by
      cases fate with
      | returned => exact hfate
      | crashed => exact hfate.elim
      | halted => exact hfate.elim
  cases call with
  | submit task listener => exact hreturns (upholds_submit hw h task listener)
  | cancel id => exact hreturns (upholds_cancel hw h id)
  | await id =>
    have hwait : Upholds (w.Leaves n me) (w.Does n me) me (fun γ => P γ ∧ True)
        (PoolCall.awaitNoted w.toPoolSite id) (Fate.Returns fun _ γ => P γ ∧ True) := by
      refine upholds_serving h stable_true (fun _ => stable_true) fun γ outcome s hγ _ hf => ?_
      obtain ⟨outcome', houtcome, heq⟩ := Option.map_eq_some_iff.mp hf
      cases heq
      exact ⟨serves_wait (h.inv γ hγ) houtcome, trivial⟩
    refine hreturns fun γ hγ => (hwait γ ⟨hγ, trivial⟩).mono fun fate γ' hfate => ?_
    cases fate with
    | returned => exact hfate.1
    | crashed => exact hfate
    | halted => exact hfate
  | own p hp => exact upholds_silent h hp

theorem upholds_errand (errand : PoolErrand w.toPoolSite α) :
    Upholds (w.Leaves n me) (w.Does n me) me P errand.recorded fun _ => P := by
  induction errand with
  | done a => exact fun γ hγ γ' hr => h.stable_leaves γ γ' hγ hr
  | crash => exact fun γ hγ γ' hr => h.stable_leaves γ γ' hγ hr
  | ask call next ih =>
    exact fun γ hγ => (upholds_call hw h call γ hγ).bind_fate .refl (fun a => ih a) fun _ hP => hP

end Errands

end Mill

end SessionShell
