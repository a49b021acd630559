import SessionShell.Compile.Bench
import SessionShell.Proofs.Pool.Staffed
import SessionShell.Proofs.Team.Shadow

/-!
Every job that is submitted to a pool is run once, in the order of submission, and whoever
waits for it gets the outcome it has ended with. The next job that waits can be taken as long
as there is room.
-/

namespace SessionShell

open Action

namespace Mill

variable {σ κ ρ α : Type} {w : Mill σ κ ρ} {n size : Nat} {γ γ' : σ × PoolRecord} {me t : ThreadId}
  {env : σ → σ → Prop}

/-! ## All threads together -/

inductive Post where
  | client (t : ThreadId)
  | worker (t : ThreadId)

def Post.thread : Post → ThreadId
  | .client t => t
  | .worker t => t

def Uses (w : Mill σ κ ρ) (n : Nat) (me : ThreadId) (γ : σ × PoolRecord) : Prop :=
  w.Inv n γ ∧ me < w.next γ.1

def pact (w : Mill σ κ ρ) (n : Nat) : Pact (σ × PoolRecord) ρ Post where
  rely k := w.Leaves n k.thread
  guar k := w.Does n k.thread
  here
    | .client t => w.Uses n t
    | .worker t => fun γ => w.Inv n γ ∧ t ∈ γ.2.crew
  ready
    | .client t => fun id role γ => id = t ∧ w.Uses n t γ ∧ role ≠ w.worker
    | .worker t => fun id role γ => id = t ∧ w.OnDuty n t none γ ∧ role = w.worker
  gone _ _ := True

theorem bears_uses : w.Bears n me (w.Uses n me) where
  inv _ h := h.1
  known _ h := h.2
  stable _ _ h hr := ⟨hr.inv h.1, Nat.lt_of_lt_of_le h.2 hr.next⟩

theorem suits_of_ne {k k' : Post} (h : k.thread ≠ k'.thread) : (w.pact n).Suits k k' :=
  ⟨fun _ _ hdoes => hdoes.leaves k'.thread h.symm, fun _ _ hdoes => hdoes.leaves k.thread h⟩

theorem uses_of_here {k : Post} (h : (w.pact n).here k γ) : w.Uses n k.thread γ := by
  cases k with
  | client t => exact h
  | worker t => exact ⟨h.1, h.1.lt_next h.2⟩

theorem here_of_grows {k : Post} (h : (w.pact n).here k γ) (hr : w.Grows n γ γ') :
    (w.pact n).here k γ' := by
  cases k with
  | client t => exact ⟨hr.inv h.1, Nat.lt_of_lt_of_le h.2 hr.next⟩
  | worker t => exact ⟨hr.inv h.1, hr.crew t h.2⟩

/-- The surroundings leave the pool alone. -/
structure Undisturbed (w : Mill σ κ ρ) (env : σ → σ → Prop) : Prop where
  core : ∀ s s', env s s' → (w.slot.get s').core = (w.slot.get s).core
  next : ∀ s s', env s s' → w.next s' = w.next s
  pending : ∀ s s', env s s' → w.life.pending s' = w.life.pending s

variable [DecidableEq ρ]

theorem joins_of_does {k : Post} (hhere : (w.pact n).here k γ) (h : w.Does n k.thread γ γ') :
    (w.pact n).Joins w.recorded γ γ' := by
  obtain ⟨hinv, hk⟩ := uses_of_here hhere
  have hinv' : w.Inv n γ' := h.grows.inv hinv
  have hsuits : ∀ other new, (w.pact n).here other γ → w.next γ.1 ≤ new.thread →
      (w.pact n).Suits other new := fun other new hother hle =>
    suits_of_ne (Nat.ne_of_lt (Nat.lt_of_lt_of_le (uses_of_here hother).2 hle))
  cases h.staffs with
  | nobody _ hsame => exact Pact.joins_nobody hsame
  | @one role hrole hnext _ hnew =>
    have huses : w.Uses n (w.next γ.1) γ' := ⟨hinv', hnext ▸ Nat.lt_succ_self _⟩
    exact Pact.joins_one (P := w.pact n) (k := .client (w.next γ.1)) hnew huses ⟨rfl, huses, hrole⟩
      fun other hother => hsuits other _ hother (Nat.le_refl _)
  | workers hnext hcrew hnew =>
    let news : List (Post × ThreadId × ρ) :=
      (List.range' (w.next γ.1) n).map fun t => (.worker t, t, w.worker)
    refine ⟨news, ?_, ?_, ?_⟩
    · change w.life.pending γ'.1 = w.life.pending γ.1 ++ _
      simpa [news, Function.comp_def] using hnew
    · intro k' id role hin
      obtain ⟨t, ht, heq⟩ := List.mem_map.mp hin
      cases heq
      have hle : w.next γ.1 ≤ id := (List.mem_range'_1.mp ht).1
      have hhand : γ'.2.hand id = none := by
        have hne : id ≠ k.thread := fun he => absurd (he ▸ hk) (Nat.not_lt_of_le hle)
        exact (h.leaves id hne).hand.trans (hinv.hand_eq_none hle)
      have hin' : id ∈ γ'.2.crew := hcrew ▸ ht
      exact ⟨⟨hinv', hin'⟩, ⟨rfl, ⟨hinv', hin', hhand⟩, rfl⟩,
        fun other hother => hsuits other _ hother hle⟩
    · rw [List.map_map, List.pairwise_map]
      have hnodup : (List.range' (w.next γ.1) n).Nodup := List.nodup_range'
      refine hnodup.imp fun {t t'} hne => ?_
      have hthreads : (Post.worker t).thread ≠ (Post.worker t').thread := hne
      exact suits_of_ne hthreads

theorem safe_role (hw : w.Lawful) {k : Post} {id : ThreadId} {role : ρ}
    (h : (w.pact n).ready k id role γ) :
    Safe ((w.pact n).rely k) ((w.pact n).guar k) id ((w.pact n).Fate k id)
      (w.recorded.program role) γ := by
  cases k with
  | client t =>
    obtain ⟨rfl, huses, hne⟩ := h
    simp only [recorded, dif_neg hne]
    refine (upholds_errand hw bears_uses (w.role ⟨role, hne⟩) γ huses).bind_fate .refl ?_
      fun _ _ => trivial
    intro role? γ' huses' γ'' hr
    cases role? with
    | none => trivial
    | some role' => exact ⟨rfl, bears_uses.stable_leaves γ' γ'' huses' hr, role'.property⟩
  | worker t =>
    obtain ⟨rfl, hidle, rfl⟩ := h
    simp only [recorded, dif_pos]
    refine (upholds_work hw γ hidle).bind .refl fun _ γ' hidle' γ'' hr => ?_
    exact ⟨rfl, bears_idle.stable_leaves γ' γ'' hidle' hr, rfl⟩

theorem kept_pact (hw : w.Lawful) (henv : w.Undisturbed env) :
    (w.pact n).Kept w.recorded (Life.beside env) where
  refl _ := .refl
  trans _ _ _ _ h h' := Leaves.trans h h'
  here_rely _ _ _ h hr := here_of_grows h hr.toGrows
  here_guar _ _ _ h hg := here_of_grows h hg.grows
  gone _ _ _ _ _ := trivial
  joins _ _ _ := joins_of_does
  role _ _ _ _ _ := safe_role hw
  adopts _ γ := leaves_of_core (congrArg Pool.core (hw.get_adopt γ.1)) rfl
    (Nat.le_of_eq (hw.next_adopt γ.1).symm)
  adopted γ := hw.pending_adopt γ.1
  passes _ _ _ h := leaves_of_core (henv.core _ _ h.1) h.2 (Nat.le_of_eq (henv.next _ _ h.1).symm)
  passed _ _ h := henv.pending _ _ h.1

/-! ## What the record tells -/

/-- Every job is run once, in the order of submission, and its outcome is the one that its run has
ended with. -/
structure Orderly {κ : Type} (size : Nat) (p : Pool κ) (log : List PoolEvent) : Prop where
  taken : ∀ before after, log = before ++ after → PoolLog.taken before <+: PoolLog.submitted before
  room : ∀ before after, log = before ++ after → (PoolLog.running before).length ≤ max size 1
  /-- A job that is entered is in the hand of a worker, and was neither entered nor cancelled
  before. -/
  entered : ∀ before id after, log = before ++ .entered id :: after →
    id ∈ PoolLog.running before ∧ .entered id ∉ before ∧ .cancelled id ∉ before
  submittedOnce : (PoolLog.submitted log).Nodup
  endedOnce : (PoolLog.ended log).Nodup
  ended : PoolLog.ended log ⊆ PoolLog.taken log
  /-- When nothing is left to do, all that was submitted was run. -/
  all : p.waiting = [] → PoolLog.running log = [] →
    (PoolLog.ended log).Perm (PoolLog.submitted log)
  outcome : ∀ id outcome, p.outcome? id = some outcome ↔
    ∃ outcome?, .ended id outcome? ∈ log ∧ outcome?.getD .failed = outcome
  awaited : ∀ id outcome, .awaited id outcome ∈ log → p.outcome? id = some outcome
  /-- A run has an outcome unless the listener of the job has crashed. -/
  failed : ∀ id, .ended id none ∈ log → .panicked id ∈ log
  cancelled : ∀ before id after, log = before ++ .cancelled id :: after → .entered id ∉ before →
    .entered id ∉ log ∧ ∀ outcome?, .ended id outcome? ∈ log →
      outcome? = some .aborted ∨ .panicked id ∈ log

omit [DecidableEq ρ] in
theorem orderly_of_tally {p : Pool κ} {r : PoolRecord} (h : PoolTally (max size 1) p r) :
    Orderly size p r.log := by
  constructor
  case taken =>
    intro before after hlog
    exact (hlog ▸ h.lawful).of_append.taken_initial
  case room =>
    intro before after hlog
    exact (hlog ▸ h.lawful).of_append.running_le
  case entered => exact fun before id after hlog => h.lawful.mayFollow hlog
  case submittedOnce => exact h.lawful.nodup_submitted
  case endedOnce => exact h.lawful.nodup_ended
  case ended => exact h.lawful.ended_subset
  case all =>
    intro hwaiting hrunning
    have hline := h.line
    rw [hwaiting, List.append_nil] at hline
    refine (List.perm_ext_iff_of_nodup h.lawful.nodup_ended h.lawful.nodup_submitted).mpr fun id =>
      ?_
    rw [hline]
    refine ⟨fun hin => h.lawful.ended_subset hin, fun hin => ?_⟩
    by_contra hout
    have hin' : id ∈ PoolLog.running r.log := PoolLog.mem_running.mpr ⟨hin, hout⟩
    rw [hrunning] at hin'
    cases hin'
  case outcome => exact h.outcomes
  case awaited =>
    intro id outcome hin
    obtain ⟨before, after, hlog⟩ := List.append_of_mem hin
    obtain ⟨outcome?, hended, hget⟩ := h.lawful.mayFollow hlog
    exact (h.outcomes id outcome).mpr ⟨outcome?, hlog ▸ List.mem_append_left _ hended, hget⟩
  case failed => exact fun id hin => h.lawful.panicked_of_ended hin
  case cancelled =>
    intro before id after hlog hbefore
    have hout := h.lawful.not_entered hlog hbefore
    refine ⟨hout, fun outcome? hended => ?_⟩
    cases outcome? with
    | some outcome => exact .inl (congrArg some (h.lawful.aborted_of_not_entered hended hout))
    | none => exact .inr (h.lawful.panicked_of_ended hended)

/-- A machine with a new pool, nothing in its record, and threads with numbers of their own that are
no workers. -/
structure IsNew (w : Mill σ κ ρ) (size : Nat) (m : Machine (σ × PoolRecord) ρ) : Prop where
  pool : w.slot.get m.shared.1 = .new size
  record : m.shared.2 = .new
  pending : ∀ joined ∈ w.life.pending m.shared.1, joined.2 ≠ w.worker
  numbers : ((w.recorded.crew m).map Thread.id).Nodup
  known : ∀ t ∈ w.recorded.crew m, t.id < w.next m.shared.1
  clients : ∀ t ∈ m.threads, ∃ errand : PoolErrand w.toPoolSite (Option {k // k ≠ w.worker}),
    t.rest = (do return (← errand.recorded).map Subtype.val)

theorem IsNew.inv {m : Machine (σ × PoolRecord) ρ} (h : w.IsNew size m) :
    w.Inv (max size 1) m.shared := by
  constructor
  · rw [h.pool, h.record]
    exact .new size
  · rw [h.record]
    exact fun _ _ => ⟨List.not_mem_nil, rfl⟩

theorem manned_of_isNew (hw : w.Lawful) {m : Machine (σ × PoolRecord) ρ} (h : w.IsNew size m) :
    (w.pact (max size 1)).Manned w.recorded m
      ((w.recorded.crew m).map fun t => (.client t.id, some t)) := by
  have hclient : ∀ t ∈ w.recorded.crew m,
      (w.pact (max size 1)).Member m.shared (.client t.id) (some t) := by
    intro t ht
    have huses : w.Uses (max size 1) t.id m.shared := ⟨h.inv, h.known t ht⟩
    refine .present huses ?_
    rcases List.mem_append.mp ht with hin | hin
    · obtain ⟨errand, hrest⟩ := h.clients t hin
      rw [hrest]
      refine (upholds_errand hw bears_uses errand m.shared huses).bind_fate .refl ?_ fun _ _ =>
        trivial
      intro role? γ' huses' γ'' hr
      cases role? with
      | none => trivial
      | some role' => exact ⟨rfl, bears_uses.stable_leaves γ' γ'' huses' hr, role'.property⟩
    · obtain ⟨⟨id, role⟩, hjoined, rfl⟩ := List.mem_map.mp hin
      have hready : (w.pact (max size 1)).ready (.client id) id role m.shared :=
        ⟨rfl, huses, h.pending _ hjoined⟩
      exact safe_role hw hready
  constructor
  case members =>
    intro k t? hin
    obtain ⟨t, ht, heq⟩ := List.mem_map.mp hin
    cases heq
    exact hclient t ht
  case suits =>
    rw [List.map_map, List.pairwise_map]
    exact (List.pairwise_map.mp h.numbers).imp fun hne => suits_of_ne hne
  case crew => simp [List.filterMap_map]

variable {allowed : ThreadId → σ × PoolRecord → σ × PoolRecord → Prop}
  {m₀ m m' : Machine (σ × PoolRecord) ρ}

theorem grows_of_course (hw : w.Lawful) (henv : w.Undisturbed env) (h₀ : w.IsNew size m₀)
    (h : w.recorded.Course allowed (Life.beside env) m₀ m)
    (h' : w.recorded.Course allowed (Life.beside env) m m') :
    w.Grows (max size 1) m₀.shared m.shared ∧ w.Grows (max size 1) m.shared m'.shared := by
  have hdeed : ∀ γ γ', (w.pact (max size 1)).Deed w.recorded (Life.beside env) γ γ' →
      w.Grows (max size 1) γ γ' := by
    intro γ γ' hdeed
    have hkept := kept_pact (n := max size 1) hw henv
    cases hdeed with
    | nothing => exact .refl γ
    | step _ hguar => exact hguar.grows
    | adopt => exact (hkept.adopts (.client 0) γ).toGrows
    | env he => exact (hkept.passes (.client 0) γ γ' he).toGrows
  obtain ⟨hgrows, roster, hmanned, -⟩ := Pact.manned_of_course (T := w.Grows (max size 1))
    (kept_pact hw henv) .refl (fun _ _ _ => .trans) hdeed h (manned_of_isNew hw h₀)
  exact ⟨hgrows, (Pact.manned_of_course (T := w.Grows (max size 1)) (kept_pact hw henv) .refl
    (fun _ _ _ => .trans) hdeed h' hmanned).1⟩

theorem staffed_of_isNew {m : Machine (σ × PoolRecord) ρ} (h : w.IsNew size m) :
    w.Staffed m.shared.2.crew (hands m.shared) (w.next m.shared.1) (w.recorded.crew m) := by
  have hcrew : m.shared.2.crew = [] := by rw [h.record]; rfl
  rw [hcrew]
  refine ⟨h.numbers, h.known, nofun, fun t ht _ => ?_, nofun⟩
  rcases List.mem_append.mp ht with hin | hin
  · obtain ⟨errand, hrest⟩ := h.clients t hin
    exact hrest ▸ .mk (hands_errand errand)
  · obtain ⟨joined, hjoined, rfl⟩ := List.mem_map.mp hin
    exact client_role (h.pending joined hjoined)

theorem staffed_of_course (hw : w.Lawful) (henv : w.Undisturbed env) (h₀ : w.IsNew size m₀)
    (h : w.recorded.Course allowed (Life.beside env) m₀ m) :
    w.Staffed m.shared.2.crew (hands m.shared) (w.next m.shared.1) (w.recorded.crew m) := by
  have hkept := kept_pact (n := max size 1) hw henv
  induction h with
  | refl => exact staffed_of_isNew h₀
  | @tail m m' h hmove ih =>
    cases hmove with
    | @thread before after t t? γ γ' hstep _ =>
      obtain ⟨-, roster, hmanned, -⟩ := Pact.manned_of_course (T := fun _ _ => True) hkept
        (fun _ => trivial) (fun _ _ _ _ _ => trivial) (fun _ _ _ => trivial) h
        (manned_of_isNew hw h₀)
      obtain ⟨first, k, last, news, hs⟩ := hmanned.step hkept hstep
      let arriving :=
        (w.recorded.pending γ).map fun x => (⟨x.1, w.recorded.program x.2⟩ : Thread _ ρ)
      have hcrew : w.recorded.crew ⟨γ, before ++ t :: after⟩ = before ++ t ::
          (after ++ arriving) := by
        simp [Life.crew, arriving]
      rw [hcrew] at ih
      obtain ⟨hstaffed, hothers⟩ := ih.step hstep
      have hcrew' : w.recorded.crew ⟨γ', before ++ (t?.toList ++ after)⟩ =
          before ++ (t?.toList ++ (after ++ arriving)) ++
            (news.map Prod.snd).map fun x => ⟨x.1, w.recorded.program x.2⟩ := by
        simp [Life.crew, arriving, hs.pending]
      rw [hcrew']
      rcases hs.guar with hdoes | rfl
      · refine hstaffed.staffs (n := max size 1) hdoes (fun id hle => ?_) hs.pending
        have hlt : t.id < w.next γ.1 := ih.known t (by simp)
        rw [hothers id (Nat.ne_of_gt (Nat.lt_of_lt_of_le hlt hle))]
        exact (uses_of_here hs.here).1.hand_eq_none hle
      · obtain rfl : news = [] := by simpa using hs.pending
        simpa using hstaffed
    | adopt =>
      rw [Pact.crew_adopt hkept]
      exact ih.mono (Nat.le_of_eq (hw.next_adopt _).symm)
    | @env _ γ he =>
      have hcrew : w.recorded.crew { m with shared := γ } = w.recorded.crew m := by
        have hpending : w.recorded.pending γ = w.recorded.pending m.shared := henv.pending _ _ he.1
        simp [Life.crew, hpending]
      rw [hcrew, hands, he.2]
      exact ih.mono (Nat.le_of_eq (henv.next _ _ he.1).symm)

omit [DecidableEq ρ] in
theorem outcome?_of_grows {id : JobId} {outcome : Outcome} (hi : w.Inv n γ) (h : w.Grows n γ γ')
    (houtcome : (w.slot.get γ.1).outcome? id = some outcome) :
    (w.slot.get γ'.1).outcome? id = some outcome := by
  obtain ⟨outcome?, hin, hget⟩ := (hi.tally.outcomes id outcome).mp houtcome
  exact ((h.inv hi).tally.outcomes id outcome).mpr ⟨outcome?, h.log.subset hin, hget⟩

/-! ## Machines without a record -/

/-- A machine with a new pool, and threads with numbers of their own that are no workers. -/
structure IsOpen (w : Mill σ κ ρ) (size : Nat) (m : Machine σ ρ) : Prop where
  pool : w.slot.get m.shared = .new size
  pending : ∀ joined ∈ w.life.pending m.shared, joined.2 ≠ w.worker
  numbers : ((w.life.crew m).map Thread.id).Nodup
  known : ∀ t ∈ w.life.crew m, t.id < w.next m.shared
  clients : ∀ t ∈ m.threads, ∃ errand : PoolErrand w.toPoolSite (Option {k // k ≠ w.worker}),
    t.rest = (do return (← errand.plain).map Subtype.val)

theorem exists_isNew {m : Machine σ ρ} (h : w.IsOpen size m) :
    ∃ m' : Machine (σ × PoolRecord) ρ, w.IsNew size m' ∧ Life.Keeps (fun _ _ _ => True) m' m := by
  have hfollows : ∀ errand : PoolErrand w.toPoolSite (Option {k // k ≠ w.worker}),
      Follows (fun _ _ _ => True) (do return (← errand.recorded).map Subtype.val)
        (do return (← errand.plain).map Subtype.val) :=
    fun errand => errand.follows_recorded.bind fun _ => .done _
  obtain ⟨threads', hthreads, hids, hclients⟩ := Life.exists_threads hfollows h.clients
  have hcrew : (w.recorded.crew ⟨(m.shared, PoolRecord.new), threads'⟩).map Thread.id =
      (w.life.crew m).map Thread.id := by
    simp only [Life.crew, List.map_append, hids, List.map_map]
    rfl
  refine ⟨⟨(m.shared, .new), threads'⟩, ⟨h.pool, rfl, h.pending, hcrew ▸ h.numbers, ?_, hclients⟩,
    rfl, hthreads⟩
  intro t ht
  have hin : t.id ∈ (w.life.crew m).map Thread.id := hcrew ▸ List.mem_map_of_mem ht
  obtain ⟨t', ht', heq⟩ := List.mem_map.mp hin
  exact heq ▸ h.known t' ht'

/-- Of every course of a machine there is a record that is orderly, and what can be done with the
record can be done without. Outcomes never change, the next job that waits can be taken as long as
there is room, and no job brings a worker down. -/
theorem runs_once_in_order (hw : w.Lawful) (henv : w.Undisturbed env) (size : Nat) :
    (∀ m₀ m, w.IsOpen size m₀ → w.life.Course (fun _ _ _ => True) env m₀ m →
      ∃ m₀' m', w.IsNew size m₀' ∧ Life.Keeps (fun _ _ _ => True) m₀' m₀ ∧
        w.recorded.Course (fun _ _ _ => True) (Life.beside env) m₀' m' ∧
        Life.Keeps (fun _ _ _ => True) m' m) ∧
    (∀ m₀' m' m₀, w.recorded.Reaches m₀' m' → Life.Keeps (fun _ _ _ => True) m₀' m₀ →
      ∃ m, w.life.Reaches m₀ m ∧ Life.Keeps (fun _ _ _ => True) m' m) ∧
    (∀ m₀ m, w.IsNew size m₀ → w.recorded.Course (fun _ _ _ => True) (Life.beside env) m₀ m →
      Orderly size (w.slot.get m.shared.1) m.shared.2.log ∧
      (∀ m', w.recorded.Course (fun _ _ _ => True) (Life.beside env) m m' →
        m.shared.2.log <+: m'.shared.2.log ∧
        ∀ id outcome, (w.slot.get m.shared.1).outcome? id = some outcome →
          (w.slot.get m'.shared.1).outcome? id = some outcome) ∧
      ∀ id waiting, (w.slot.get m.shared.1).waiting = id :: waiting →
        (PoolLog.running m.shared.2.log).length < max size 1 →
        ∃ m', w.recorded.Reaches m m' ∧ m'.shared.2.log = m.shared.2.log ++ [.taken id]) ∧
    NeverCrashes (w.life.program w.worker) := by
  refine ⟨fun m₀ m h₀ h => ?_, fun m₀' m' m₀ h h₀ => h₀.reaches (follows_recorded hw) h,
    fun m₀ m h₀ h => ?_, ?_⟩
  · obtain ⟨m₀', hnew, hkeeps⟩ := exists_isNew h₀
    obtain ⟨m', hcourse, hkeeps'⟩ := Life.exists_kept (follows_recorded hw) h hkeeps
    exact ⟨m₀', m', hnew, hkeeps, hcourse, hkeeps'⟩
  · have hinv : w.Inv (max size 1) m.shared := (grows_of_course hw henv h₀ h .refl).1.inv h₀.inv
    refine ⟨orderly_of_tally hinv.tally, fun m' h' => ?_, fun id waiting hwaiting hroom => ?_⟩
    · have hgrows := (grows_of_course hw henv h₀ h h').2
      exact ⟨hgrows.log, fun id outcome => outcome?_of_grows hinv hgrows⟩
    · exact (staffed_of_course hw henv h₀ h).exists_take hw hinv hwaiting hroom
  · rw [hw.worker]
    have hwork : NeverCrashes w.slot.work :=
      NeverCrashes.bind (fun _ => trivial) fun id =>
        (neverCrashes_attempt _).bind fun _ _ => trivial
    exact hwork.bind fun _ => trivial

end Mill

/-! ## The pool that is by itself -/

namespace Pool

variable {κ : Type}

theorem core_modifyJob {p : Pool κ} {id : JobId} {f : JobRecord κ → JobRecord κ}
    (h : ∀ r, (f r).job = r.job ∧ (f r).cancelled = r.cancelled ∧ (f r).outcome = r.outcome) :
    (p.modifyJob id f).core = p.core := by
  have hjobs : (p.jobs.modify id f).map (fun r => (r.job, r.cancelled, r.outcome)) =
      p.jobs.map fun r => (r.job, r.cancelled, r.outcome) := by
    refine Array.ext (by simp) fun i _ _ => ?_
    simp only [Array.getElem_map, Array.getElem_modify]
    split
    · simp [h]
    · rfl
  simp [core, modifyJob, hjobs]

end Pool

namespace Bench

def site : PoolSite Bench BenchListener BenchRole where
  slot := place
  life := life
  worker := .worker
  next b := b.threads + 1

def hear (id : JobId) (event : JobEvent) (b : Bench) : Bench :=
  { b with pool := b.pool.modifyJob id fun r => { r with listener := r.listener.hear event } }

def hearCall (id : JobId) (event : JobEvent) : PoolCall site :=
  .own (Action.update (hear id event)) <|
    within_update fun _ => ⟨Pool.core_modifyJob fun _ => ⟨rfl, rfl, rfl⟩, .inl ⟨rfl, rfl⟩⟩

/-- The pool that is by itself, as a mill without any other roles. -/
def mill : Mill Bench BenchListener BenchRole where
  toPoolSite := site
  hear id event := Program.call (hearCall id event)
  role k := absurd rfl k.property

theorem lawful_mill : mill.Lawful where
  get_set _ _ := rfl
  next_set _ _ := rfl
  pending_set _ _ := rfl
  spares_world _ _ := ⟨rfl, .inl ⟨rfl, rfl⟩⟩
  get_launch _ := rfl
  next_launch _ := rfl
  pending_launch _ := rfl
  get_adopt _ := rfl
  next_adopt _ := rfl
  pending_adopt _ := rfl
  notify _ _ := rfl
  worker := rfl
  others k := absurd rfl k.property

theorem undisturbed_of_passTime : mill.Undisturbed fun b b' => b.passTime = some b' where
  core b b' h := by
    obtain ⟨world, -, rfl⟩ := Option.map_eq_some_iff.mp h
    rfl
  next b b' h := by
    obtain ⟨world, -, rfl⟩ := Option.map_eq_some_iff.mp h
    rfl
  pending b b' h := by
    obtain ⟨world, -, rfl⟩ := Option.map_eq_some_iff.mp h
    rfl

/-- One thread submits a job and waits for it. Another one submits a job, cancels it and waits. -/
def twoJobs : Machine (Bench × PoolRecord) BenchRole :=
  let first : PoolErrand site (Option {k // k ≠ BenchRole.worker}) := do
    let id : JobId ← Program.call (PoolCall.submit (BuildStep.task "a" [.finish "done"]) .nobody)
    let _ : Outcome ← Program.call (PoolCall.await id)
    return none
  let second : PoolErrand site (Option {k // k ≠ BenchRole.worker}) := do
    let id : JobId ← Program.call
      (PoolCall.submit (BuildStep.task "b" [.finish "done"]) (.recorder #[]))
    Program.call (PoolCall.cancel id)
    let _ : Outcome ← Program.call (PoolCall.await id)
    return none
  ⟨({ new 0 .empty with threads := 1 }, .new),
    [⟨0, do return (← first.recorded).map Subtype.val⟩,
      ⟨1, do return (← second.recorded).map Subtype.val⟩]⟩

theorem isNew_twoJobs : mill.IsNew 0 twoJobs where
  pool := rfl
  record := rfl
  pending := by simp [mill, site, twoJobs, Life.pending, life, new]
  numbers := by decide
  known t ht := by
    have hids : ∀ id ∈ (mill.recorded.crew twoJobs).map Thread.id, id < 2 := by decide
    exact hids t.id (List.mem_map_of_mem ht)
  clients t ht := by
    simp only [twoJobs, List.mem_cons, List.not_mem_nil, or_false] at ht
    rcases ht with rfl | rfl
    · exact ⟨_, rfl⟩
    · exact ⟨_, rfl⟩

theorem runs_once_of_twoJobs :
    let m := mill.recorded.settle 6 twoJobs
    mill.recorded.Course (fun _ _ _ => True)
      (Life.beside fun b b' => b.passTime = some b') twoJobs m ∧
    Mill.Orderly 0 m.shared.1.pool m.shared.2.log ∧
    m.shared.2.log = [.submitted 0, .submitted 1, .cancelled 1, .taken 0, .entered 0,
      .ended 0 (some .succeeded), .taken 1, .ended 1 (some .aborted), .awaited 0 .succeeded,
      .awaited 1 .aborted] := by
  have hcourse : mill.recorded.Course (fun _ _ _ => True)
      (Life.beside fun b b' => b.passTime = some b') twoJobs (mill.recorded.settle 6 twoJobs) :=
    .of_reaches (Life.reaches_settle _ _ _)
  refine ⟨hcourse, ?_, rfl⟩
  exact ((Mill.runs_once_in_order lawful_mill undisturbed_of_passTime 0).2.2.1 _ _ isNew_twoJobs
    hcourse).1

end Bench

end SessionShell
