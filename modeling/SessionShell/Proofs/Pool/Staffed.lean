import Mathlib.Data.List.Nodup
import SessionShell.Proofs.Pool.Duty

/-!
Where the threads of a pool stand.

A worker has a job in hand between the step that takes the job and the step that ends it, and comes
from the one to the other whatever the job does. Once the workers were started none of them leaves.
So there is a worker for the next job that waits, as long as there is room for one more.
-/

namespace SessionShell

open Action

namespace Mill

variable {σ κ ρ α : Type} {w : Mill σ κ ρ} {n : Nat} {γ γ' : σ × PoolRecord}

/-! ## Whatever touches nothing in anybody's hand -/

def hands (γ : σ × PoolRecord) : ThreadId → Option JobId :=
  γ.2.hand

theorem hands_awaitNoted {f : σ → Option (α × σ)}
    {notes : ThreadId → σ → α → PoolRecord → PoolRecord}
    (h : ∀ me s a r, (notes me s a r).hand = r.hand) : Keeps hands (awaitNoted f notes) := by
  refine ⟨fun me γ a γ' hrun => ?_, fun _ => trivial⟩
  obtain ⟨⟨a', s⟩, -, heq⟩ := Option.map_eq_some_iff.mp hrun
  cases heq
  exact h me γ.1 _ γ.2

theorem hands_stepNoted {f : σ → α × σ} {notes : ThreadId → σ → α → PoolRecord → PoolRecord}
    (h : ∀ me s a r, (notes me s a r).hand = r.hand) : Keeps hands (stepNoted f notes) :=
  hands_awaitNoted h

theorem hands_silent (p : Action σ α) : Keeps hands (silent p) := by
  induction p with
  | done a => trivial
  | crash => trivial
  | ask act next ih =>
    refine ⟨fun me γ a γ' hrun => ?_, ih⟩
    obtain ⟨⟨a', s⟩, -, heq⟩ := Option.map_eq_some_iff.mp hrun
    cases heq
    rfl

theorem hands_expand {Call : Type _} {Reply : Call → Type} (p : Program Call Reply α)
    {f : (call : Call) → Action (σ × PoolRecord) (Reply call)} (h : ∀ call, Keeps hands (f call)) :
    Keeps hands (p.expand f) := by
  induction p with
  | done a => trivial
  | crash => trivial
  | ask call next ih => exact (h call).bind ih

theorem hands_call (call : PoolCall w.toPoolSite) : Keeps hands call.recorded := by
  cases call with
  | submit task listener =>
    have hadd : Keeps hands (PoolCall.addNoted w.toPoolSite task listener) :=
      hands_stepNoted fun _ _ _ _ => rfl
    have hstart : Keeps hands (PoolCall.startNoted w.toPoolSite) :=
      hands_stepNoted fun _ _ _ _ => by
        dsimp only
        split <;> rfl
    have henqueue : ∀ id, Keeps hands (PoolCall.enqueueNoted w.toPoolSite id) :=
      fun _ => hands_stepNoted fun _ _ _ _ => rfl
    exact hadd.bind fun id => hstart.bind fun _ => (henqueue id).bind fun _ => keeps_pure id
  | cancel id =>
    have hcancel : Keeps hands (PoolCall.cancelNoted w.toPoolSite id) :=
      hands_stepNoted fun _ _ _ _ => by
        unfold PoolRecord.cancel
        split <;> rfl
    exact hcancel
  | await id =>
    have hwait : Keeps hands (PoolCall.awaitNoted w.toPoolSite id) :=
      hands_awaitNoted fun _ _ _ _ => rfl
    exact hwait
  | own p h => exact hands_silent p

theorem hands_errand (errand : PoolErrand w.toPoolSite α) : Keeps hands errand.recorded :=
  hands_expand errand hands_call

theorem hands_answer (id : JobId) (call : JobCall) : Keeps hands (w.answerRecorded id call) := by
  cases call with
  | now => exact hands_silent _
  | notify event =>
    refine (hands_errand (w.hear id event)).attempt.bind fun a? => ?_
    cases a? with
    | some a => trivial
    | none =>
      have hnote :
          Keeps hands (record (PoolRecord.note (.panicked id)) : Action (σ × PoolRecord) Unit) :=
        keeps_update fun _ => rfl
      exact hnote.bind fun _ => keeps_crash
  | work call =>
    cases call with
    | isCancelled => exact hands_silent _
    | cancel => exact hands_call (.cancel id)
    | sleep ms => exact hands_silent _
    | gate name => exact hands_silent _
    | file call => exact hands_silent _

theorem hands_run (id : JobId) : Keeps hands (w.runRecorded id) := by
  refine (hands_silent _).bind fun record? => ?_
  cases record? with
  | none => trivial
  | some record =>
    refine Keeps.bind ?_ fun result => (hands_silent _).bind fun _ => trivial
    unfold jobRecorded
    cases record.job.outcome with
    | some outcome => trivial
    | none =>
      have hcheck : Keeps hands (w.checkNoted id) := hands_stepNoted fun _ _ cancelled _ => by
        cases cancelled <;> rfl
      exact hcheck.bind fun cancelled => hands_expand _ (hands_answer id)

/-! ## Clients and workers -/

inductive Client (w : Mill σ κ ρ) : Action (σ × PoolRecord) (Option ρ) → Prop where
  | mk {p : Action (σ × PoolRecord) (Option {k // k ≠ w.worker})} (h : Keeps hands p) :
    Client w (do return (← p).map Subtype.val)

/-- Has still to do what a worker does that has this job in hand, or none. -/
inductive Works (w : Mill σ κ ρ) : Option JobId → Action (σ × PoolRecord) (Option ρ) → Prop where
  | done : Works w none (return some w.worker)
  | idle : Works w none (do
      w.workRecorded
      return some w.worker)
  | busy {p : Action (σ × PoolRecord) (Option Outcome)} (id : JobId) (h : Keeps hands p)
      (hcrash : NeverCrashes p) : Works w (some id) (do
        w.finishNoted id (← p)
        return some w.worker)

variable [DecidableEq ρ] {t : Thread (σ × PoolRecord) ρ} {t? : Option (Thread (σ × PoolRecord) ρ)}

theorem client_role {role : ρ} (h : role ≠ w.worker) : w.Client (w.recorded.program role) := by
  simp only [recorded, dif_neg h]
  exact .mk (hands_errand _)

theorem works_role : w.Works none (w.recorded.program w.worker) := by
  simp only [recorded, dif_pos]
  exact .idle

theorem Client.step (h : w.Client t.rest) (hstep : w.recorded.stepThread? t γ = some (t?, γ')) :
    hands γ' = hands γ ∧ ∀ t' ∈ t?, t'.id = t.id ∧ w.Client t'.rest := by
  obtain ⟨id, rest⟩ := t
  cases h with
  | @mk p h =>
    cases p with
    | done role? =>
      cases role? with
      | none =>
        cases hstep
        exact ⟨rfl, nofun⟩
      | some role =>
        cases hstep
        refine ⟨rfl, ?_⟩
        rintro _ ⟨⟩
        exact ⟨rfl, client_role role.property⟩
    | crash =>
      cases hstep
      exact ⟨rfl, nofun⟩
    | ask act next =>
      obtain ⟨⟨answer, γ₁⟩, hact, heq⟩ := Option.map_eq_some_iff.mp hstep
      cases heq
      refine ⟨h.1 id γ answer _ hact, ?_⟩
      rintro _ ⟨⟩
      exact ⟨rfl, .mk (h.2 answer)⟩

theorem Works.step (h : w.Works (hands γ t.id) t.rest)
    (hstep : w.recorded.stepThread? t γ = some (t?, γ')) :
    ∃ rest, t? = some ⟨t.id, rest⟩ ∧ w.Works (hands γ' t.id) rest ∧
      ∀ other, other ≠ t.id → hands γ' other = hands γ other := by
  obtain ⟨me, rest⟩ := t
  dsimp only at h ⊢
  generalize hhand : hands γ me = id? at h
  cases h with
  | done =>
    cases hstep
    exact ⟨_, rfl, hhand ▸ works_role, fun _ _ => rfl⟩
  | idle =>
    obtain ⟨⟨_, γ₁⟩, hact, heq⟩ := Option.map_eq_some_iff.mp hstep
    cases heq
    obtain ⟨⟨id, s⟩, -, heq⟩ := Option.map_eq_some_iff.mp hact
    cases heq
    refine ⟨_, rfl, ?_, fun other ho => by simp [hands, PoolRecord.take, PoolRecord.note, ho]⟩
    have hself : hands (s, γ.2.take me id) me = some id := by
      simp [hands, PoolRecord.take, PoolRecord.note]
    rw [hself]
    change w.Works (some id) (((w.runRecorded id).attempt >>= fun outcome? =>
      w.finishNoted id outcome?) >>= fun _ => return some w.worker)
    rw [bind_assoc]
    exact .busy id (hands_run id).attempt (neverCrashes_attempt _)
  | @busy p id h hcrash =>
    cases p with
    | done outcome? =>
      cases hstep
      refine ⟨_, rfl, ?_, fun other ho => by simp [hands, PoolRecord.finish, PoolRecord.note, ho]⟩
      have hself : ∀ s : σ, hands (s, γ.2.finish me id outcome?) me = none := fun s => by
        simp [hands, PoolRecord.finish, PoolRecord.note]
      rw [hself]
      exact .done
    | crash => exact hcrash.elim
    | ask act next =>
      obtain ⟨⟨answer, γ₁⟩, hact, heq⟩ := Option.map_eq_some_iff.mp hstep
      cases heq
      have hsame : hands γ' = hands γ := h.1 me γ answer γ' hact
      refine ⟨_, rfl, ?_, fun other _ => congrFun hsame other⟩
      rw [hsame, hhand]
      exact .busy id (h.2 answer) (hcrash answer)

/-! ## All threads -/

/-- Threads with numbers of their own. The workers are all there, and whoever is no worker is a
client. -/
structure Staffed (w : Mill σ κ ρ) (crew : List ThreadId) (hand : ThreadId → Option JobId)
    (next : ThreadId) (threads : List (Thread (σ × PoolRecord) ρ)) : Prop where
  numbers : (threads.map Thread.id).Nodup
  known : ∀ t ∈ threads, t.id < next
  works : ∀ t ∈ threads, t.id ∈ crew → w.Works (hand t.id) t.rest
  client : ∀ t ∈ threads, t.id ∉ crew → w.Client t.rest
  present : ∀ id ∈ crew, ∃ t ∈ threads, t.id = id

variable {crew : List ThreadId} {hand : ThreadId → Option JobId} {next next' : ThreadId}
  {threads before after : List (Thread (σ × PoolRecord) ρ)}

omit [DecidableEq ρ] in
theorem Staffed.lt_next (h : w.Staffed crew hand next threads) {id : ThreadId} (hin : id ∈ crew) :
    id < next := by
  obtain ⟨t, ht, rfl⟩ := h.present id hin
  exact h.known t ht

theorem Staffed.step (h : w.Staffed crew (hands γ) next (before ++ t :: after))
    (hstep : w.recorded.stepThread? t γ = some (t?, γ')) :
    w.Staffed crew (hands γ') next (before ++ (t?.toList ++ after)) ∧
      ∀ other, other ≠ t.id → hands γ' other = hands γ other := by
  have hmem : t ∈ before ++ t :: after := by simp
  have hrest : ∀ t' ∈ before ++ after, t' ∈ before ++ t :: after ∧ t'.id ≠ t.id := by
    have hnodup := h.numbers
    rw [List.map_append, List.map_cons] at hnodup
    have hnot := (List.nodup_middle.mp hnodup).notMem
    rw [← List.map_append] at hnot
    intro t' ht'
    refine ⟨by simp only [List.mem_append, List.mem_cons] at ht' ⊢; tauto, fun he => hnot ?_⟩
    exact he ▸ List.mem_map_of_mem ht'
  -- What has become of the thread, and that the others have their hands as before.
  obtain ⟨hnew, hothers⟩ :
    (∀ t' ∈ t?, t'.id = t.id ∧ (t.id ∈ crew → w.Works (hands γ' t.id) t'.rest) ∧
      (t.id ∉ crew → w.Client t'.rest)) ∧ ∀ other, other ≠ t.id →
        hands γ' other = hands γ other := by
    by_cases hin : t.id ∈ crew
    · obtain ⟨rest, rfl, hworks, hothers⟩ := (h.works t hmem hin).step hstep
      refine ⟨?_, hothers⟩
      rintro _ ⟨⟩
      exact ⟨rfl, fun _ => hworks, fun hout => absurd hin hout⟩
    · obtain ⟨hhands, hclient⟩ := (h.client t hmem hin).step hstep
      exact ⟨fun t' ht' => ⟨(hclient t' ht').1, fun hin' => absurd hin' hin, fun _ =>
        (hclient t' ht').2⟩, fun other _ => congrFun hhands other⟩
  have hcases : ∀ t' ∈ before ++ (t?.toList ++ after), t' ∈ t? ∨ t' ∈ before ++ after := by
    intro t' ht'
    simp only [List.mem_append, Option.mem_toList] at ht' ⊢
    tauto
  refine ⟨⟨?_, fun t' ht' => ?_, fun t' ht' hin => ?_, fun t' ht' hout => ?_, fun id hid => ?_⟩,
    hothers⟩
  · have hnumbers := h.numbers
    cases t? with
    | none =>
      refine hnumbers.sublist (List.Sublist.map _ ?_)
      exact List.Sublist.append_left (List.sublist_cons_self _ _) _
    | some t' => simpa [(hnew t' rfl).1] using hnumbers
  · rcases hcases t' ht' with hself | hin
    · exact (hnew t' hself).1 ▸ h.known t hmem
    · exact h.known t' (hrest t' hin).1
  · rcases hcases t' ht' with hself | hold
    · obtain ⟨hid, hworks, -⟩ := hnew t' hself
      rw [hid] at hin ⊢
      exact hworks hin
    · rw [hothers _ (hrest t' hold).2]
      exact h.works t' (hrest t' hold).1 hin
  · rcases hcases t' ht' with hself | hold
    · obtain ⟨hid, -, hclient⟩ := hnew t' hself
      exact hclient (hid ▸ hout)
    · exact h.client t' (hrest t' hold).1 hout
  · obtain ⟨t', ht', rfl⟩ := h.present id hid
    by_cases hself : t'.id = t.id
    · obtain ⟨rest, rfl, -, -⟩ := (h.works t hmem (hself ▸ hid)).step hstep
      exact ⟨⟨t.id, rest⟩, by simp, hself.symm⟩
    · refine ⟨t', ?_, rfl⟩
      have hne : t' ≠ t := fun he => hself (he ▸ rfl)
      simp only [List.mem_append, List.mem_cons, hne, false_or] at ht' ⊢
      tauto

omit [DecidableEq ρ] in
theorem Staffed.mono (h : w.Staffed crew hand next threads) (hnext : next ≤ next') :
    w.Staffed crew hand next' threads :=
  ⟨h.numbers, fun t ht => Nat.lt_of_lt_of_le (h.known t ht) hnext, h.works, h.client, h.present⟩

theorem Staffed.join {role : ρ} (h : w.Staffed crew hand next threads) (hrole : role ≠ w.worker) :
    w.Staffed crew hand (next + 1) (threads ++ [⟨next, w.recorded.program role⟩]) := by
  have hcases : ∀ t ∈ threads ++ [⟨next, w.recorded.program role⟩],
      t ∈ threads ∨ t = ⟨next, w.recorded.program role⟩ := by simp
  refine ⟨?_, fun t ht => ?_, fun t ht hin => ?_, fun t ht hout => ?_, fun id hid => ?_⟩
  · rw [List.map_append]
    refine List.nodup_append.mpr ⟨h.numbers, List.nodup_singleton _, fun id hid other hother => ?_⟩
    obtain ⟨t, ht, rfl⟩ := List.mem_map.mp hid
    exact List.mem_singleton.mp hother ▸ Nat.ne_of_lt (h.known t ht)
  · rcases hcases t ht with hold | rfl
    · exact Nat.lt_succ_of_lt (h.known t hold)
    · exact Nat.lt_succ_self _
  · rcases hcases t ht with hold | rfl
    · exact h.works t hold hin
    · exact absurd (h.lt_next hin) (Nat.lt_irrefl _)
  · rcases hcases t ht with hold | rfl
    · exact h.client t hold hout
    · exact client_role hrole
  · obtain ⟨t, ht, rfl⟩ := h.present id hid
    exact ⟨t, List.mem_append_left _ ht, rfl⟩

theorem Staffed.hire (h : w.Staffed [] hand next threads) (hhand : ∀ id, next ≤ id → hand id = none)
    (n : Nat) :
    w.Staffed (List.range' next n) hand (next + n)
      (threads ++ (List.range' next n).map fun id => ⟨id, w.recorded.program w.worker⟩) := by
  have hcases : ∀ t ∈ threads ++ (List.range' next n).map fun id =>
    ⟨id, w.recorded.program w.worker⟩,
      t ∈ threads ∧ t.id < next ∨
        ∃ id ∈ List.range' next n, next ≤ id ∧ t = ⟨id, w.recorded.program w.worker⟩ := by
    intro t ht
    rcases List.mem_append.mp ht with hold | hnew
    · exact .inl ⟨hold, h.known t hold⟩
    · obtain ⟨id, hid, rfl⟩ := List.mem_map.mp hnew
      exact .inr ⟨id, hid, (List.mem_range'_1.mp hid).1, rfl⟩
  have hold : ∀ id, id < next → id ∉ List.range' next n := fun id hlt hin =>
    absurd (List.mem_range'_1.mp hin).1 (Nat.not_le_of_lt hlt)
  refine ⟨?_, fun t ht => ?_, fun t ht hin => ?_, fun t ht hout => ?_, fun id hid => ?_⟩
  · rw [List.map_append, List.map_map]
    refine List.nodup_append.mpr ⟨h.numbers, ?_, fun id hid other hother => ?_⟩
    · rw [show Thread.id ∘ (fun id => (⟨id, w.recorded.program w.worker⟩ :
        Thread (σ × PoolRecord) ρ)) = id from rfl, List.map_id]
      exact List.nodup_range'
    · obtain ⟨t, ht, rfl⟩ := List.mem_map.mp hid
      obtain ⟨id', hid', rfl⟩ := List.mem_map.mp hother
      exact Nat.ne_of_lt (Nat.lt_of_lt_of_le (h.known t ht) (List.mem_range'_1.mp hid').1)
  · rcases hcases t ht with ⟨-, hlt⟩ | ⟨id, hid, -, rfl⟩
    · exact Nat.lt_of_lt_of_le hlt (Nat.le_add_right _ n)
    · exact (List.mem_range'_1.mp hid).2
  · rcases hcases t ht with ⟨-, hlt⟩ | ⟨id, -, hle, rfl⟩
    · exact absurd hin (hold _ hlt)
    · dsimp only
      rw [hhand id hle]
      exact works_role
  · rcases hcases t ht with ⟨hin, -⟩ | ⟨id, hid, -, rfl⟩
    · exact h.client t hin (List.not_mem_nil)
    · exact absurd hid hout
  · exact ⟨_, List.mem_append_right _ (List.mem_map_of_mem hid), rfl⟩

theorem Staffed.staffs {me : ThreadId} {joined : List (ThreadId × ρ)}
    (h : w.Staffed γ.2.crew (hands γ') (w.next γ.1) threads) (hdoes : w.Does n me γ γ')
    (hhand : ∀ id, w.next γ.1 ≤ id → hands γ' id = none)
    (hjoined : w.life.pending γ'.1 = w.life.pending γ.1 ++ joined) :
    w.Staffed γ'.2.crew (hands γ') (w.next γ'.1)
      (threads ++ joined.map fun x => ⟨x.1, w.recorded.program x.2⟩) := by
  cases hdoes.staffs with
  | nobody hcrew hpending =>
    obtain rfl : joined = [] := by simpa [hpending] using hjoined
    rw [hcrew, List.map_nil, List.append_nil]
    exact h.mono hdoes.grows.next
  | one hrole hnext hcrew hpending =>
    obtain rfl := List.append_cancel_left (hjoined.symm.trans hpending)
    rw [hcrew, hnext]
    exact h.join hrole
  | workers hnext hcrew hpending =>
    obtain rfl := List.append_cancel_left (hjoined.symm.trans hpending)
    have hnone : γ.2.crew = [] := by
      refine List.eq_nil_iff_forall_not_mem.mpr fun id hid => ?_
      have hin := hdoes.grows.crew id hid
      rw [hcrew] at hin
      exact absurd (h.lt_next hid) (Nat.not_lt.mpr (List.mem_range'_1.mp hin).1)
    rw [hnone] at h
    rw [hcrew, hnext, List.map_map]
    exact h.hire hhand n

/-! ## The next job -/

omit [DecidableEq ρ] in
theorem stepThread?_awaitNoted (life : Life (σ × PoolRecord) ρ) (f : σ → Option (α × σ))
    (notes : ThreadId → σ → α → PoolRecord → PoolRecord)
    (k : α → Action (σ × PoolRecord) (Option ρ)) (me : ThreadId) (γ : σ × PoolRecord) :
    life.stepThread? ⟨me, awaitNoted f notes >>= k⟩ γ =
      (f γ.1).map fun r => (some ⟨me, k r.1⟩, (r.2, notes me γ.1 r.1 γ.2)) := by
  change Option.map _ (Option.map _ (f γ.1)) = _
  cases f γ.1 <;> rfl

theorem Works.exists_take {id : JobId} {waiting : List JobId} (h : w.Works none t.rest)
    (before after : List (Thread (σ × PoolRecord) ρ))
    (hwaiting : (w.slot.get γ.1).waiting = id :: waiting) :
    ∃ m', w.recorded.Reaches ⟨γ, before ++ t :: after⟩ m' ∧
      m'.shared.2.log = γ.2.log ++ [.taken id] := by
  have htake : (w.slot.get γ.1).take? = some (id, { w.slot.get γ.1 with waiting }) := by
    simp [Pool.take?, hwaiting]
  have hidle : ∀ me, ∃ m', w.recorded.Reaches ⟨γ, before ++ ⟨me, do
      w.workRecorded
      return some w.worker⟩ :: after⟩ m' ∧ m'.shared.2.log = γ.2.log ++ [.taken id] := by
    intro me
    have hstep := stepThread?_awaitNoted w.recorded
      (fun s => (w.slot.get s).take?.map fun r => (r.1, w.slot.set r.2 s))
      (fun me _ id r => r.take me id)
      (fun id => (w.runRecorded id).attempt >>= fun outcome? => w.finishNoted id outcome? >>=
        fun _ =>
        return some w.worker) me γ
    simp only [htake, Option.map_some] at hstep
    have hmove : w.recorded.Reaches ⟨γ, before ++ _ :: after⟩ _ := .single (.thread hstep)
    simp only [workRecorded, takeNoted, bind_assoc]
    exact ⟨_, hmove, rfl⟩
  obtain ⟨me, rest⟩ := t
  generalize hnone : (none : Option JobId) = id? at h
  cases h with
  | done =>
    obtain ⟨m', hreaches, hlog⟩ := hidle me
    have hturn : w.recorded.stepThread? ⟨me, .done (some w.worker)⟩ γ =
        some (some ⟨me, w.recorded.program w.worker⟩, γ) := rfl
    refine ⟨m', .head (.thread hturn) ?_, hlog⟩
    simp only [recorded, dif_pos]
    exact hreaches
  | idle => exact hidle me
  | busy => cases hnone

theorem Staffed.exists_take (hw : w.Lawful) {m : Machine (σ × PoolRecord) ρ}
    (h : w.Staffed m.shared.2.crew (hands m.shared) (w.next m.shared.1) (w.recorded.crew m))
    (hinv : w.Inv n m.shared) {id : JobId} {waiting : List JobId}
    (hwaiting : (w.slot.get m.shared.1).waiting = id :: waiting)
    (hroom : (PoolLog.running m.shared.2.log).length < n) :
    ∃ m', w.recorded.Reaches m m' ∧ m'.shared.2.log = m.shared.2.log ++ [.taken id] := by
  have hstarted : (w.slot.get m.shared.1).started = true := by
    cases hs : (w.slot.get m.shared.1).started with
    | true => rfl
    | false =>
      have hnone := (hinv.tally.unstarted hs).2
      rw [hwaiting] at hnone
      cases hnone
  obtain ⟨me, hme, hhand⟩ := hinv.tally.exists_idle hstarted hroom
  obtain ⟨t, ht, rfl⟩ := h.present me hme
  have hworks := h.works t ht hme
  rw [show hands m.shared t.id = none from hhand] at hworks
  -- Whoever was started has joined by then.
  obtain ⟨before, after, hsplit⟩ := List.append_of_mem ht
  have hadopt : w.recorded.adopt m =
      ⟨((w.life.takeStarted m.shared.1).2, m.shared.2), before ++ t :: after⟩ :=
    congrArg (Machine.mk _) hsplit
  have hwaiting' : (w.slot.get (w.life.takeStarted m.shared.1).2).waiting = id :: waiting := by
    rw [hw.get_adopt]
    exact hwaiting
  obtain ⟨m', hreaches, hlog⟩ := hworks.exists_take
    before after (γ := ((w.life.takeStarted m.shared.1).2, m.shared.2)) hwaiting'
  exact ⟨m', .head (.adopt m) (hadopt ▸ hreaches), hlog⟩

end Mill

end SessionShell
