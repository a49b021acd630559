import SessionShell.Proofs.Batch.Children

/-!
The threads of the services while a batch runs: those of the streams and of the compile jobs.
-/

namespace SessionShell

open Action Shell Batch

namespace BatchSite

variable {b : BatchSite} {t : ThreadId} {γ γ' : Shell × BatchRecord} {s s' : Shell}
  {r : BatchRecord}
  {α : Type}

def ServiceRely (b : BatchSite) (t : ThreadId) (γ γ' : Shell × BatchRecord) : Prop :=
  b.Serves t γ → b.Serves t γ'

theorem stable_serves : Stable (b.ServiceRely t) (b.Serves t) :=
  fun _ _ h hr => hr h

abbrev Attends (b : BatchSite) (t : ThreadId) (p : Action Shell α) (Q : α → Prop) : Prop :=
  Lasts b.observer (b.ServiceRely t) Calm t (b.Serves t) p Q

theorem attends_step (h : b.Serves t (s, r)) (hstill : Still s s') :
    Calm (s, r) (s', b.observer.notes t s s' r) ∧ b.Serves t (s', b.observer.notes t s s' r) :=
  ⟨calm_of_still hstill, serves_of_calm (calm_of_still hstill) h⟩

theorem attends_pure {a : α} {Q : α → Prop} (h : Q a) : b.Attends t (pure a) Q :=
  lasts_pure stable_serves h

theorem attends_of_still {p : Action Shell α} (hp : Within Still p) : b.Attends t p fun _ => True :=
  lasts_of_within stable_serves (fun _ _ _ h hstill => attends_step h hstill) hp

theorem Attends.bind {β : Type} {p : Action Shell α} {f : α → Action Shell β} {Q : α → Prop}
    {R : β → Prop} (hp : b.Attends t p Q) (hf : ∀ a, Q a → b.Attends t (f a) R) :
    b.Attends t (p >>= f) R :=
  Lasts.bind (fun _ h => h) hp hf

theorem attends_listenerOf (job : JobId) :
    b.Attends t (listenerOf job) fun listener => listener.endsSession = false := by
  refine lasts_step stable_serves fun s r h => ?_
  obtain ⟨hcalm, h'⟩ := attends_step h (Still.refl s)
  refine ⟨hcalm, h', ?_⟩
  dsimp only
  cases hjob : s.pool.jobs[job]? with
  | none => rfl
  | some record => exact h.sound.spares record (Array.mem_of_getElem? hjob)

theorem endWith_eq {listener : SessionListener} (h : listener.endsSession = false)
    (code : ReservedCode) : endWith listener code = pure () := by
  simp [endWith, h]

theorem still_hearStatus {listener : SessionListener} (h : listener.endsSession = false)
    (batch : List Progress) : Within Still (hearStatus listener batch) := by
  have hsay : ∀ progress : List Progress,
      Within Still (progress.forM fun p => sayLine listener.session p.text) := fun progress => by
    induction progress with
    | nil => exact within_pure _
    | cons p progress ih => exact Within.bind (chore_sayLine _) fun _ => ih
  have hend : Within Still (do
      if listener.failed && batch.any (·.terminal) then endWith listener Outcome.failed.code) := by
    rw [endWith_eq h]
    split <;> exact within_pure _
  have hrest : Within Still (do
      let settings ← getSettings
      if ← isLive listener.session then
        (batch.filter (isShown settings)).forM fun p => sayLine listener.session p.text
      if listener.failed && batch.any (·.terminal) then endWith listener Outcome.failed.code) := by
    refine Within.bind (chore_read _) fun settings => Within.bind (chore_read _) fun live => ?_
    cases live with
    | true => exact Within.bind (hsay _) fun _ => hend
    | false => exact hend
  unfold hearStatus
  cases listener.monitored with
  | true => exact Within.bind (chore_note (by rfl)) fun _ => hrest
  | false => exact hrest

theorem attends_hear (job : JobId) (event : JobEvent) :
    b.Attends t (hear job event) fun _ => True := by
  cases event with
  | status batch =>
    exact (attends_listenerOf job).bind fun listener hspares =>
      attends_of_still (still_hearStatus hspares batch)
  | fail fault =>
    exact attends_of_still
      (Within.bind (within_update fun _ => chore_modifyJob (by exact fun _ => rfl))
      fun _ => Within.bind (chore_read _) fun listener => chore_reportIfLive listener fault)
  | abort fault =>
    refine (attends_listenerOf job).bind fun listener hspares => ?_
    exact (attends_of_still (chore_reportIfLive listener fault)).bind fun _ _ => by
      rw [endWith_eq hspares]
      exact attends_pure trivial
  | succeed =>
    refine (attends_listenerOf job).bind fun listener hspares => ?_
    rw [endWith_eq hspares]
    exact attends_pure trivial

theorem attends_answer (job : JobId) (call : JobCall) :
    b.Attends t (poolPlace.answer job call) fun _ => True := by
  cases call with
  | now => exact attends_of_still (chore_read _)
  | work call => exact attends_of_still (chore_answerWork job call)
  | notify event => exact attends_hear job event

theorem attends_run (job : JobId) : b.Attends t (poolPlace.run job) fun _ => True := by
  refine Attends.bind (attends_of_still (chore_read _)) fun record? _ => ?_
  cases record? with
  | none => exact attends_pure trivial
  | some record =>
    have hrun : b.Attends t (record.job.run.expand (poolPlace.answer job)) fun _ => True :=
      lasts_expand stable_serves (fun _ h => h) (Program.asks_anything _) fun call _ =>
        attends_answer job call
    exact hrun.bind fun result _ =>
      (attends_of_still (chore_poolModifyJob (by exact fun _ => rfl))).bind
      fun _ _ => attends_pure trivial

theorem attends_work : b.Attends t poolPlace.work fun _ => True := by
  have htake : Within Still (await fun s : Shell =>
      (poolPlace.get s).take?.map fun (id, p) => (id, poolPlace.set p s)) := by
    refine within_await fun s a s' hs => ?_
    obtain ⟨⟨job, pool⟩, htaken, heq⟩ := Option.map_eq_some_iff.mp hs
    cases heq
    have hjobs : pool.jobs = s.pool.jobs := by
      simp only [Pool.take?] at htaken
      split at htaken
      · cases htaken
      · cases htaken
        rfl
    refine .of_jobs rfl fun hspares => ?_
    change ∀ x ∈ pool.jobs, _
    rw [hjobs]
    exact hspares
  refine Attends.bind (attends_of_still htake) fun job _ => ?_
  refine Attends.bind (Lasts.attempt (attends_run job)) fun outcome? _ => ?_
  exact attends_of_still (chore_poolModifyJob (by exact fun _ => rfl))

def ServiceReady (b : BatchSite) (t : ThreadId) (id : ThreadId) (role : Role)
    (γ : Shell × BatchRecord) : Prop :=
  id = t ∧ role.IsService ∧ b.Serves t γ

theorem safe_service {id : ThreadId} {role : Role} (h : b.ServiceReady t id role γ) :
    Safe (b.ServiceRely t) Calm id
      (fun fate γ => ∀ role, fate = .returned (some role) → b.ServiceReady t id role γ)
      (b.recorded.program role) γ := by
  obtain ⟨rfl, hrole, h⟩ := h
  have hnext : b.Attends id (program role) fun role? => ∀ role, role? = some role →
      role.IsService := by
    cases role with
    | stream name =>
      exact (attends_of_still (chore_consoleWork name)).bind fun _ _ =>
        attends_pure fun _ h => by cases h; trivial
    | compiler => exact attends_work.bind fun _ _ => attends_pure fun _ h => by cases h; trivial
    | session => exact hrole.elim
  have hprogram : b.recorded.program role = b.observe (program role) := by
    cases role with
    | session => exact hrole.elim
    | _ => rfl
  rw [hprogram]
  exact (hnext.upholds γ h).mono fun fate γ' hfate role hreturned =>
    ⟨rfl, hfate.2 _ hreturned role rfl, hfate.1⟩

end BatchSite

end SessionShell
