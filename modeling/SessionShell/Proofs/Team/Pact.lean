import SessionShell.Proofs.Action.Crowd
import SessionShell.Interleaving

/-!
What holds on every course of a machine whose threads keep a pact.

Every thread is a member of some kind. Of each kind it is said what its members rely on, what they
guarantee, what holds from the time when they join, and what holds where they begin one of their
roles. A roster lists all members there ever were, those that are through without their thread.
Members of kinds that do not go together are never on one roster.
-/

namespace SessionShell

open Action

structure Pact (σ ρ κ : Type) where
  rely : κ → σ → σ → Prop
  guar : κ → σ → σ → Prop
  here : κ → σ → Prop
  ready : κ → ThreadId → ρ → σ → Prop
  gone : κ → σ → Prop

namespace Pact

variable {σ ρ κ : Type} {P : Pact σ ρ κ} {life : Life σ ρ} {k k' : κ} {s s' : σ} {id : ThreadId}
  {t t' : Thread σ ρ}

def Fate (P : Pact σ ρ κ) (k : κ) (id : ThreadId) : Action.Fate (Option ρ) → σ → Prop
  | .returned (some role), s => P.ready k id role s
  | .returned none, s => P.gone k s
  | .crashed, s => P.gone k s
  | .halted, _ => True

def Suits (P : Pact σ ρ κ) (k k' : κ) : Prop :=
  (∀ s s', P.guar k s s' → P.rely k' s s') ∧ ∀ s s', P.guar k' s s' → P.rely k s s'

def Joins (P : Pact σ ρ κ) (life : Life σ ρ) (s s' : σ) : Prop :=
  ∃ news : List (κ × ThreadId × ρ), life.pending s' = life.pending s ++ news.map Prod.snd ∧
    (∀ k id role, (k, id, role) ∈ news → P.here k s' ∧ P.ready k id role s' ∧
      ∀ other, P.here other s → P.Suits other k) ∧
    (news.map Prod.fst).Pairwise P.Suits

theorem joins_nobody (h : life.pending s' = life.pending s) : P.Joins life s s' :=
  ⟨[], by simp [h], by simp, .nil⟩

theorem joins_one {role : ρ} (h : life.pending s' = life.pending s ++ [(id, role)])
    (hhere : P.here k s') (hready : P.ready k id role s')
    (hsuits : ∀ other, P.here other s → P.Suits other k) : P.Joins life s s' := by
  refine ⟨[(k, id, role)], h, fun k' id' role' hin => ?_, by simp⟩
  cases List.mem_singleton.mp hin
  exact ⟨hhere, hready, hsuits⟩

theorem joins_all {news : List (ThreadId × ρ)} (h : life.pending s' = life.pending s ++ news)
    (hhere : P.here k s') (hready : ∀ joined ∈ news, P.ready k joined.1 joined.2 s')
    (hsuits : ∀ other, P.here other s → P.Suits other k) (hself : P.Suits k k) :
    P.Joins life s s' := by
  refine ⟨news.map fun joined => (k, joined), by simp [h, Function.comp_def],
    fun k' id role hin => ?_, ?_⟩
  · obtain ⟨joined, hjoined, heq⟩ := List.mem_map.mp hin
    cases heq
    exact ⟨hhere, hready _ hjoined, hsuits⟩
  · simp [List.pairwise_map, List.pairwise_of_forall, hself]

structure Kept (P : Pact σ ρ κ) (life : Life σ ρ) (env : σ → σ → Prop) : Prop where
  refl : ∀ k s, P.rely k s s
  trans : ∀ k s s' s'', P.rely k s s' → P.rely k s' s'' → P.rely k s s''
  here_rely : ∀ k, Stable (P.rely k) (P.here k)
  here_guar : ∀ k, Stable (P.guar k) (P.here k)
  gone : ∀ k, Stable (P.rely k) (P.gone k)
  joins : ∀ k s s', P.here k s → P.guar k s s' → P.Joins life s s'
  role : ∀ k id role s, P.here k s → P.ready k id role s →
    Safe (P.rely k) (P.guar k) id (P.Fate k id) (life.program role) s
  adopts : ∀ k s, P.rely k s (life.takeStarted s).2
  adopted : ∀ s, life.pending (life.takeStarted s).2 = []
  passes : ∀ k s s', env s s' → P.rely k s s'
  passed : ∀ s s', env s s' → life.pending s' = life.pending s

inductive Member (P : Pact σ ρ κ) (s : σ) (k : κ) : Option (Thread σ ρ) → Prop where
  | present {t : Thread σ ρ} (hhere : P.here k s)
      (h : Safe (P.rely k) (P.guar k) t.id (P.Fate k t.id) t.rest s) : Member P s k (some t)
  | gone (hhere : P.here k s) (h : P.gone k s) : Member P s k none

theorem Member.here {t? : Option (Thread σ ρ)} (h : P.Member s k t?) : P.here k s := by
  cases h with
  | present hhere _ => exact hhere
  | gone hhere _ => exact hhere

theorem Member.of_rely {env : σ → σ → Prop} (hP : P.Kept life env) {t? : Option (Thread σ ρ)}
    (h : P.Member s k t?) (hr : P.rely k s s') : P.Member s' k t? := by
  cases h with
  | present hhere hsafe =>
    exact .present (hP.here_rely k s s' hhere hr) (hsafe.of_rely (hP.trans k) hr)
  | gone hhere hgone => exact .gone (hP.here_rely k s s' hhere hr) (hP.gone k s s' hgone hr)

/-- All members that the machine has had, in the order in which they joined. -/
structure Manned (P : Pact σ ρ κ) (life : Life σ ρ) (m : Machine σ ρ)
    (roster : List (κ × Option (Thread σ ρ))) : Prop where
  members : ∀ k t?, (k, t?) ∈ roster → P.Member m.shared k t?
  suits : (roster.map Prod.fst).Pairwise P.Suits
  crew : roster.filterMap Prod.snd = life.crew m

theorem Member.step {env : σ → σ → Prop} (hP : P.Kept life env) {t? : Option (Thread σ ρ)}
    (h : P.Member s k (some t)) (hstep : life.stepThread? t s = some (t?, s')) :
    (P.guar k s s' ∨ s' = s) ∧ P.Member s' k t? := by
  obtain ⟨id, rest⟩ := t
  cases h with
  | present hhere hsafe =>
    cases rest with
    | done role? =>
      have hfate := hsafe s (hP.refl k s)
      cases role? with
      | none =>
        cases hstep
        exact ⟨.inr rfl, .gone hhere hfate⟩
      | some role =>
        cases hstep
        exact ⟨.inr rfl, .present hhere (hP.role k id role s hhere hfate)⟩
    | crash =>
      cases hstep
      exact ⟨.inr rfl, .gone hhere (hsafe s (hP.refl k s))⟩
    | ask act next =>
      obtain ⟨⟨answer, s₁⟩, hact, heq⟩ := Option.map_eq_some_iff.mp hstep
      cases heq
      obtain ⟨hguar, hnext⟩ := hsafe s answer s' (hP.refl k s) hact
      exact ⟨.inl hguar, .present (hP.here_guar k s s' hhere hguar) hnext⟩

inductive Deed (P : Pact σ ρ κ) (life : Life σ ρ) (env : σ → σ → Prop) (s : σ) : σ → Prop where
  | nothing : Deed P life env s s
  | step {k : κ} {s' : σ} (hhere : P.here k s) (h : P.guar k s s') : Deed P life env s s'
  | adopt : Deed P life env s (life.takeStarted s).2
  | env {s' : σ} (h : env s s') : Deed P life env s s'

variable {allowed : ThreadId → σ → σ → Prop} {env : σ → σ → Prop} {m m' : Machine σ ρ}
  {roster roster' : List (κ × Option (Thread σ ρ))}

theorem Manned.of_rely (hP : P.Kept life env) (h : P.Manned life m roster)
    (hrely : ∀ k, P.rely k m.shared m'.shared) (hcrew : life.crew m' = life.crew m) :
    P.Manned life m' roster :=
  ⟨fun k t? hk => (h.members k t? hk).of_rely hP (hrely k), h.suits, h.crew.trans hcrew.symm⟩

theorem crew_adopt (hP : P.Kept life env) (m : Machine σ ρ) :
    life.crew (life.adopt m) = life.crew m := by
  simp only [Life.crew, Life.adopt, hP.adopted, List.map_nil, List.append_nil]
  rfl

theorem exists_member {t : Thread σ ρ} {before after : List (Thread σ ρ)}
    (h : roster.filterMap Prod.snd = before ++ t :: after) :
    ∃ first k last, roster = first ++ (k, some t) :: last ∧
      first.filterMap Prod.snd = before ∧ last.filterMap Prod.snd = after := by
  obtain ⟨first, rest, rfl, hfirst, hrest⟩ := List.filterMap_eq_append_iff.mp h
  obtain ⟨skipped, ⟨k, t?⟩, last, rfl, hskipped, ht, hlast⟩ := List.filterMap_eq_cons_iff.mp hrest
  cases ht
  refine ⟨first ++ skipped, k, last, by simp, ?_, hlast⟩
  rw [List.filterMap_append, hfirst, List.filterMap_eq_nil_iff.mpr hskipped, List.append_nil]

def joined (life : Life σ ρ) (news : List (κ × ThreadId × ρ)) : List (κ × Option (Thread σ ρ)) :=
  news.map fun x => (x.1, some ⟨x.2.1, life.program x.2.2⟩)

/-- A step of a thread: what has become of its member, and who has joined. -/
structure Stepped (P : Pact σ ρ κ) (life : Life σ ρ) (s s' : σ) (before after : List (Thread σ ρ))
    (t : Thread σ ρ) (t? : Option (Thread σ ρ)) (roster : List (κ × Option (Thread σ ρ)))
    (first : List (κ × Option (Thread σ ρ))) (k : κ) (last : List (κ × Option (Thread σ ρ)))
    (news : List (κ × ThreadId × ρ)) : Prop where
  roster : roster = first ++ (k, some t) :: last
  guar : P.guar k s s' ∨ s' = s
  here : P.here k s
  pending : life.pending s' = life.pending s ++ news.map Prod.snd
  newcomers : ∀ k id role, (k, id, role) ∈ news → P.here k s' ∧ P.ready k id role s'
  manned : P.Manned life ⟨s', before ++ (t?.toList ++ after)⟩
    (first ++ (k, t?) :: last ++ joined life news)

theorem Manned.step (hP : P.Kept life env) {before after : List (Thread σ ρ)}
    {t? : Option (Thread σ ρ)} (h : P.Manned life ⟨s, before ++ t :: after⟩ roster)
    (hstep : life.stepThread? t s = some (t?, s')) :
    ∃ first k last news, P.Stepped life s s' before after t t? roster first k last news := by
  have hcrew : roster.filterMap Prod.snd = before ++ t :: (after ++ (life.pending s).map
      fun x => ⟨x.1, life.program x.2⟩) := by
    simpa [Life.crew] using h.crew
  obtain ⟨first, k, last, rfl, hfirst, hlast⟩ := exists_member hcrew
  have hmember : P.Member s k (some t) := h.members k _ (by simp)
  obtain ⟨hdone, hmember'⟩ := hmember.step hP hstep
  have hsuits := h.suits
  simp only [List.map_append, List.map_cons, List.pairwise_append, List.pairwise_cons] at hsuits
  have hothers : ∀ k' t', (k', t') ∈ first ++ last → P.rely k' s s' := by
    intro k' t' hk'
    rcases hdone with hguar | rfl
    · rcases List.mem_append.mp hk' with hin | hin
      · exact (hsuits.2.2 k' (List.mem_map_of_mem hin) k List.mem_cons_self).2 s s' hguar
      · exact (hsuits.2.1.1 k' (List.mem_map_of_mem hin)).1 s s' hguar
    · exact hP.refl k' s'
  have hjoins : P.Joins life s s' := by
    rcases hdone with hguar | rfl
    · exact hP.joins k s s' hmember.here hguar
    · exact joins_nobody rfl
  have hmembers : ∀ k' t', (k', t') ∈ first ++ (k, t?) :: last → P.Member s' k' t' := by
    intro k' t' hk'
    simp only [List.mem_append, List.mem_cons] at hk'
    rcases hk' with hin | heq | hin
    · exact (h.members k' t' (by simp [hin])).of_rely hP (hothers k' t' (by simp [hin]))
    · cases heq
      exact hmember'
    · exact (h.members k' t' (by simp [hin])).of_rely hP (hothers k' t' (by simp [hin]))
  have hhere : ∀ k' t', (k', t') ∈ first ++ (k, t?) :: last → P.here k' s := by
    intro k' t' hk'
    simp only [List.mem_append, List.mem_cons] at hk'
    rcases hk' with hin | heq | hin
    · exact (h.members k' t' (by simp [hin])).here
    · cases heq
      exact hmember.here
    · exact (h.members k' t' (by simp [hin])).here
  have hcrew' : (first ++ (k, t?) :: last).filterMap Prod.snd = before ++ (t?.toList ++ (after ++
      (life.pending s).map fun x => ⟨x.1, life.program x.2⟩)) := by
    rw [List.filterMap_append, hfirst, ← hlast]
    cases t? <;> rfl
  obtain ⟨news, hpending, hnews, hpairs⟩ := hjoins
  have hkinds : (joined life news).map Prod.fst = news.map Prod.fst := by
    simp [joined, Function.comp_def]
  refine ⟨first, k, last, news, rfl, hdone, hmember.here, hpending,
    fun k' id role hin => ⟨(hnews k' id role hin).1, (hnews k' id role hin).2.1⟩, ?_, ?_, ?_⟩
  · intro k' t' hk'
    rcases List.mem_append.mp hk' with hin | hin
    · exact hmembers k' t' hin
    · obtain ⟨⟨new, id, role⟩, hnew, heq⟩ := List.mem_map.mp hin
      obtain ⟨rfl, rfl⟩ := Prod.mk.inj heq
      obtain ⟨hthere, hready, -⟩ := hnews _ id role hnew
      exact .present hthere (hP.role _ id role s' hthere hready)
  · rw [List.map_append, List.pairwise_append, hkinds]
    refine ⟨by simpa using h.suits, hpairs, fun k' hk' k'' hk'' => ?_⟩
    obtain ⟨⟨new, id, role⟩, hnew, rfl⟩ := List.mem_map.mp hk''
    obtain ⟨⟨k', t'⟩, hin, rfl⟩ := List.mem_map.mp hk'
    exact (hnews new id role hnew).2.2 k' (hhere k' t' hin)
  · rw [List.filterMap_append, hcrew']
    simp [Life.crew, hpending, joined, List.filterMap_map, Function.comp_def]

theorem Manned.thread (hP : P.Kept life env) {before after : List (Thread σ ρ)}
    {t? : Option (Thread σ ρ)} (h : P.Manned life ⟨s, before ++ t :: after⟩ roster)
    (hstep : life.stepThread? t s = some (t?, s')) :
    P.Deed life env s s' ∧ ∃ roster', P.Manned life ⟨s', before ++ (t?.toList ++ after)⟩ roster' ∧
      roster.map Prod.fst <+: roster'.map Prod.fst := by
  obtain ⟨first, k, last, news, hs⟩ := h.step hP hstep
  refine ⟨?_, _, hs.manned, by simp [hs.roster]⟩
  rcases hs.guar with hguar | rfl
  · exact .step hs.here hguar
  · exact .nothing

/-- On a course of a machine whose threads keep a pact, they keep it to the end. Members only join,
and nothing happens but what they guarantee and the surroundings do. -/
theorem manned_of_course {T : σ → σ → Prop} (hP : P.Kept life env) (hT : ∀ s, T s s)
    (htrans : ∀ s s' s'', T s s' → T s' s'' → T s s'')
    (hdeed : ∀ s s', P.Deed life env s s' → T s s')
    (h : life.Course allowed env m m') (hm : P.Manned life m roster) :
    T m.shared m'.shared ∧
      ∃ roster', P.Manned life m' roster' ∧ roster.map Prod.fst <+: roster'.map Prod.fst := by
  induction h with
  | refl => exact ⟨hT _, roster, hm, List.prefix_rfl⟩
  | tail _ hmove ih =>
    obtain ⟨hpast, roster', hm', hgrown⟩ := ih
    cases hmove with
    | thread hstep _ =>
      obtain ⟨hd, roster'', hm'', hmore⟩ := hm'.thread hP hstep
      exact ⟨htrans _ _ _ hpast (hdeed _ _ hd), roster'', hm'', hgrown.trans hmore⟩
    | adopt =>
      refine ⟨htrans _ _ _ hpast (hdeed _ _ .adopt), roster', ?_, hgrown⟩
      exact hm'.of_rely hP (fun k => hP.adopts k _) (crew_adopt hP _)
    | env he =>
      refine ⟨htrans _ _ _ hpast (hdeed _ _ (.env he)), roster', ?_, hgrown⟩
      refine hm'.of_rely hP (fun k => hP.passes k _ _ he) ?_
      simp [Life.crew, hP.passed _ _ he]

end Pact

end SessionShell
