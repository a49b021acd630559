import Mathlib.Data.List.Forall2
import SessionShell.Proofs.Action.Crowd
import SessionShell.Proofs.Action.Noted
import SessionShell.Interleaving

/-!
Machines that keep a record beside their state.

The record is read by nobody, so whatever a machine can do, it can do with a record. The steps that
are noted can be restricted to those that are allowed: then this is so for every course on which
only such steps are taken. The other way round, a machine with a record does nothing that it could
not do without.
-/

namespace SessionShell

namespace Action

variable {σ ν α β ε : Type} {allowed : ThreadId → σ → σ → Prop}

/-- Without its notes, the one action is the other, as long as only what is allowed is done. -/
inductive Follows (allowed : ThreadId → σ → σ → Prop) : Action (σ × ν) α → Action σ α → Prop where
  | done (a : α) : Follows allowed (.done a) (.done a)
  | crash : Follows allowed .crash .crash
  | ask {act : Act σ} {run : ThreadId → σ × ν → Option (act.Answer × (σ × ν))}
      {next' : act.Answer → Action (σ × ν) α} {next : act.Answer → Action σ α}
      (hrun : ∀ me s r answer s', act.run me s = some (answer, s') → allowed me s s' →
        ∃ r', run me (s, r) = some (answer, (s', r')))
      (hback : ∀ me γ answer γ', run me γ = some (answer, γ') →
        act.run me γ.1 = some (answer, γ'.1))
      (h : ∀ answer, Follows allowed (next' answer) (next answer)) :
      Follows allowed (.ask ⟨act.Answer, run⟩ next') (.ask act next)
  | note {f : ν → ν} {next : Unit → Action (σ × ν) α} {p : Action σ α}
      (h : Follows allowed (next ()) p) : Follows allowed (record f >>= next) p

theorem Erases.follows {p' : Action (σ × ν) α} {p : Action σ α} (h : Erases p' p) :
    Follows allowed p' p := by
  induction h with
  | done a => exact .done a
  | crash => exact .crash
  | @ask act notes next' next _ ih =>
    refine .ask (fun me s r answer s' hact _ => ?_) (fun me γ answer γ' hrun => ?_) ih
    · simp [hact]
    · obtain ⟨⟨answer', s'⟩, hact, heq⟩ := Option.map_eq_some_iff.mp hrun
      cases heq
      exact hact
  | note _ ih => exact .note ih

theorem Follows.mono {allowed' : ThreadId → σ → σ → Prop} {p' : Action (σ × ν) α} {p : Action σ α}
    (h : Follows allowed p' p) (hallowed : ∀ me s s', allowed' me s s' → allowed me s s') :
    Follows allowed' p' p := by
  induction h with
  | done a => exact .done a
  | crash => exact .crash
  | ask hrun hback _ ih =>
    exact .ask (fun me s r answer s' hact ha => hrun me s r answer s' hact (hallowed me s s' ha))
      hback ih
  | note _ ih => exact .note ih

theorem Follows.bind {p' : Action (σ × ν) α} {p : Action σ α} {f' : α → Action (σ × ν) β}
    {f : α → Action σ β} (hp : Follows allowed p' p) (hf : ∀ a, Follows allowed (f' a) (f a)) :
    Follows allowed (p' >>= f') (p >>= f) := by
  induction hp with
  | done a => exact hf a
  | crash => exact .crash
  | ask hrun hback _ ih => exact .ask hrun hback ih
  | note _ ih => exact .note ih

end Action

namespace Life

open Action

variable {σ ν ρ : Type} {allowed : ThreadId → σ → σ → Prop} {env : σ → σ → Prop}

/-- Without the record, the threads of the one life do what those of the other do. -/
structure Follows (life' : Life (σ × ν) ρ) (life : Life σ ρ)
    (allowed : ThreadId → σ → σ → Prop) : Prop where
  program : ∀ role, Action.Follows allowed (life'.program role) (life.program role)
  takeStarted : ∀ s r,
    life'.takeStarted (s, r) = ((life.takeStarted s).1, ((life.takeStarted s).2, r))

def beside (env : σ → σ → Prop) (s s' : σ × ν) : Prop :=
  env s.1 s'.1 ∧ s'.2 = s.2

def ThreadFollows (allowed : ThreadId → σ → σ → Prop) (t' : Thread (σ × ν) ρ) (t : Thread σ ρ) :
    Prop :=
  t'.id = t.id ∧ Action.Follows allowed t'.rest t.rest

/-- Without its record, the one machine is the other. -/
structure Keeps (allowed : ThreadId → σ → σ → Prop) (m' : Machine (σ × ν) ρ) (m : Machine σ ρ) :
    Prop where
  shared : m'.shared.1 = m.shared
  threads : List.Forall₂ (ThreadFollows allowed) m'.threads m.threads

variable {life' : Life (σ × ν) ρ} {life : Life σ ρ}

theorem forall₂_programs (hlife : life'.Follows life allowed) (crew : List (ThreadId × ρ)) :
    List.Forall₂ (ThreadFollows allowed)
      (crew.map fun joined => ⟨joined.1, life'.program joined.2⟩)
      (crew.map fun joined => ⟨joined.1, life.program joined.2⟩) := by
  rw [List.forall₂_map_left_iff, List.forall₂_map_right_iff]
  exact List.forall₂_same.mpr fun joined _ => ⟨rfl, hlife.program joined.2⟩

theorem keeps_machine (hlife : life'.Follows life allowed) (s : σ) (r : ν)
    (crew : List (ThreadId × ρ)) :
    Keeps allowed (life'.machine (s, r) crew) (life.machine s crew) :=
  ⟨rfl, forall₂_programs hlife crew⟩

theorem Keeps.adopt (hlife : life'.Follows life allowed) {m' : Machine (σ × ν) ρ} {m : Machine σ ρ}
    (h : Keeps allowed m' m) : Keeps allowed (life'.adopt m') (life.adopt m) := by
  obtain ⟨⟨s, r⟩, threads'⟩ := m'
  obtain ⟨hshared, hthreads⟩ := h
  dsimp only at hshared hthreads
  subst hshared
  constructor
  · simp [Life.adopt, hlife.takeStarted]
  · simp only [Life.adopt, hlife.takeStarted]
    exact List.rel_append hthreads (forall₂_programs hlife _)

theorem exists_step (hlife : life'.Follows life allowed) {before after : List (Thread (σ × ν) ρ)}
    {t : Thread σ ρ} {t? : Option (Thread σ ρ)} {t' : Thread (σ × ν) ρ} {s s' : σ} {r : ν}
    (ht : ThreadFollows allowed t' t) (hstep : life.stepThread? t s = some (t?, s'))
    (ha : allowed t.id s s') :
    ∃ r' t'?, life'.Course (fun _ _ _ => True) (beside env) ⟨(s, r), before ++ t' :: after⟩
        ⟨(s', r'), before ++ (t'?.toList ++ after)⟩ ∧
          Option.Rel (ThreadFollows allowed) t'? t? := by
  obtain ⟨id, p⟩ := t
  obtain ⟨id', p'⟩ := t'
  obtain ⟨hid, hp⟩ := ht
  dsimp only at hid hp
  subst hid
  induction hp generalizing r with
  | done role? =>
    cases role? with
    | none =>
      cases hstep
      exact ⟨r, none, .single (.thread rfl trivial), .none⟩
    | some role =>
      cases hstep
      exact ⟨r, some ⟨id', life'.program role⟩, .single (.thread rfl trivial),
        .some ⟨rfl, hlife.program role⟩⟩
  | crash =>
    cases hstep
    exact ⟨r, none, .single (.thread rfl trivial), .none⟩
  | @ask act run next' next hrun _ hnext _ =>
    obtain ⟨⟨answer, s₁⟩, hact, heq⟩ := Option.map_eq_some_iff.mp hstep
    cases heq
    obtain ⟨r', hr'⟩ := hrun id' s r answer s' hact ha
    refine ⟨r', some ⟨id', next' answer⟩, .single (.thread ?_ trivial), .some ⟨rfl, hnext answer⟩⟩
    simp [stepThread?, hr']
  | @note f next p _ ih =>
    obtain ⟨r', t'?, hcourse, hrel⟩ := ih (r := f r) hstep ha
    have hnote : life'.stepThread? ⟨id', record f >>= next⟩ (s, r) =
        some (some ⟨id', next ()⟩, (s, f r)) := rfl
    exact ⟨r', t'?, (Course.single (.thread hnote trivial)).trans hcourse, hrel⟩

theorem exists_kept (hlife : life'.Follows life allowed) {m₀ m : Machine σ ρ}
    {m₀' : Machine (σ × ν) ρ} (h : life.Course allowed env m₀ m) (h₀ : Keeps allowed m₀' m₀) :
    ∃ m', life'.Course (fun _ _ _ => True) (beside env) m₀' m' ∧ Keeps allowed m' m := by
  induction h with
  | refl => exact ⟨m₀', .refl, h₀⟩
  | tail _ hmove ih =>
    obtain ⟨⟨⟨s', r⟩, threads'⟩, hcourse, hshared, hthreads⟩ := ih
    dsimp only at hshared hthreads
    cases hmove with
    | @thread before after t t? s s₁ hstep ha =>
      cases hshared
      have hbefore := List.forall₂_take_append _ _ _ hthreads
      obtain ⟨t', after', ht, hafter, hsplit⟩ :=
        List.forall₂_cons_right_iff.mp (List.forall₂_drop_append _ _ _ hthreads)
      rw [← List.take_append_drop before.length threads', hsplit] at hcourse
      obtain ⟨r', t'?, hmore, hrel⟩ := exists_step hlife ht hstep ha
      refine ⟨_, hcourse.trans hmore, rfl, List.rel_append hbefore (List.rel_append ?_ hafter)⟩
      cases hrel with
      | none => exact .nil
      | some h => exact .cons h .nil
    | adopt => exact ⟨_, hcourse.tail (.adopt _), Keeps.adopt hlife ⟨hshared, hthreads⟩⟩
    | @env _ s he =>
      cases hshared
      exact ⟨⟨(s, r), threads'⟩, hcourse.tail (.env ⟨he, rfl⟩), rfl, hthreads⟩

theorem exists_plain_step (hlife : life'.Follows life allowed) {t' : Thread (σ × ν) ρ}
    {t'? : Option (Thread (σ × ν) ρ)} {t : Thread σ ρ} {γ γ' : σ × ν}
    (ht : ThreadFollows allowed t' t) (hstep : life'.stepThread? t' γ = some (t'?, γ')) :
    (∃ t?, life.stepThread? t γ.1 = some (t?, γ'.1) ∧
      Option.Rel (ThreadFollows allowed) t'? t?) ∨
    γ'.1 = γ.1 ∧ Option.Rel (ThreadFollows allowed) t'? (some t) := by
  obtain ⟨id, p⟩ := t
  obtain ⟨id', p'⟩ := t'
  obtain ⟨hid, hp⟩ := ht
  dsimp only at hid hp
  subst hid
  cases hp with
  | done role? =>
    cases role? with
    | none =>
      cases hstep
      exact .inl ⟨none, rfl, .none⟩
    | some role =>
      cases hstep
      exact .inl ⟨_, rfl, .some ⟨rfl, hlife.program role⟩⟩
  | crash =>
    cases hstep
    exact .inl ⟨none, rfl, .none⟩
  | @ask act run next' next hrun hback hnext =>
    obtain ⟨⟨answer, γ₁⟩, hact, heq⟩ := Option.map_eq_some_iff.mp hstep
    cases heq
    refine .inl ⟨some ⟨id', next answer⟩, ?_, .some ⟨rfl, hnext answer⟩⟩
    have hplain : act.run id' γ.1 = some (answer, γ'.1) := hback id' γ answer γ' hact
    simp only [stepThread?, hplain]
    rfl
  | note h =>
    cases hstep
    exact .inr ⟨rfl, .some ⟨rfl, h⟩⟩

theorem Keeps.reaches (hlife : life'.Follows life allowed) {m₀' m' : Machine (σ × ν) ρ}
    {m₀ : Machine σ ρ} (h : life'.Reaches m₀' m') (h₀ : Keeps allowed m₀' m₀) :
    ∃ m, life.Reaches m₀ m ∧ Keeps allowed m' m := by
  induction h generalizing m₀ with
  | refl => exact ⟨m₀, .refl _, h₀⟩
  | head hstep _ ih =>
    suffices h : ∃ m₁, life.Reaches m₀ m₁ ∧ Keeps allowed _ m₁ by
      obtain ⟨m₁, hreaches, h₁⟩ := h
      obtain ⟨m, hmore, hm⟩ := ih h₁
      exact ⟨m, hreaches.trans hmore, hm⟩
    cases hstep with
    | @thread before after t' t'? γ γ' hstep =>
      obtain ⟨s, threads⟩ := m₀
      obtain ⟨hshared, hthreads⟩ := h₀
      dsimp only at hshared hthreads
      subst hshared
      have hbefore := (List.forall₂_take_append _ _ _ hthreads.flip).flip
      obtain ⟨t, after₁, ht, hafter, hsplit⟩ :=
        List.forall₂_cons_left_iff.mp (List.forall₂_drop_append _ _ _ hthreads.flip).flip
      rw [← List.take_append_drop before.length threads, hsplit]
      generalize List.take before.length threads = before₁ at hbefore
      have hall : ∀ t?, Option.Rel (ThreadFollows allowed) t'? t? →
          List.Forall₂ (ThreadFollows allowed) (before ++ (t'?.toList ++ after))
            (before₁ ++ (t?.toList ++ after₁)) := by
        intro t? hrel
        refine List.rel_append hbefore (List.rel_append ?_ hafter)
        cases hrel with
        | none => exact .nil
        | some h => exact .cons h .nil
      rcases exists_plain_step hlife ht hstep with ⟨t?, hplain, hrel⟩ | ⟨hsame, hrel⟩
      · exact ⟨_, .single (.thread hplain), rfl, hall t? hrel⟩
      · exact ⟨⟨γ.1, before₁ ++ t :: after₁⟩, .refl _, hsame, hall _ hrel⟩
    | adopt => exact ⟨_, .single (.adopt _), h₀.adopt hlife⟩

end Life

end SessionShell

/-!
Steps that are noted with the number of the thread that takes them, and crashes that are noted where
they happen.
-/

namespace SessionShell

namespace Action

variable {σ ν α β : Type} {allowed : ThreadId → σ → σ → Prop}

theorem follows_silent (p : Action σ α) : Follows allowed (silent p : Action (σ × ν) α) p :=
  (erases_silent p).follows

theorem Follows.attempt {p' : Action (σ × ν) α} {p : Action σ α} (h : Follows allowed p' p) :
    Follows allowed (Program.attempt p') (Program.attempt p) := by
  induction h with
  | done a => exact .done (some a)
  | crash => exact .done none
  | ask hrun hback _ ih => exact .ask hrun hback ih
  | note _ ih => exact .note ih

theorem follows_expand {Call : Type _} {Reply : Call → Type} (p : Program Call Reply α)
    {f' : (call : Call) → Action (σ × ν) (Reply call)} {f : (call : Call) → Action σ (Reply call)}
    (h : ∀ call, Follows allowed (f' call) (f call)) :
    Follows allowed (p.expand f') (p.expand f) := by
  induction p with
  | done a => exact .done a
  | crash => exact .crash
  | ask call next ih => exact (h call).bind ih

def awaitNoted (f : σ → Option (α × σ)) (notes : ThreadId → σ → α → ν → ν) : Action (σ × ν) α :=
  Program.call
    (⟨α, fun me γ => (f γ.1).map fun r => (r.1, r.2, notes me γ.1 r.1 γ.2)⟩ : Act (σ × ν))

def stepNoted (f : σ → α × σ) (notes : ThreadId → σ → α → ν → ν) : Action (σ × ν) α :=
  awaitNoted (fun s => some (f s)) notes

theorem follows_awaitNoted (f : σ → Option (α × σ)) (notes : ThreadId → σ → α → ν → ν) :
    Follows allowed (awaitNoted f notes) (await f) := by
  have hrun : ∀ (me : ThreadId) s r a s', f s = some (a, s') → allowed me s s' →
      ∃ r', (f s).map (fun x => (x.1, x.2, notes me s x.1 r)) = some (a, (s', r')) := by
    intro me s r a s' hact _
    exact ⟨notes me s a r, by rw [hact]; rfl⟩
  have hback : ∀ (me : ThreadId) (γ : σ × ν) (a : α) (γ' : σ × ν),
      (f γ.1).map (fun x => (x.1, x.2, notes me γ.1 x.1 γ.2)) = some (a, γ') →
        f γ.1 = some (a, γ'.1) := by
    intro me γ a γ' hmap
    obtain ⟨⟨a', s'⟩, hact, heq⟩ := Option.map_eq_some_iff.mp hmap
    cases heq
    exact hact
  exact @Follows.ask _ _ _ _ (⟨α, fun _ s => f s⟩ : Act σ) _ _ _ hrun hback fun a => .done a

theorem follows_stepNoted (f : σ → α × σ) (notes : ThreadId → σ → α → ν → ν) :
    Follows allowed (stepNoted f notes) (step f) :=
  follows_awaitNoted _ _

theorem Safe.returns {rely guar : σ → σ → Prop} {me : ThreadId} {P : σ → Prop} {p : Action σ α}
    {s : σ} (h : Safe rely guar me (fun _ => P) p s) (hcrash : NeverCrashes p) :
    Safe rely guar me (Fate.Returns fun _ => P) p s := by
  induction p generalizing s with
  | done a => exact h
  | crash => exact hcrash.elim
  | ask act next ih =>
    intro s' answer s'' hr hact
    obtain ⟨hguar, hnext⟩ := h s' answer s'' hr hact
    exact ⟨hguar, ih answer hnext (hcrash answer)⟩

theorem upholds_awaitNoted {rely guar : σ × ν → σ × ν → Prop} {me : ThreadId} {P : σ × ν → Prop}
    {R : α → σ × ν → Prop} {f : σ → Option (α × σ)} {notes : ThreadId → σ → α → ν → ν}
    (hP : Stable rely P) (hR : ∀ a, Stable rely (R a)) (h : ∀ γ a s, P γ → f γ.1 = some (a, s) →
      guar γ (s, notes me γ.1 a γ.2) ∧ R a (s, notes me γ.1 a γ.2)) :
    Upholds rely guar me P (awaitNoted f notes) (Fate.Returns R) := by
  intro γ hγ γ₁ answer γ₂ hr hrun
  obtain ⟨⟨a, s⟩, hf, heq⟩ := Option.map_eq_some_iff.mp hrun
  cases heq
  obtain ⟨hguar, ha⟩ := h γ₁ a s (hP γ γ₁ hγ hr) hf
  exact ⟨hguar, fun γ₃ hr' => hR a _ γ₃ ha hr'⟩

theorem upholds_stepNoted {rely guar : σ × ν → σ × ν → Prop} {me : ThreadId} {P : σ × ν → Prop}
    {R : α → σ × ν → Prop} {f : σ → α × σ} {notes : ThreadId → σ → α → ν → ν}
    (hP : Stable rely P) (hR : ∀ a, Stable rely (R a))
    (h : ∀ γ, P γ → guar γ ((f γ.1).2, notes me γ.1 (f γ.1).1 γ.2) ∧
      R (f γ.1).1 ((f γ.1).2, notes me γ.1 (f γ.1).1 γ.2)) :
    Upholds rely guar me P (stepNoted f notes) (Fate.Returns R) :=
  upholds_awaitNoted hP hR fun γ a s hγ hf => by
    have hstep := h γ hγ
    rwa [Option.some.inj hf] at hstep

def onCrash (f : ν → ν) (p : Action (σ × ν) α) : Action (σ × ν) α := do
  match ← p.attempt with
  | some a => return a
  | none =>
    record f
    .crash

theorem Follows.onCrash {f : ν → ν} {p' : Action (σ × ν) α} {p : Action σ α}
    (h : Follows allowed p' p) : Follows allowed (onCrash f p') p := by
  induction h with
  | done a => exact .done a
  | crash => exact .note .crash
  | ask hrun hback _ ih => exact .ask hrun hback ih
  | note _ ih => exact .note ih

end Action

theorem Life.exists_threads {σ ν ρ : Type} {ε : Type _} {allowed : ThreadId → σ → σ → Prop}
    {recorded : ε → Action (σ × ν) (Option ρ)} {plain : ε → Action σ (Option ρ)}
    (h : ∀ e, Action.Follows allowed (recorded e) (plain e)) {threads : List (Thread σ ρ)}
    (hall : ∀ t ∈ threads, ∃ e, t.rest = plain e) :
    ∃ threads' : List (Thread (σ × ν) ρ),
      List.Forall₂ (ThreadFollows allowed) threads' threads ∧
      threads'.map Thread.id = threads.map Thread.id ∧
      ∀ t ∈ threads', ∃ e, t.rest = recorded e := by
  induction threads with
  | nil => exact ⟨[], .nil, rfl, by simp⟩
  | cons t threads ih =>
    obtain ⟨e, hrest⟩ := hall t List.mem_cons_self
    obtain ⟨threads', hfollows, hids, hprograms⟩ :=
      ih fun t' ht' => hall t' (List.mem_cons_of_mem _ ht')
    refine ⟨⟨t.id, recorded e⟩ :: threads', .cons ⟨rfl, hrest ▸ h e⟩ hfollows, by simp [hids], ?_⟩
    intro t' ht'
    rcases List.mem_cons.mp ht' with rfl | hin
    · exact ⟨e, rfl⟩
    · exact hprograms t' hin

end SessionShell
