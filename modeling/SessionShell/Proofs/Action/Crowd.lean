import SessionShell.Interleaving
import SessionShell.Proofs.Action.Run

/-!
Threads that take their steps in any order.

What one thread does is shown once, for whatever the others do that it relies on, and guarantees in
turn what the others rely on. Put together, the threads then do what each of them was shown to do.
-/

namespace SessionShell

open Action

/-- Threads over a shared state, each with what it has left to do. -/
structure Crowd (σ α : Type) where
  shared : σ
  runners : List (ThreadId × Action σ α)

namespace Action

variable {σ α β ε ω : Type} {rely guar : σ → σ → Prop} {me : ThreadId}

/-- However the steps of the thread fall between steps it relies on, each of them is as guaranteed,
and it ends as `Q` says. -/
def Safe (rely guar : σ → σ → Prop) (me : ThreadId) (Q : Fate α → σ → Prop) :
    Action σ α → σ → Prop
  | .done a, s => ∀ s', rely s s' → Q (.returned a) s'
  | .crash, s => ∀ s', rely s s' → Q .crashed s'
  | .ask act next, s => ∀ s' answer s'', rely s s' → act.run me s' = some (answer, s'') →
      guar s' s'' ∧ Safe rely guar me Q (next answer) s''

def Upholds (rely guar : σ → σ → Prop) (me : ThreadId) (P : σ → Prop) (p : Action σ α)
    (Q : Fate α → σ → Prop) : Prop :=
  ∀ s, P s → Safe rely guar me Q p s

def Stable (rely : σ → σ → Prop) (P : σ → Prop) : Prop :=
  ∀ s s', P s → rely s s' → P s'

theorem Safe.of_rely {Q : Fate α → σ → Prop} {p : Action σ α} {s s' : σ}
    (htrans : ∀ s s' s'', rely s s' → rely s' s'' → rely s s'') (h : Safe rely guar me Q p s)
    (hs : rely s s') : Safe rely guar me Q p s' := by
  cases p with
  | done a => exact fun s'' hs' => h s'' (htrans _ _ _ hs hs')
  | crash => exact fun s'' hs' => h s'' (htrans _ _ _ hs hs')
  | ask act next => exact fun t answer t' ht => h t answer t' (htrans _ _ _ hs ht)

theorem Safe.bind {R : α → σ → Prop} {Q : Fate β → σ → Prop} {p : Action σ α}
    {f : α → Action σ β} {s : σ} (hrefl : ∀ s, rely s s)
    (h : Safe rely guar me (Fate.Returns R) p s)
    (hf : ∀ a s, R a s → Safe rely guar me Q (f a) s) : Safe rely guar me Q (p >>= f) s := by
  induction p generalizing s with
  | done a => exact hf a s (h s (hrefl s))
  | crash => exact (h s (hrefl s)).elim
  | ask act next ih =>
    intro s' answer s'' hs hact
    obtain ⟨hguar, hnext⟩ := h s' answer s'' hs hact
    exact ⟨hguar, ih answer hnext⟩

theorem Safe.bind_fate {R : Fate α → σ → Prop} {Q : Fate β → σ → Prop} {p : Action σ α}
    {f : α → Action σ β} {s : σ} (hrefl : ∀ s, rely s s) (h : Safe rely guar me R p s)
    (hf : ∀ a s, R (.returned a) s → Safe rely guar me Q (f a) s)
    (hcrash : ∀ s, R .crashed s → Q .crashed s) : Safe rely guar me Q (p >>= f) s := by
  induction p generalizing s with
  | done a => exact hf a s (h s (hrefl s))
  | crash => exact fun s' hs => hcrash s' (h s' hs)
  | ask act next ih =>
    intro s' answer s'' hs hact
    obtain ⟨hguar, hnext⟩ := h s' answer s'' hs hact
    exact ⟨hguar, ih answer hnext⟩

theorem Safe.attempt {R : Fate α → σ → Prop} {Q : Fate (Option α) → σ → Prop} {p : Action σ α}
    {s : σ} (h : Safe rely guar me R p s)
    (hreturned : ∀ a s, R (.returned a) s → Q (.returned (some a)) s)
    (hcrashed : ∀ s, R .crashed s → Q (.returned none) s) :
    Safe rely guar me Q (Program.attempt p) s := by
  induction p generalizing s with
  | done a => exact fun s' hs => hreturned a s' (h s' hs)
  | crash => exact fun s' hs => hcrashed s' (h s' hs)
  | ask act next ih =>
    intro s' answer s'' hs hact
    obtain ⟨hguar, hnext⟩ := h s' answer s'' hs hact
    exact ⟨hguar, ih answer hnext⟩

theorem Safe.mono {Q Q' : Fate α → σ → Prop} {p : Action σ α} {s : σ}
    (h : Safe rely guar me Q p s) (hQ : ∀ fate s, Q fate s → Q' fate s) :
    Safe rely guar me Q' p s := by
  induction p generalizing s with
  | done a => exact fun s' hs => hQ _ _ (h s' hs)
  | crash => exact fun s' hs => hQ _ _ (h s' hs)
  | ask act next ih =>
    intro s' answer s'' hs hact
    obtain ⟨hguar, hnext⟩ := h s' answer s'' hs hact
    exact ⟨hguar, ih answer hnext⟩

theorem Safe.guar_mono {guar' : σ → σ → Prop} {Q : Fate α → σ → Prop} {p : Action σ α} {s : σ}
    (h : Safe rely guar me Q p s) (hguar : ∀ s s', guar s s' → guar' s s') :
    Safe rely guar' me Q p s := by
  induction p generalizing s with
  | done a => exact h
  | crash => exact h
  | ask act next ih =>
    intro s' answer s'' hs hact
    obtain ⟨hstep, hnext⟩ := h s' answer s'' hs hact
    exact ⟨hguar s' s'' hstep, ih answer hnext⟩

variable {P : σ → Prop}

theorem Upholds.mono {R R' : α → σ → Prop} {p : Action σ α}
    (h : Upholds rely guar me P p (Fate.Returns R)) (hR : ∀ a s, R a s → R' a s) :
    Upholds rely guar me P p (Fate.Returns R') :=
  fun s hs => (h s hs).mono fun fate s' hfate => by
    cases fate with
    | returned a => exact hR a s' hfate
    | crashed => exact hfate
    | halted => exact hfate

theorem Upholds.bind {R : α → σ → Prop} {Q : Fate β → σ → Prop} {p : Action σ α}
    {f : α → Action σ β} (hp : Upholds rely guar me P p (Fate.Returns R))
    (hrefl : ∀ s, rely s s) (hf : ∀ a, Upholds rely guar me (R a) (f a) Q) :
    Upholds rely guar me P (p >>= f) Q :=
  fun s hs => (hp s hs).bind hrefl hf

theorem Upholds.run_bind {R : Except ε α → σ → Prop} {Q : Fate (Except ε β) → σ → Prop}
    {p : ExceptT ε (Action σ) α} {f : α → ExceptT ε (Action σ) β}
    (hp : Upholds rely guar me P p.run (Fate.Returns R)) (hrefl : ∀ s, rely s s)
    (hok : ∀ a, Upholds rely guar me (R (.ok a)) (f a).run Q)
    (herror : ∀ e, Upholds rely guar me (R (.error e)) (pure (.error e)) Q) :
    Upholds rely guar me P (p >>= f).run Q :=
  Upholds.bind hp hrefl fun r => by
    cases r with
    | ok a => exact hok a
    | error e => exact herror e

theorem Upholds.lift_bind {R : α → σ → Prop} {Q : Fate (Except ε β) → σ → Prop} {p : Action σ α}
    {f : α → ExceptT ε (Action σ) β} (hp : Upholds rely guar me P p (Fate.Returns R))
    (hrefl : ∀ s, rely s s) (hf : ∀ a, Upholds rely guar me (R a) (f a).run Q) :
    Upholds rely guar me P ((liftM p : ExceptT ε (Action σ) α) >>= f).run Q := by
  rw [run_lift_bind]
  exact Upholds.bind hp hrefl hf

theorem upholds_pure {Q : Fate α → σ → Prop} (a : α) (hP : Stable rely P)
    (h : ∀ s, P s → Q (.returned a) s) : Upholds rely guar me P (pure a) Q :=
  fun s hs s' hr => h s' (hP s s' hs hr)

theorem upholds_await {f : σ → Option (α × σ)} {R : α → σ → Prop} (hP : Stable rely P)
    (hR : ∀ a, Stable rely (R a)) (h : ∀ s a s', P s → f s = some (a, s') → guar s s' ∧ R a s') :
    Upholds rely guar me P (await f) (Fate.Returns R) := by
  intro s hs s' answer s'' hr hact
  have hs' := h s' answer s'' (hP s s' hs hr) hact
  exact ⟨hs'.1, fun t ht => hR answer s'' t hs'.2 ht⟩

theorem upholds_step {f : σ → α × σ} {R : α → σ → Prop} (hP : Stable rely P)
    (hR : ∀ a, Stable rely (R a)) (h : ∀ s, P s → guar s (f s).2 ∧ R (f s).1 (f s).2) :
    Upholds rely guar me P (step f) (Fate.Returns R) :=
  upholds_await hP hR fun s a s' hs hact => by
    have hf : f s = (a, s') := Option.some.inj hact
    have hs' := h s hs
    rwa [hf] at hs'

theorem Safe.of_runAlone? {Q : Fate α → σ → Prop} {p : Action σ α} {s s' : σ} {a : α}
    (hrely : ∀ s, rely s s) (hrefl : ∀ s, guar s s)
    (htrans : ∀ s s' s'', guar s s' → guar s' s'' → guar s s'')
    (h : Safe rely guar me Q p s) (hr : p.runAlone? me s = some (a, s')) : guar s s' := by
  induction p generalizing s with
  | done b =>
    simp only [runAlone?, advance, Option.some.injEq, Prod.mk.injEq] at hr
    obtain ⟨-, rfl⟩ := hr
    exact hrefl s
  | crash => simp [runAlone?, advance] at hr
  | ask act next ih =>
    cases hact : act.run me s with
    | none => simp [runAlone?, advance, hact] at hr
    | some r =>
      obtain ⟨answer, s₁⟩ := r
      obtain ⟨hguar, hnext⟩ := h s answer s₁ (hrely s) hact
      rw [runAlone?_ask hact] at hr
      exact htrans s s₁ s' hguar (ih answer hnext hr)

/-! ## Threads that never crash -/

def NeverCrashes : Action σ α → Prop
  | .done _ => True
  | .crash => False
  | .ask _ next => ∀ answer, NeverCrashes (next answer)

theorem NeverCrashes.bind {p : Action σ α} {f : α → Action σ β} (hp : NeverCrashes p)
    (hf : ∀ a, NeverCrashes (f a)) : NeverCrashes (p >>= f) := by
  induction p with
  | done a => exact hf a
  | crash => exact hp.elim
  | ask act next ih => exact fun answer => ih answer (hp answer)

theorem NeverCrashes.run_bind {p : ExceptT ε (Action σ) α} {f : α → ExceptT ε (Action σ) β}
    (hp : NeverCrashes p.run) (hf : ∀ a, NeverCrashes (f a).run) : NeverCrashes (p >>= f).run :=
  NeverCrashes.bind hp fun r => by
    cases r with
    | ok a => exact hf a
    | error e => trivial

theorem NeverCrashes.attempt_bind {p : Action σ α} (hp : NeverCrashes p) (f : α → Action σ β) :
    Program.attempt (p >>= f) = p >>= fun a => (f a).attempt := by
  induction p with
  | done a => rfl
  | crash => exact hp.elim
  | ask act next ih => exact congrArg (Program.ask act) (funext fun answer => ih answer (hp answer))

theorem neverCrashes_attempt (p : Action σ α) : NeverCrashes (Program.attempt p) := by
  induction p with
  | done a => trivial
  | crash => trivial
  | ask act next ih => exact ih

theorem upholds_of_keeps {view : σ → ω} {p : Action σ α} (hp : Keeps view p)
    (hcrash : NeverCrashes p) (hP : Stable rely P)
    (hview : ∀ s s', P s → view s' = view s → guar s s' ∧ P s') :
    Upholds rely guar me P p (Fate.Returns fun _ => P) := by
  intro s hs
  induction p generalizing s with
  | done a => exact fun s' hr => hP s s' hs hr
  | crash => exact hcrash.elim
  | ask act next ih =>
    intro s' answer s'' hr hact
    obtain ⟨hguar, hs''⟩ := hview s' s'' (hP s s' hs hr) (hp.1 me s' answer s'' hact)
    exact ⟨hguar, ih answer (hp.2 answer) (hcrash answer) s'' hs''⟩

end Action

namespace Crowd

variable {σ α : Type} {others T : σ → σ → Prop} {c c' c'' : Crowd σ α}

inductive Step (others : σ → σ → Prop) (c : Crowd σ α) : Crowd σ α → Prop where
  | act {i : Nat} {me : ThreadId} {act : Act σ} {next : act.Answer → Action σ α}
      {answer : act.Answer} {s' : σ} (hi : c.runners[i]? = some (me, .ask act next))
      (h : act.run me c.shared = some (answer, s')) :
      Step others c ⟨s', c.runners.set i (me, next answer)⟩
  | others {s' : σ} (h : others c.shared s') : Step others c { c with shared := s' }

inductive Reaches (others : σ → σ → Prop) (c : Crowd σ α) : Crowd σ α → Prop where
  | refl : Reaches others c c
  | tail {c' c'' : Crowd σ α} (h : Reaches others c c') (hs : Step others c' c'') :
      Reaches others c c''

theorem Reaches.trans (h : Reaches others c c') (h' : Reaches others c' c'') :
    Reaches others c c'' := by
  induction h' with
  | refl => exact h
  | tail _ hs ih => exact ih.tail hs

theorem Reaches.mono {others' : σ → σ → Prop} (h : Reaches others c c')
    (hothers : ∀ s s', others s s' → others' s s') : Reaches others' c c' := by
  induction h with
  | refl => exact .refl
  | tail _ hs ih =>
    cases hs with
    | act hi hact => exact ih.tail (.act hi hact)
    | others ho => exact ih.tail (.others (hothers _ _ ho))

theorem reaches_of_advance {i : Nat} {me : ThreadId} {p : Action σ α}
    (hi : c.runners[i]? = some (me, p)) :
    Reaches others c
      ⟨(p.advance me c.shared).2.2,
        c.runners.set i (me, Life.standingRest (p.advance me c.shared).2.1)⟩ := by
  have hsame : c.runners.set i (me, p) = c.runners := by
    obtain ⟨hlt, hget⟩ := List.getElem?_eq_some_iff.mp hi
    rw [← hget, List.set_getElem_self]
  induction p generalizing c with
  | done a =>
    simp only [advance, Life.standingRest, hsame]
    exact .refl
  | crash =>
    simp only [advance, Life.standingRest, hsame]
    exact .refl
  | ask act next ih =>
    cases hact : act.run me c.shared with
    | none =>
      simp only [advance, hact, Life.standingRest, hsame]
      exact .refl
    | some r =>
      obtain ⟨answer, s₁⟩ := r
      have hlt : i < c.runners.length := (List.getElem?_eq_some_iff.mp hi).1
      let moved : Crowd σ α := ⟨s₁, c.runners.set i (me, next answer)⟩
      have hmoved : Reaches others c moved := Reaches.refl.tail (.act hi hact)
      have hrest := @ih answer moved (List.getElem?_set_self hlt) (by simp [moved])
      rw [List.set_set] at hrest
      simp only [advance, hact]
      exact hmoved.trans hrest

theorem reaches_of_runAlone? {i : Nat} {me : ThreadId} {p : Action σ α} {s' : σ} {a : α}
    (hi : c.runners[i]? = some (me, p)) (h : p.runAlone? me c.shared = some (a, s')) :
    Reaches others c ⟨s', c.runners.set i (me, .done a)⟩ := by
  have hreaches := @reaches_of_advance σ α others c i me p hi
  rw [runAlone?] at h
  rcases hr : p.advance me c.shared with ⟨moved, standing, s₁⟩
  rw [hr] at h hreaches
  cases standing with
  | done b =>
    cases h
    exact hreaches
  | crashed | waiting => cases h

def AllSafe (rely guar : Nat → σ → σ → Prop) (Q : Nat → Fate α → σ → Prop) (c : Crowd σ α) : Prop :=
  ∀ i me p, c.runners[i]? = some (me, p) → Safe (rely i) (guar i) me (Q i) p c.shared

/-- When each thread guarantees what all others rely on, all of them are safe in any order of their
steps, and nothing happens but what they guarantee. -/
theorem allSafe_of_reaches {rely guar : Nat → σ → σ → Prop} {Q : Nat → Fate α → σ → Prop}
    (hrefl : ∀ i s, rely i s s) (htrans : ∀ i s s' s'', rely i s s' → rely i s' s'' → rely i s s'')
    (hguar : ∀ i j s s', i ≠ j → guar i s s' → rely j s s')
    (hothers : ∀ i s s', others s s' → rely i s s')
    (hT : ∀ s, T s s) (hTtrans : ∀ s s' s'', T s s' → T s' s'' → T s s'')
    (hTguar : ∀ i s s', guar i s s' → T s s') (hTothers : ∀ s s', others s s' → T s s')
    (h : Reaches others c c') (hsafe : c.AllSafe rely guar Q) :
    c'.AllSafe rely guar Q ∧ T c.shared c'.shared := by
  induction h with
  | refl => exact ⟨hsafe, hT _⟩
  | tail _ hs ih =>
    obtain ⟨hall, hpast⟩ := ih
    cases hs with
    | @act i me act next answer s' hi hact =>
      obtain ⟨hg, hnext⟩ := hall i me _ hi _ answer s' (hrefl i _) hact
      refine ⟨fun j me' p hj => ?_, hTtrans _ _ _ hpast (hTguar i _ _ hg)⟩
      -- The thread itself goes on from its step. For any other it is a step it relies on.
      by_cases hij : i = j
      · subst hij
        have hlt : i < _ := (List.getElem?_eq_some_iff.mp hi).1
        rw [List.getElem?_set_self hlt] at hj
        cases hj
        exact hnext
      · rw [List.getElem?_set_ne hij] at hj
        exact (hall j me' p hj).of_rely (htrans j) (hguar i j _ _ hij hg)
    | others ho =>
      exact ⟨fun j me' p hj => (hall j me' p hj).of_rely (htrans j) (hothers j _ _ ho),
        hTtrans _ _ _ hpast (hTothers _ _ ho)⟩

end Crowd

end SessionShell
