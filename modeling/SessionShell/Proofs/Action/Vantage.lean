import SessionShell.Proofs.Action.Run

/-!
A thread among others, step by step.

What a thread knows is kept by the others. So each of its steps is looked at in any state in which
that holds: whether the thread can have to wait there, and what it knows then.
-/

namespace SessionShell

open Action

universe u

structure Vantage (κ : Type u) (σ A : Type) where
  me : ThreadId
  holds : A → κ → σ → Prop
  moves : A → κ → σ → A → σ → Prop
  ready : A → κ → σ → Prop

namespace Vantage

variable {κ : Type u} {σ A α β ε : Type} {E : Vantage κ σ A} {a a' : A}

/-- From what is known, the thread takes such steps as it may, and it comes to what `Q` says. -/
def Does (E : Vantage κ σ A) (Q : Fate α → A → Prop) : Action σ α → A → Prop
  | .done v, a => Q (.returned v) a
  | .crash, a => Q .crashed a
  | .ask act next, a => ∀ c s, E.holds a c s → (E.ready a c s → (act.run E.me s).isSome) ∧
      ∀ answer s', act.run E.me s = some (answer, s') →
        ∃ a', E.moves a c s a' s' ∧ E.Does Q (next answer) a'

theorem does_pure {Q : Fate α → A → Prop} {v : α} (h : Q (.returned v) a) : E.Does Q (pure v) a :=
  h

theorem Does.ask {Q : Fate α → A → Prop} {Q' : Fate β → A → Prop} {act : Act σ}
    {next : act.Answer → Action σ α} {next' : act.Answer → Action σ β}
    (h : E.Does Q (.ask act next) a)
    (hnext : ∀ answer a', E.Does Q (next answer) a' → E.Does Q' (next' answer) a') :
    E.Does Q' (.ask act next') a := by
  intro c s hs
  obtain ⟨hready, hstep⟩ := h c s hs
  refine ⟨hready, fun answer s' hact => ?_⟩
  obtain ⟨a', hmoves, hdoes⟩ := hstep answer s' hact
  exact ⟨a', hmoves, hnext answer a' hdoes⟩

theorem Does.mono {Q Q' : Fate α → A → Prop} {p : Action σ α} (h : E.Does Q p a)
    (hQ : ∀ fate a, Q fate a → Q' fate a) : E.Does Q' p a := by
  induction p generalizing a with
  | done v => exact hQ _ _ h
  | crash => exact hQ _ _ h
  | ask act next ih => exact h.ask fun answer _ => ih answer

theorem Does.imp {R R' : α → A → Prop} {p : Action σ α} (h : E.Does (Fate.Returns R) p a)
    (hR : ∀ v a, R v a → R' v a) : E.Does (Fate.Returns R') p a :=
  h.mono fun fate a hf => by
    cases fate with
    | returned v => exact hR v a hf
    | crashed => exact hf.elim
    | halted => exact hf.elim

theorem Does.bind_fate {R : Fate α → A → Prop} {Q : Fate β → A → Prop} {p : Action σ α}
    {f : α → Action σ β} (h : E.Does R p a) (hf : ∀ v a, R (.returned v) a → E.Does Q (f v) a)
    (hcrash : ∀ a, R .crashed a → Q .crashed a) : E.Does Q (p >>= f) a := by
  induction p generalizing a with
  | done v => exact hf v a h
  | crash => exact hcrash a h
  | ask act next ih => exact h.ask fun answer _ => ih answer

theorem Does.bind {R : α → A → Prop} {Q : Fate β → A → Prop} {p : Action σ α} {f : α → Action σ β}
    (h : E.Does (Fate.Returns R) p a) (hf : ∀ v a, R v a → E.Does Q (f v) a) :
    E.Does Q (p >>= f) a :=
  h.bind_fate hf fun _ h => h.elim

theorem Does.attempt {R : Fate α → A → Prop} {Q : Fate (Option α) → A → Prop} {p : Action σ α}
    (h : E.Does R p a) (hreturned : ∀ v a, R (.returned v) a → Q (.returned (some v)) a)
    (hcrashed : ∀ a, R .crashed a → Q (.returned none) a) : E.Does Q (Program.attempt p) a := by
  induction p generalizing a with
  | done v => exact hreturned v a h
  | crash => exact hcrashed a h
  | ask act next ih => exact h.ask fun answer _ => ih answer

/-! ## What is known to come of it -/

def Comes (E : Vantage κ σ A) (p : Action σ α) (a : A) (v : α) (a' : A) : Prop :=
  E.Does (Fate.Returns fun w b => w = v ∧ b = a') p a

theorem comes_pure (v : α) : E.Comes (pure v) a v a :=
  ⟨rfl, rfl⟩

theorem Comes.does {Q : Fate α → A → Prop} {p : Action σ α} {v : α} (h : E.Comes p a v a')
    (hQ : Q (.returned v) a') : E.Does Q p a :=
  Does.mono h fun fate b hb => by
    cases fate with
    | returned w =>
      obtain ⟨rfl, rfl⟩ := hb
      exact hQ
    | crashed => exact hb.elim
    | halted => exact hb.elim

theorem Comes.bind {Q : Fate β → A → Prop} {p : Action σ α} {f : α → Action σ β} {v : α}
    (h : E.Comes p a v a') (hf : E.Does Q (f v) a') : E.Does Q (p >>= f) a :=
  Does.bind h fun w b hb => by
    obtain ⟨rfl, rfl⟩ := hb
    exact hf

theorem Comes.attempt {p : Action σ α} {v : α} (h : E.Comes p a v a') :
    E.Comes (Program.attempt p) a (some v) a' :=
  Does.attempt h (fun w b hb => by
    obtain ⟨rfl, rfl⟩ := hb
    exact ⟨rfl, rfl⟩) fun _ hb => hb.elim

theorem Comes.discard {p : Action σ α} {v : α} (h : E.Comes p a v a') :
    E.Comes (Functor.discard p) a () a' :=
  h.bind (comes_pure ())

theorem Comes.run_bind {Q : Fate (Except ε β) → A → Prop} {p : ExceptT ε (Action σ) α}
    {f : α → ExceptT ε (Action σ) β} {v : α} (h : E.Comes p.run a (.ok v) a')
    (hf : E.Does Q (f v).run a') : E.Does Q (p >>= f).run a :=
  Comes.bind h hf

theorem Comes.run_bind_error {p : ExceptT ε (Action σ) α} {f : α → ExceptT ε (Action σ) β} {e : ε}
    (h : E.Comes p.run a (.error e) a') : E.Comes (p >>= f).run a (.error e) a' :=
  Comes.bind h (comes_pure _)

theorem Comes.lift_bind {Q : Fate (Except ε β) → A → Prop} {p : Action σ α}
    {f : α → ExceptT ε (Action σ) β} {v : α} (h : E.Comes p a v a') (hf : E.Does Q (f v).run a') :
    E.Does Q ((liftM p : ExceptT ε (Action σ) α) >>= f).run a := by
  rw [run_lift_bind]
  exact h.bind hf

/-! ## Single steps -/

theorem does_await {g : σ → Option (α × σ)} {R : α → A → Prop}
    (h : ∀ c s, E.holds a c s → (E.ready a c s → (g s).isSome) ∧
      ∀ v s', g s = some (v, s') → ∃ a', E.moves a c s a' s' ∧ R v a') :
    E.Does (Fate.Returns R) (await g) a :=
  h

theorem does_step {g : σ → α × σ} {R : α → A → Prop}
    (h : ∀ c s, E.holds a c s → ∃ a', E.moves a c s a' (g s).2 ∧ R (g s).1 a') :
    E.Does (Fate.Returns R) (step g) a :=
  does_await fun c s hs => ⟨fun _ => rfl, fun v s' hv => by
    have hg : g s = (v, s') := Option.some.inj hv
    have hstep := h c s hs
    rwa [hg] at hstep⟩

theorem comes_step {g : σ → α × σ} {v : α}
    (h : ∀ c s, E.holds a c s → E.moves a c s a' (g s).2 ∧ (g s).1 = v) : E.Comes (step g) a v a' :=
  does_step fun c s hs => ⟨a', (h c s hs).1, (h c s hs).2, rfl⟩

theorem comes_read {g : σ → α} {v : α}
    (h : ∀ c s, E.holds a c s → E.moves a c s a' s ∧ g s = v) : E.Comes (read g) a v a' :=
  comes_step h

theorem comes_update {g : σ → σ} (h : ∀ c s, E.holds a c s → E.moves a c s a' (g s)) :
    E.Comes (update g) a () a' :=
  comes_step fun c s hs => ⟨h c s hs, rfl⟩

end Vantage

end SessionShell
