import SessionShell.Proofs.Action.Observed
import SessionShell.Proofs.Program.Serving

/-!
Actions that keep a log of what their steps look like.

What is logged of a step is read off the states before and behind it, so the log tells of the
action's own steps in their order, and nothing of what others do in between.
-/

namespace SessionShell.Action

variable {σ ν α β ε : Type} {signs : σ → σ → List ν}

def loggedAct (signs : σ → σ → List ν) (act : Act σ) : Act (σ × List ν) :=
  ⟨act.Answer, fun me x => (act.run me x.1).map fun r => (r.1, r.2, x.2 ++ signs x.1 r.2)⟩

def logged (signs : σ → σ → List ν) : Action σ α → Action (σ × List ν) α
  | .done a => .done a
  | .crash => .crash
  | .ask act next => .ask (loggedAct signs act) fun answer => logged signs (next answer)

theorem logged_bind (p : Action σ α) (f : α → Action σ β) :
    logged signs (p >>= f) = logged signs p >>= fun a => logged signs (f a) := by
  induction p with
  | done a => rfl
  | crash => rfl
  | ask act next ih => exact congrArg (Program.ask _) (funext ih)

theorem logged_expand {Call : Type _} {Reply : Call → Type} (p : Program Call Reply α)
    (f : (call : Call) → Action σ (Reply call)) :
    logged signs (p.expand f) = p.expand fun call => logged signs (f call) := by
  induction p with
  | done a => rfl
  | crash => rfl
  | ask call next ih =>
    rw [Program.expand, Program.expand]
    exact (logged_bind _ _).trans (congrArg _ (funext ih))

variable {rely guar : σ × List ν → σ × List ν → Prop} {me : ThreadId} {P : σ × List ν → Prop}

theorem Upholds.logged_bind {R : α → σ × List ν → Prop} {Q : Fate β → σ × List ν → Prop}
    {p : Action σ α} {f : α → Action σ β}
    (hp : Upholds rely guar me P (logged signs p) (Fate.Returns R)) (hrefl : ∀ x, rely x x)
    (hf : ∀ a, Upholds rely guar me (R a) (logged signs (f a)) Q) :
    Upholds rely guar me P (logged signs (p >>= f)) Q := by
  rw [Action.logged_bind]
  exact hp.bind hrefl hf

theorem Upholds.logged_run_bind {R : Except ε α → σ × List ν → Prop}
    {Q : Fate (Except ε β) → σ × List ν → Prop} {p : ExceptT ε (Action σ) α}
    {f : α → ExceptT ε (Action σ) β}
    (hp : Upholds rely guar me P (logged signs p.run) (Fate.Returns R)) (hrefl : ∀ x, rely x x)
    (hok : ∀ a, Upholds rely guar me (R (.ok a)) (logged signs (f a).run) Q)
    (herror : ∀ e, Upholds rely guar me (R (.error e)) (pure (.error e)) Q) :
    Upholds rely guar me P (logged signs (p >>= f).run) Q := by
  refine Upholds.logged_bind hp hrefl fun r => ?_
  cases r with
  | ok a => exact hok a
  | error e => exact herror e

theorem upholds_logged_step {f : σ → α × σ} {R : α → σ × List ν → Prop} (hP : Stable rely P)
    (hR : ∀ a, Stable rely (R a))
    (h : ∀ s log, P (s, log) → guar (s, log) ((f s).2, log ++ signs s (f s).2) ∧
      R (f s).1 ((f s).2, log ++ signs s (f s).2)) :
    Upholds rely guar me P (logged signs (step f)) (Fate.Returns R) :=
  upholds_step hP hR fun x hx => h x.1 x.2 hx

theorem upholds_logged_read {f : σ → α} {R : α → σ × List ν → Prop}
    (hnone : ∀ s, signs s s = []) (hP : Stable rely P) (hR : ∀ a, Stable rely (R a))
    (h : ∀ x, P x → guar x x ∧ R (f x.1) x) :
    Upholds rely guar me P (logged signs (read f)) (Fate.Returns R) :=
  upholds_logged_step hP hR fun s log hx => by
    rw [hnone, List.append_nil]
    exact h _ hx

theorem upholds_logged_within {R : σ → σ → Prop} {p : Action σ α} (hp : Within R p)
    (hcrash : NeverCrashes p) (hP : Stable rely P)
    (h : ∀ s s' log, R s s' → P (s, log) → signs s s' = [] ∧ guar (s, log) (s', log) ∧
      P (s', log)) :
    Upholds rely guar me P (logged signs p) (Fate.Returns fun _ => P) := by
  intro x hx
  induction p generalizing x with
  | done a => exact fun y hy => hP x y hx hy
  | crash => exact hcrash.elim
  | ask act next ih =>
    intro y answer z hy hact
    obtain ⟨r, hr, heq⟩ := Option.map_eq_some_iff.mp hact
    cases heq
    obtain ⟨hnone, hguar, hz⟩ := h y.1 r.2 y.2 (hp.1 me y.1 r.1 r.2 hr) (hP x y hx hy)
    simp only [hnone, List.append_nil]
    exact ⟨hguar, ih r.1 (hp.2 r.1) (hcrash r.1) _ hz⟩

end SessionShell.Action

namespace SessionShell.Program

open Action

universe u

variable {Call : Type u} {Reply : Call → Type} {α ω σ : Type} {serve : Serving Reply ω}
  {Q : Option α → ω → Prop} {x : ω} {rely guar : σ → σ → Prop} {me : ThreadId}

theorem Served.here {p : Program Call Reply α} (h : p.Served serve Q x) : ∃ r, Q r x := by
  cases p with
  | done a => exact ⟨some a, h⟩
  | crash => exact ⟨none, h⟩
  | ask call next => exact ⟨none, h.1⟩

/-- A program is carried out by actions each of which serves it, from a state that stands for the
one it is served from. -/
theorem Served.upholds {P : ω → σ → Prop} {f : (call : Call) → Action σ (Reply call)}
    {p : Program Call Reply α} (h : p.Served serve Q x) (hcrash : p.CrashFree)
    (hrefl : ∀ s, rely s s) (hP : ∀ x, Stable rely (P x))
    (hf : ∀ call x, Q none x → (∀ reply y, serve call x reply y → ∃ r, Q r y) →
      Upholds rely guar me (P x) (f call)
        (Fate.Returns fun reply s => ∃ y, serve call x reply y ∧ P y s)) :
    Upholds rely guar me (P x) (p.expand f)
      (Fate.Returns fun a s => ∃ y, Q (some a) y ∧ P y s) := by
  induction p generalizing x with
  | done a => exact fun s hs s' hr => ⟨x, h, hP x s s' hs hr⟩
  | crash => exact hcrash.elim
  | ask call next ih =>
    refine Upholds.bind (hf call x h.1 fun reply y hy => (h.2 reply y hy).here) hrefl fun reply =>
      ?_
    rintro s ⟨y, hy, hs⟩
    exact ih reply (h.2 reply y hy) (hcrash reply) s hs

end SessionShell.Program
