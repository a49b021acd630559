import SessionShell.Concurrent

/-!
Runs of an action as one piece, seen through a view of the state.

A view is whatever of a state an argument is about. Between two steps of a run all the rest of the
state may be changed by others, so what is shown of a run holds whatever the others do that leave
the view alone.
-/

namespace SessionShell.Action

variable {σ ω α β ε : Type} {view : σ → ω}

/-- How a run has come to its end. -/
inductive Fate (α : Type) where
  | returned (a : α)
  | crashed
  | halted
  deriving DecidableEq, Repr

inductive Runs (view : σ → ω) (me : ThreadId) : Action σ α → σ → Fate α → σ → Prop where
  | done (a : α) (s : σ) : Runs view me (.done a) s (.returned a) s
  | crash (s : σ) : Runs view me .crash s .crashed s
  | halt {act : Act σ} {next : act.Answer → Action σ α} {s : σ}
      (h : ∀ s', act.run me s' = none) : Runs view me (.ask act next) s .halted s
  | ask {act : Act σ} {next : act.Answer → Action σ α} {s s' s'' : σ} {answer : act.Answer}
      {fate : Fate α} (h : act.run me s = some (answer, s'))
      (hr : Runs view me (next answer) s' fate s'') : Runs view me (.ask act next) s fate s''
  | others {p : Action σ α} {s s' s'' : σ} {fate : Fate α} (h : view s' = view s)
      (hr : Runs view me p s' fate s'') : Runs view me p s fate s''

theorem runAlone?_ask {me : ThreadId} {act : Act σ} {next : act.Answer → Action σ α} {s s' : σ}
    {answer : act.Answer} (h : act.run me s = some (answer, s')) :
    runAlone? me (.ask act next) s = runAlone? me (next answer) s' := by
  simp only [runAlone?, advance, h]
  rcases advance me (next answer) s' with ⟨moved, standing, s''⟩
  cases standing <;> rfl

theorem runAlone?_bind {me : ThreadId} {p : Action σ α} {f : α → Action σ β} {s s' : σ} {a : α}
    (h : p.runAlone? me s = some (a, s')) : (p >>= f).runAlone? me s = (f a).runAlone? me s' := by
  induction p generalizing s with
  | done b =>
    simp only [runAlone?, advance, Option.some.injEq, Prod.mk.injEq] at h
    obtain ⟨rfl, rfl⟩ := h
    rfl
  | crash => simp [runAlone?, advance] at h
  | ask act next ih =>
    cases hact : act.run me s with
    | none => simp [runAlone?, advance, hact] at h
    | some r =>
      obtain ⟨answer, s₁⟩ := r
      rw [runAlone?_ask hact] at h
      exact (runAlone?_ask hact).trans (ih answer h)

theorem runs_of_runAlone? {me : ThreadId} {p : Action σ α} {s s' : σ} {a : α}
    (h : p.runAlone? me s = some (a, s')) : Runs view me p s (.returned a) s' := by
  induction p generalizing s with
  | done b =>
    simp only [runAlone?, advance, Option.some.injEq, Prod.mk.injEq] at h
    obtain ⟨rfl, rfl⟩ := h
    exact .done _ _
  | crash => simp [runAlone?, advance] at h
  | ask act next ih =>
    cases hact : act.run me s with
    | none => simp [runAlone?, advance, hact] at h
    | some r =>
      obtain ⟨answer, s₁⟩ := r
      rw [runAlone?_ask hact] at h
      exact .ask hact (ih answer h)

/-- Where a thread that runs alone leaves the state, if it comes to its end. -/
def aloneOr (me : ThreadId) (p : Action σ α) (s : σ) : σ :=
  (p.runAlone? me s).elim s (·.2)

theorem runAlone?_eq_aloneOr_of_map {me : ThreadId} {p : Action σ α} {s : σ} {a : α}
    (h : (p.runAlone? me s).map (·.1) = some a) : p.runAlone? me s = some (a, aloneOr me p s) := by
  obtain ⟨r, hr, rfl⟩ := Option.map_eq_some_iff.mp h
  simp [aloneOr, hr]

theorem runAlone?_eq_aloneOr {me : ThreadId} {p : ExceptT ε (Action σ) Unit} {s : σ}
    (h : (p.run.runAlone? me s).any (·.1.isOk) = true) :
    p.run.runAlone? me s = some (.ok (), aloneOr me p.run s) := by
  cases hr : p.run.runAlone? me s with
  | none => simp [hr] at h
  | some r =>
    obtain ⟨a, s'⟩ := r
    cases a with
    | error e => simp [hr, Except.isOk, Except.toBool] at h
    | ok u => simp [aloneOr, hr]

theorem runs_aloneOr {me : ThreadId} {p : ExceptT ε (Action σ) Unit} {s : σ}
    (h : (p.run.runAlone? me s).any (·.1.isOk) = true) :
    Runs view me p.run s (.returned (.ok ())) (aloneOr me p.run s) :=
  runs_of_runAlone? (runAlone?_eq_aloneOr h)

def Goes (view : σ → ω) (me : ThreadId) (fate : Fate α) (s' : σ) : Action σ α → σ → Prop
  | .done a, s => fate = .returned a ∧ s' = s
  | .crash, s => fate = .crashed ∧ s' = s
  | .ask act next, s =>
    (fate = .halted ∧ s' = s ∧ ∀ s, act.run me s = none) ∨
      ∃ answer s₁, act.run me s = some (answer, s₁) ∧ Runs view me (next answer) s₁ fate s'

theorem Runs.goes {me : ThreadId} {p : Action σ α} {s s' : σ} {fate : Fate α}
    (h : Runs view me p s fate s') : ∃ s₁, view s₁ = view s ∧ Goes view me fate s' p s₁ := by
  induction h with
  | done a s => exact ⟨s, rfl, rfl, rfl⟩
  | crash s => exact ⟨s, rfl, rfl, rfl⟩
  | halt h => exact ⟨_, rfl, .inl ⟨rfl, rfl, h⟩⟩
  | ask h hr _ => exact ⟨_, rfl, .inr ⟨_, _, h, hr⟩⟩
  | others hv _ ih =>
    obtain ⟨s₁, hs₁, hgo⟩ := ih
    exact ⟨s₁, hs₁.trans hv, hgo⟩

/-- A run of two actions is a run of the first, which may be all there is of it, and one of the
second. -/
theorem Runs.bind_cases {me : ThreadId} {p : Action σ α} {f : α → Action σ β} {s s'' : σ}
    {fate : Fate β} (h : Runs view me (p >>= f) s fate s'') :
    (∃ a s', Runs view me p s (.returned a) s' ∧ Runs view me (f a) s' fate s'') ∨
      fate = .crashed ∧ Runs view me p s .crashed s'' ∨
        fate = .halted ∧ Runs view me p s .halted s'' := by
  induction p generalizing s with
  | done a => exact .inl ⟨a, s, .done a s, h⟩
  | crash =>
    obtain ⟨s₁, hv, rfl, rfl⟩ := h.goes
    exact .inr (.inl ⟨rfl, .others hv (.crash _)⟩)
  | ask act next ih =>
    obtain ⟨s₁, hv, hgo⟩ := h.goes
    rcases hgo with ⟨rfl, rfl, hnone⟩ | ⟨answer, s₂, hact, hr⟩
    · exact .inr (.inr ⟨rfl, .others hv (.halt hnone)⟩)
    · have hrest : ∀ {fate' : Fate α} {s' : σ}, Runs view me (next answer) s₂ fate' s' →
          Runs view me (.ask act next) s fate' s' := fun hr => .others hv (.ask hact hr)
      rcases ih answer hr with ⟨a, s', hp, hf⟩ | ⟨hfate, hp⟩ | ⟨hfate, hp⟩
      · exact .inl ⟨a, s', hrest hp, hf⟩
      · exact .inr (.inl ⟨hfate, hrest hp⟩)
      · exact .inr (.inr ⟨hfate, hrest hp⟩)

theorem Runs.exists_of_bind {me : ThreadId} {p : Action σ α} {f : α → Action σ β}
    {s s'' : σ} {b : β} (h : Runs view me (p >>= f) s (.returned b) s'') :
    ∃ a s', Runs view me p s (.returned a) s' ∧ Runs view me (f a) s' (.returned b) s'' := by
  rcases h.bind_cases with h | ⟨hfate, -⟩ | ⟨hfate, -⟩
  · exact h
  · cases hfate
  · cases hfate

theorem Runs.of_pure {me : ThreadId} {s s' : σ} {a : α} {fate : Fate α}
    (h : Runs view me (pure a) s fate s') : fate = .returned a ∧ view s' = view s := by
  obtain ⟨s₁, hv, rfl, rfl⟩ := h.goes
  exact ⟨rfl, hv⟩

theorem Runs.extend {me : ThreadId} {p : Action σ α} {s s' s'' : σ} {a : α}
    (h : Runs view me p s (.returned a) s') (hv : view s'' = view s') :
    Runs view me p s (.returned a) s'' := by
  generalize hfate : Fate.returned a = fate at h
  induction h with
  | done a s => exact .others hv (.done a s'')
  | crash s => cases hfate
  | halt h => cases hfate
  | ask h _ ih => exact .ask h (ih hv hfate)
  | others hv' _ ih => exact .others hv' (ih hv hfate)

/-! ## What holds of every run -/

/-- From a state with the view `x`, every run of `p` ends as `Q` says. -/
def Always (view : σ → ω) (me : ThreadId) (p : Action σ α) (x : ω) (Q : Fate α → ω → Prop) : Prop :=
  ∀ s fate s', view s = x → Runs view me p s fate s' → Q fate (view s')

/-- Says of a run that it returns, and what. -/
def Fate.Returns (P : α → ω → Prop) : Fate α → ω → Prop
  | .returned a, y => P a y
  | .crashed, _ => False
  | .halted, _ => False

def Yields (view : σ → ω) (me : ThreadId) (p : Action σ α) (x : ω) (P : α → ω → Prop) : Prop :=
  Always view me p x (Fate.Returns P)

variable {me : ThreadId} {x : ω}

theorem Always.mono {p : Action σ α} {Q Q' : Fate α → ω → Prop} (h : Always view me p x Q)
    (hQ : ∀ fate y, Q fate y → Q' fate y) : Always view me p x Q' :=
  fun s fate s' hs hr => hQ _ _ (h s fate s' hs hr)

theorem Runs.coarser {ω' : Type} (f : ω → ω') {p : Action σ α} {s s' : σ} {fate : Fate α}
    (h : Runs view me p s fate s') : Runs (f ∘ view) me p s fate s' := by
  induction h with
  | done a s => exact .done a s
  | crash s => exact .crash s
  | halt h => exact .halt h
  | ask h _ ih => exact .ask h ih
  | others hv _ ih => exact .others (congrArg f hv) ih

theorem Always.of_coarser {ω' : Type} (f : ω → ω') {p : Action σ α} {Q : Fate α → ω' → Prop}
    (h : Always (f ∘ view) me p (f x) Q) : Always view me p x fun fate y => Q fate (f y) :=
  fun s fate s' hs hr => h s fate s' (congrArg f hs) (hr.coarser f)

theorem Yields.always {p : Action σ α} {P : α → ω → Prop} {Q : Fate α → ω → Prop}
    (h : Yields view me p x P) (hQ : ∀ a y, P a y → Q (.returned a) y) : Always view me p x Q :=
  Always.mono h fun fate y hy => by
    cases fate with
    | returned a => exact hQ a y hy
    | crashed => exact hy.elim
    | halted => exact hy.elim

theorem Yields.mono {p : Action σ α} {P P' : α → ω → Prop} (h : Yields view me p x P)
    (hP : ∀ a y, P a y → P' a y) : Yields view me p x P' :=
  h.always hP

theorem always_pure {Q : Fate α → ω → Prop} (a : α) (h : Q (.returned a) x) :
    Always view me (pure a) x Q := by
  intro s fate s' hs hr
  obtain ⟨s₁, hv, rfl, rfl⟩ := hr.goes
  rw [hv, hs]
  exact h

theorem always_crash {Q : Fate α → ω → Prop} (h : Q .crashed x) :
    Always view me (.crash : Action σ α) x Q := by
  intro s fate s' hs hr
  obtain ⟨s₁, hv, rfl, rfl⟩ := hr.goes
  rw [hv, hs]
  exact h

theorem always_ask_iff {act : Act σ} {next : act.Answer → Action σ α} {Q : Fate α → ω → Prop} :
    Always view me (.ask act next) x Q ↔
      (∀ s answer s', view s = x → act.run me s = some (answer, s') →
        Always view me (next answer) (view s') Q) ∧
      ((∃ s, view s = x) → (∀ s, act.run me s = none) → Q .halted x) := by
  constructor
  · intro h
    constructor
    · intro s answer s' hs hact t fate t' ht hr
      exact h s fate t' hs (.ask hact (.others ht hr))
    · rintro ⟨s, rfl⟩ hnone
      exact h s .halted s rfl (.halt hnone)
  · rintro ⟨hstep, hhalt⟩ s fate s' hs hr
    obtain ⟨s₁, hv, hgo⟩ := hr.goes
    rcases hgo with ⟨rfl, rfl, hnone⟩ | ⟨answer, s₂, hact, hr⟩
    · rw [hv, hs]
      exact hhalt ⟨s, hs⟩ hnone
    · exact hstep s₁ answer s₂ (hv.trans hs) hact s₂ fate s' rfl hr

theorem Always.bind {p : Action σ α} {f : α → Action σ β} {R : Fate α → ω → Prop}
    {Q : Fate β → ω → Prop} (hp : Always view me p x R)
    (hf : ∀ a y, R (.returned a) y → Always view me (f a) y Q)
    (hcrash : ∀ y, R .crashed y → Q .crashed y) (hhalt : ∀ y, R .halted y → Q .halted y) :
    Always view me (p >>= f) x Q := by
  induction p generalizing x with
  | done a =>
    intro s fate s' hs hr
    exact hf a x (hs ▸ hp s _ s hs (.done _ _)) s fate s' hs hr
  | crash =>
    intro s fate s' hs hr
    exact always_crash (hcrash x (hs ▸ hp s _ s hs (.crash _))) s fate s' hs hr
  | ask act next ih =>
    obtain ⟨hstep, hend⟩ := always_ask_iff.mp hp
    refine always_ask_iff.mpr ⟨fun s answer s' hs hact => ih answer (hstep s answer s' hs hact), ?_⟩
    intro hx hnone
    exact hhalt x (hend hx hnone)

theorem Yields.bind {p : Action σ α} {f : α → Action σ β} {P : α → ω → Prop}
    {Q : Fate β → ω → Prop} (hp : Yields view me p x P)
    (hf : ∀ a y, P a y → Always view me (f a) y Q) : Always view me (p >>= f) x Q :=
  Always.bind hp hf (fun _ h => h.elim) (fun _ h => h.elim)

def Fate.attempted : Fate α → Fate (Option α)
  | .returned a => .returned (some a)
  | .crashed => .returned none
  | .halted => .halted

theorem Always.attempt {p : Action σ α} {Q : Fate (Option α) → ω → Prop}
    (h : Always view me p x fun fate y => Q fate.attempted y) :
    Always view me (Program.attempt p) x Q := by
  induction p generalizing x with
  | done a =>
    intro s fate s' hs hr
    exact always_pure (some a) (hs ▸ h s _ s hs (.done a s)) s fate s' hs hr
  | crash =>
    intro s fate s' hs hr
    exact always_pure none (hs ▸ h s _ s hs (.crash s)) s fate s' hs hr
  | ask act next ih =>
    obtain ⟨hstep, hend⟩ := always_ask_iff.mp h
    exact always_ask_iff.mpr
      ⟨fun s answer s' hs hact => ih answer (hstep s answer s' hs hact), hend⟩

/-! ## Actions that can fail -/

theorem Always.run_bind {p : ExceptT ε (Action σ) α} {f : α → ExceptT ε (Action σ) β}
    {R : Fate (Except ε α) → ω → Prop} {Q : Fate (Except ε β) → ω → Prop}
    (hp : Always view me p.run x R)
    (hok : ∀ a y, R (.returned (.ok a)) y → Always view me (f a).run y Q)
    (herror : ∀ e y, R (.returned (.error e)) y → Q (.returned (.error e)) y)
    (hcrash : ∀ y, R .crashed y → Q .crashed y) (hhalt : ∀ y, R .halted y → Q .halted y) :
    Always view me (p >>= f).run x Q :=
  Always.bind hp
    (fun r y hr => by
      cases r with
      | ok a => exact hok a y hr
      | error e => exact always_pure _ (herror e y hr))
    hcrash hhalt

theorem Yields.run_bind {p : ExceptT ε (Action σ) α} {f : α → ExceptT ε (Action σ) β}
    {P : Except ε α → ω → Prop} {Q : Fate (Except ε β) → ω → Prop} (hp : Yields view me p.run x P)
    (hok : ∀ a y, P (.ok a) y → Always view me (f a).run y Q)
    (herror : ∀ e y, P (.error e) y → Q (.returned (.error e)) y) :
    Always view me (p >>= f).run x Q :=
  Always.run_bind hp hok herror (fun _ h => h.elim) (fun _ h => h.elim)

theorem run_lift_bind (p : Action σ α) (f : α → ExceptT ε (Action σ) β) :
    ((liftM p : ExceptT ε (Action σ) α) >>= f).run = p >>= fun a => (f a).run := by
  change (p >>= fun a => pure (Except.ok a)) >>= _ = _
  exact Program.bind_assoc p _ _

theorem Always.lift_bind {p : Action σ α} {f : α → ExceptT ε (Action σ) β}
    {R : Fate α → ω → Prop} {Q : Fate (Except ε β) → ω → Prop} (hp : Always view me p x R)
    (hf : ∀ a y, R (.returned a) y → Always view me (f a).run y Q)
    (hcrash : ∀ y, R .crashed y → Q .crashed y) (hhalt : ∀ y, R .halted y → Q .halted y) :
    Always view me ((liftM p : ExceptT ε (Action σ) α) >>= f).run x Q := by
  rw [run_lift_bind]
  exact Always.bind hp hf hcrash hhalt

theorem Always.discard_lift {p : Action σ α} {R : Fate α → ω → Prop}
    {Q : Fate (Except ε Unit) → ω → Prop} (hp : Always view me p x R)
    (hreturned : ∀ a y, R (.returned a) y → Q (.returned (.ok ())) y)
    (hcrash : ∀ y, R .crashed y → Q .crashed y) (hhalt : ∀ y, R .halted y → Q .halted y) :
    Always view me (Functor.discard (liftM p : ExceptT ε (Action σ) α)).run x Q := by
  have hrun : (Functor.discard (liftM p : ExceptT ε (Action σ) α)).run =
      p >>= fun _ => pure (.ok ()) := by
    change (p >>= fun a => pure (Except.ok a)) >>= _ = _
    exact Program.bind_assoc p _ _
  rw [hrun]
  exact Always.bind hp (fun a y hy => always_pure _ (hreturned a y hy)) hcrash hhalt

theorem Yields.lift_bind {p : Action σ α} {f : α → ExceptT ε (Action σ) β} {P : α → ω → Prop}
    {Q : Fate (Except ε β) → ω → Prop} (hp : Yields view me p x P)
    (hf : ∀ a y, P a y → Always view me (f a).run y Q) :
    Always view me ((liftM p : ExceptT ε (Action σ) α) >>= f).run x Q :=
  Always.lift_bind hp hf (fun _ h => h.elim) (fun _ h => h.elim)

theorem Yields.lift {p : Action σ α} {P : α → ω → Prop} {Q : Fate (Except ε α) → ω → Prop}
    (hp : Yields view me p x P) (hQ : ∀ a y, P a y → Q (.returned (.ok a)) y) :
    Always view me (liftM p : ExceptT ε (Action σ) α).run x Q :=
  Yields.bind hp fun a y hy => always_pure _ (hQ a y hy)

/-! ## Single steps -/

theorem always_await {f : σ → Option (α × σ)} {Q : Fate α → ω → Prop}
    (h : ∀ s a s', view s = x → f s = some (a, s') → Q (.returned a) (view s'))
    (hwait : ∀ s, view s = x → ∃ s', f s' ≠ none) : Always view me (await f) x Q := by
  refine always_ask_iff.mpr ⟨fun s a s' hs hf => always_pure a (h s a s' hs hf), ?_⟩
  rintro ⟨s, hs⟩ hnone
  obtain ⟨s', hs'⟩ := hwait s hs
  exact absurd (hnone s') hs'

theorem always_halt {Q : Fate α → ω → Prop} (h : Q .halted x) :
    Always view me (halt : Action σ α) x Q :=
  always_ask_iff.mpr ⟨fun _ _ _ _ hact => (by cases hact), fun _ _ => h⟩

theorem yields_step {f : σ → α × σ} {P : α → ω → Prop}
    (h : ∀ s, view s = x → P (f s).1 (view (f s).2)) : Yields view me (step f) x P := by
  refine always_await ?_ fun s _ => ⟨s, by simp⟩
  intro s a s' hs hf
  have hfs : f s = (a, s') := Option.some.inj hf
  have hP := h s hs
  rw [hfs] at hP
  exact hP

theorem yields_read {f : σ → α} {P : α → ω → Prop} (h : ∀ s, view s = x → P (f s) x) :
    Yields view me (read f) x P :=
  yields_step fun s hs => by
    rw [hs]
    exact h s hs

theorem yields_update {f : σ → σ} {P : Unit → ω → Prop}
    (h : ∀ s, view s = x → P () (view (f s))) : Yields view me (update f) x P :=
  yields_step h

theorem Runs.exists_of_yields {p : Action σ α} {f : α → Action σ β} {P : α → ω → Prop} {s s'' : σ}
    {fate : Fate β} (h : Runs view me (p >>= f) s fate s'') (hp : Yields view me p (view s) P) :
    ∃ a s', P a (view s') ∧ Runs view me (f a) s' fate s'' := by
  rcases h.bind_cases with ⟨a, s', hr, hf⟩ | ⟨-, hr⟩ | ⟨-, hr⟩
  · exact ⟨a, s', hp s _ s' rfl hr, hf⟩
  · exact (hp s _ _ rfl hr).elim
  · exact (hp s _ _ rfl hr).elim

theorem yields_self {P : ThreadId → ω → Prop} (h : P me x) :
    Yields view me (self : Action σ ThreadId) x P := by
  refine always_ask_iff.mpr ⟨fun s answer s' hs hact => ?_, ?_⟩
  · cases hact
    exact always_pure me (hs ▸ h)
  · rintro ⟨s, hs⟩ hnone
    cases hnone s

/-! ## What holds of an action if it holds of its parts -/

/-- A property of actions that whatever is made of such actions has as well. -/
structure Compositional (P : (α : Type) → Action σ α → Prop) : Prop where
  done {α : Type} (a : α) : P α (.done a)
  crash {α : Type} : P α .crash
  bind {α β : Type} {p : Action σ α} {f : α → Action σ β} (hp : P α p) (hf : ∀ a, P β (f a)) :
    P β (p >>= f)
  attempt {α : Type} {p : Action σ α} (hp : P α p) : P (Option α) (Program.attempt p)

namespace Compositional

variable {P : (α : Type) → Action σ α → Prop} (h : Compositional P)
include h

theorem run_bind {p : ExceptT ε (Action σ) α} {f : α → ExceptT ε (Action σ) β}
    (hp : P (Except ε α) p.run) (hf : ∀ a, P (Except ε β) (f a).run) :
    P (Except ε β) (p >>= f).run :=
  h.bind hp fun r => by
    cases r with
    | ok a => exact hf a
    | error e => exact h.done _

theorem lift {p : Action σ α} (hp : P α p) :
    P (Except ε α) (liftM p : ExceptT ε (Action σ) α).run :=
  h.bind hp fun _ => h.done _

end Compositional

/-! ## Actions that leave the view alone -/

def Keeps (view : σ → ω) : Action σ α → Prop
  | .done _ => True
  | .crash => True
  | .ask act next =>
    (∀ me s answer s', act.run me s = some (answer, s') → view s' = view s) ∧
      ∀ answer, Keeps view (next answer)

theorem Keeps.always {p : Action σ α} (h : Keeps view p) : Always view me p x fun _ y => y = x := by
  induction p with
  | done a => exact always_pure a rfl
  | crash => exact always_crash rfl
  | ask act next ih =>
    refine always_ask_iff.mpr ⟨fun s answer s' hs hact => ?_, fun _ _ => rfl⟩
    rw [h.1 me s answer s' hact, hs]
    exact ih answer (h.2 answer)

theorem keeps_pure (a : α) : Keeps view (pure a : Action σ α) := trivial

theorem keeps_crash : Keeps view (.crash : Action σ α) := trivial

theorem Keeps.bind {p : Action σ α} {f : α → Action σ β} (hp : Keeps view p)
    (hf : ∀ a, Keeps view (f a)) : Keeps view (p >>= f) := by
  induction p with
  | done a => exact hf a
  | crash => trivial
  | ask act next ih => exact ⟨hp.1, fun answer => ih answer (hp.2 answer)⟩

theorem Keeps.attempt {p : Action σ α} (hp : Keeps view p) : Keeps view (Program.attempt p) := by
  induction p with
  | done a => trivial
  | crash => trivial
  | ask act next ih => exact ⟨hp.1, fun answer => ih answer (hp.2 answer)⟩

theorem compositional_keeps (view : σ → ω) : Compositional fun _ (p : Action σ _) => Keeps view p :=
  ⟨keeps_pure, keeps_crash, Keeps.bind, Keeps.attempt⟩

theorem keeps_await {f : σ → Option (α × σ)}
    (h : ∀ s a s', f s = some (a, s') → view s' = view s) : Keeps view (await f) :=
  ⟨fun _ => h, fun _ => trivial⟩

theorem keeps_step {f : σ → α × σ} (h : ∀ s, view (f s).2 = view s) : Keeps view (step f) :=
  keeps_await fun s a s' hs => by
    have hfs : f s = (a, s') := Option.some.inj hs
    have hv := h s
    rw [hfs] at hv
    exact hv

theorem keeps_read (f : σ → α) : Keeps view (read f) :=
  keeps_step fun _ => rfl

theorem keeps_update {f : σ → σ} (h : ∀ s, view (f s) = view s) : Keeps view (update f) :=
  keeps_step h

theorem keeps_self : Keeps view (self : Action σ ThreadId) :=
  ⟨fun _ _ _ _ h => by cases h; rfl, fun _ => trivial⟩

theorem keeps_halt : Keeps view (halt : Action σ α) :=
  keeps_await fun _ _ _ h => by cases h

theorem Keeps.run_bind {p : ExceptT ε (Action σ) α} {f : α → ExceptT ε (Action σ) β}
    (hp : Keeps view p.run) (hf : ∀ a, Keeps view (f a).run) : Keeps view (p >>= f).run :=
  (compositional_keeps view).run_bind hp hf

theorem Keeps.lift {p : Action σ α} (hp : Keeps view p) :
    Keeps view (liftM p : ExceptT ε (Action σ) α).run :=
  (compositional_keeps view).lift hp

/-! ## Actions that come to an end -/

variable {stops : Prop}

/-- Each step can be taken once the others have let it, but for those that nobody can ever take, if
there may be such. -/
def Feasible (view : σ → ω) (stops : Prop) : Action σ α → Prop
  | .done _ => True
  | .crash => True
  | .ask act next =>
    (∀ me, (stops ∧ ∀ s, act.run me s = none) ∨
      ∀ s, ∃ s', view s' = view s ∧ act.run me s' ≠ none) ∧
      ∀ answer, Feasible view stops (next answer)

theorem Feasible.exists_runs {p : Action σ α} (h : Feasible view stops p) (me : ThreadId) (s : σ) :
    ∃ fate s', Runs view me p s fate s' := by
  induction p generalizing s with
  | done a => exact ⟨_, _, .done a s⟩
  | crash => exact ⟨_, _, .crash s⟩
  | ask act next ih =>
    rcases h.1 me with ⟨-, hnone⟩ | hsome
    · exact ⟨_, _, .halt hnone⟩
    · obtain ⟨s₁, hview, hact⟩ := hsome s
      obtain ⟨⟨answer, s₂⟩, hr⟩ := Option.ne_none_iff_exists'.mp hact
      obtain ⟨fate, s', hruns⟩ := ih answer (h.2 answer) s₂
      exact ⟨fate, s', .others hview (.ask hr hruns)⟩

theorem Feasible.yields_attempt {p : Action σ α} (h : Feasible view False p)
    (hkeeps : Keeps view p) :
    Yields view me (Program.attempt p) x fun _ y => y = x := by
  refine Always.attempt ?_
  induction p with
  | done a => exact always_pure a rfl
  | crash => exact always_crash rfl
  | ask act next ih =>
    refine always_ask_iff.mpr ⟨fun s answer s' hs hact => ?_, ?_⟩
    · rw [hkeeps.1 me s answer s' hact, hs]
      exact ih answer (h.2 answer) (hkeeps.2 answer)
    · rintro ⟨s, -⟩ hnone
      rcases h.1 me with ⟨hstops, -⟩ | hsome
      · exact hstops.elim
      · obtain ⟨s', -, hact⟩ := hsome s
        exact absurd (hnone s') hact

theorem feasible_pure (a : α) : Feasible view stops (pure a : Action σ α) := trivial

theorem feasible_crash : Feasible view stops (.crash : Action σ α) := trivial

theorem Feasible.bind {p : Action σ α} {f : α → Action σ β} (hp : Feasible view stops p)
    (hf : ∀ a, Feasible view stops (f a)) : Feasible view stops (p >>= f) := by
  induction p with
  | done a => exact hf a
  | crash => trivial
  | ask act next ih => exact ⟨hp.1, fun answer => ih answer (hp.2 answer)⟩

theorem Feasible.attempt {p : Action σ α} (hp : Feasible view stops p) :
    Feasible view stops (Program.attempt p) := by
  induction p with
  | done a => trivial
  | crash => trivial
  | ask act next ih => exact ⟨hp.1, fun answer => ih answer (hp.2 answer)⟩

theorem compositional_feasible (view : σ → ω) (stops : Prop) :
    Compositional fun _ (p : Action σ _) => Feasible view stops p :=
  ⟨feasible_pure, feasible_crash, Feasible.bind, Feasible.attempt⟩

theorem feasible_await {f : σ → Option (α × σ)} (h : ∀ s, ∃ s', view s' = view s ∧ f s' ≠ none) :
    Feasible view stops (await f) :=
  ⟨fun _ => .inr h, fun _ => trivial⟩

theorem feasible_step (f : σ → α × σ) : Feasible view stops (step f) :=
  feasible_await fun s => ⟨s, rfl, by simp⟩

theorem feasible_read (f : σ → α) : Feasible view stops (read f) :=
  feasible_step _

theorem feasible_update (f : σ → σ) : Feasible view stops (update f) :=
  feasible_step _

theorem feasible_self : Feasible view stops (self : Action σ ThreadId) :=
  ⟨fun _ => .inr fun s => ⟨s, rfl, by simp⟩, fun _ => trivial⟩

theorem feasible_halt : Feasible view True (halt : Action σ α) :=
  ⟨fun _ => .inl ⟨trivial, fun _ => rfl⟩, fun _ => trivial⟩

theorem Feasible.run_bind {p : ExceptT ε (Action σ) α} {f : α → ExceptT ε (Action σ) β}
    (hp : Feasible view stops p.run) (hf : ∀ a, Feasible view stops (f a).run) :
    Feasible view stops (p >>= f).run :=
  (compositional_feasible view stops).run_bind hp hf

theorem Feasible.lift {p : Action σ α} (hp : Feasible view stops p) :
    Feasible view stops (liftM p : ExceptT ε (Action σ) α).run :=
  (compositional_feasible view stops).lift hp

end SessionShell.Action
