import SessionShell.Proofs.Program.Serving
import SessionShell.Proofs.Team.Shadow

/-!
Actions under observation.

An observer sees every step of a thread. Some steps it forbids, and of the others it keeps a record.
What is shown of an observed thread is shown of every course on which only such steps are taken as
the observer allows.
-/

namespace SessionShell.Action

variable {σ ν α β ε : Type}

/-- Every step of the action is as `R` says. -/
def Within (R : σ → σ → Prop) : Action σ α → Prop
  | .done _ => True
  | .crash => True
  | .ask act next =>
    (∀ me s answer s', act.run me s = some (answer, s') → R s s') ∧ ∀ answer, Within R (next answer)

section Within

variable {R : σ → σ → Prop}

theorem within_pure (a : α) : Within R (pure a : Action σ α) := trivial

theorem within_crash : Within R (.crash : Action σ α) := trivial

theorem Within.bind {p : Action σ α} {f : α → Action σ β} (hp : Within R p)
    (hf : ∀ a, Within R (f a)) : Within R (p >>= f) := by
  induction p with
  | done a => exact hf a
  | crash => trivial
  | ask act next ih => exact ⟨hp.1, fun answer => ih answer (hp.2 answer)⟩

theorem Within.attempt {p : Action σ α} (hp : Within R p) : Within R (Program.attempt p) := by
  induction p with
  | done a => trivial
  | crash => trivial
  | ask act next ih => exact ⟨hp.1, fun answer => ih answer (hp.2 answer)⟩

theorem compositional_within (R : σ → σ → Prop) :
    Compositional fun _ (p : Action σ _) => Within R p :=
  ⟨within_pure, within_crash, Within.bind, Within.attempt⟩

theorem Within.discard {p : Action σ α} (hp : Within R p) : Within R (Functor.discard p) :=
  hp.bind fun _ => trivial

theorem Within.mono {R' : σ → σ → Prop} {p : Action σ α} (hp : Within R p)
    (h : ∀ s s', R s s' → R' s s') : Within R' p := by
  induction p with
  | done a => trivial
  | crash => trivial
  | ask act next ih =>
    exact ⟨fun me s answer s' hact => h s s' (hp.1 me s answer s' hact),
      fun answer => ih answer (hp.2 answer)⟩

theorem Within.and {R' : σ → σ → Prop} {p : Action σ α} (hp : Within R p) (hp' : Within R' p) :
    Within (fun s s' => R s s' ∧ R' s s') p := by
  induction p with
  | done a => trivial
  | crash => trivial
  | ask act next ih =>
    exact ⟨fun me s answer s' hact => ⟨hp.1 me s answer s' hact, hp'.1 me s answer s' hact⟩,
      fun answer => ih answer (hp.2 answer) (hp'.2 answer)⟩

theorem Keeps.within {ω : Type} {view : σ → ω} {p : Action σ α} (hp : Keeps view p)
    (h : ∀ s s', view s' = view s → R s s') : Within R p := by
  induction p with
  | done a => trivial
  | crash => trivial
  | ask act next ih =>
    exact ⟨fun me s answer s' hact => h s s' (hp.1 me s answer s' hact),
      fun answer => ih answer (hp.2 answer)⟩

theorem within_await {f : σ → Option (α × σ)} (h : ∀ s a s', f s = some (a, s') → R s s') :
    Within R (await f) :=
  ⟨fun _ => h, fun _ => trivial⟩

theorem within_step {f : σ → α × σ} (h : ∀ s, R s (f s).2) : Within R (step f) :=
  within_await fun s a s' hs => by
    have hfs : f s = (a, s') := Option.some.inj hs
    have hR := h s
    rwa [hfs] at hR

theorem within_update {f : σ → σ} (h : ∀ s, R s (f s)) : Within R (update f) :=
  within_step h

theorem within_read (hrefl : ∀ s, R s s) (f : σ → α) : Within R (read f) :=
  within_step hrefl

theorem within_self (hrefl : ∀ s, R s s) : Within R (self : Action σ ThreadId) :=
  ⟨fun _ s _ _ h => by cases h; exact hrefl s, fun _ => trivial⟩

theorem within_halt : Within R (halt : Action σ α) :=
  within_await fun _ _ _ h => by cases h

theorem Within.run_bind {p : ExceptT ε (Action σ) α} {f : α → ExceptT ε (Action σ) β}
    (hp : Within R p.run) (hf : ∀ a, Within R (f a).run) : Within R (p >>= f).run :=
  (compositional_within R).run_bind hp hf

theorem Within.lift {p : Action σ α} (hp : Within R p) :
    Within R (liftM p : ExceptT ε (Action σ) α).run :=
  (compositional_within R).lift hp

theorem within_expand {Call : Type _} {Reply : Call → Type} {p : Program Call Reply α}
    {f : (c : Call) → Action σ (Reply c)} (hf : ∀ c, p.MayAsk c → Within R (f c)) :
    Within R (p.expand f) := by
  induction p with
  | done a => trivial
  | crash => trivial
  | ask call next ih =>
    exact Within.bind (hf call .here) fun reply => ih reply fun c hc => hf c (.later hc)

theorem Safe.and_within {rely guar : σ → σ → Prop} {me : ThreadId} {Q : Fate α → σ → Prop}
    {K : σ → Prop} {p : Action σ α} {s : σ} (h : Safe rely guar me Q p s) (hp : Within R p)
    (hrely : Stable rely K) (hR : ∀ s s', K s → R s s' → K s') (hs : K s) :
    Safe rely (fun s s' => guar s s' ∧ K s ∧ K s') me Q p s := by
  induction p generalizing s with
  | done a => exact h
  | crash => exact h
  | ask act next ih =>
    intro s' answer s'' hr hact
    obtain ⟨hguar, hnext⟩ := h s' answer s'' hr hact
    have hs' := hrely s s' hs hr
    have hs'' := hR s' s'' hs' (hp.1 me s' answer s'' hact)
    exact ⟨⟨hguar, hs', hs''⟩, ih answer hnext (hp.2 answer) hs''⟩

end Within

/-! ## Observers -/

/-- Forbids some of the steps of a thread, and keeps a record of the others. -/
structure Observer (σ ν : Type) where
  allowed : ThreadId → σ → σ → Bool
  notes : ThreadId → σ → σ → ν → ν

namespace Observer

variable (o : Observer σ ν)

def act (act : Act σ) : Act (σ × ν) :=
  ⟨act.Answer, fun me γ => (act.run me γ.1).bind fun r =>
    if o.allowed me γ.1 r.2 then some (r.1, r.2, o.notes me γ.1 r.2 γ.2) else none⟩

def observe : Action σ α → Action (σ × ν) α
  | .done a => .done a
  | .crash => .crash
  | .ask act next => .ask (o.act act) fun answer => observe (next answer)

variable {o}

theorem observe_bind (p : Action σ α) (f : α → Action σ β) :
    o.observe (p >>= f) = o.observe p >>= fun a => o.observe (f a) := by
  induction p with
  | done a => rfl
  | crash => rfl
  | ask act next ih => exact congrArg (Program.ask _) (funext ih)

theorem observe_attempt (p : Action σ α) :
    o.observe (Program.attempt p) = Program.attempt (o.observe p) := by
  induction p with
  | done a => rfl
  | crash => rfl
  | ask act next ih => exact congrArg (Program.ask _) (funext ih)

theorem run_act {act : Act σ} {me : ThreadId} {γ γ' : σ × ν} {answer : act.Answer}
    (h : (o.act act).run me γ = some (answer, γ')) :
    ∃ s', act.run me γ.1 = some (answer, s') ∧ o.allowed me γ.1 s' = true ∧
      γ' = (s', o.notes me γ.1 s' γ.2) := by
  obtain ⟨⟨answer', s'⟩, hact, hif⟩ := Option.bind_eq_some_iff.mp h
  dsimp only at hif
  split at hif
  · next hallowed =>
    cases hif
    exact ⟨s', hact, hallowed, rfl⟩
  · cases hif

theorem follows_observe (p : Action σ α) :
    Follows (fun me s s' => o.allowed me s s' = true) (o.observe p) p := by
  induction p with
  | done a => exact .done a
  | crash => exact .crash
  | ask act next ih =>
    refine .ask (fun me s r answer s' hact hallowed => ⟨o.notes me s s' r, ?_⟩)
      (fun me γ answer γ' hrun => ?_) ih
    · simp [hact, hallowed]
    · obtain ⟨s', hact, -, rfl⟩ := run_act hrun
      exact hact

def idle : Observer σ ν :=
  ⟨fun _ _ _ => true, fun _ _ _ r => r⟩

theorem silent_eq_observe (p : Action σ α) : (silent p : Action (σ × ν) α) = idle.observe p := by
  induction p with
  | done a => rfl
  | crash => rfl
  | ask act next ih =>
    have hrun : (notedAct act fun _ _ r => r : Act (σ × ν)).run = (idle.act act).run := by
      funext me γ
      simp [notedAct, Observer.act, idle, Option.map_eq_bind, Function.comp_def]
    have hask : ∀ run : ThreadId → σ × ν → Option (act.Answer × (σ × ν)), run = (idle.act act).run →
        Program.ask (⟨act.Answer, run⟩ : Act (σ × ν)) (fun answer => silent (next answer)) =
          idle.observe (.ask act next) := by
      rintro run rfl
      exact congrArg (Program.ask (idle.act act)) (funext ih)
    exact hask _ hrun

end Observer

section Upholds

variable {o : Observer σ ν} {rely guar : σ × ν → σ × ν → Prop} {me : ThreadId} {P : σ × ν → Prop}

theorem upholds_observe_await {f : σ → Option (α × σ)} {R : α → σ × ν → Prop} (hP : Stable rely P)
    (hR : ∀ a, Stable rely (R a))
    (h : ∀ s r a s', P (s, r) → f s = some (a, s') → o.allowed me s s' = true →
      guar (s, r) (s', o.notes me s s' r) ∧ R a (s', o.notes me s s' r)) :
    Upholds rely guar me P (o.observe (await f)) (Fate.Returns R) := by
  intro γ hγ γ' answer γ'' hr hact
  obtain ⟨s', hf, hallowed, rfl⟩ := Observer.run_act hact
  have hs' := h γ'.1 γ'.2 answer s' (hP γ γ' hγ hr) hf hallowed
  exact ⟨hs'.1, fun t ht => hR answer _ t hs'.2 ht⟩

theorem upholds_observe_step {f : σ → α × σ} {R : α → σ × ν → Prop} (hP : Stable rely P)
    (hR : ∀ a, Stable rely (R a)) (h : ∀ s r, P (s, r) → o.allowed me s (f s).2 = true →
      guar (s, r) ((f s).2, o.notes me s (f s).2 r) ∧ R (f s).1 ((f s).2, o.notes me s (f s).2 r)) :
    Upholds rely guar me P (o.observe (step f)) (Fate.Returns R) :=
  upholds_observe_await hP hR fun s r a s' hs hact hallowed => by
    have hf : f s = (a, s') := Option.some.inj hact
    have hs' := h s r hs
    rw [hf] at hs'
    exact hs' hallowed

theorem upholds_observe_self {R : ThreadId → σ × ν → Prop} (hP : Stable rely P)
    (hR : Stable rely (R me))
    (h : ∀ s r, P (s, r) → guar (s, r) (s, o.notes me s s r) ∧ R me (s, o.notes me s s r)) :
    Upholds rely guar me P (o.observe self) (Fate.Returns R) := by
  intro γ hγ γ' answer γ'' hr hact
  obtain ⟨s', hf, -, rfl⟩ := Observer.run_act hact
  cases hf
  have hs' := h γ'.1 γ'.2 (hP γ γ' hγ hr)
  exact ⟨hs'.1, fun t ht => hR _ t hs'.2 ht⟩

theorem upholds_observe_pure {Q : Fate α → σ × ν → Prop} (a : α) (hP : Stable rely P)
    (h : ∀ γ, P γ → Q (.returned a) γ) : Upholds rely guar me P (o.observe (pure a)) Q :=
  fun γ hγ γ' hr => h γ' (hP γ γ' hγ hr)

theorem Upholds.observe_bind {R : α → σ × ν → Prop} {Q : Fate β → σ × ν → Prop} {p : Action σ α}
    {f : α → Action σ β} (hp : Upholds rely guar me P (o.observe p) (Fate.Returns R))
    (hrefl : ∀ γ, rely γ γ) (hf : ∀ a, Upholds rely guar me (R a) (o.observe (f a)) Q) :
    Upholds rely guar me P (o.observe (p >>= f)) Q := by
  rw [Observer.observe_bind]
  exact hp.bind hrefl hf

theorem Upholds.observe_run_bind {R : Except ε α → σ × ν → Prop}
    {Q : Fate (Except ε β) → σ × ν → Prop} {p : ExceptT ε (Action σ) α}
    {f : α → ExceptT ε (Action σ) β}
    (hp : Upholds rely guar me P (o.observe p.run) (Fate.Returns R))
    (hrefl : ∀ γ, rely γ γ) (hok : ∀ a, Upholds rely guar me (R (.ok a)) (o.observe (f a).run) Q)
    (herror : ∀ e, Upholds rely guar me (R (.error e)) (o.observe (pure (.error e))) Q) :
    Upholds rely guar me P (o.observe (p >>= f).run) Q :=
  Upholds.observe_bind hp hrefl fun r => by
    cases r with
    | ok a => exact hok a
    | error e => exact herror e

theorem Upholds.observe_lift_bind {R : α → σ × ν → Prop} {Q : Fate (Except ε β) → σ × ν → Prop}
    {p : Action σ α} {f : α → ExceptT ε (Action σ) β}
    (hp : Upholds rely guar me P (o.observe p) (Fate.Returns R)) (hrefl : ∀ γ, rely γ γ)
    (hf : ∀ a, Upholds rely guar me (R a) (o.observe (f a).run) Q) :
    Upholds rely guar me P (o.observe ((liftM p : ExceptT ε (Action σ) α) >>= f).run) Q := by
  rw [run_lift_bind]
  exact Upholds.observe_bind hp hrefl hf

end Upholds

/-! ## What lasts -/

/-- `P` holds all the time, and still holds in the end, whichever way that comes. What is returned
is as `Q` says. -/
structure Lasts (o : Observer σ ν) (rely guar : σ × ν → σ × ν → Prop) (me : ThreadId)
    (P : σ × ν → Prop) (p : Action σ α) (Q : α → Prop) : Prop where
  upholds : Upholds rely guar me P (o.observe p) fun fate γ => P γ ∧ ∀ a, fate = .returned a → Q a

section Lasts

variable {o : Observer σ ν} {rely guar : σ × ν → σ × ν → Prop} {me : ThreadId} {P : σ × ν → Prop}
  {Q : α → Prop} {R : β → Prop}

theorem lasts_pure {a : α} (hP : Stable rely P) (h : Q a) : Lasts o rely guar me P (pure a) Q :=
  ⟨fun γ hγ γ' hr => ⟨hP γ γ' hγ hr, fun _ ha => by cases ha; exact h⟩⟩

theorem lasts_crash (hP : Stable rely P) : Lasts o rely guar me P .crash Q :=
  ⟨fun γ hγ γ' hr => ⟨hP γ γ' hγ hr, fun _ ha => nomatch ha⟩⟩

theorem Upholds.lasts {S : α → σ × ν → Prop} {p : Action σ α}
    (h : Upholds rely guar me P (o.observe p) (Fate.Returns S)) (hS : ∀ a γ, S a γ → P γ ∧ Q a) :
    Lasts o rely guar me P p Q := by
  refine ⟨fun γ hγ => (h γ hγ).mono fun fate γ' hfate => ?_⟩
  cases fate with
  | returned a => exact ⟨(hS a γ' hfate).1, fun _ ha => by cases ha; exact (hS a γ' hfate).2⟩
  | crashed => exact hfate.elim
  | halted => exact hfate.elim

theorem Lasts.mono {Q' : α → Prop} {p : Action σ α} (h : Lasts o rely guar me P p Q)
    (hQ : ∀ a, Q a → Q' a) : Lasts o rely guar me P p Q' :=
  ⟨fun γ hγ => (h.upholds γ hγ).mono fun _ _ hfate => ⟨hfate.1, fun a ha => hQ a (hfate.2 a ha)⟩⟩

theorem Lasts.bind {p : Action σ α} {f : α → Action σ β} (hrefl : ∀ γ, rely γ γ)
    (hp : Lasts o rely guar me P p Q) (hf : ∀ a, Q a → Lasts o rely guar me P (f a) R) :
    Lasts o rely guar me P (p >>= f) R := by
  refine ⟨fun γ hγ => ?_⟩
  rw [Observer.observe_bind]
  exact (hp.upholds γ hγ).bind_fate hrefl
    (fun a γ' hγ' => (hf a (hγ'.2 a rfl)).upholds γ' hγ'.1) fun _ h => ⟨h.1, fun _ ha => nomatch ha⟩

theorem Lasts.discard {p : Action σ α} (hP : Stable rely P) (hrefl : ∀ γ, rely γ γ)
    (hp : Lasts o rely guar me P p Q) :
    Lasts o rely guar me P (Functor.discard p) fun _ => True :=
  hp.bind hrefl fun _ _ => lasts_pure hP trivial

theorem Lasts.attempt {p : Action σ α} (hp : Lasts o rely guar me P p Q) :
    Lasts o rely guar me P (Program.attempt p) fun a? => ∀ a, a? = some a → Q a := by
  refine ⟨fun γ hγ => ?_⟩
  rw [Observer.observe_attempt]
  refine (hp.upholds γ hγ).attempt (fun a γ' h => ⟨h.1, fun a? ha? => ?_⟩)
    fun γ' h => ⟨h.1, fun a? ha? => ?_⟩
  · cases ha?
    intro a' ha'
    exact Option.some.inj ha' ▸ h.2 a rfl
  · cases ha?
    exact fun _ h => nomatch h

theorem Lasts.run_bind {p : ExceptT ε (Action σ) α} {f : α → ExceptT ε (Action σ) β}
    {Q : Except ε α → Prop} {R : Except ε β → Prop} (hP : Stable rely P) (hrefl : ∀ γ, rely γ γ)
    (hp : Lasts o rely guar me P p.run Q)
    (hok : ∀ a, Q (.ok a) → Lasts o rely guar me P (f a).run R)
    (herror : ∀ e, Q (.error e) → R (.error e)) : Lasts o rely guar me P (p >>= f).run R :=
  Lasts.bind hrefl hp fun r hr => by
    cases r with
    | ok a => exact hok a hr
    | error e => exact lasts_pure hP (herror e hr)

theorem Lasts.lift_bind {p : Action σ α} {f : α → ExceptT ε (Action σ) β} {R : Except ε β → Prop}
    (hrefl : ∀ γ, rely γ γ) (hp : Lasts o rely guar me P p Q)
    (hf : ∀ a, Q a → Lasts o rely guar me P (f a).run R) :
    Lasts o rely guar me P ((liftM p : ExceptT ε (Action σ) α) >>= f).run R := by
  rw [run_lift_bind]
  exact hp.bind hrefl hf

theorem Upholds.lasts_bind {S : α → σ × ν → Prop} {p : Action σ α} {f : α → Action σ β}
    (hp : Upholds rely guar me P (o.observe p) (Fate.Returns S)) (hrefl : ∀ γ, rely γ γ)
    (hf : ∀ a, Upholds rely guar me (S a) (o.observe (f a)) fun fate γ =>
      P γ ∧ ∀ b, fate = .returned b → R b) : Lasts o rely guar me P (p >>= f) R :=
  ⟨Upholds.observe_bind hp hrefl hf⟩

theorem lasts_expand {Call : Type _} {Reply : Call → Type} {H : Call → Prop}
    {p : Program Call Reply α} {f : (c : Call) → Action σ (Reply c)} (hP : Stable rely P)
    (hrefl : ∀ γ, rely γ γ) (hp : p.Asks H Q)
    (hf : ∀ c, H c → Lasts o rely guar me P (f c) fun _ => True) :
    Lasts o rely guar me P (p.expand f) Q := by
  induction p with
  | done a => exact lasts_pure hP hp
  | crash => exact lasts_crash hP
  | ask call next ih => exact (hf call hp.1).bind hrefl fun reply _ => ih reply (hp.2 reply)

theorem Lasts.and {K : σ × ν → Prop} {p : Action σ α} (h : Lasts o rely guar me P p Q)
    (hrely : Stable rely K) (hguar : Stable guar K) :
    Lasts o rely guar me (fun γ => P γ ∧ K γ) p Q := by
  refine ⟨?_⟩
  rintro γ ⟨hγ, hK⟩
  have hsafe := h.upholds γ hγ
  clear h hγ
  generalize o.observe p = q at hsafe
  induction q generalizing γ with
  | done a => exact fun γ' hr => ⟨⟨(hsafe γ' hr).1, hrely γ γ' hK hr⟩, (hsafe γ' hr).2⟩
  | crash => exact fun γ' hr => ⟨⟨(hsafe γ' hr).1, hrely γ γ' hK hr⟩, (hsafe γ' hr).2⟩
  | ask act next ih =>
    intro γ' answer γ'' hr hact
    obtain ⟨hg, hnext⟩ := hsafe γ' answer γ'' hr hact
    exact ⟨hg, ih answer γ'' (hguar γ' γ'' (hrely γ γ' hK hr) hg) hnext⟩

theorem lasts_step {f : σ → α × σ} (hP : Stable rely P)
    (h : ∀ s r, P (s, r) → guar (s, r) ((f s).2, o.notes me s (f s).2 r) ∧
      P ((f s).2, o.notes me s (f s).2 r) ∧ Q (f s).1) : Lasts o rely guar me P (step f) Q :=
  Upholds.lasts (S := fun a γ => P γ ∧ Q a) (upholds_observe_step hP
    (fun _ γ γ' hγ hr => ⟨hP γ γ' hγ.1 hr, hγ.2⟩) fun s r hs _ => h s r hs) fun _ _ hγ => hγ

theorem lasts_of_within {S : σ → σ → Prop} {p : Action σ α} (hP : Stable rely P)
    (hS : ∀ s r s', P (s, r) → S s s' →
      guar (s, r) (s', o.notes me s s' r) ∧ P (s', o.notes me s s' r))
    (hp : Within S p) : Lasts o rely guar me P p fun _ => True := by
  refine ⟨fun γ hγ => ?_⟩
  induction p generalizing γ with
  | done a => exact fun γ' hr => ⟨hP γ γ' hγ hr, fun _ _ => trivial⟩
  | crash => exact fun γ' hr => ⟨hP γ γ' hγ hr, fun _ _ => trivial⟩
  | ask act next ih =>
    intro γ' answer γ'' hr hact
    obtain ⟨s', hf, -, rfl⟩ := Observer.run_act hact
    obtain ⟨hguar, hP'⟩ := hS γ'.1 γ'.2 s' (hP γ γ' hγ hr) (hp.1 me γ'.1 answer s' hf)
    exact ⟨hguar, ih answer (hp.2 answer) _ hP'⟩

theorem upholds_of_within {S : σ → σ → Prop} {p : Action σ α} (hP : Stable rely P)
    (hS : ∀ s r s', P (s, r) → S s s' →
      guar (s, r) (s', o.notes me s s' r) ∧ P (s', o.notes me s s' r))
    (hp : Within S p) (hcrash : NeverCrashes p) :
    Upholds rely guar me P (o.observe p) (Fate.Returns fun _ => P) := by
  intro γ hγ
  induction p generalizing γ with
  | done a => exact fun γ' hr => hP γ γ' hγ hr
  | crash => exact hcrash.elim
  | ask act next ih =>
    intro γ' answer γ'' hr hact
    obtain ⟨s', hf, -, rfl⟩ := Observer.run_act hact
    obtain ⟨hguar, hP'⟩ := hS γ'.1 γ'.2 s' (hP γ γ' hγ hr) (hp.1 me γ'.1 answer s' hf)
    exact ⟨hguar, ih answer (hp.2 answer) (hcrash answer) _ hP'⟩

end Lasts

end SessionShell.Action
