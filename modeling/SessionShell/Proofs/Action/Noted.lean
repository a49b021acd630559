import SessionShell.Proofs.Action.Crowd

/-!
Actions that keep a record beside the state.

The record is written by nobody else and read by nobody at all, so an action does the same without
it. What threads do that keep a record is what they do without it, and the other way round.
-/

namespace SessionShell

namespace Action

variable {σ ν α β ε ω : Type}

def notedAct (act : Act σ) (notes : σ → act.Answer → ν → ν) : Act (σ × ν) :=
  ⟨act.Answer, fun me s => (act.run me s.1).map fun r => (r.1, r.2, notes s.1 r.1 s.2)⟩

/-- Does as an action does, and notes its result with the act that brings it. -/
def noted (notes : σ → α → ν → ν) : Action σ α → Action (σ × ν) α
  | .done a => .done a
  | .crash => .crash
  | .ask act next =>
    .ask
      (notedAct act fun s answer r =>
        match next answer with
        | .done a => notes s a r
        | _ => r)
      fun answer => noted notes (next answer)

def silent : Action σ α → Action (σ × ν) α
  | .done a => .done a
  | .crash => .crash
  | .ask act next => .ask (notedAct act fun _ _ r => r) fun answer => silent (next answer)

def record (f : ν → ν) : Action (σ × ν) Unit :=
  update fun s => (s.1, f s.2)

/-- Without its notes, the one action is the other. -/
inductive Erases : Action (σ × ν) α → Action σ α → Prop where
  | done (a : α) : Erases (.done a) (.done a)
  | crash : Erases .crash .crash
  | ask {act : Act σ} {notes : σ → act.Answer → ν → ν}
      {next' : act.Answer → Action (σ × ν) α} {next : act.Answer → Action σ α}
      (h : ∀ answer, Erases (next' answer) (next answer)) :
      Erases (.ask (notedAct act notes) next') (.ask act next)
  | note {f : ν → ν} {next : Unit → Action (σ × ν) α} {p : Action σ α} (h : Erases (next ()) p) :
      Erases (record f >>= next) p

theorem erases_noted (notes : σ → α → ν → ν) (p : Action σ α) : Erases (noted notes p) p := by
  induction p with
  | done a => exact .done a
  | crash => exact .crash
  | ask act next ih => exact .ask ih

theorem erases_silent (p : Action σ α) : Erases (silent p : Action (σ × ν) α) p := by
  induction p with
  | done a => exact .done a
  | crash => exact .crash
  | ask act next ih => exact .ask ih

theorem Erases.bind {p' : Action (σ × ν) α} {p : Action σ α} {f' : α → Action (σ × ν) β}
    {f : α → Action σ β} (hp : Erases p' p) (hf : ∀ a, Erases (f' a) (f a)) :
    Erases (p' >>= f') (p >>= f) := by
  induction hp with
  | done a => exact hf a
  | crash => exact .crash
  | ask _ ih => exact .ask ih
  | note _ ih => exact .note ih

theorem Erases.attempt {p' : Action (σ × ν) α} {p : Action σ α} (hp : Erases p' p) :
    Erases (Program.attempt p') (Program.attempt p) := by
  induction hp with
  | done a => exact .done (some a)
  | crash => exact .done none
  | ask _ ih => exact .ask ih
  | note _ ih => exact .note ih

theorem Erases.run_bind {p' : ExceptT ε (Action (σ × ν)) α} {p : ExceptT ε (Action σ) α}
    {f' : α → ExceptT ε (Action (σ × ν)) β} {f : α → ExceptT ε (Action σ) β}
    (hp : Erases p'.run p.run) (hf : ∀ a, Erases (f' a).run (f a).run) :
    Erases (p' >>= f').run (p >>= f).run :=
  hp.bind fun r => by
    cases r with
    | ok a => exact hf a
    | error e => exact .done _

theorem Erases.lift {p' : Action (σ × ν) α} {p : Action σ α} (hp : Erases p' p) :
    Erases (liftM p' : ExceptT ε (Action (σ × ν)) α).run (liftM p : ExceptT ε (Action σ) α).run :=
  hp.bind fun a => Erases.done (Except.ok a)

theorem keeps_silent {view : σ → ω} {p : Action σ α} (h : Keeps view p) :
    Keeps (fun s : σ × ν => (view s.1, s.2)) (silent p) := by
  induction p with
  | done a => trivial
  | crash => trivial
  | ask act next ih =>
    refine ⟨fun me s answer s' hact => ?_, fun answer => ih answer (h.2 answer)⟩
    obtain ⟨r, hr, heq⟩ := Option.map_eq_some_iff.mp hact
    cases heq
    simp only [h.1 me s.1 r.1 r.2 hr]

theorem neverCrashes_silent {p : Action σ α} (h : NeverCrashes p) :
    NeverCrashes (silent p : Action (σ × ν) α) := by
  induction p with
  | done a => trivial
  | crash => exact h.elim
  | ask act next ih => exact fun answer => ih answer (h answer)

section

variable {view : σ → ω} {me : ThreadId} {x : ω} {r : ν}

theorem Always.silent {p : Action σ α} {Q : Fate α → ω → Prop} (h : Always view me p x Q) :
    Always (fun s : σ × ν => (view s.1, s.2)) me (silent p) (x, r) fun fate y =>
      Q fate y.1 ∧ y.2 = r := by
  induction p generalizing x with
  | done a =>
    intro s fate s' hs hr
    obtain ⟨rfl, rfl⟩ := Prod.mk.inj hs
    exact always_pure (Q := fun fate y => Q fate y.1 ∧ y.2 = s.2) a
      ⟨h s.1 _ s.1 rfl (.done a _), rfl⟩ s fate s' rfl hr
  | crash =>
    intro s fate s' hs hr
    obtain ⟨rfl, rfl⟩ := Prod.mk.inj hs
    exact always_crash (Q := fun fate y => Q fate y.1 ∧ y.2 = s.2)
      ⟨h s.1 _ s.1 rfl (.crash _), rfl⟩ s fate s' rfl hr
  | ask act next ih =>
    obtain ⟨hstep, hend⟩ := always_ask_iff.mp h
    refine always_ask_iff.mpr ⟨fun s answer s' hs hact => ?_, ?_⟩
    · obtain ⟨⟨answer', s₁⟩, hr, heq⟩ := Option.map_eq_some_iff.mp hact
      cases heq
      obtain ⟨hx, rfl⟩ := Prod.mk.inj hs
      exact ih _ (hstep s.1 _ _ hx hr)
    · rintro ⟨s, hs⟩ hnone
      refine ⟨hend ⟨s.1, (Prod.mk.inj hs).1⟩ fun t => ?_, rfl⟩
      exact Option.map_eq_none_iff.mp (hnone (t, r))

theorem Yields.silent {p : Action σ α} {P : α → ω → Prop} (h : Yields view me p x P) :
    Yields (fun s : σ × ν => (view s.1, s.2)) me (Action.silent p) (x, r) fun a y =>
      P a y.1 ∧ y.2 = r :=
  (Always.silent h).mono fun fate y hy => by
    cases fate with
    | returned a => exact hy
    | crashed => exact hy.1
    | halted => exact hy.1

theorem yields_noted_step {f : σ → α × σ} {notes : σ → α → ν → ν} {P : α → ω × ν → Prop}
    (h : ∀ s, view s = x → P (f s).1 (view (f s).2, notes s (f s).1 r)) :
    Yields (fun s : σ × ν => (view s.1, s.2)) me (noted notes (step f)) (x, r) P :=
  yields_step (f := fun s : σ × ν => ((f s.1).1, (f s.1).2, notes s.1 (f s.1).1 s.2)) fun s hs => by
    obtain ⟨hx, rfl⟩ := Prod.mk.inj hs
    exact h s.1 hx

theorem yields_record (g : ν → ν) :
    Yields (fun s : σ × ν => (view s.1, s.2)) me (record g) (x, r) fun _ y => y = (x, g r) :=
  yields_update fun s hs => by
    obtain ⟨rfl, rfl⟩ := Prod.mk.inj hs
    rfl

theorem Erases.exists_runs {p' : Action (σ × ν) α} {p : Action σ α} (hp : Erases p' p) {s s' : σ}
    {fate : Fate α} (h : Runs view me p s fate s') :
    ∃ r', Runs (fun s : σ × ν => (view s.1, s.2)) me p' (s, r) fate (s', r') := by
  induction h generalizing p' r with
  | done a s =>
    generalize hq : Program.done a = q at hp
    induction hp generalizing r with
    | done b =>
      cases hq
      exact ⟨r, .done _ _⟩
    | crash => cases hq
    | ask => cases hq
    | note _ ih =>
      obtain ⟨r', hr⟩ := ih hq
      exact ⟨r', .ask rfl hr⟩
  | crash s =>
    generalize hq : Program.crash = q at hp
    induction hp generalizing r with
    | done b => cases hq
    | crash => exact ⟨r, .crash _⟩
    | ask => cases hq
    | note _ ih =>
      obtain ⟨r', hr⟩ := ih hq
      exact ⟨r', .ask rfl hr⟩
  | @halt act next s hnone =>
    generalize hq : Program.ask act next = q at hp
    induction hp generalizing r with
    | done b => cases hq
    | crash => cases hq
    | ask =>
      cases hq
      exact ⟨r, .halt fun t => by simp [notedAct, hnone]⟩
    | note _ ih =>
      obtain ⟨r', hr⟩ := ih hq
      exact ⟨r', .ask rfl hr⟩
  | @ask act next s s₁ s₂ answer fate hact _ ih =>
    generalize hq : Program.ask act next = q at hp
    induction hp generalizing r with
    | done b => cases hq
    | crash => cases hq
    | @ask _ notes next' _ hnext _ =>
      cases hq
      obtain ⟨r', hr⟩ := ih (hnext answer) (r := notes s answer r)
      exact ⟨r', .ask (by simp [notedAct, hact]) hr⟩
    | note _ ih' =>
      obtain ⟨r', hr⟩ := ih' hq
      exact ⟨r', .ask rfl hr⟩
  | others hv _ ih =>
    obtain ⟨r', hr⟩ := ih hp (r := r)
    exact ⟨r', .others (by simp [hv]) hr⟩

end

theorem silent_bind (p : Action σ α) (f : α → Action σ β) :
    (silent (p >>= f) : Action (σ × ν) β) = silent p >>= fun a => silent (f a) := by
  induction p with
  | done a => rfl
  | crash => rfl
  | ask act next ih =>
    exact congrArg (Program.ask _) (funext ih)

end Action

namespace Crowd

variable {σ ν α : Type} {others : σ → σ → Prop}

open Action

/-- Without its record, the one crowd is the other. -/
structure Erases (c' : Crowd (σ × ν) α) (c : Crowd σ α) : Prop where
  shared : c'.shared.1 = c.shared
  length : c'.runners.length = c.runners.length
  runners : ∀ (i : Nat) (me : ThreadId) (p : Action σ α), c.runners[i]? = some (me, p) →
    ∃ p', c'.runners[i]? = some (me, p') ∧ Action.Erases p' p

def besides (others : σ → σ → Prop) (s s' : σ × ν) : Prop :=
  others s.1 s'.1 ∧ s'.2 = s.2

variable {c : Crowd σ α} {c' : Crowd (σ × ν) α} {i : Nat} {me : ThreadId}

theorem exists_noted_step {act : Act σ} {next : act.Answer → Action σ α} {answer : act.Answer}
    {s : σ} {p' : Action (σ × ν) α} (hp : Action.Erases p' (.ask act next))
    (hi : c'.runners[i]? = some (me, p')) (hact : act.run me c'.shared.1 = some (answer, s)) :
    ∃ r p'', Reaches (besides others) c' ⟨(s, r), c'.runners.set i (me, p'')⟩ ∧
      Action.Erases p'' (next answer) := by
  generalize hq : Program.ask act next = q at hp
  induction hp generalizing c' with
  | done a => cases hq
  | crash => cases hq
  | @ask _ notes next' _ hnext _ =>
    cases hq
    refine ⟨notes c'.shared.1 answer c'.shared.2, next' answer, ?_, hnext answer⟩
    refine Reaches.refl.tail (.act hi ?_)
    simp [notedAct, hact]
  | @note f next' _ _ ih =>
    have hlt : i < c'.runners.length := (List.getElem?_eq_some_iff.mp hi).1
    let noted : Crowd (σ × ν) α :=
      ⟨(c'.shared.1, f c'.shared.2), c'.runners.set i (me, next' ())⟩
    have hnoted : Reaches (besides others) c' noted := Reaches.refl.tail (.act hi rfl)
    obtain ⟨r, p'', hreach, herases⟩ := @ih noted (List.getElem?_set_self hlt) hact hq
    rw [List.set_set] at hreach
    exact ⟨r, p'', hnoted.trans hreach, herases⟩

theorem exists_noted {c₀ : Crowd σ α} {c₀' : Crowd (σ × ν) α} (h : Reaches others c₀ c)
    (h₀ : c₀'.Erases c₀) : ∃ c', Reaches (besides others) c₀' c' ∧ c'.Erases c := by
  induction h with
  | refl => exact ⟨c₀', .refl, h₀⟩
  | tail _ hs ih =>
    obtain ⟨c', hreach, hc⟩ := ih
    cases hs with
    | @act i me act next answer s hi hact =>
      obtain ⟨p', hi', hp⟩ := hc.runners i me _ hi
      rw [← hc.shared] at hact
      obtain ⟨r, p'', hstep, hnext⟩ := exists_noted_step hp hi' hact
      refine ⟨_, hreach.trans hstep, rfl, by simp [hc.length], fun j me' p hj => ?_⟩
      by_cases hij : i = j
      · subst hij
        have hlt : i < _ := (List.getElem?_eq_some_iff.mp hi).1
        have hlt' : i < c'.runners.length := (List.getElem?_eq_some_iff.mp hi').1
        rw [List.getElem?_set_self hlt] at hj
        cases hj
        exact ⟨p'', List.getElem?_set_self hlt', hnext⟩
      · rw [List.getElem?_set_ne hij] at hj ⊢
        exact hc.runners j me' p hj
    | @others s ho =>
      refine ⟨⟨(s, c'.shared.2), c'.runners⟩, hreach.tail (.others ⟨?_, rfl⟩), rfl, hc.length,
        hc.runners⟩
      rw [hc.shared]
      exact ho

end Crowd

end SessionShell
