import SessionShell.Program
import SessionShell.Proofs.Action.Run

/-!
How a program asks: the courses it can take, and what it can ask on any of them.

A course lists the questions that were asked with the answers they got, so whoever answers takes the
program on one of its courses.
-/

namespace SessionShell

universe u

abbrev Exchange {Call : Type u} (Reply : Call → Type) :=
  (call : Call) × Reply call

namespace Program

variable {Call : Type u} {Reply : Call → Type} {α β : Type}

/-- With these answers, the program ends like this: with a result, or by a crash. -/
inductive Goes : Program Call Reply α → List (Exchange Reply) → Option α → Prop where
  | done (a : α) : Goes (.done a) [] (some a)
  | crash : Goes .crash [] none
  | ask {call : Call} {next : Reply call → Program Call Reply α} {reply : Reply call}
      {exchanges : List (Exchange Reply)} {result : Option α}
      (h : Goes (next reply) exchanges result) :
      Goes (.ask call next) (⟨call, reply⟩ :: exchanges) result

variable {p : Program Call Reply α} {f : α → Program Call Reply β}
  {exchanges : List (Exchange Reply)}

@[simp] theorem goes_pure_iff {a : α} {result : Option α} :
    (pure a : Program Call Reply α).Goes exchanges result ↔ exchanges = [] ∧ result = some a := by
  constructor
  · intro h
    cases h
    exact ⟨rfl, rfl⟩
  · rintro ⟨rfl, rfl⟩
    exact .done a

theorem Goes.eq_pure {a : α} (h : p.Goes [] (some a)) : p = pure a := by
  cases h
  rfl

theorem goes_call_iff {call : Call} {reply : Reply call} :
    (Program.call call : Program Call Reply _).Goes exchanges (some reply) ↔
      exchanges = [⟨call, reply⟩] := by
  constructor
  · intro h
    cases h with
    | ask h =>
      cases h
      rfl
  · rintro rfl
    exact .ask (.done reply)

theorem Goes.bind {first rest : List (Exchange Reply)} {a : α} {result : Option β}
    (hp : p.Goes first (some a)) (hf : (f a).Goes rest result) :
    (p >>= f).Goes (first ++ rest) result := by
  generalize hs : some a = r at hp
  induction hp with
  | done a' =>
    cases hs
    exact hf
  | crash => cases hs
  | ask _ ih => exact .ask (ih hs)

theorem goes_bind_iff {b : β} :
    (p >>= f).Goes exchanges (some b) ↔ ∃ (a : α) (first rest : List (Exchange Reply)),
      exchanges = first ++ rest ∧ p.Goes first (some a) ∧ (f a).Goes rest (some b) := by
  constructor
  · intro h
    induction p generalizing exchanges with
    | done a => exact ⟨a, [], exchanges, rfl, .done a, h⟩
    | crash => nomatch h
    | ask call next ih =>
      cases h with
      | @ask _ _ reply _ _ h =>
        obtain ⟨a, first, rest, rfl, hp, hf⟩ := ih reply h
        exact ⟨a, ⟨call, reply⟩ :: first, rest, rfl, .ask hp, hf⟩
  · rintro ⟨a, first, rest, rfl, hp, hf⟩
    exact hp.bind hf

end Program

/-! ## What can be asked, whatever is answered -/

namespace Program

variable {Call : Type u} {Reply : Call → Type} {α β γ δ : Type}

/-- Asks only what `H` allows, and comes to what `Q` says if it comes to an end. -/
def Asks (H : Call → Prop) (Q : α → Prop) : Program Call Reply α → Prop
  | .done a => Q a
  | .crash => True
  | .ask call next => H call ∧ ∀ reply, Asks H Q (next reply)

/-- Asks this, if it is answered in the right way. -/
inductive MayAsk (call : Call) : Program Call Reply α → Prop where
  | here {next : Reply call → Program Call Reply α} : MayAsk call (.ask call next)
  | later {first : Call} {next : Reply first → Program Call Reply α} {reply : Reply first}
      (h : MayAsk call (next reply)) : MayAsk call (.ask first next)

variable {H : Call → Prop} {Q : α → Prop}

theorem Asks.of_mayAsk {p : Program Call Reply α} {call : Call} (h : p.Asks H Q)
    (hcall : p.MayAsk call) :
    H call := by
  induction hcall with
  | here => exact h.1
  | later _ ih => exact ih (h.2 _)

theorem Asks.bind {R : β → Prop} {p : Program Call Reply α} {f : α → Program Call Reply β}
    (hp : p.Asks H Q) (hf : ∀ a, Q a → (f a).Asks H R) : (p >>= f).Asks H R := by
  induction p with
  | done a => exact hf a hp
  | crash => trivial
  | ask call next ih => exact ⟨hp.1, fun reply => ih reply (hp.2 reply)⟩

theorem Asks.mono {Q' : α → Prop} {p : Program Call Reply α} (h : p.Asks H Q)
    (hQ : ∀ a, Q a → Q' a) : p.Asks H Q' := by
  induction p with
  | done a => exact hQ a h
  | crash => trivial
  | ask call next ih => exact ⟨h.1, fun reply => ih reply (h.2 reply)⟩

theorem asks_anything (p : Program Call Reply α) : p.Asks (fun _ => True) fun _ => True := by
  induction p with
  | done a => trivial
  | crash => trivial
  | ask call next ih => exact ⟨trivial, ih⟩

/-!
## Two programs in step

They ask the same questions in the same order for as long as they get the same answers, and end
alike. So whoever answers, and whatever the answers depend on, cannot tell one from the other
until the end.
-/

/-- Both ask the same, or both end, with results that are related. -/
inductive InStep (R : α → β → Prop) : Program Call Reply α → Program Call Reply β → Prop where
  | done {a : α} {b : β} (h : R a b) : InStep R (.done a) (.done b)
  | crash : InStep R .crash .crash
  | ask {call : Call} {next : Reply call → Program Call Reply α}
      {next' : Reply call → Program Call Reply β}
      (h : ∀ reply, InStep R (next reply) (next' reply)) :
      InStep R (.ask call next) (.ask call next')

variable {R : α → β → Prop} {p : Program Call Reply α} {q : Program Call Reply β}

theorem InStep.mono {R' : α → β → Prop} (h : InStep R p q) (hR : ∀ a b, R a b → R' a b) :
    InStep R' p q := by
  induction h with
  | done h => exact .done (hR _ _ h)
  | crash => exact .crash
  | ask _ ih => exact .ask ih

theorem inStep_refl {R : α → α → Prop} (h : ∀ a, R a a) (p : Program Call Reply α) :
    InStep R p p := by
  induction p with
  | done a => exact .done (h a)
  | crash => exact .crash
  | ask call next ih => exact .ask ih

theorem InStep.bind {S : γ → δ → Prop} {f : α → Program Call Reply γ} {g : β → Program Call Reply δ}
    (h : InStep R p q) (hf : ∀ a b, R a b → InStep S (f a) (g b)) :
    InStep S (p.bind f) (q.bind g) := by
  induction h with
  | done h => exact hf _ _ h
  | crash => exact .crash
  | ask _ ih => exact .ask ih

end Program

end SessionShell

/-!
Programs whose questions are answered from a state.

How a question may be answered, and what that does to the state, is a relation, so what is shown of
a program holds of everyone who answers it like that. What is shown of all that a program may come
to is `Served`; a single course, with the answers it got, is `Comes`.
-/

namespace SessionShell

universe u

abbrev Serving {Call : Type u} (Reply : Call → Type) (ω : Type) : Type u :=
  (call : Call) → ω → Reply call → ω → Prop

def Action.Fate.result? {α : Type} : Action.Fate α → Option α
  | .returned a => some a
  | .crashed => none
  | .halted => none

namespace Program

variable {Call : Type u} {Reply : Call → Type} {α β ε ω : Type} {serve : Serving Reply ω}
  {Q Q' : Option α → ω → Prop} {x : ω}

/-- Whatever it is answered, `Q` holds of the result that a program comes to, and of no result
wherever it can be left standing. -/
def Served (serve : Serving Reply ω) (Q : Option α → ω → Prop) : Program Call Reply α → ω → Prop
  | .done a, x => Q (some a) x
  | .crash, x => Q none x
  | .ask call next, x =>
    Q none x ∧ ∀ reply y, serve call x reply y → Served serve Q (next reply) y

theorem Served.mono {p : Program Call Reply α} (h : p.Served serve Q x)
    (hQ : ∀ r y, Q r y → Q' r y) : p.Served serve Q' x := by
  induction p generalizing x with
  | done a => exact hQ _ _ h
  | crash => exact hQ _ _ h
  | ask call next ih => exact ⟨hQ _ _ h.1, fun reply y hy => ih reply (h.2 reply y hy)⟩

theorem Served.bind {R : Option β → ω → Prop} {p : Program Call Reply α}
    {f : α → Program Call Reply β} (hp : p.Served serve Q x)
    (hf : ∀ a y, Q (some a) y → (f a).Served serve R y) (hnone : ∀ y, Q none y → R none y) :
    (p >>= f).Served serve R x := by
  induction p generalizing x with
  | done a => exact hf a x hp
  | crash => exact hnone x hp
  | ask call next ih => exact ⟨hnone x hp.1, fun reply y hy => ih reply (hp.2 reply y hy)⟩

theorem served_call {call : Call} {Q : Option (Reply call) → ω → Prop} (hnone : Q none x)
    (h : ∀ reply y, serve call x reply y → Q (some reply) y) :
    (Program.call call : Program Call Reply _).Served serve Q x :=
  ⟨hnone, h⟩

/-! ## Programs that never crash -/

def CrashFree : Program Call Reply α → Prop
  | .done _ => True
  | .crash => False
  | .ask _ next => ∀ reply, CrashFree (next reply)

theorem CrashFree.bind {p : Program Call Reply α} {f : α → Program Call Reply β}
    (hp : p.CrashFree) (hf : ∀ a, (f a).CrashFree) : (p >>= f).CrashFree := by
  induction p with
  | done a => exact hf a
  | crash => exact hp.elim
  | ask call next ih => exact fun reply => ih reply (hp reply)

theorem crashFree_call (call : Call) : (Program.call call : Program Call Reply _).CrashFree :=
  fun _ => trivial

/-! ## Programs that can fail -/

theorem Served.run_bind {R : Option (Except ε β) → ω → Prop} {Q : Option (Except ε α) → ω → Prop}
    {p : ExceptT ε (Program Call Reply) α} {f : α → ExceptT ε (Program Call Reply) β}
    (hp : p.run.Served serve Q x) (hok : ∀ a y, Q (some (.ok a)) y → (f a).run.Served serve R y)
    (herror : ∀ e y, Q (some (.error e)) y → R (some (.error e)) y)
    (hnone : ∀ y, Q none y → R none y) : (p >>= f).run.Served serve R x :=
  Served.bind hp
    (fun r y hr => by
      cases r with
      | ok a => exact hok a y hr
      | error e => exact herror e y hr)
    hnone

theorem served_lift_bind {call : Call} {R : Option (Except ε β) → ω → Prop}
    {f : Reply call → ExceptT ε (Program Call Reply) β} (hnone : R none x)
    (h : ∀ reply y, serve call x reply y → (f reply).run.Served serve R y) :
    ((ExceptT.lift (Program.call call) : ExceptT ε (Program Call Reply) _) >>= f).run.Served
      serve R x :=
  ⟨hnone, h⟩

theorem CrashFree.run_bind {p : ExceptT ε (Program Call Reply) α}
    {f : α → ExceptT ε (Program Call Reply) β} (hp : p.run.CrashFree)
    (hf : ∀ a, (f a).run.CrashFree) : (p >>= f).run.CrashFree :=
  CrashFree.bind hp fun r => by
    cases r with
    | ok a => exact hf a
    | error e => trivial

theorem CrashFree.goes {p : Program Call Reply α} {exchanges : List (Exchange Reply)}
    {r : Option α} (h : p.CrashFree) (hgoes : p.Goes exchanges r) : ∃ a, r = some a := by
  induction hgoes with
  | done a => exact ⟨a, rfl⟩
  | crash => exact h.elim
  | ask _ ih => exact ih (h _)

/-! ## Courses from state to state -/

/-- The answers of a course are given in this way, from one state to another. -/
inductive Answered (serve : Serving Reply ω) : ω → List (Exchange Reply) → ω → Prop where
  | nil (x : ω) : Answered serve x [] x
  | cons {call : Call} {reply : Reply call} {x y z : ω} {rest : List (Exchange Reply)}
      (h : serve call x reply y) (hs : Answered serve y rest z) :
      Answered serve x (⟨call, reply⟩ :: rest) z

theorem answered_append_iff {first rest : List (Exchange Reply)} {z : ω} :
    Answered serve x (first ++ rest) z ↔
      ∃ y, Answered serve x first y ∧ Answered serve y rest z := by
  constructor
  · intro h
    induction first generalizing x with
    | nil => exact ⟨x, .nil x, h⟩
    | cons exchange first ih =>
      cases h with
      | cons hserve hs =>
        obtain ⟨y, hfirst, hrest⟩ := ih hs
        exact ⟨y, .cons hserve hfirst, hrest⟩
  · rintro ⟨y, hfirst, hrest⟩
    induction hfirst with
    | nil => exact hrest
    | cons hserve _ ih => exact .cons hserve (ih hrest)

structure Comes (serve : Serving Reply ω) (p : Program Call Reply α) (x : ω)
    (exchanges : List (Exchange Reply)) (a : α) (y : ω) : Prop where
  goes : p.Goes exchanges (some a)
  answered : Answered serve x exchanges y

section

variable {exchanges : List (Exchange Reply)} {y : ω}

theorem comes_pure_iff {a b : α} :
    Comes serve (pure a : Program Call Reply α) x exchanges b y ↔
      exchanges = [] ∧ b = a ∧ y = x := by
  constructor
  · rintro ⟨hgoes, hanswered⟩
    obtain ⟨rfl, hb⟩ := goes_pure_iff.mp hgoes
    cases hanswered
    exact ⟨rfl, Option.some.inj hb, rfl⟩
  · rintro ⟨rfl, rfl, rfl⟩
    exact ⟨goes_pure_iff.mpr ⟨rfl, rfl⟩, .nil y⟩

theorem Comes.ask {call : Call} {next : Reply call → Program Call Reply α} {a : α}
    (h : Comes serve (.ask call next) x exchanges a y) :
    ∃ (reply : Reply call) (rest : List (Exchange Reply)) (z : ω),
      exchanges = ⟨call, reply⟩ :: rest ∧ serve call x reply z ∧
        Comes serve (next reply) z rest a y := by
  obtain ⟨hgoes, hanswered⟩ := h
  cases hgoes with
  | ask hgoes =>
    cases hanswered with
    | cons hserve hs => exact ⟨_, _, _, rfl, hserve, hgoes, hs⟩

theorem Comes.bind {p : Program Call Reply α} {f : α → Program Call Reply β} {b : β}
    (h : Comes serve (p >>= f) x exchanges b y) :
    ∃ (a : α) (first rest : List (Exchange Reply)) (z : ω), exchanges = first ++ rest ∧
      Comes serve p x first a z ∧ Comes serve (f a) z rest b y := by
  obtain ⟨a, first, rest, rfl, hp, hf⟩ := goes_bind_iff.mp h.goes
  obtain ⟨z, hfirst, hrest⟩ := answered_append_iff.mp h.answered
  exact ⟨a, first, rest, z, rfl, ⟨hp, hfirst⟩, hf, hrest⟩

theorem Comes.run_bind {p : ExceptT ε (Program Call Reply) α}
    {f : α → ExceptT ε (Program Call Reply) β} {r : Except ε β}
    (h : Comes serve (p >>= f).run x exchanges r y) :
    (∃ (a : α) (first rest : List (Exchange Reply)) (z : ω), exchanges = first ++ rest ∧
      Comes serve p.run x first (.ok a) z ∧ Comes serve (f a).run z rest r y) ∨
    ∃ e, r = .error e ∧ Comes serve p.run x exchanges (.error e) y := by
  obtain ⟨a?, first, rest, z, rfl, hp, hf⟩ := Comes.bind h
  cases a? with
  | ok a => exact .inl ⟨a, first, rest, z, rfl, hp, hf⟩
  | error e =>
    obtain ⟨rfl, rfl, rfl⟩ := comes_pure_iff.mp hf
    exact .inr ⟨e, rfl, by rwa [List.append_nil]⟩

end

/-! ## Carried out by actions -/

open Action

variable {σ : Type} {view : σ → ω} {me : ThreadId}

/-- An action answers like this, seen through a view; without an answer it leaves the view alone. -/
def Answers (view : σ → ω) (me : ThreadId) (serve : Serving Reply ω) {call : Call}
    (p : Action σ (Reply call)) : Prop :=
  ∀ x, Always view me p x fun fate y =>
    fate.result?.elim (y = x) fun reply => serve call x reply y

theorem answers_of_keeps {call : Call} {p : Action σ (Reply call)} (h : Keeps view p)
    (hserve : ∀ x reply, serve call x reply x) : Answers view me serve p := by
  refine fun x => h.always.mono fun fate y hy => ?_
  subst hy
  cases fate with
  | returned reply => exact hserve y reply
  | crashed => rfl
  | halted => rfl

theorem Served.always {p : Program Call Reply α} {f : (call : Call) → Action σ (Reply call)}
    (h : p.Served serve Q x) (hf : ∀ call, Answers view me serve (f call)) :
    Always view me (p.expand f) x fun fate y => Q fate.result? y := by
  induction p generalizing x with
  | done a => exact always_pure a h
  | crash => exact always_crash h
  | ask call next ih =>
    refine Always.bind (hf call x) (fun reply y hy => ih reply (h.2 reply y hy)) ?_ ?_
    · rintro y rfl
      exact h.1
    · rintro y rfl
      exact h.1

end Program

end SessionShell
