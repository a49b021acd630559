import SessionShell.Proofs.Calc.Syntax

/-!
Evaluation that goes well.

What an evaluation does when it does not fail: which value it has, what it asks hosts, and what is
left to read. An evaluation in steps goes well when each of its steps does.
-/

namespace SessionShell.Calc

variable {η α β : Type}

/-- What hosts were asked, with their answers. -/
abbrev Asked (η : Type) := List (Exchange (HostRequest.Reply (η := η)))

/-! ## Meanings -/

namespace Meaning

/-- With these answers of the hosts, there is a value, and this is it. -/
def Yields (p : Meaning η α) (asked : Asked η) (a : α) : Prop :=
  p.run.Goes asked (some (some a))

variable {p : Meaning η α} {f : α → Meaning η β} {asked : Asked η} {a : α} {b : β}

theorem yields_known_iff {a? : Option α} :
    Yields (known a?) asked a ↔ asked = [] ∧ a? = some a := by
  refine Program.goes_pure_iff.trans ?_
  simp [eq_comm]

theorem yields_pure_iff {a' : α} : Yields (pure a') asked a ↔ asked = [] ∧ a = a' := by
  refine Program.goes_pure_iff.trans ?_
  simp

theorem yields_fromHost_iff {p : Hosted η (Option α)} :
    Yields (fromHost p) asked a ↔ p.Goes asked (some (some a)) :=
  Iff.rfl

theorem yields_bind_iff : Yields (p >>= f) asked b ↔ ∃ (a : α) (first rest : Asked η),
    asked = first ++ rest ∧ p.Yields first a ∧ (f a).Yields rest b := by
  unfold Yields
  rw [OptionT.run_bind, Option.elimM, Program.goes_bind_iff]
  constructor
  · rintro ⟨a?, first, rest, rfl, hp, hf⟩
    cases a? with
    | none => cases hf
    | some a => exact ⟨a, first, rest, rfl, hp, hf⟩
  · rintro ⟨a, first, rest, rfl, hp, hf⟩
    exact ⟨some a, first, rest, rfl, hp, hf⟩

theorem yields_answer_iff {host : η} {call : HostCall} {reply : call.Reply} :
    Yields (answer host call) asked reply ↔ asked = [⟨⟨host, call⟩, reply⟩] := by
  refine Program.goes_bind_iff.trans ?_
  constructor
  · rintro ⟨reply', first, rest, rfl, hask, hrest⟩
    cases hrest
    rw [Program.goes_call_iff.mp hask, List.append_nil]
  · rintro rfl
    exact ⟨reply, _, [], rfl, Program.goes_call_iff.mpr rfl, .done _⟩

theorem yields_binary_iff {left right : Meaning η α} {g : α → α → Option β} :
    Yields (left >>= fun a => right >>= fun a' => known (g a a')) asked b ↔
      ∃ (a a' : α) (first rest : Asked η), asked = first ++ rest ∧ left.Yields first a ∧
        right.Yields rest a' ∧ g a a' = some b := by
  rw [yields_bind_iff]
  constructor
  · rintro ⟨a, first, rest, rfl, hleft, hrest⟩
    obtain ⟨a', second, last, rfl, hright, hknown⟩ := yields_bind_iff.mp hrest
    obtain ⟨rfl, hg⟩ := yields_known_iff.mp hknown
    rw [List.append_nil]
    exact ⟨a, a', first, second, rfl, hleft, hright, hg⟩
  · rintro ⟨a, a', first, rest, rfl, hleft, hright, hg⟩
    exact ⟨a, first, rest, rfl, hleft, yields_bind_iff.mpr
      ⟨a', rest, [], (List.append_nil rest).symm, hright, yields_known_iff.mpr ⟨rfl, hg⟩⟩⟩

theorem yields_known_bind_iff {a? : Option α} :
    Yields (known a? >>= f) asked b ↔ ∃ a, a? = some a ∧ (f a).Yields asked b := by
  rw [yields_bind_iff]
  constructor
  · rintro ⟨a, first, rest, rfl, hknown, hf⟩
    obtain ⟨rfl, ha⟩ := yields_known_iff.mp hknown
    exact ⟨a, ha, hf⟩
  · rintro ⟨a, ha, hf⟩
    exact ⟨a, [], asked, rfl, yields_known_iff.mpr ⟨rfl, ha⟩, hf⟩

theorem yields_nil_iff {m : Memory η} {values : List Value} :
    (Args.nil.values m).Yields asked values ↔ asked = [] ∧ values = [] :=
  yields_pure_iff

theorem yields_cons_iff {m : Memory η} {e : Expr} {args : Args} {values : List Value} :
    ((Args.cons e args).values m).Yields asked values ↔
      ∃ (value : Value) (others : List Value) (first rest : Asked η), asked = first ++ rest ∧
        values = value :: others ∧ (e.value m).Yields first value ∧
        (args.values m).Yields rest others := by
  rw [Args.values, yields_bind_iff]
  constructor
  · rintro ⟨value, first, rest, rfl, hvalue, h⟩
    obtain ⟨others, second, last, rfl, hothers, hpure⟩ := yields_bind_iff.mp h
    obtain ⟨rfl, rfl⟩ := yields_pure_iff.mp hpure
    rw [List.append_nil]
    exact ⟨value, others, first, second, rfl, rfl, hvalue, hothers⟩
  · rintro ⟨value, others, first, rest, rfl, rfl, hvalue, hothers⟩
    exact ⟨value, first, rest, rfl, hvalue, yields_bind_iff.mpr
      ⟨others, rest, [], (List.append_nil rest).symm, hothers, yields_pure_iff.mpr ⟨rfl, rfl⟩⟩⟩

end Meaning

/-! ## Readings -/

namespace Reading

def tokens (r : Reading η) : List Token :=
  r.rest.map (·.token)

def skipped (r : Reading η) : Reading η :=
  { r with rest := r.rest.tail }

@[simp] theorem memory_skipped (r : Reading η) : r.skipped.memory = r.memory :=
  rfl

@[simp] theorem tokens_skipped (r : Reading η) : r.skipped.tokens = r.tokens.tail := by
  simp [tokens, skipped]

end Reading

def Reads (p : Eval η α) (r : Reading η) (asked : Asked η) (a : α) (r' : Reading η) : Prop :=
  (p.run.run r).Goes asked (some (.ok a, r'))

open Meaning

variable {p : Eval η α} {f : α → Eval η β} {r r' r'' : Reading η} {asked : Asked η} {a : α} {b : β}

theorem reads_pure_iff {a' : α} : Reads (pure a') r asked a r' ↔ asked = [] ∧ a = a' ∧ r' = r := by
  refine Program.goes_pure_iff.trans ?_
  simp

theorem reads_bind_iff : Reads (p >>= f) r asked b r'' ↔
    ∃ (a : α) (r' : Reading η) (first rest : Asked η),
      asked = first ++ rest ∧ Reads p r first a r' ∧ Reads (f a) r' rest b r'' := by
  unfold Reads
  rw [ExceptT.run_bind, StateT.run_bind, Program.goes_bind_iff]
  constructor
  · rintro ⟨⟨result, r'⟩, first, rest, rfl, hp, hf⟩
    cases result with
    | error e => cases hf
    | ok a => exact ⟨a, r', first, rest, rfl, hp, hf⟩
  · rintro ⟨a, r', first, rest, rfl, hp, hf⟩
    exact ⟨(.ok a, r'), first, rest, rfl, hp, hf⟩

theorem reads_step_bind_iff {a₀ : α} {r₀ : Reading η}
    (h : ∀ (asked : Asked η) (a : α) (r' : Reading η),
      Reads p r asked a r' ↔ asked = [] ∧ a = a₀ ∧ r' = r₀) :
    Reads (p >>= f) r asked b r'' ↔ Reads (f a₀) r₀ asked b r'' := by
  rw [reads_bind_iff]
  constructor
  · rintro ⟨a, r', first, rest, rfl, hp, hf⟩
    obtain ⟨rfl, rfl, rfl⟩ := (h first a r').mp hp
    exact hf
  · intro hf
    exact ⟨a₀, r₀, [], asked, rfl, (h [] a₀ r₀).mpr ⟨rfl, rfl, rfl⟩, hf⟩

theorem not_reads_throw (fault : Fault) : ¬Reads (throw fault : Eval η α) r asked a r' := by
  intro h
  cases h

theorem not_reads_fail (message : String) : ¬Reads (fail message : Eval η α) r asked a r' := by
  intro h
  cases h

theorem not_reads_fail_bind (message : String) : ¬Reads (fail message >>= f) r asked b r' := by
  intro h
  cases h

theorem reads_get_bind_iff {f : Reading η → Eval η β} :
    Reads (get >>= f) r asked b r'' ↔ Reads (f r) r asked b r'' := by
  refine reads_step_bind_iff fun asked a r' => ?_
  refine Program.goes_pure_iff.trans ?_
  simp

theorem reads_modify_bind_iff {g : Reading η → Reading η} {f : Unit → Eval η β} :
    Reads (modify g >>= f) r asked b r'' ↔ Reads (f ()) (g r) asked b r'' := by
  refine reads_step_bind_iff fun asked a r' => ?_
  refine Program.goes_pure_iff.trans ?_
  simp

theorem reads_skip_bind_iff {f : Unit → Eval η β} :
    Reads (skip >>= f) r asked b r'' ↔ Reads (f ()) r.skipped asked b r'' :=
  reads_modify_bind_iff

theorem reads_next?_bind_iff {f : Option Token → Eval η β} :
    Reads (next? >>= f) r asked b r'' ↔ Reads (f r.tokens.head?) r asked b r'' := by
  refine reads_step_bind_iff fun asked a r' => ?_
  refine Program.goes_pure_iff.trans ?_
  simp [Reading.tokens]

theorem reads_tokensLeft_bind_iff {f : Nat → Eval η β} :
    Reads (tokensLeft >>= f) r asked b r'' ↔ Reads (f r.tokens.length) r asked b r'' := by
  refine reads_step_bind_iff fun asked a r' => ?_
  refine Program.goes_pure_iff.trans ?_
  simp [Reading.tokens]

theorem reads_lift_iff {p : Hosted η α} :
    Reads (ExceptT.lift (StateT.lift p)) r asked a r' ↔ p.Goes asked (some a) ∧ r' = r := by
  unfold Reads
  rw [ExceptT.run_lift, StateT.run_map, StateT.run_lift, map_eq_pure_bind, bind_assoc,
    Program.goes_bind_iff]
  constructor
  · rintro ⟨a', first, rest, rfl, hp, hrest⟩
    cases hrest
    rw [List.append_nil]
    exact ⟨hp, rfl⟩
  · rintro ⟨hp, rfl⟩
    exact ⟨a, asked, [], (List.append_nil asked).symm, hp, .done _⟩

/-! ## Symbols -/

theorem reads_eatSym_of_head {c : Char} {eaten : Bool} (h : r.tokens.head? = some (.sym c)) :
    Reads (eatSym c) r asked eaten r' ↔ asked = [] ∧ eaten = true ∧ r' = r.skipped := by
  unfold eatSym
  rw [reads_next?_bind_iff, h]
  simp only [if_true]
  rw [reads_skip_bind_iff, reads_pure_iff]

theorem reads_eatSym_of_not_head {c : Char} {eaten : Bool} (h : r.tokens.head? ≠ some (.sym c)) :
    Reads (eatSym c) r asked eaten r' ↔ asked = [] ∧ eaten = false ∧ r' = r := by
  unfold eatSym
  rw [reads_next?_bind_iff]
  split
  · next c' hc' =>
    have hne : c' ≠ c := fun heq => h (heq ▸ hc')
    rw [if_neg hne, reads_pure_iff]
  · rw [reads_pure_iff]

theorem reads_eatSym_bind_iff {c : Char} {f : Bool → Eval η β} :
    Reads (eatSym c >>= f) r asked b r'' ↔
      r.tokens.head? = some (.sym c) ∧ Reads (f true) r.skipped asked b r'' ∨
        r.tokens.head? ≠ some (.sym c) ∧ Reads (f false) r asked b r'' := by
  by_cases h : r.tokens.head? = some (.sym c)
  · rw [reads_step_bind_iff fun _ _ _ => reads_eatSym_of_head h]
    simp [h]
  · rw [reads_step_bind_iff fun _ _ _ => reads_eatSym_of_not_head h]
    simp [h]

theorem reads_expectSym_bind_iff {c : Char} {f : Unit → Eval η β} :
    Reads (expectSym c >>= f) r asked b r'' ↔
      r.tokens.head? = some (.sym c) ∧ Reads (f ()) r.skipped asked b r'' := by
  unfold expectSym
  rw [bind_assoc, reads_eatSym_bind_iff]
  constructor
  · rintro (⟨hc, hf⟩ | ⟨hc, hf⟩)
    · exact ⟨hc, hf⟩
    · exact (not_reads_fail_bind _ hf).elim
  · rintro ⟨hc, hf⟩
    exact .inl ⟨hc, hf⟩

/-! ## Operators, functions and methods -/

theorem reads_add_iff {left right value : Value} : Reads (add left right) r asked value r' ↔
    asked = [] ∧ sum? left right = some value ∧ r' = r := by
  cases left <;> cases right <;>
    simp [add, sum?, reads_pure_iff, not_reads_fail, eq_comm]

theorem reads_arith_iff {op : Arith} {left right value : Value} :
    Reads (arith op left right) r asked value r' ↔
      asked = [] ∧ applied? op left right = some value ∧ r' = r := by
  cases left <;> cases right <;> simp [arith, applied?, not_reads_fail]
  case num.num a b =>
    cases op.apply? a b <;> simp [reads_pure_iff, not_reads_fail, eq_comm]

theorem reads_operand_bind_iff {combine : α → Eval η Value} {g : α → Option Value}
    (hcombine : ∀ (a : α) (r : Reading η) (asked : Asked η) (value : Value) (r' : Reading η),
      Reads (combine a) r asked value r' ↔ asked = [] ∧ g a = some value ∧ r' = r)
    {f : Value → Eval η β} :
    Reads (p >>= fun a => combine a >>= f) r asked b r'' ↔
      ∃ (a : α) (value : Value) (r' : Reading η) (first rest : Asked η), asked = first ++ rest ∧
        Reads p r first a r' ∧ g a = some value ∧ Reads (f value) r' rest b r'' := by
  rw [reads_bind_iff]
  constructor
  · rintro ⟨a, r', first, rest, rfl, hp, hrest⟩
    obtain ⟨value, r₁, second, last, rfl, hvalue, hf⟩ := reads_bind_iff.mp hrest
    obtain ⟨rfl, hg, rfl⟩ := (hcombine a r' second value r₁).mp hvalue
    exact ⟨a, value, r₁, first, last, rfl, hp, hg, hf⟩
  · rintro ⟨a, value, r', first, rest, rfl, hp, hg, hf⟩
    exact ⟨a, r', first, rest, rfl, hp, reads_bind_iff.mpr
      ⟨value, r', [], rest, rfl, (hcombine a r' [] value r').mpr ⟨rfl, hg, rfl⟩, hf⟩⟩

theorem reads_orThrow_iff {result : Except Fault α} :
    Reads (orThrow result) r asked a r' ↔ asked = [] ∧ result.toOption = some a ∧ r' = r := by
  cases result with
  | ok a' => simp [orThrow, reads_pure_iff, Except.toOption, eq_comm]
  | error fault => simp [orThrow, not_reads_throw, Except.toOption]

theorem reads_ask_bind_iff {host : η} {call : HostCall} {f : call.Reply → Except Fault β} :
    Reads (ask host call >>= fun reply => orThrow (f reply)) r asked b r' ↔
      (answer host call >>= fun reply => known (f reply).toOption).Yields asked b ∧ r' = r := by
  rw [reads_bind_iff, yields_bind_iff]
  constructor
  · rintro ⟨reply, r₁, first, rest, rfl, hask, hf⟩
    obtain ⟨hcall, rfl⟩ := reads_lift_iff.mp hask
    obtain ⟨rfl, hreply, rfl⟩ := reads_orThrow_iff.mp hf
    have hfirst := Program.goes_call_iff.mp hcall
    exact ⟨⟨reply, first, [], rfl, yields_answer_iff.mpr hfirst,
      yields_known_iff.mpr ⟨rfl, hreply⟩⟩, rfl⟩
  · rintro ⟨⟨reply, first, rest, rfl, hask, hf⟩, rfl⟩
    obtain ⟨rfl, hreply⟩ := yields_known_iff.mp hf
    have hfirst := Program.goes_call_iff.mpr (yields_answer_iff.mp hask)
    exact ⟨reply, r', first, [], rfl, reads_lift_iff.mpr ⟨hfirst, rfl⟩,
      reads_orThrow_iff.mpr ⟨rfl, hreply, rfl⟩⟩

theorem reads_callMethod_iff {object method : String} {args : List Value} {value : Value} :
    Reads (callMethod object method args) r asked value r' ↔
      (methodValue r.memory object method args).Yields asked value ∧ r' = r := by
  unfold callMethod methodValue
  rw [reads_get_bind_iff, yields_known_bind_iff]
  cases r.memory.hosts.get? object with
  | none => simp [not_reads_fail]
  | some host =>
    simp only [Option.some.injEq, exists_eq_left', yields_known_bind_iff]
    cases requestOf? method args with
    | none => simp [not_reads_fail]
    | some request =>
      cases request with
      | error usage => simp [not_reads_fail, Except.toOption]
      | ok call => simp [Except.toOption, reads_ask_bind_iff]

theorem reads_functionCall_iff {function : String} {args : List Value} {value : Value} :
    Reads (do
        let r ← get
        match ← ExceptT.lift (StateT.lift (callFunction r.memory.defaultHost function args)) with
        | .ok value => return value
        | .error message => fail message) r asked value r' ↔
      (functionValue r.memory function args).Yields asked value ∧ r' = r := by
  rw [reads_get_bind_iff, reads_bind_iff]
  unfold functionValue
  rw [yields_fromHost_iff, Program.goes_bind_iff]
  constructor
  · rintro ⟨result, r₁, first, rest, rfl, hcall, hf⟩
    obtain ⟨hgoes, rfl⟩ := reads_lift_iff.mp hcall
    cases result with
    | error message => exact (not_reads_fail _ hf).elim
    | ok value' =>
      obtain ⟨rfl, rfl, rfl⟩ := reads_pure_iff.mp hf
      exact ⟨⟨_, first, [], rfl, hgoes, Program.goes_pure_iff.mpr ⟨rfl, rfl⟩⟩, rfl⟩
  · rintro ⟨⟨result, first, rest, rfl, hcall, hf⟩, rfl⟩
    obtain ⟨rfl, hvalue⟩ := Program.goes_pure_iff.mp hf
    cases result with
    | error message => cases hvalue
    | ok value' =>
      cases hvalue
      exact ⟨_, r', first, [], rfl, reads_lift_iff.mpr ⟨hcall, rfl⟩,
        reads_pure_iff.mpr ⟨rfl, rfl, rfl⟩⟩

/-! ## One turn of each loop -/

variable {operand : Eval η Value} {left value : Value} {fuel : Nat}

theorem reads_factors_succ_iff : Reads (factors operand (fuel + 1) left) r asked value r' ↔
    (∃ op : Scaling, r.tokens.head? = some op.token ∧
      Reads (operand >>= fun right => arith op.arith left right >>= factors operand fuel)
        r.skipped asked value r') ∨
    (∀ op : Scaling, r.tokens.head? ≠ some op.token) ∧ asked = [] ∧ value = left ∧ r' = r := by
  rw [factors, reads_next?_bind_iff]
  by_cases hop : ∃ op : Scaling, r.tokens.head? = some op.token
  · obtain ⟨op, hop⟩ := hop
    have hunique (op' : Scaling) : op.token = op'.token ↔ op' = op := by
      cases op <;> cases op' <;> simp [Scaling.token, Scaling.arith, Arith.symbol]
    simp only [hop, Option.some.injEq, hunique, exists_eq_left, ne_eq]
    cases op <;> simp [reads_skip_bind_iff, Scaling.token, Scaling.arith, Arith.symbol]
  · simp only [not_exists] at hop
    simp only [hop, false_and, exists_false, ne_eq, not_false_eq_true, implies_true, true_and,
      false_or]
    split
    · exact reads_pure_iff
    · next op hsome =>
      split at hsome
      · next hmul => exact (hop .mul hmul).elim
      · next hdiv => exact (hop .div hdiv).elim
      · next hrem => exact (hop .rem hrem).elim
      · cases hsome

theorem reads_summands_succ_iff : Reads (summands operand (fuel + 1) left) r asked value r' ↔
    r.tokens.head? = some (.sym '+') ∧
      Reads (term operand >>= fun right => add left right >>= summands operand fuel)
        r.skipped asked value r' ∨
    r.tokens.head? = some (.sym '-') ∧
      Reads (term operand >>= fun right => arith .sub left right >>= summands operand fuel)
        r.skipped asked value r' ∨
    r.tokens.head? ≠ some (.sym '+') ∧ r.tokens.head? ≠ some (.sym '-') ∧
      asked = [] ∧ value = left ∧ r' = r := by
  rw [summands, reads_eatSym_bind_iff]
  simp only [if_true, Bool.false_eq_true, if_false, reads_eatSym_bind_iff, reads_pure_iff]
  by_cases hadd : r.tokens.head? = some (.sym '+')
  · simp [hadd]
  · simp [hadd]

/-! ## Passing tokens -/

structure Reading.Passes (r : Reading η) (tokens : List Token) (r' : Reading η) : Prop where
  tokens : r.tokens = tokens ++ r'.tokens
  memory : r'.memory = r.memory

variable {first rest : List Token}

theorem Reading.passes_skipped {token : Token} (h : r.tokens.head? = some token) :
    r.Passes [token] r.skipped := by
  refine ⟨?_, rfl⟩
  obtain ⟨rest, hrest⟩ := List.head?_eq_some_iff.mp h
  simp [hrest]

theorem Reading.Passes.trans (h : r.Passes first r') (h' : r'.Passes rest r'') :
    r.Passes (first ++ rest) r'' := by
  refine ⟨?_, h'.memory.trans h.memory⟩
  rw [h.tokens, h'.tokens, List.append_assoc]

end SessionShell.Calc
