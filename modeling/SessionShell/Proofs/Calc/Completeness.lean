import SessionShell.Proofs.Calc.Reads

/-!
What is written as a tree is read.

A tree that has a value is read by the function of its level, unless what stands behind it would go
on with it. A tree that branches to the left is read by a loop, so how a loop goes on is followed
from its first operand to the last.
-/

namespace SessionShell.Calc

open Meaning

variable {η α : Type}

/-! ## What stands behind -/

def Ends (symbols : List Char) (rest : List Token) : Prop :=
  ∀ c ∈ symbols, rest.head? ≠ some (.sym c)

def behindName : List Char :=
  ['(', '.']

def behindOperand : List Char :=
  '^' :: behindName

def behindTerm : List Char :=
  ['*', '/', '%'] ++ behindOperand

def behindExpr : List Char :=
  ['+', '-'] ++ behindTerm

theorem ends_sym {symbols : List Char} {c : Char} {rest : List Token} (h : c ∉ symbols) :
    Ends symbols (.sym c :: rest) := by
  intro c' hc' heq
  cases heq
  exact h hc'

theorem Ends.mono {symbols others : List Char} {rest : List Token} (h : Ends symbols rest)
    (hsub : others ⊆ symbols) : Ends others rest :=
  fun c hc => h c (hsub hc)

theorem Ends.name_of_operand {rest : List Token} (h : Ends behindOperand rest) :
    Ends behindName rest :=
  h.mono (List.subset_cons_self _ _)

theorem Ends.operand_of_term {rest : List Token} (h : Ends behindTerm rest) :
    Ends behindOperand rest :=
  h.mono (List.subset_append_right _ _)

theorem Ends.term_of_expr {rest : List Token} (h : Ends behindExpr rest) : Ends behindTerm rest :=
  h.mono (List.subset_append_right _ _)

/-! ## Loops -/

def Leaves (p : Eval η α) (r : Reading η) (asked : Asked η) (a : α) (rest : List Token) : Prop :=
  ∃ r' : Reading η, Reads p r asked a r' ∧ r'.tokens = rest ∧ r'.memory = r.memory

variable {β : Type} {p : Eval η α} {q : Eval η β} {f : α → Eval η β} {r r₁ : Reading η}
  {before asked : Asked η} {a : α} {b : β} {rest tokens : List Token}

theorem Leaves.bind (h : Leaves p r before a tokens)
    (hf : ∀ r₁ : Reading η, r₁.tokens = tokens → r₁.memory = r.memory →
      Leaves (f a) r₁ asked b rest) : Leaves (p >>= f) r (before ++ asked) b rest := by
  obtain ⟨r₁, hreads, htokens, hmemory⟩ := h
  obtain ⟨r', hreads', htokens', hmemory'⟩ := hf r₁ htokens hmemory
  exact ⟨r', reads_bind_iff.mpr ⟨a, r₁, before, asked, rfl, hreads, hreads'⟩, htokens',
    hmemory'.trans hmemory⟩

theorem Leaves.of_reads {a : α} {p' : Eval η α} (h : Leaves p' r₁ asked a rest)
    (hmemory : r₁.memory = r.memory)
    (hreads : ∀ r' : Reading η, Reads p' r₁ asked a r' → Reads p r asked a r') :
    Leaves p r asked a rest := by
  obtain ⟨r', h', htokens, hmemory'⟩ := h
  exact ⟨r', hreads r' h', htokens, hmemory'.trans hmemory⟩

def GoesOn (operand : Eval η Value) (loop : Nat → Value → Eval η Value) (r : Reading η)
    (asked : Asked η) (value : Value) (rest : List Token) : Prop :=
  ∃ (a : Value) (r₀ r₁ : Reading η) (first others : Asked η) (k : Nat),
    asked = first ++ others ∧ Reads operand r first a r₀ ∧
    r₁.tokens = rest ∧ r₁.memory = r.memory ∧ rest.length + k ≤ r₀.tokens.length ∧
    ∀ (fuel : Nat) (after : Asked η) (v : Value) (r' : Reading η),
      Reads (loop fuel value) r₁ after v r' → Reads (loop (fuel + k) a) r₀ (others ++ after) v r'

variable {operand : Eval η Value} {loop : Nat → Value → Eval η Value} {left value : Value}

theorem Leaves.goesOn (h : Leaves operand r asked value rest) :
    GoesOn operand loop r asked value rest := by
  obtain ⟨r₀, hreads, htokens, hmemory⟩ := h
  refine ⟨value, r₀, r₀, asked, [], 0, (List.append_nil asked).symm, hreads, htokens,
    hmemory, ?_, ?_⟩
  · rw [htokens]
    exact Nat.le_refl _
  · intro fuel after v r' h
    exact h

theorem GoesOn.operator {token : Token} {right : Value}
    (h : GoesOn operand loop r before left (token :: tokens ++ rest))
    (combine : Value → Eval η Value) {g : Value → Option Value}
    (hright : ∀ r₂ : Reading η, r₂.tokens = tokens ++ rest → r₂.memory = r.memory →
      Leaves operand r₂ asked right rest)
    (hcombine : ∀ (a : Value) (r : Reading η) (asked : Asked η) (value : Value) (r' : Reading η),
      Reads (combine a) r asked value r' ↔ asked = [] ∧ g a = some value ∧ r' = r)
    (hg : g right = some value)
    (hloop : ∀ (r₂ : Reading η) (fuel : Nat) (asked : Asked η) (v : Value) (r' : Reading η),
      r₂.tokens.head? = some token →
        Reads (operand >>= fun a => combine a >>= loop fuel) r₂.skipped asked v r' →
          Reads (loop (fuel + 1) left) r₂ asked v r') :
    GoesOn operand loop r (before ++ asked) value rest := by
  obtain ⟨a, r₀, r₂, first, others, k, rfl, hreads, htokens, hmemory, hle, hon⟩ := h
  obtain ⟨r₁, hreads₁, htokens₁, hmemory₁⟩ := hright r₂.skipped (by simp [htokens]) hmemory
  simp only [List.cons_append, List.length_cons, List.length_append] at hle
  refine ⟨a, r₀, r₁, first, others ++ asked, k + 1, List.append_assoc _ _ _, hreads, htokens₁,
    hmemory₁.trans hmemory, by omega, ?_⟩
  intro fuel after v r' hafter
  have hturn : Reads (loop (fuel + 1) left) r₂ (asked ++ after) v r' :=
    hloop r₂ fuel _ v r' (by simp [htokens]) ((reads_operand_bind_iff hcombine).mpr
      ⟨right, value, r₁, asked, after, rfl, hreads₁, hg, hafter⟩)
  have hall := hon (fuel + 1) (asked ++ after) v r' hturn
  rwa [Nat.add_right_comm, Nat.add_assoc, ← List.append_assoc] at hall

theorem GoesOn.leaves (h : GoesOn operand loop r asked value rest)
    (hstop : ∀ (r₁ : Reading η) (fuel : Nat), r₁.tokens = rest →
      Reads (loop fuel value) r₁ [] value r₁) :
    Leaves (operand >>= fun left => tokensLeft >>= fun n => loop n left) r asked value rest := by
  obtain ⟨a, r₀, r₁, first, others, k, rfl, hreads, htokens, hmemory, hle, hon⟩ := h
  have hloop := hon (r₀.tokens.length - k) [] value r₁ (hstop r₁ _ htokens)
  rw [List.append_nil, Nat.sub_add_cancel (by omega)] at hloop
  refine ⟨r₁, ?_, htokens, hmemory⟩
  exact reads_bind_iff.mpr ⟨a, r₀, first, others, rfl, hreads,
    reads_tokensLeft_bind_iff.mpr hloop⟩

/-! ## Terms and sums -/

/-- The operand reads all signed operands that are nested no deeper than this. -/
def OperandComplete (operand : Eval η Value) (n : Nat) : Prop :=
  ∀ (u : Unary) (r : Reading η) (rest : List Token) (asked : Asked η) (value : Value),
    u.nesting ≤ n → r.tokens = u.tokens ++ rest → Ends behindOperand rest →
      (u.value r.memory).Yields asked value → Leaves operand r asked value rest

variable {n : Nat}

theorem not_mem_behindOperand (op : Scaling) : op.arith.symbol ∉ behindOperand := by
  cases op <;> decide

theorem goesOn_term (hop : OperandComplete operand n) : (t : Term) → {rest : List Token} →
    {asked : Asked η} → {value : Value} → t.nesting ≤ n → r.tokens = t.tokens ++ rest →
      Ends behindOperand rest → (t.value r.memory).Yields asked value →
        GoesOn operand (factors operand) r asked value rest
  | .unary u, rest, asked, value, hn, htokens, hends, hvalue =>
    (hop u r rest asked value hn htokens hends hvalue).goesOn
  | .scale op left u, rest, asked, value, hn, htokens, hends, hvalue => by
    obtain ⟨a, a', first, second, rfl, hleft, hright, hscale⟩ := yields_binary_iff.mp hvalue
    obtain ⟨hnleft, hnright⟩ := Nat.max_le.mp hn
    rw [Term.tokens, List.append_assoc] at htokens
    refine (goesOn_term hop left hnleft htokens (ends_sym (not_mem_behindOperand op))
      hleft).operator
      (arith op.arith a) (fun r₂ htokens₂ hmemory => ?_) (fun _ _ _ _ _ => reads_arith_iff) hscale
      fun r₂ fuel _ _ _ hhead h => reads_factors_succ_iff.mpr (.inl ⟨op, hhead, h⟩)
    exact hop u r₂ rest second a' hnright htokens₂ hends (hmemory ▸ hright)

theorem reads_factors_end {fuel : Nat} (hends : Ends behindTerm r.tokens) :
    Reads (factors operand fuel value) r [] value r := by
  cases fuel with
  | zero => exact reads_pure_iff.mpr ⟨rfl, rfl, rfl⟩
  | succ fuel =>
    refine reads_factors_succ_iff.mpr (.inr ⟨fun op => hends _ ?_, rfl, rfl, rfl⟩)
    cases op <;> decide

theorem complete_term (hop : OperandComplete operand n) {t : Term} (hn : t.nesting ≤ n)
    (htokens : r.tokens = t.tokens ++ rest) (hends : Ends behindTerm rest)
    (hvalue : (t.value r.memory).Yields asked value) :
    Leaves (term operand) r asked value rest := by
  refine (goesOn_term hop t hn htokens hends.operand_of_term hvalue).leaves ?_
  intro r₁ fuel hr₁
  exact reads_factors_end (hr₁ ▸ hends)

theorem goesOn_expr (hop : OperandComplete operand n) : (e : Expr) → {rest : List Token} →
    {asked : Asked η} → {value : Value} → e.nesting ≤ n → r.tokens = e.tokens ++ rest →
      Ends behindTerm rest → (e.value r.memory).Yields asked value →
        GoesOn (term operand) (summands operand) r asked value rest
  | .term t, rest, asked, value, hn, htokens, hends, hvalue =>
    (complete_term hop hn htokens hends hvalue).goesOn
  | .add left t, rest, asked, value, hn, htokens, hends, hvalue => by
    obtain ⟨a, a', first, second, rfl, hleft, hright, hadd⟩ := yields_binary_iff.mp hvalue
    obtain ⟨hnleft, hnright⟩ := Nat.max_le.mp hn
    rw [Expr.tokens, List.append_assoc] at htokens
    refine (goesOn_expr hop left hnleft htokens (ends_sym (by decide)) hleft).operator (add a)
      (fun r₂ htokens₂ hmemory => ?_) (fun _ _ _ _ _ => reads_add_iff) hadd
      fun r₂ fuel _ _ _ hhead h => reads_summands_succ_iff.mpr (.inl ⟨hhead, h⟩)
    exact complete_term hop hnright htokens₂ hends (hmemory ▸ hright)
  | .sub left t, rest, asked, value, hn, htokens, hends, hvalue => by
    obtain ⟨a, a', first, second, rfl, hleft, hright, hsub⟩ := yields_binary_iff.mp hvalue
    obtain ⟨hnleft, hnright⟩ := Nat.max_le.mp hn
    rw [Expr.tokens, List.append_assoc] at htokens
    refine (goesOn_expr hop left hnleft htokens (ends_sym (by decide)) hleft).operator
      (arith .sub a)
      (fun r₂ htokens₂ hmemory => ?_) (fun _ _ _ _ _ => reads_arith_iff) hsub
      fun r₂ fuel _ _ _ hhead h => reads_summands_succ_iff.mpr (.inr (.inl ⟨hhead, h⟩))
    exact complete_term hop hnright htokens₂ hends (hmemory ▸ hright)

theorem reads_summands_end {fuel : Nat} (hends : Ends behindExpr r.tokens) :
    Reads (summands operand fuel value) r [] value r := by
  cases fuel with
  | zero => exact reads_pure_iff.mpr ⟨rfl, rfl, rfl⟩
  | succ fuel =>
    exact reads_summands_succ_iff.mpr
      (.inr (.inr ⟨hends '+' (by decide), hends '-' (by decide), rfl, rfl, rfl⟩))

theorem complete_expr (hop : OperandComplete operand n) {e : Expr} (hn : e.nesting ≤ n)
    (htokens : r.tokens = e.tokens ++ rest) (hends : Ends behindExpr rest)
    (hvalue : (e.value r.memory).Yields asked value) :
    Leaves (expr operand) r asked value rest := by
  refine (goesOn_expr hop e hn htokens hends.term_of_expr hvalue).leaves ?_
  intro r₁ fuel hr₁
  exact reads_summands_end (hr₁ ▸ hends)

/-! ## Calls and other primaries -/

theorem head_ne_of_expr {e : Expr} {token : Token} (htokens : r.tokens = e.tokens ++ rest)
    (hopens : token.opens = false) : r.tokens.head? ≠ some token := by
  obtain ⟨first, others, he, hfirst⟩ := e.exists_head
  rw [htokens, he]
  rintro ⟨⟩
  rw [hopens] at hfirst
  cases hfirst

theorem ends_tokensBehind (args : Args) (rest : List Token) :
    Ends behindExpr (args.tokensBehind ++ rest) := by
  cases args <;> exact ends_sym (by decide)

theorem complete_moreArguments (hop : OperandComplete operand n) : (args : Args) →
    (read : List Value) → {e : Expr} → {r : Reading η} → {asked : Asked η} →
      {values : List Value} → {fuel : Nat} → (Args.cons e args).nesting ≤ n →
        r.tokens = (Args.cons e args).tokens ++ rest → r.tokens.length < fuel →
          ((Args.cons e args).values r.memory).Yields asked values →
            Leaves (moreArguments operand fuel read) r asked (read.reverse ++ values) rest
  | args, read, e, r, asked, values, 0, hn, htokens, hfuel, hvalues => by omega
  | args, read, e, r, asked, values, fuel + 1, hn, htokens, hfuel, hvalues => by
    obtain ⟨value, others, first, second, rfl, rfl, hvalue, hothers⟩ := yields_cons_iff.mp hvalues
    obtain ⟨hne, hnargs⟩ := Nat.max_le.mp hn
    rw [Args.tokens, List.append_assoc] at htokens
    unfold moreArguments
    refine (complete_expr hop hne htokens (ends_tokensBehind args rest) hvalue).bind ?_
    intro r₁ hr₁ hmemory
    cases args with
    | nil =>
      obtain ⟨rfl, rfl⟩ := yields_nil_iff.mp hothers
      refine ⟨r₁.skipped, ?_, by simp [hr₁, Args.tokensBehind], rfl⟩
      refine reads_eatSym_bind_iff.mpr (.inl ⟨by simp [hr₁, Args.tokensBehind], ?_⟩)
      exact reads_pure_iff.mpr ⟨rfl, by simp, rfl⟩
    | cons e' args =>
      have hcomma : r₁.tokens.head? = some (.sym ',') := by simp [hr₁, Args.tokensBehind]
      have hskipped : r₁.skipped.tokens = (Args.cons e' args).tokens ++ rest := by
        simp [hr₁, Args.tokensBehind, Args.tokens]
      have hlength : r₁.skipped.tokens.length < fuel := by
        rw [htokens, ← hr₁] at hfuel
        have := (Reading.passes_skipped hcomma).tokens
        rw [this] at hfuel
        simp only [List.length_append, List.length_singleton] at hfuel
        omega
      rw [← hmemory] at hothers
      have hmore :=
        complete_moreArguments hop args (value :: read) hnargs hskipped hlength hothers
      rw [List.reverse_cons, List.append_assoc] at hmore
      refine hmore.of_reads rfl fun r' h => ?_
      refine reads_eatSym_bind_iff.mpr (.inr ⟨by simp [hcomma], ?_⟩)
      exact reads_expectSym_bind_iff.mpr ⟨hcomma, h⟩

theorem complete_arguments (hop : OperandComplete operand n) {args : Args} {values : List Value}
    (hn : args.nesting ≤ n) (htokens : r.tokens = args.tokens ++ rest)
    (hvalues : (args.values r.memory).Yields asked values) :
    Leaves (arguments operand) r asked values rest := by
  cases args with
  | nil =>
    obtain ⟨rfl, rfl⟩ := yields_nil_iff.mp hvalues
    refine ⟨r.skipped, ?_, by simp [htokens, Args.tokens], rfl⟩
    refine reads_eatSym_bind_iff.mpr (.inl ⟨by simp [htokens, Args.tokens], ?_⟩)
    exact reads_pure_iff.mpr ⟨rfl, rfl, rfl⟩
  | cons e args =>
    have hmore := complete_moreArguments hop args [] hn htokens (Nat.lt_succ_self _) hvalues
    refine hmore.of_reads rfl fun r' h => ?_
    rw [Args.tokens, List.append_assoc] at htokens
    refine reads_eatSym_bind_iff.mpr (.inr ⟨head_ne_of_expr htokens rfl, ?_⟩)
    exact reads_tokensLeft_bind_iff.mpr h

theorem reads_primary_of_ident (name : String) {r' : Reading η}
    (hhead : r.tokens.head? = some (.ident name))
    (h : Reads (named operand name) r.skipped asked value r') :
    Reads (primary operand) r asked value r' := by
  unfold primary
  rw [reads_next?_bind_iff, hhead]
  exact reads_skip_bind_iff.mpr h

theorem complete_var {name : String} (htokens : r.tokens = .ident name :: rest)
    (hends : Ends behindName rest) (hvalue : r.memory.bindings.get? name = some value) :
    Leaves (primary operand) r [] value rest := by
  have hrest : r.skipped.tokens = rest := by simp [htokens]
  refine ⟨r.skipped, ?_, hrest, rfl⟩
  refine reads_primary_of_ident name (by simp [htokens]) ?_
  refine reads_eatSym_bind_iff.mpr (.inr ⟨hrest ▸ hends '(' (by decide), ?_⟩)
  refine reads_eatSym_bind_iff.mpr (.inr ⟨hrest ▸ hends '.' (by decide), ?_⟩)
  apply reads_get_bind_iff.mpr
  simp only [Reading.memory_skipped, hvalue]
  exact reads_pure_iff.mpr ⟨rfl, rfl, rfl⟩

theorem complete_call (hop : OperandComplete operand n) {function : String} {args : Args}
    (hn : args.nesting ≤ n)
    (htokens : r.tokens = .ident function :: .sym '(' :: args.tokens ++ rest)
    (hvalue : ((Primary.call function args).value r.memory).Yields asked value) :
    Leaves (primary operand) r asked value rest := by
  obtain ⟨values, first, second, rfl, hvalues, hcall⟩ := yields_bind_iff.mp hvalue
  have hargs : r.skipped.skipped.tokens = args.tokens ++ rest := by simp [htokens]
  obtain ⟨r₁, hreads, hr₁, hmemory⟩ := complete_arguments hop hn hargs hvalues
  refine ⟨r₁, ?_, hr₁, hmemory⟩
  refine reads_primary_of_ident function (by simp [htokens]) ?_
  refine reads_eatSym_bind_iff.mpr (.inl ⟨by simp [htokens], ?_⟩)
  refine reads_bind_iff.mpr ⟨values, r₁, first, second, rfl, hreads, ?_⟩
  exact reads_functionCall_iff.mpr ⟨hmemory ▸ hcall, rfl⟩

theorem complete_method (hop : OperandComplete operand n) {object method : String} {args : Args}
    (hn : args.nesting ≤ n) (htokens : r.tokens =
      .ident object :: .sym '.' :: .ident method :: .sym '(' :: args.tokens ++ rest)
    (hvalue : ((Primary.method object method args).value r.memory).Yields asked value) :
    Leaves (primary operand) r asked value rest := by
  obtain ⟨values, first, second, rfl, hvalues, hcall⟩ := yields_bind_iff.mp hvalue
  have hargs : r.skipped.skipped.skipped.skipped.tokens = args.tokens ++ rest := by simp [htokens]
  obtain ⟨r₁, hreads, hr₁, hmemory⟩ := complete_arguments hop hn hargs hvalues
  refine ⟨r₁, ?_, hr₁, hmemory⟩
  refine reads_primary_of_ident object (by simp [htokens]) ?_
  refine reads_eatSym_bind_iff.mpr (.inr ⟨by simp [htokens], ?_⟩)
  refine reads_eatSym_bind_iff.mpr (.inl ⟨by simp [htokens], ?_⟩)
  apply reads_next?_bind_iff.mpr
  simp only [htokens, Reading.tokens_skipped, List.cons_append, List.tail_cons, List.head?_cons]
  refine reads_skip_bind_iff.mpr (reads_expectSym_bind_iff.mpr ⟨by simp [htokens], ?_⟩)
  refine reads_bind_iff.mpr ⟨values, r₁, first, second, rfl, hreads, ?_⟩
  exact reads_callMethod_iff.mpr ⟨hmemory ▸ hcall, rfl⟩

theorem complete_primary (hop : OperandComplete operand n) {p : Primary} (hn : p.nesting ≤ n)
    (htokens : r.tokens = p.tokens ++ rest) (hends : Ends behindName rest)
    (hvalue : (p.value r.memory).Yields asked value) :
    Leaves (primary operand) r asked value rest := by
  cases p with
  | num x =>
    obtain ⟨rfl, rfl⟩ := yields_pure_iff.mp hvalue
    refine ⟨r.skipped, ?_, by simp [htokens, Primary.tokens], rfl⟩
    unfold primary
    rw [reads_next?_bind_iff]
    simp only [htokens, Primary.tokens, List.cons_append, List.head?_cons]
    exact reads_skip_bind_iff.mpr (reads_pure_iff.mpr ⟨rfl, rfl, rfl⟩)
  | str s =>
    obtain ⟨rfl, rfl⟩ := yields_pure_iff.mp hvalue
    refine ⟨r.skipped, ?_, by simp [htokens, Primary.tokens], rfl⟩
    unfold primary
    rw [reads_next?_bind_iff]
    simp only [htokens, Primary.tokens, List.cons_append, List.head?_cons]
    exact reads_skip_bind_iff.mpr (reads_pure_iff.mpr ⟨rfl, rfl, rfl⟩)
  | var name =>
    obtain ⟨rfl, hbound⟩ := yields_known_iff.mp hvalue
    exact complete_var htokens hends hbound
  | paren e =>
    have he : r.skipped.tokens = e.tokens ++ .sym ')' :: rest := by simp [htokens, Primary.tokens]
    obtain ⟨r₁, hreads, hr₁, hmemory⟩ := complete_expr hop hn he (ends_sym (by decide)) hvalue
    refine ⟨r₁.skipped, ?_, by simp [hr₁], hmemory⟩
    unfold primary
    rw [reads_next?_bind_iff]
    simp only [htokens, Primary.tokens, List.cons_append, List.head?_cons]
    refine reads_skip_bind_iff.mpr (reads_bind_iff.mpr
      ⟨value, r₁, asked, [], (List.append_nil asked).symm, hreads, ?_⟩)
    exact reads_expectSym_bind_iff.mpr ⟨by simp [hr₁], reads_pure_iff.mpr ⟨rfl, rfl, rfl⟩⟩
  | call function args => exact complete_call hop hn htokens hvalue
  | method object name args => exact complete_method hop hn htokens hvalue

theorem complete_power (hop : OperandComplete operand n) {p : Power} (hn : p.nesting ≤ n)
    (htokens : r.tokens = p.tokens ++ rest) (hends : Ends behindOperand rest)
    (hvalue : (p.value r.memory).Yields asked value) :
    Leaves (power operand) r asked value rest := by
  cases p with
  | plain base =>
    obtain ⟨r₁, hreads, hr₁, hmemory⟩ :=
      complete_primary hop hn htokens hends.name_of_operand hvalue
    refine ⟨r₁, ?_, hr₁, hmemory⟩
    refine reads_bind_iff.mpr ⟨value, r₁, asked, [], (List.append_nil asked).symm, hreads, ?_⟩
    refine reads_eatSym_bind_iff.mpr (.inr ⟨hr₁ ▸ hends '^' (by decide), ?_⟩)
    exact reads_pure_iff.mpr ⟨rfl, rfl, rfl⟩
  | pow base exponent =>
    obtain ⟨a, a', first, second, rfl, hbase, hexponent, hpow⟩ := yields_binary_iff.mp hvalue
    obtain ⟨hnbase, hnexponent⟩ := Nat.max_le.mp hn
    rw [Power.tokens, List.append_assoc] at htokens
    refine (complete_primary hop hnbase htokens (ends_sym (by decide)) hbase).bind ?_
    intro r₁ hr₁ hmemory
    rw [← hmemory] at hexponent
    obtain ⟨r₂, hreads, hr₂, hmemory₂⟩ :=
      hop exponent r₁.skipped rest second a' hnexponent (by simp [hr₁]) hends hexponent
    refine ⟨r₂, ?_, hr₂, hmemory₂⟩
    refine reads_eatSym_bind_iff.mpr (.inl ⟨by simp [hr₁], ?_⟩)
    exact reads_bind_iff.mpr ⟨a', r₂, second, [], (List.append_nil second).symm, hreads,
      reads_arith_iff.mpr ⟨rfl, hpow, rfl⟩⟩

theorem complete_signed (n : Nat) : OperandComplete (η := η) (signed n) n := by
  -- On the levels: what stands in a primary is read one level down, and nested less deeply.
  induction n with
  | zero =>
    intro u r rest asked value hn
    cases u <;> exact (Nat.not_succ_le_zero _ hn).elim
  | succ n ih =>
    intro u r rest asked value hn htokens hends hvalue
    cases u with
    | neg u =>
      obtain ⟨a, first, second, rfl, ha, hknown⟩ := yields_bind_iff.mp hvalue
      obtain ⟨rfl, hneg⟩ := yields_known_iff.mp hknown
      have hu : r.skipped.tokens = u.tokens ++ rest := by simp [htokens, Unary.tokens]
      obtain ⟨r₁, hreads, hr₁, hmemory⟩ :=
        ih u r.skipped rest first a (Nat.le_of_succ_le_succ hn) hu hends ha
      refine ⟨r₁, ?_, hr₁, hmemory⟩
      refine reads_eatSym_bind_iff.mpr (.inl ⟨by simp [htokens, Unary.tokens], ?_⟩)
      exact reads_bind_iff.mpr ⟨a, r₁, first, [], rfl, hreads,
        reads_arith_iff.mpr ⟨rfl, hneg, rfl⟩⟩
    | power p =>
      obtain ⟨token, others, hp, -, hsign⟩ := p.exists_head
      obtain ⟨r₁, hreads, hr₁, hmemory⟩ :=
        complete_power ih (Nat.le_of_succ_le_succ hn) htokens hends hvalue
      refine ⟨r₁, ?_, hr₁, hmemory⟩
      refine reads_eatSym_bind_iff.mpr (.inr ⟨?_, hreads⟩)
      simp [htokens, Unary.tokens, hp, hsign]

theorem complete_expression {e : Expr} (hn : e.nesting ≤ maxDepth)
    (htokens : r.tokens = e.tokens ++ rest) (hends : Ends behindExpr rest)
    (hvalue : (e.value r.memory).Yields asked value) :
    Leaves expression r asked value rest :=
  complete_expr (complete_signed maxDepth) hn htokens hends hvalue

/-! ## Programs -/

theorem complete_statement {s : Statement} {m : Memory η} (hn : s.nesting ≤ maxDepth)
    (hreadable : s.Readable) (htokens : r.tokens = s.tokens ++ rest) (hends : Ends behindExpr rest)
    (hrun : (s.run r.memory).Yields asked (value, m)) :
    ∃ r' : Reading η, Reads statement r asked value r' ∧ r'.tokens = rest ∧ r'.memory = m := by
  cases s with
  | bind name e =>
    obtain ⟨v, first, second, rfl, hv, hpure⟩ := yields_bind_iff.mp hrun
    obtain ⟨rfl, ⟨⟩⟩ := yields_pure_iff.mp hpure
    have he : r.skipped.skipped.skipped.tokens = e.tokens ++ rest := by
      simp [htokens, Statement.tokens]
    obtain ⟨r₁, hreads, hr₁, hmemory⟩ := complete_expression hn he hends hv
    refine ⟨{ r₁ with memory := r₁.memory.bindValue name v }, ?_, hr₁, by rw [hmemory]; rfl⟩
    unfold statement
    rw [reads_next?_bind_iff]
    simp only [htokens, Statement.tokens, List.cons_append, List.head?_cons]
    refine reads_skip_bind_iff.mpr (reads_next?_bind_iff.mpr ?_)
    simp only [htokens, Statement.tokens, List.cons_append, Reading.tokens_skipped, List.tail_cons,
      List.head?_cons]
    refine reads_skip_bind_iff.mpr (reads_expectSym_bind_iff.mpr
      ⟨by simp [htokens, Statement.tokens], reads_bind_iff.mpr ⟨v, r₁, first, [], rfl, hreads, ?_⟩⟩)
    exact reads_modify_bind_iff.mpr (reads_pure_iff.mpr ⟨rfl, rfl, rfl⟩)
  | expr e =>
    obtain ⟨v, first, second, rfl, hv, hpure⟩ := yields_bind_iff.mp hrun
    obtain ⟨rfl, ⟨⟩⟩ := yields_pure_iff.mp hpure
    rw [List.append_nil]
    obtain ⟨r₁, hreads, hr₁, hmemory⟩ := complete_expression hn htokens hends hv
    refine ⟨r₁, ?_, hr₁, hmemory⟩
    unfold statement
    rw [reads_next?_bind_iff]
    split
    · next hlet =>
      obtain ⟨token, others, he, -⟩ := e.exists_head
      rw [htokens, Statement.tokens, he] at hlet
      exact (hreadable (by rw [he]; exact hlet)).elim
    · exact hreads

theorem skipSeparators_of_sep {lexemes : List Lexeme}
    (h : lexemes.head?.map (·.token) = some .sep) :
    skipSeparators lexemes = skipSeparators lexemes.tail := by
  cases lexemes with
  | nil => rfl
  | cons lexeme rest =>
    obtain ⟨token, line⟩ := lexeme
    cases h
    rfl

theorem skipSeparators_of_ne {lexemes : List Lexeme}
    (h : lexemes.head?.map (·.token) ≠ some .sep) : skipSeparators lexemes = lexemes := by
  cases lexemes with
  | nil => rfl
  | cons lexeme rest =>
    obtain ⟨token, line⟩ := lexeme
    cases token with
    | sep => exact (h rfl).elim
    | _ => rfl

theorem Reading.head?_tokens (r : Reading η) : r.tokens.head? = r.rest.head?.map (·.token) := by
  simp [Reading.tokens]

theorem reads_statements_of_sep {fuel : Nat} {last : Value} {r' : Reading η}
    (hsep : r.tokens.head? = some .sep)
    (h : Reads (statements (fuel + 1) last) r.skipped asked value r') :
    Reads (statements (fuel + 1) last) r asked value r' := by
  unfold statements at h ⊢
  rw [reads_modify_bind_iff] at h ⊢
  rw [Reading.head?_tokens] at hsep
  rw [skipSeparators_of_sep hsep]
  exact h

theorem reads_statements_of_statement {fuel : Nat} {last : Value} {s : Statement} {r' : Reading η}
    (htokens : r.tokens = s.tokens ++ rest) (hends : rest.head? = none ∨ rest.head? = some .sep)
    (hreads : Reads statement r before value r₁) (hr₁ : r₁.tokens = rest) {v : Value}
    (h : Reads (statements fuel value) r₁ asked v r') :
    Reads (statements (fuel + 1) last) r (before ++ asked) v r' := by
  obtain ⟨token, others, hs, hopens⟩ := s.exists_head
  have hhead : r.tokens.head? = some token := by simp [htokens, hs]
  have hskip : skipSeparators r.rest = r.rest := by
    refine skipSeparators_of_ne ?_
    rw [← Reading.head?_tokens, hhead]
    rintro ⟨⟩
    cases hopens
  unfold statements
  rw [reads_modify_bind_iff, hskip, reads_next?_bind_iff]
  simp only [hhead]
  refine reads_bind_iff.mpr ⟨value, r₁, before, asked, rfl, hreads, reads_next?_bind_iff.mpr ?_⟩
  rw [hr₁]
  rcases hends with hends | hends
  · rw [hends]
    exact h
  · rw [hends]
    exact h

theorem ends_of_nil_or_sep {symbols : List Char} (h : rest.head? = none ∨ rest.head? = some .sep) :
    Ends symbols rest := by
  intro c _ hc
  rcases h with h | h
  · rw [h] at hc
    cases hc
  · rw [h] at hc
    cases hc

theorem reads_statements_of_nil {fuel : Nat} {last : Value} (h : r.tokens = []) :
    Reads (statements fuel last) r [] last r := by
  cases fuel with
  | zero => exact reads_pure_iff.mpr ⟨rfl, rfl, rfl⟩
  | succ fuel =>
    have hskip : skipSeparators r.rest = r.rest := by
      refine skipSeparators_of_ne ?_
      rw [← Reading.head?_tokens, h]
      simp
    unfold statements
    rw [reads_modify_bind_iff, hskip, reads_next?_bind_iff, h]
    exact reads_pure_iff.mpr ⟨rfl, rfl, rfl⟩

theorem complete_statements {program : List Statement} (hwritten : Written program tokens)
    (hall : ∀ s ∈ program, s.nesting ≤ maxDepth ∧ s.Readable) {fuel : Nat} {last : Value}
    {m : Memory η} (htokens : r.tokens = tokens) (hfuel : tokens.length < fuel)
    (hrun : (Statement.runAll program last r.memory).Yields asked (value, m)) :
    ∃ r' : Reading η, Reads (statements fuel last) r asked value r' ∧ r'.memory = m := by
  -- On how the program is written: every turn of the loop drops a token and one unit of fuel.
  induction hwritten generalizing r fuel last asked with
  | nil =>
    obtain ⟨rfl, ⟨⟩⟩ := yields_pure_iff.mp hrun
    exact ⟨r, reads_statements_of_nil htokens, rfl⟩
  | @sep program tokens h ih =>
    obtain ⟨fuel, rfl⟩ := Nat.exists_eq_succ_of_ne_zero (Nat.ne_zero_of_lt hfuel)
    rw [List.length_cons] at hfuel
    have hskipped : r.skipped.tokens = tokens := by simp [htokens]
    have henough : tokens.length < fuel + 1 := by omega
    obtain ⟨r', hreads, hr'⟩ := ih hall hskipped henough hrun
    exact ⟨r', reads_statements_of_sep (by simp [htokens]) hreads, hr'⟩
  | last s =>
    obtain ⟨fuel, rfl⟩ := Nat.exists_eq_succ_of_ne_zero (Nat.ne_zero_of_lt hfuel)
    obtain ⟨⟨v, m₁⟩, first, second, rfl, hs, hnone⟩ := yields_bind_iff.mp hrun
    obtain ⟨rfl, ⟨⟩⟩ := yields_pure_iff.mp hnone
    obtain ⟨hn, hreadable⟩ := hall s (List.mem_singleton_self s)
    rw [← List.append_nil s.tokens] at htokens
    obtain ⟨r₁, hreads, hr₁, hmemory⟩ :=
      complete_statement hn hreadable htokens (ends_of_nil_or_sep (.inl rfl)) hs
    exact ⟨r₁, reads_statements_of_statement htokens (.inl rfl) hreads hr₁
      (reads_statements_of_nil hr₁), hmemory⟩
  | @cons s program tokens h ih =>
    obtain ⟨fuel, rfl⟩ := Nat.exists_eq_succ_of_ne_zero (Nat.ne_zero_of_lt hfuel)
    obtain ⟨⟨v, m₁⟩, first, second, rfl, hs, hrest⟩ := yields_bind_iff.mp hrun
    obtain ⟨hn, hreadable⟩ := hall s List.mem_cons_self
    obtain ⟨r₁, hreads, hr₁, rfl⟩ :=
      complete_statement hn hreadable htokens (ends_of_nil_or_sep (.inr rfl)) hs
    obtain ⟨token, others, hcons, -⟩ := s.exists_head
    rw [hcons, List.length_append, List.length_cons, List.length_cons] at hfuel
    obtain ⟨fuel, rfl⟩ := Nat.exists_eq_succ_of_ne_zero (show fuel ≠ 0 by omega)
    have hskipped : r₁.skipped.tokens = tokens := by simp [hr₁]
    have henough : tokens.length < fuel + 1 := by omega
    obtain ⟨r', hreads', hr'⟩ :=
      ih (fun s' hs' => hall s' (List.mem_cons_of_mem s hs')) hskipped henough hrest
    exact ⟨r', reads_statements_of_statement htokens (.inr rfl) hreads hr₁
      (reads_statements_of_sep (by simp [hr₁]) hreads'), hr'⟩

end SessionShell.Calc
