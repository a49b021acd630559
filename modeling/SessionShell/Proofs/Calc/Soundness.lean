import SessionShell.Proofs.Calc.Reads

/-!
What is read is a tree.

Each function of the grammar that goes well has passed the tokens of a tree of its level, and its
value is the value of the tree. The functions are given an operand, so each is sound if the operand
is, and the operands of all levels are sound by induction on the levels.
-/

namespace SessionShell.Calc

open Meaning

variable {η α : Type}

/-- From one reading to another, these tokens with this meaning were read. -/
structure ReadAs (n : Nat) (tokens : List Token) (nesting : Nat) (meaning : Memory η → Meaning η α)
    (r : Reading η) (asked : Asked η) (a : α) (r' : Reading η) : Prop where
  passes : r.Passes tokens r'
  nesting : nesting ≤ n
  yields : (meaning r.memory).Yields asked a

abbrev ReadAsUnary (n : Nat) (u : Unary) (r : Reading η) :=
  ReadAs n u.tokens u.nesting (fun m => u.value m) r

abbrev ReadAsTerm (n : Nat) (t : Term) (r : Reading η) :=
  ReadAs n t.tokens t.nesting (fun m => t.value m) r

abbrev ReadAsExpr (n : Nat) (e : Expr) (r : Reading η) :=
  ReadAs n e.tokens e.nesting (fun m => e.value m) r

abbrev ReadAsArgs (n : Nat) (args : Args) (r : Reading η) :=
  ReadAs n args.tokens args.nesting (fun m => args.values m) r

abbrev ReadAsPrimary (n : Nat) (p : Primary) (r : Reading η) :=
  ReadAs n p.tokens p.nesting (fun m => p.value m) r

variable {n : Nat} {r r₀ r₁ r' : Reading η} {before first asked : Asked η} {value : Value}

theorem ReadAs.binary {tokens tokens' : List Token} {token : Token} {nesting nesting' : Nat}
    {left right : Memory η → Meaning η Value} {a a' : Value} {g : Value → Value → Option Value}
    (hleft : ReadAs n tokens nesting left r₀ before a r) (hhead : r.tokens.head? = some token)
    (hright : ReadAs n tokens' nesting' right r.skipped first a' r₁) (hg : g a a' = some value) :
    ReadAs n (tokens ++ token :: tokens') (max nesting nesting')
      (fun m => left m >>= fun a => right m >>= fun a' => known (g a a')) r₀ (before ++ first)
      value r₁ := by
  refine ⟨?_, ?_, ?_⟩
  · exact hleft.passes.trans ((Reading.passes_skipped hhead).trans hright.passes)
  · exact Nat.max_le.mpr ⟨hleft.nesting, hright.nesting⟩
  · have hyields := hright.yields
    rw [Reading.memory_skipped, hleft.passes.memory] at hyields
    exact yields_binary_iff.mpr ⟨a, a', before, first, rfl, hleft.yields, hyields, hg⟩

def OperandSound (operand : Eval η Value) (n : Nat) : Prop :=
  ∀ (r : Reading η) (asked : Asked η) (value : Value) (r' : Reading η),
    Reads operand r asked value r' → ∃ u : Unary, ReadAsUnary n u r asked value r'

variable {operand : Eval η Value}

theorem sound_factors (hop : OperandSound operand n) {fuel : Nat} {left : Term} {leftValue : Value}
    (hleft : ReadAsTerm n left r₀ before leftValue r)
    (h : Reads (factors operand fuel leftValue) r asked value r') :
    ∃ t : Term, ReadAsTerm n t r₀ (before ++ asked) value r' := by
  -- On the turns of the loop: the tree read so far is the left operand in the next one.
  induction fuel generalizing left leftValue r before asked with
  | zero =>
    obtain ⟨rfl, rfl, rfl⟩ := reads_pure_iff.mp h
    rw [List.append_nil]
    exact ⟨left, hleft⟩
  | succ fuel ih =>
    rcases reads_factors_succ_iff.mp h with ⟨op, hhead, h⟩ | ⟨-, rfl, rfl, rfl⟩
    · obtain ⟨right, next, r₁, first, rest, rfl, hright, hnext, h⟩ :=
        (reads_operand_bind_iff fun _ _ _ _ _ => reads_arith_iff).mp h
      obtain ⟨u, hu⟩ := hop _ _ _ _ hright
      have hscale : ReadAsTerm n (.scale op left u) r₀ (before ++ first) next r₁ :=
        hleft.binary hhead hu hnext
      rw [← List.append_assoc]
      exact ih hscale h
    · rw [List.append_nil]
      exact ⟨left, hleft⟩

theorem sound_term (hop : OperandSound operand n) (h : Reads (term operand) r asked value r') :
    ∃ t : Term, ReadAsTerm n t r asked value r' := by
  unfold term at h
  obtain ⟨left, r₁, first, rest, rfl, hleft, h⟩ := reads_bind_iff.mp h
  obtain ⟨u, hu⟩ := hop _ _ _ _ hleft
  have hterm : ReadAsTerm n (.unary u) r first left r₁ := hu
  rw [reads_tokensLeft_bind_iff] at h
  exact sound_factors hop hterm h

theorem sound_summands (hop : OperandSound operand n) {fuel : Nat} {left : Expr} {leftValue : Value}
    (hleft : ReadAsExpr n left r₀ before leftValue r)
    (h : Reads (summands operand fuel leftValue) r asked value r') :
    ∃ e : Expr, ReadAsExpr n e r₀ (before ++ asked) value r' := by
  induction fuel generalizing left leftValue r before asked with
  | zero =>
    obtain ⟨rfl, rfl, rfl⟩ := reads_pure_iff.mp h
    rw [List.append_nil]
    exact ⟨left, hleft⟩
  | succ fuel ih =>
    rcases reads_summands_succ_iff.mp h with ⟨hhead, h⟩ | ⟨hhead, h⟩ | ⟨-, -, rfl, rfl, rfl⟩
    · obtain ⟨right, next, r₁, first, rest, rfl, hright, hnext, h⟩ :=
        (reads_operand_bind_iff fun _ _ _ _ _ => reads_add_iff).mp h
      obtain ⟨t, ht⟩ := sound_term hop hright
      have hadd : ReadAsExpr n (.add left t) r₀ (before ++ first) next r₁ :=
        hleft.binary hhead ht hnext
      rw [← List.append_assoc]
      exact ih hadd h
    · obtain ⟨right, next, r₁, first, rest, rfl, hright, hnext, h⟩ :=
        (reads_operand_bind_iff fun _ _ _ _ _ => reads_arith_iff).mp h
      obtain ⟨t, ht⟩ := sound_term hop hright
      have hsub : ReadAsExpr n (.sub left t) r₀ (before ++ first) next r₁ :=
        hleft.binary hhead ht hnext
      rw [← List.append_assoc]
      exact ih hsub h
    · rw [List.append_nil]
      exact ⟨left, hleft⟩

theorem sound_expr (hop : OperandSound operand n) (h : Reads (expr operand) r asked value r') :
    ∃ e : Expr, ReadAsExpr n e r asked value r' := by
  unfold expr at h
  obtain ⟨left, r₁, first, rest, rfl, hleft, h⟩ := reads_bind_iff.mp h
  obtain ⟨t, ht⟩ := sound_term hop hleft
  have hexpr : ReadAsExpr n (.term t) r first left r₁ := ht
  rw [reads_tokensLeft_bind_iff] at h
  exact sound_summands hop hexpr h

theorem sound_moreArguments (hop : OperandSound operand n) {fuel : Nat} {read values : List Value}
    (hfuel : r.tokens.length < fuel)
    (h : Reads (moreArguments operand fuel read) r asked values r') :
    ∃ (e : Expr) (rest : Args) (more : List Value), values = read.reverse ++ more ∧
      ReadAsArgs n (.cons e rest) r asked more r' := by
  induction fuel generalizing read r asked with
  | zero => omega
  | succ fuel ih =>
    unfold moreArguments at h
    obtain ⟨v, r₁, first, rest, rfl, hv, h⟩ := reads_bind_iff.mp h
    obtain ⟨e, he⟩ := sound_expr hop hv
    have hlength := congrArg List.length he.passes.tokens
    rw [List.length_append] at hlength
    rcases reads_eatSym_bind_iff.mp h with ⟨hclose, h⟩ | ⟨-, h⟩
    · obtain ⟨rfl, rfl, rfl⟩ := reads_pure_iff.mp h
      refine ⟨e, .nil, [v], by simp, ?_, by simpa [Args.nesting] using he.nesting, ?_⟩
      · exact he.passes.trans (Reading.passes_skipped hclose)
      · exact yields_cons_iff.mpr
          ⟨v, [], first, [], rfl, rfl, he.yields, yields_nil_iff.mpr ⟨rfl, rfl⟩⟩
    · obtain ⟨hcomma, h⟩ := reads_expectSym_bind_iff.mp h
      have hpass := Reading.passes_skipped hcomma
      have hshort := congrArg List.length hpass.tokens
      rw [List.length_append, List.length_singleton] at hshort
      obtain ⟨e', rest', more, rfl, hrest⟩ := ih (by omega) h
      refine ⟨e, .cons e' rest', v :: more, by simp, ?_, ?_, ?_⟩
      · exact he.passes.trans (hpass.trans hrest.passes)
      · exact Nat.max_le.mpr ⟨he.nesting, hrest.nesting⟩
      · have hyields := hrest.yields
        rw [Reading.memory_skipped, he.passes.memory] at hyields
        exact yields_cons_iff.mpr ⟨v, more, first, rest, rfl, rfl, he.yields, hyields⟩

theorem sound_arguments (hop : OperandSound operand n) {values : List Value}
    (h : Reads (arguments operand) r asked values r') :
    ∃ args : Args, ReadAsArgs n args r asked values r' := by
  unfold arguments at h
  rcases reads_eatSym_bind_iff.mp h with ⟨hclose, h⟩ | ⟨-, h⟩
  · obtain ⟨rfl, rfl, rfl⟩ := reads_pure_iff.mp h
    exact ⟨.nil, Reading.passes_skipped hclose, Nat.zero_le n, yields_nil_iff.mpr ⟨rfl, rfl⟩⟩
  · simp only [Bool.false_eq_true, if_false] at h
    rw [reads_tokensLeft_bind_iff] at h
    obtain ⟨e, rest, more, rfl, hargs⟩ := sound_moreArguments hop (Nat.lt_succ_self _) h
    exact ⟨.cons e rest, hargs⟩

theorem sound_named (hop : OperandSound operand n) {name : String}
    (hname : r.tokens.head? = some (.ident name))
    (h : Reads (named operand name) r.skipped asked value r') :
    ∃ p : Primary, ReadAsPrimary n p r asked value r' := by
  have hpass := Reading.passes_skipped hname
  unfold named at h
  rcases reads_eatSym_bind_iff.mp h with ⟨hopen, h⟩ | ⟨-, h⟩
  · obtain ⟨values, r₁, first, rest, rfl, hvalues, h⟩ := reads_bind_iff.mp h
    obtain ⟨args, hargs⟩ := sound_arguments hop hvalues
    obtain ⟨hvalue, rfl⟩ := reads_functionCall_iff.mp h
    have hpasses := hpass.trans ((Reading.passes_skipped hopen).trans hargs.passes)
    rw [hpasses.memory] at hvalue
    exact ⟨.call name args, hpasses, hargs.nesting,
      yields_bind_iff.mpr ⟨values, first, rest, rfl, hargs.yields, hvalue⟩⟩
  simp only [Bool.false_eq_true, if_false] at h
  rcases reads_eatSym_bind_iff.mp h with ⟨hdot, h⟩ | ⟨-, h⟩
  · simp only [if_true] at h
    rw [reads_next?_bind_iff] at h
    split at h
    · next method hmethod =>
      rw [reads_skip_bind_iff] at h
      obtain ⟨hopen, h⟩ := reads_expectSym_bind_iff.mp h
      obtain ⟨values, r₁, first, rest, rfl, hvalues, h⟩ := reads_bind_iff.mp h
      obtain ⟨args, hargs⟩ := sound_arguments hop hvalues
      obtain ⟨hvalue, rfl⟩ := reads_callMethod_iff.mp h
      have hpasses := hpass.trans ((Reading.passes_skipped hdot).trans
        ((Reading.passes_skipped hmethod).trans
          ((Reading.passes_skipped hopen).trans hargs.passes)))
      rw [hpasses.memory] at hvalue
      exact ⟨.method name method args, hpasses, hargs.nesting,
        yields_bind_iff.mpr ⟨values, first, rest, rfl, hargs.yields, hvalue⟩⟩
    · exact (not_reads_fail _ h).elim
  · simp only [Bool.false_eq_true, if_false] at h
    rw [reads_get_bind_iff] at h
    split at h
    · next v hv =>
      obtain ⟨rfl, rfl, rfl⟩ := reads_pure_iff.mp h
      exact ⟨.var name, hpass, Nat.zero_le n, yields_known_iff.mpr ⟨rfl, hv⟩⟩
    · exact (not_reads_fail _ h).elim

theorem sound_primary (hop : OperandSound operand n)
    (h : Reads (primary operand) r asked value r') :
    ∃ p : Primary, ReadAsPrimary n p r asked value r' := by
  unfold primary at h
  rw [reads_next?_bind_iff] at h
  cases hhead : r.tokens.head? with
  | none =>
    rw [hhead] at h
    exact (not_reads_fail _ h).elim
  | some token =>
    have hpass := Reading.passes_skipped hhead
    simp only [hhead] at h
    rw [reads_skip_bind_iff] at h
    split at h
    · next x =>
      obtain ⟨rfl, rfl, rfl⟩ := reads_pure_iff.mp h
      exact ⟨.num x, hpass, Nat.zero_le n, yields_pure_iff.mpr ⟨rfl, rfl⟩⟩
    · next s =>
      obtain ⟨rfl, rfl, rfl⟩ := reads_pure_iff.mp h
      exact ⟨.str s, hpass, Nat.zero_le n, yields_pure_iff.mpr ⟨rfl, rfl⟩⟩
    · obtain ⟨v, r₁, first, rest, rfl, hv, h⟩ := reads_bind_iff.mp h
      obtain ⟨e, he⟩ := sound_expr hop hv
      obtain ⟨hclose, h⟩ := reads_expectSym_bind_iff.mp h
      obtain ⟨rfl, rfl, rfl⟩ := reads_pure_iff.mp h
      rw [List.append_nil]
      exact ⟨.paren e, hpass.trans (he.passes.trans (Reading.passes_skipped hclose)), he.nesting,
        he.yields⟩
    · next name => exact sound_named hop hhead h
    · exact (not_reads_fail _ h).elim

theorem sound_power (hop : OperandSound operand n) (h : Reads (power operand) r asked value r') :
    ∃ p : Power, ReadAs n p.tokens p.nesting (fun m => p.value m) r asked value r' := by
  unfold power at h
  obtain ⟨base, r₁, first, rest, rfl, hbase, h⟩ := reads_bind_iff.mp h
  obtain ⟨p, hp⟩ := sound_primary hop hbase
  rcases reads_eatSym_bind_iff.mp h with ⟨hhead, h⟩ | ⟨-, h⟩
  · simp only [if_true] at h
    obtain ⟨exponent, r₂, second, last, rfl, hexponent, h⟩ := reads_bind_iff.mp h
    obtain ⟨u, hu⟩ := hop _ _ _ _ hexponent
    obtain ⟨rfl, hvalue, rfl⟩ := reads_arith_iff.mp h
    rw [List.append_nil]
    exact ⟨.pow p u, hp.binary hhead hu hvalue⟩
  · obtain ⟨rfl, rfl, rfl⟩ := reads_pure_iff.mp h
    rw [List.append_nil]
    exact ⟨.plain p, hp⟩

theorem sound_signed (n : Nat) : OperandSound (η := η) (signed n) n := by
  -- On the levels: all that is read one level down is nested less deeply.
  induction n with
  | zero =>
    intro r asked value r' h
    exact (not_reads_fail _ h).elim
  | succ n ih =>
    intro r asked value r' h
    unfold signed at h
    rcases reads_eatSym_bind_iff.mp h with ⟨hsign, h⟩ | ⟨-, h⟩
    · simp only [if_true] at h
      obtain ⟨operandValue, r₁, first, rest, rfl, hoperand, h⟩ := reads_bind_iff.mp h
      obtain ⟨u, hu⟩ := ih _ _ _ _ hoperand
      obtain ⟨rfl, hvalue, rfl⟩ := reads_arith_iff.mp h
      exact ⟨.neg u, (Reading.passes_skipped hsign).trans hu.passes, Nat.succ_le_succ hu.nesting,
        yields_bind_iff.mpr ⟨_, first, [], rfl, hu.yields, yields_known_iff.mpr ⟨rfl, hvalue⟩⟩⟩
    · simp only [Bool.false_eq_true, if_false] at h
      obtain ⟨p, hp⟩ := sound_power ih h
      exact ⟨.power p, hp.passes, Nat.succ_le_succ hp.nesting, hp.yields⟩

theorem sound_expression (h : Reads expression r asked value r') :
    ∃ e : Expr, ReadAsExpr maxDepth e r asked value r' :=
  sound_expr (sound_signed maxDepth) h

/-! ## Programs -/

theorem sound_statement (h : Reads statement r asked value r') :
    ∃ s : Statement, r.tokens = s.tokens ++ r'.tokens ∧ s.nesting ≤ maxDepth ∧ s.Readable ∧
      (s.run r.memory).Yields asked (value, r'.memory) := by
  unfold statement at h
  rw [reads_next?_bind_iff] at h
  split at h
  · next hlet =>
    rw [reads_skip_bind_iff, reads_next?_bind_iff] at h
    split at h
    · next name hname =>
      rw [reads_skip_bind_iff] at h
      obtain ⟨hequals, h⟩ := reads_expectSym_bind_iff.mp h
      obtain ⟨v, r₁, first, rest, rfl, hv, h⟩ := reads_bind_iff.mp h
      obtain ⟨e, he⟩ := sound_expression hv
      rw [reads_modify_bind_iff] at h
      obtain ⟨rfl, rfl, rfl⟩ := reads_pure_iff.mp h
      have hpasses := (Reading.passes_skipped hlet).trans ((Reading.passes_skipped hname).trans
        ((Reading.passes_skipped hequals).trans he.passes))
      refine ⟨.bind name e, hpasses.tokens, he.nesting, trivial, ?_⟩
      refine yields_bind_iff.mpr ⟨v, first, [], rfl, he.yields, yields_pure_iff.mpr ⟨rfl, ?_⟩⟩
      rw [hpasses.memory]
    · exact (not_reads_fail _ h).elim
  · next hlet =>
    obtain ⟨e, he⟩ := sound_expression h
    refine ⟨.expr e, he.passes.tokens, he.nesting, ?_, ?_⟩
    · intro hhead
      refine hlet ?_
      obtain ⟨rest, hrest⟩ := List.head?_eq_some_iff.mp hhead
      rw [he.passes.tokens, hrest]
      rfl
    · refine yields_bind_iff.mpr ⟨value, asked, [], (List.append_nil asked).symm, he.yields, ?_⟩
      exact yields_pure_iff.mpr ⟨rfl, by rw [he.passes.memory]⟩

theorem exists_separators (rest : List Lexeme) : ∃ k, rest.map (·.token) =
    List.replicate k .sep ++ (skipSeparators rest).map (·.token) := by
  induction rest with
  | nil => exact ⟨0, rfl⟩
  | cons lexeme rest ih =>
    obtain ⟨token, line⟩ := lexeme
    obtain ⟨k, hk⟩ := ih
    cases token with
    | sep => exact ⟨k + 1, by simp [skipSeparators, hk, List.replicate_succ]⟩
    | _ => exact ⟨0, rfl⟩

theorem reads_statements_succ {fuel : Nat} {last : Value}
    (h : Reads (statements (fuel + 1) last) r asked value r') :
    ∃ (k : Nat) (r₁ : Reading η), r.tokens = List.replicate k .sep ++ r₁.tokens ∧
      r₁.memory = r.memory ∧
      (r₁.tokens = [] ∧ asked = [] ∧ value = last ∧ r' = r₁ ∨
        ∃ (v : Value) (r₂ : Reading η) (first rest : Asked η), asked = first ++ rest ∧
          Reads statement r₁ first v r₂ ∧
          (r₂.tokens.head? = none ∨ r₂.tokens.head? = some .sep) ∧
          Reads (statements fuel v) r₂ rest value r') := by
  unfold statements at h
  rw [reads_modify_bind_iff, reads_next?_bind_iff] at h
  obtain ⟨k, hk⟩ := exists_separators r.rest
  refine ⟨k, { r with rest := skipSeparators r.rest }, hk, rfl, ?_⟩
  split at h
  · next hnone =>
    exact .inl ⟨List.head?_eq_none_iff.mp hnone, reads_pure_iff.mp h⟩
  · obtain ⟨v, r₂, first, rest, rfl, hv, h⟩ := reads_bind_iff.mp h
    rw [reads_next?_bind_iff] at h
    split at h
    · next hnone => exact .inr ⟨v, r₂, first, rest, rfl, hv, .inl hnone, h⟩
    · next hsep => exact .inr ⟨v, r₂, first, rest, rfl, hv, .inr hsep, h⟩
    · exact (not_reads_fail _ h).elim

theorem sound_statements {fuel : Nat} {last : Value} (hfuel : r.tokens.length < fuel)
    (h : Reads (statements fuel last) r asked value r') :
    ∃ program : List Statement, Written program r.tokens ∧
      (∀ s ∈ program, s.nesting ≤ maxDepth ∧ s.Readable) ∧
      (Statement.runAll program last r.memory).Yields asked (value, r'.memory) := by
  induction fuel generalizing last r asked with
  | zero => omega
  | succ fuel ih =>
    obtain ⟨k, r₁, hseps, hmemory, hturn⟩ := reads_statements_succ h
    rw [hseps, ← hmemory]
    rcases hturn with ⟨hnil, rfl, rfl, rfl⟩ | ⟨v, r₂, first, rest, rfl, hv, hends, hrest⟩
    · rw [hnil]
      exact ⟨[], .seps k .nil, by simp, yields_pure_iff.mpr ⟨rfl, rfl⟩⟩
    · obtain ⟨s, htokens, hnesting, hreadable, hs⟩ := sound_statement hv
      obtain ⟨_, _, hcons, -⟩ := s.exists_head
      have hlength : r₂.tokens.length < fuel := by
        rw [hseps, htokens, hcons] at hfuel
        simp only [List.length_append, List.length_cons] at hfuel
        omega
      obtain ⟨program, hwritten, hall, hyields⟩ := ih hlength hrest
      refine ⟨s :: program, ?_, by simpa [hnesting, hreadable] using hall, ?_⟩
      · rw [htokens]
        exact .seps k (.behind s hwritten hends)
      · exact yields_bind_iff.mpr ⟨(v, r₂.memory), first, rest, rfl, hs, hyields⟩

end SessionShell.Calc
