import SessionShell.Proofs.Calc.Joined

/-!
Where failures are said to be.

A failure tells the line of the token that is read next. While a statement is evaluated that is one
of its own tokens, or the separator that ends it; and where tokens of one line make up a statement,
that is their line. It is not so where an operand is missing at the end of the line: then the
separator is read as if it were the operand, and the failure tells the line of what follows the
separator.
-/

namespace SessionShell.Calc

variable {η α β : Type}

/-- A statement with nothing but a separator behind it. -/
def wholeStatement : Eval η Value := do
  let value ← statement
  match ← next? with
  | none | some .sep => return value
  | some other => fail ("unexpected " ++ other.shown)

/-! ## The place of a statement -/

/-- Tokens that make up a statement on one line, and what stands behind them. -/
structure Site where
  source : Option String
  own : List Lexeme
  tail : List Lexeme
  lastLine : Nat
  line : Nat
  on_line : ∀ t ∈ own, t.token ≠ .sep ∧ t.line = line
  ends : ∀ t, tail.head? = some t → t.token = .sep ∧ t.line = line
  last : tail = [] → lastLine = line

def lineBehind (lastLine : Nat) : List Lexeme → Nat
  | [] => lastLine
  | t :: _ => t.line

/-- What the failure of a statement tells. -/
inductive Blame (source : Option String) (line : Nat) (tail : List Lexeme) (lastLine : Nat)
    (asked : Asked η) : Fault → Prop where
  | own (message : String) :
      Blame source line tail lastLine asked (.of (.script ⟨message, source, some line⟩))
  | host {exchange : Exchange HostRequest.Reply} {fault : Fault} (h : exchange ∈ asked)
      (hreply : replyValue exchange.1.call exchange.2 = .error fault) :
      Blame source line tail lastLine asked fault
  /-- The separator was read as an operand: the line of what follows it. -/
  | cutOff {sep : Lexeme} {behind : List Lexeme} (h : tail = sep :: behind) :
      Blame source line tail lastLine asked
        (.of (.script ⟨"unexpected Sep", source, some (lineBehind lastLine behind)⟩))

namespace Site

structure Inside (S : Site) (r : Reading η) : Prop where
  source : r.source = S.source
  lastLine : r.lastLine = S.lastLine
  rest : ∃ left, left <:+ S.own ∧ r.rest = left ++ S.tail

abbrev Blames (S : Site) (asked : Asked η) : Fault → Prop :=
  Blame S.source S.line S.tail S.lastLine asked

def Ended (S : Site) (asked : Asked η) (result : Except Fault α) (r : Reading η) : Prop :=
  match result with
  | .ok _ => S.Inside r
  | .error fault => S.Blames asked fault

/-- Started here, the evaluation stays inside the statement, and blames it if it fails. -/
def StaysAt (S : Site) (r : Reading η) (p : Eval η α) : Prop :=
  ∀ asked result r', (p.run.run r).Goes asked (some (result, r')) → S.Ended asked result r'

def Stays (S : Site) (p : Eval η α) : Prop :=
  ∀ r, S.Inside r → S.StaysAt r p

variable {S : Site} {r : Reading η} {asked asked' : Asked η}

theorem blame_mono {fault : Fault} (h : S.Blames asked fault) (hmem : ∀ e ∈ asked, e ∈ asked') :
    S.Blames asked' fault := by
  cases h with
  | own message => exact .own message
  | host hin hreply => exact .host (hmem _ hin) hreply
  | cutOff htail => exact .cutOff htail

theorem Inside.line (h : S.Inside r) : r.line = S.line := by
  obtain ⟨left, hleft, hrest⟩ := h.rest
  rw [Reading.line, hrest]
  cases left with
  | nil =>
    cases htail : S.tail with
    | nil => exact h.lastLine.trans (S.last htail)
    | cons t tail => exact (S.ends t (by rw [htail]; rfl)).2
  | cons t left => exact (S.on_line t (hleft.subset List.mem_cons_self)).2

theorem stays_pure (a : α) : S.Stays (pure a : Eval η α) := by
  intro r h asked result r' hgoes
  cases hgoes
  exact h

theorem staysAt_fail (h : S.Inside r) (message : String) :
    S.StaysAt r (fail message : Eval η α) := by
  intro asked result r' hgoes
  cases hgoes
  rw [h.source, h.line]
  exact .own message

theorem stays_fail (message : String) : S.Stays (fail message : Eval η α) :=
  fun _ h => staysAt_fail h message

theorem staysAt_bind {p : Eval η α} {f : α → Eval η β} (hp : S.StaysAt r p)
    (hf : ∀ a, S.Stays (f a)) : S.StaysAt r (p >>= f) := by
  intro asked result r' hgoes
  rw [run_bind] at hgoes
  obtain ⟨⟨first, s⟩, asked₁, asked₂, rfl, hfirst, hrest⟩ := Program.goes_bind_iff.mp hgoes
  have hstays := hp asked₁ first s hfirst
  cases first with
  | error fault =>
    cases hrest
    exact blame_mono hstays fun e he => by simp [he]
  | ok a =>
    have hthen := hf a s hstays asked₂ result r' hrest
    cases result with
    | ok b => exact hthen
    | error fault => exact blame_mono hthen fun e he => by simp [he]

theorem Stays.bind {p : Eval η α} {f : α → Eval η β} (hp : S.Stays p) (hf : ∀ a, S.Stays (f a)) :
    S.Stays (p >>= f) :=
  fun r h => staysAt_bind (hp r h) hf

theorem stays_get_bind {f : Reading η → Eval η α} (hf : ∀ r, S.Stays (f r)) : S.Stays (get >>= f) :=
  fun r h => hf r r h

theorem stays_tokensLeft : S.Stays (tokensLeft : Eval η Nat) :=
  stays_get_bind fun _ => stays_pure _

theorem stays_lift (p : Hosted η α) : S.Stays (ExceptT.lift (StateT.lift p) : Eval η α) := by
  intro r h asked result r' hgoes
  rw [ExceptT.run_lift, StateT.run_map, StateT.run_lift, map_eq_pure_bind, bind_assoc,
    Program.goes_bind_iff] at hgoes
  obtain ⟨a, first, rest, -, -, hrest⟩ := hgoes
  cases hrest
  exact h

theorem stays_request (host : η) (call : HostCall) :
    S.Stays (ask host call >>= fun reply => orThrow (replyValue call reply)) := by
  intro r h asked result r' hgoes
  have hrun : (ask host call >>= fun reply => orThrow (replyValue call reply)).run.run r =
      Program.ask (⟨host, call⟩ : HostRequest η) fun reply =>
        (orThrow (replyValue call reply)).run.run r := rfl
  rw [hrun] at hgoes
  have hanswered : ∀ (reply : call.Reply) (exchanges : Asked η),
      ((orThrow (replyValue call reply)).run.run r).Goes exchanges (some (result, r')) →
        S.Ended (⟨⟨host, call⟩, reply⟩ :: exchanges) result r' := by
    intro reply exchanges hgoes
    cases hreply : replyValue call reply with
    | ok value =>
      rw [hreply] at hgoes
      cases hgoes
      exact h
    | error fault =>
      rw [hreply] at hgoes
      cases hgoes
      exact .host List.mem_cons_self hreply
  cases hrun ▸ hgoes with
  | ask hgoes => exact hanswered _ _ hgoes

/-! ## Tokens -/

theorem Inside.skipped {t : Lexeme} {left : List Lexeme} (h : S.Inside r)
    (hleft : t :: left <:+ S.own) (hrest : r.rest = t :: left ++ S.tail) : S.Inside r.skipped := by
  refine ⟨h.source, h.lastLine, left, (List.suffix_cons t left).trans hleft, ?_⟩
  simp [Reading.skipped, hrest]

theorem staysAt_next_bind {f : Option Token → Eval η α} (h : S.Inside r)
    (htoken : ∀ token, token ≠ .sep → S.Inside r.skipped → S.StaysAt r (f (some token)))
    (hend : ∀ token?, r.rest = S.tail → token? = S.tail.head?.map (·.token) →
      S.StaysAt r (f token?)) :
    S.StaysAt r (next? >>= f) := by
  have hrun : ∀ token?, token? = r.rest.head?.map (·.token) → S.StaysAt r (f token?) →
      S.StaysAt r (next? >>= f) := by
    rintro token? rfl hstays
    exact hstays
  obtain ⟨left, hleft, hrest⟩ := h.rest
  cases left with
  | nil => exact hrun _ (by rw [hrest]; rfl) (hend _ hrest rfl)
  | cons t left =>
    refine hrun (some t.token) (by rw [hrest]; rfl) (htoken t.token ?_ (h.skipped hleft hrest))
    exact (S.on_line t (hleft.subset List.mem_cons_self)).1

theorem eq_sep_of_tail {token : Token} (h : some token = S.tail.head?.map (·.token)) :
    token = .sep := by
  obtain ⟨t, ht, rfl⟩ := Option.map_eq_some_iff.mp h.symm
  exact (S.ends t ht).1

theorem staysAt_skip_bind {f : Unit → Eval η α} (h : S.Inside r.skipped) (hf : S.Stays (f ())) :
    S.StaysAt r (skip >>= f) :=
  fun asked result r' hgoes => hf r.skipped h asked result r' hgoes

theorem stays_eatSym (c : Char) : S.Stays (eatSym c : Eval η Bool) := by
  intro r h
  refine staysAt_next_bind h (fun token _ hskipped => ?_) fun token? _ htoken => ?_
  · split
    · split
      · exact staysAt_skip_bind hskipped (stays_pure true)
      · exact stays_pure false r h
    · exact stays_pure false r h
  · split
    · cases eq_sep_of_tail htoken
    · exact stays_pure false r h

theorem stays_expectSym (c : Char) : S.Stays (expectSym c : Eval η Unit) := by
  refine (stays_eatSym c).bind fun eaten => ?_
  split
  · exact stays_pure _
  · exact stays_fail _

theorem stays_add (left right : Value) : S.Stays (add left right : Eval η Value) := by
  unfold add
  split
  · exact stays_pure _
  · exact stays_fail _
  · exact stays_fail _
  · exact stays_pure _

theorem stays_arith (op : Arith) (left right : Value) :
    S.Stays (arith op left right : Eval η Value) := by
  unfold arith
  split
  · split
    · exact stays_pure _
    · exact stays_fail _
  · exact stays_fail _

theorem stays_callMethod (object method : String) (args : List Value) :
    S.Stays (callMethod object method args : Eval η Value) := by
  refine stays_get_bind fun r => ?_
  split
  · exact stays_fail _
  · split
    · exact stays_fail _
    · exact stays_fail _
    · exact stays_request _ _

/-! ## The grammar -/

section Operand

variable {operand : Eval η Value}

theorem stays_factors (hoperand : S.Stays operand) (fuel : Nat) (left : Value) :
    S.Stays (factors operand fuel left) := by
  induction fuel generalizing left with
  | zero => exact stays_pure _
  | succ fuel ih =>
    intro r h
    refine staysAt_next_bind h (fun token _ hskipped => ?_) fun token? _ htoken => ?_
    · have hop : ∀ op, S.StaysAt r (do
          skip
          let right ← operand
          factors operand fuel (← arith op left right)) := fun op =>
        staysAt_skip_bind hskipped (hoperand.bind fun right => (stays_arith op left right).bind ih)
      split
      · exact hop .mul
      · exact hop .div
      · exact hop .rem
      · exact stays_pure left r h
    · split
      · cases eq_sep_of_tail htoken
      · cases eq_sep_of_tail htoken
      · cases eq_sep_of_tail htoken
      · exact stays_pure left r h

theorem stays_term (hoperand : S.Stays operand) : S.Stays (term operand) :=
  hoperand.bind fun left => stays_tokensLeft.bind fun fuel => stays_factors hoperand fuel left

theorem stays_summands (hoperand : S.Stays operand) (fuel : Nat) (left : Value) :
    S.Stays (summands operand fuel left) := by
  induction fuel generalizing left with
  | zero => exact stays_pure _
  | succ fuel ih =>
    refine (stays_eatSym '+').bind fun plus => ?_
    split
    · exact (stays_term hoperand).bind fun right => (stays_add left right).bind ih
    · refine (stays_eatSym '-').bind fun minus => ?_
      split
      · exact (stays_term hoperand).bind fun right => (stays_arith .sub left right).bind ih
      · exact stays_pure _

theorem stays_expr (hoperand : S.Stays operand) : S.Stays (expr operand) :=
  (stays_term hoperand).bind fun left => stays_tokensLeft.bind fun fuel =>
    stays_summands hoperand fuel left

theorem stays_moreArguments (hoperand : S.Stays operand) (fuel : Nat) (read : List Value) :
    S.Stays (moreArguments operand fuel read) := by
  induction fuel generalizing read with
  | zero => exact stays_pure _
  | succ fuel ih =>
    refine (stays_expr hoperand).bind fun value => (stays_eatSym ')').bind fun closed => ?_
    split
    · exact stays_pure _
    · exact (stays_expectSym ',').bind fun _ => ih _

theorem stays_arguments (hoperand : S.Stays operand) : S.Stays (arguments operand) := by
  refine (stays_eatSym ')').bind fun closed => ?_
  split
  · exact stays_pure _
  · exact stays_tokensLeft.bind fun fuel => stays_moreArguments hoperand _ _

theorem stays_named (hoperand : S.Stays operand) (name : String) :
    S.Stays (named operand name) := by
  refine (stays_eatSym '(').bind fun called => ?_
  split
  · refine (stays_arguments hoperand).bind fun args => stays_get_bind fun r => ?_
    refine (stays_lift _).bind fun answer => ?_
    split
    · exact stays_pure _
    · exact stays_fail _
  · refine (stays_eatSym '.').bind fun dotted => ?_
    split
    · intro r h
      refine staysAt_next_bind h (fun token _ hskipped => ?_) fun token? _ htoken => ?_
      · split
        · next method _ =>
          exact staysAt_skip_bind hskipped ((stays_expectSym '(').bind fun _ =>
            (stays_arguments hoperand).bind fun args => stays_callMethod name method args)
        · exact stays_fail _ r h
      · split
        · cases eq_sep_of_tail htoken
        · exact stays_fail _ r h
    · refine stays_get_bind fun r => ?_
      split
      · exact stays_pure _
      · exact stays_fail _

/-- Where an operand is missing at the end of a line, the separator is passed over before the
failure is told. -/
theorem staysAt_of_sep {sep : Lexeme} {behind : List Lexeme} (h : S.Inside r)
    (hrest : r.rest = S.tail) (htail : S.tail = sep :: behind) :
    S.StaysAt r (skip >>= fun _ => (fail ("unexpected " ++ Token.sep.shown) : Eval η α)) := by
  intro asked result r' hgoes
  cases hgoes
  have hline : r.skipped.line = lineBehind S.lastLine behind := by
    simp only [Reading.line, Reading.skipped, hrest, htail, List.tail_cons, h.lastLine]
    rfl
  have hsource : r.skipped.source = S.source := h.source
  have hfault : S.Blames ([] : Asked η) (.of (.script
      ⟨"unexpected Sep", S.source, some (lineBehind S.lastLine behind)⟩)) := .cutOff htail
  rw [← hline, ← hsource] at hfault
  exact hfault

theorem stays_primary (hoperand : S.Stays operand) : S.Stays (primary operand) := by
  intro r h
  refine staysAt_next_bind h (fun token hsep hskipped => ?_) fun token? hrest htoken => ?_
  · refine staysAt_skip_bind hskipped ?_
    split
    · exact stays_pure _
    · exact stays_pure _
    · exact (stays_expr hoperand).bind fun value => (stays_expectSym ')').bind fun _ =>
        stays_pure value
    · exact stays_named hoperand _
    · exact stays_fail _
  · cases htail : S.tail with
    | nil =>
      obtain rfl : token? = none := by rw [htoken, htail]; rfl
      exact stays_fail _ r h
    | cons sep behind =>
      obtain rfl : token? = some .sep := by
        rw [htoken, htail]
        exact congrArg some (S.ends sep (by rw [htail]; rfl)).1
      exact staysAt_of_sep h hrest htail

theorem stays_power (hoperand : S.Stays operand) : S.Stays (power operand) := by
  refine (stays_primary hoperand).bind fun base => (stays_eatSym '^').bind fun raised => ?_
  split
  · exact hoperand.bind fun exponent => stays_arith .pow base exponent
  · exact stays_pure _

end Operand

theorem stays_signed (levels : Nat) : S.Stays (signed levels : Eval η Value) := by
  induction levels with
  | zero => exact stays_fail _
  | succ levels ih =>
    refine (stays_eatSym '-').bind fun minus => ?_
    split
    · exact ih.bind fun value => stays_arith .sub (.num 0) value
    · exact stays_power ih

theorem stays_expression : S.Stays (expression : Eval η Value) :=
  stays_expr (stays_signed maxDepth)

theorem stays_bindValue (name : String) (value : Value) :
    S.Stays (modify fun r => { r with memory := r.memory.bindValue name value } :
      Eval η PUnit) := by
  intro r h asked result r' hgoes
  cases hgoes
  exact ⟨h.source, h.lastLine, h.rest⟩

theorem stays_binding : S.Stays (do
    match ← next? with
    | some (.ident name) =>
      skip
      expectSym '='
      let value ← expression
      modify fun r => { r with memory := r.memory.bindValue name value }
      return .unit
    | _ => fail "expected a name after 'let'" : Eval η Value) := by
  intro r h
  refine staysAt_next_bind h (fun token _ hskipped => ?_) fun token? _ htoken => ?_
  · split
    · exact staysAt_skip_bind hskipped ((stays_expectSym '=').bind fun _ =>
        stays_expression.bind fun value => (stays_bindValue _ value).bind fun _ => stays_pure _)
    · exact stays_fail _ r h
  · split
    · cases eq_sep_of_tail htoken
    · exact stays_fail _ r h

theorem stays_statement : S.Stays (statement : Eval η Value) := by
  intro r h
  refine staysAt_next_bind h (fun token _ hskipped => ?_) fun token? _ htoken => ?_
  · split
    · exact staysAt_skip_bind hskipped stays_binding
    · exact stays_expression r h
  · split
    · cases eq_sep_of_tail htoken
    · exact stays_expression r h

theorem stays_wholeStatement : S.Stays (wholeStatement : Eval η Value) := by
  refine stays_statement.bind fun value r h => ?_
  refine staysAt_next_bind h (fun token hsep _ => ?_) fun token? _ htoken => ?_
  · split
    · exact stays_pure _ r h
    · next heq => exact absurd (Option.some.inj heq) hsep
    · exact stays_fail _ r h
  · split
    · exact stays_pure _ r h
    · exact stays_pure _ r h
    · next other hother =>
      exact absurd (eq_sep_of_tail htoken) hother

end Site

end SessionShell.Calc
