import SessionShell.Proofs.Calc.Completeness
import SessionShell.Proofs.Calc.Soundness

/-!
Evaluation implements the grammar.

A program goes well when it is written as one and its trees, taken from left to right, have values.
The word `let` is a name like any other, but a statement that begins with it is always a binding.

Two kinds of trees are looked at closer. A chain leans to the left and is as shallow as a single
number, and a nest is as deep as it has wraps.
-/

namespace SessionShell.Calc

open Meaning

variable {η : Type}

theorem goes_evalTokens_iff {memory memory' : Memory η} {tokens : List Lexeme}
    {source : Option String} {asked : Asked η} {value : Value} :
    (evalTokens memory tokens source).Goes asked (some (.ok value, memory')) ↔
      ∃ r' : Reading η, Reads program (.start memory tokens source) asked value r' ∧
        r'.memory = memory' := by
  unfold evalTokens
  rw [Program.goes_bind_iff]
  constructor
  · rintro ⟨⟨result, r'⟩, first, rest, rfl, hprogram, hpure⟩
    obtain ⟨rfl, ⟨⟩⟩ := Program.goes_pure_iff.mp hpure
    rw [List.append_nil]
    exact ⟨r', hprogram, rfl⟩
  · rintro ⟨r', hprogram, rfl⟩
    exact ⟨(.ok value, r'), asked, [], (List.append_nil asked).symm, hprogram,
      Program.goes_pure_iff.mpr ⟨rfl, rfl⟩⟩

/-- For all answers of the hosts, an evaluation has this value, leaves this memory and asks this,
exactly if the tokens are those of a program whose trees have it, leave it and ask it. -/
theorem evaluates_iff (memory memory' : Memory η) (tokens : List Lexeme) (source : Option String)
    (asked : Asked η) (value : Value) :
    (evalTokens memory tokens source).Goes asked (some (.ok value, memory')) ↔
      ∃ script : List Statement, Written script (tokens.map (·.token)) ∧
        (∀ s ∈ script, s.nesting ≤ maxDepth ∧ s.Readable) ∧
        (Statement.runAll script .unit memory).Yields asked (value, memory') := by
  rw [goes_evalTokens_iff]
  unfold program
  simp only [reads_tokensLeft_bind_iff]
  constructor
  · rintro ⟨r', hreads, rfl⟩
    exact sound_statements (Nat.lt_succ_self _) hreads
  · rintro ⟨script, hwritten, hall, hrun⟩
    exact complete_statements hwritten hall rfl (Nat.lt_succ_self _) hrun

/-- The word `let` is bound to a number, and then stands by itself. -/
def bindingOfLet : List Lexeme :=
  [.ident "let", .ident "let", .sym '=', .num 5, .sep, .ident "let"].map fun token => ⟨token, 1⟩

/-- A statement that is only the word `let` is refused, although the word can be bound and its tree
has a value then. -/
theorem let_is_bound_but_not_read :
    (∃ (script : List Statement) (memory' : Memory Unit),
      Written script (bindingOfLet.map (·.token)) ∧ (∀ s ∈ script, s.nesting ≤ maxDepth) ∧
        (Statement.runAll script .unit .empty).Yields [] (.num 5, memory')) ∧
    (¬∃ (asked : Asked Unit) (value : Value) (memory' : Memory Unit),
      (evalTokens .empty bindingOfLet none).Goes asked (some (.ok value, memory'))) ∧
    (evalTokens (.empty : Memory Unit) (bindingOfLet.take 4) none).Goes []
      (some (.ok .unit, { Memory.empty with bindings := [("let", .num 5)] })) := by
  refine ⟨?_, ?_, .done _⟩
  · let single (p : Primary) : Expr := .term (.unary (.power (.plain p)))
    refine ⟨[.bind "let" (single (.num 5)), .expr (single (.var "let"))],
      { Memory.empty with bindings := [("let", .num 5)] }, ?_, ?_, .done _⟩
    · exact .cons _ (.last _)
    · intro s hs
      simp only [List.mem_cons, List.not_mem_nil, or_false] at hs
      rcases hs with rfl | rfl <;> decide
  · rintro ⟨asked, value, memory', h⟩
    have hrefused : evalTokens (.empty : Memory Unit) bindingOfLet none =
        .done (.error (Fault.of (.script ⟨"expected a name after 'let'", none, some 1⟩)),
          { Memory.empty with bindings := [("let", .num 5)] }) := rfl
    rw [hrefused] at h
    cases h

/-! ## Chains and nests -/

/-- On a tree that asks nobody, evaluation of its tokens does nothing but come to its value. -/
theorem evalTokens_eq_of_value {memory : Memory η} {tokens : List Lexeme} {e : Expr} {value : Value}
    (htokens : tokens.map (·.token) = e.tokens) (hnesting : e.nesting ≤ maxDepth)
    (hlet : e.tokens.head? ≠ some (.ident "let")) (hvalue : (e.value memory).Yields [] value)
    (source : Option String) : evalTokens memory tokens source = pure (.ok value, memory) := by
  have hwritten : Written [.expr e] (tokens.map (·.token)) := htokens ▸ .last (.expr e)
  have hall : ∀ s ∈ [Statement.expr e], s.nesting ≤ maxDepth ∧ s.Readable := by
    simpa [Statement.nesting, Statement.Readable] using ⟨hnesting, hlet⟩
  have hstatement : ((Statement.expr e).run memory).Yields [] (value, memory) :=
    yields_bind_iff.mpr ⟨value, [], [], rfl, hvalue, yields_pure_iff.mpr ⟨rfl, rfl⟩⟩
  have hrun : (Statement.runAll [.expr e] .unit memory).Yields [] (value, memory) :=
    yields_bind_iff.mpr ⟨(value, memory), [], [], rfl, hstatement, yields_pure_iff.mpr ⟨rfl, rfl⟩⟩
  obtain ⟨r', hreads, hmemory⟩ :=
    complete_statements (r := .start memory tokens source) hwritten hall rfl
    (Nat.lt_succ_self _) hrun
  have hgoes : (evalTokens memory tokens source).Goes [] (some (.ok value, memory)) :=
    goes_evalTokens_iff.mpr ⟨r', reads_tokensLeft_bind_iff.mpr hreads, hmemory⟩
  exact hgoes.eq_pure

def Unary.number (x : Float) : Unary :=
  .power (.plain (.num x))

/-- An operator and the number behind it. -/
inductive Link where
  | add (x : Float)
  | sub (x : Float)
  | scale (op : Scaling) (x : Float)

namespace Link

def tokens : Link → List Token
  | .add x => [.sym '+', .num x]
  | .sub x => [.sym '-', .num x]
  | .scale op x => [op.token, .num x]

def Defined : Link → Prop
  | .add _ | .sub _ | .scale .mul _ => True
  | .scale .div x | .scale .rem x => (x == 0) = false

end Link

/-- A number with links behind it, however many. -/
def chain (x : Float) (links : List Link) : List Token :=
  .num x :: links.flatMap Link.tokens

def Expr.link : Expr → Link → Expr
  | e, .add x => .add e (.unary (.number x))
  | e, .sub x => .sub e (.unary (.number x))
  | .term t, .scale op x => .term (.scale op t (.number x))
  | .add left t, .scale op x => .add left (.scale op t (.number x))
  | .sub left t, .scale op x => .sub left (.scale op t (.number x))

def Meaning.Numeric (p : Meaning η Value) : Prop :=
  ∃ y : Float, p.Yields [] (.num y)

theorem numeric_number (m : Memory η) (x : Float) : ((Unary.number x).value m).Numeric :=
  ⟨x, yields_pure_iff.mpr ⟨rfl, rfl⟩⟩

theorem Meaning.Numeric.binary {left right : Meaning η Value} {g : Value → Value → Option Value}
    (hleft : left.Numeric) (hright : right.Numeric)
    (hg : ∀ a b : Float, ∃ y : Float, g (.num a) (.num b) = some (.num y)) :
    (left >>= fun a => right >>= fun b => known (g a b)).Numeric := by
  obtain ⟨a, ha⟩ := hleft
  obtain ⟨b, hb⟩ := hright
  obtain ⟨y, hy⟩ := hg a b
  exact ⟨y, yields_binary_iff.mpr ⟨.num a, .num b, [], [], rfl, ha, hb, hy⟩⟩

theorem Meaning.Numeric.operands {left right : Meaning η Value} {g : Value → Value → Option Value}
    (h : (left >>= fun a => right >>= fun b => known (g a b)).Numeric)
    (hg : ∀ a b (y : Float), g a b = some (.num y) → ∃ c d : Float, a = .num c ∧ b = .num d) :
    left.Numeric ∧ right.Numeric := by
  obtain ⟨y, hy⟩ := h
  obtain ⟨a, b, first, rest, hasked, hleft, hright, hvalue⟩ := yields_binary_iff.mp hy
  obtain ⟨rfl, rfl⟩ := List.append_eq_nil_iff.mp hasked.symm
  obtain ⟨c, d, rfl, rfl⟩ := hg a b y hvalue
  exact ⟨⟨c, hleft⟩, d, hright⟩

theorem exists_num_of_sum? {a b : Value} {y : Float} (h : sum? a b = some (.num y)) :
    ∃ c d : Float, a = .num c ∧ b = .num d := by
  cases a <;> cases b <;> simp [sum?] at h ⊢

theorem exists_num_of_applied? {op : Arith} {a b : Value} {y : Float}
    (h : applied? op a b = some (.num y)) :
    ∃ c d : Float, a = .num c ∧ b = .num d := by
  cases a <;> cases b <;> simp [applied?] at h ⊢

theorem numeric_scale {m : Memory η} {t : Term} {op : Scaling} {x : Float}
    (ht : (t.value m).Numeric)
    (hdefined : (Link.scale op x).Defined) : ((Term.scale op t (.number x)).value m).Numeric := by
  obtain ⟨a, ha⟩ := ht
  have hvalue : ∃ y : Float, applied? op.arith (.num a) (.num x) = some (.num y) := by
    cases op with
    | mul => exact ⟨_, rfl⟩
    | div =>
      have hx : (x == 0) = false := hdefined
      exact ⟨a / x, by simp [applied?, Scaling.arith, Arith.apply?, hx]⟩
    | rem =>
      have hx : (x == 0) = false := hdefined
      exact ⟨Number.remainder a x, by simp [applied?, Scaling.arith, Arith.apply?, hx]⟩
  obtain ⟨y, hy⟩ := hvalue
  exact ⟨y, yields_binary_iff.mpr ⟨.num a, .num x, [], [], rfl, ha,
    yields_pure_iff.mpr ⟨rfl, rfl⟩, hy⟩⟩

namespace Expr

theorem tokens_link (e : Expr) (l : Link) : (e.link l).tokens = e.tokens ++ l.tokens := by
  cases l with
  | scale op x =>
    cases e <;>
      simp [link, tokens, Term.tokens, Link.tokens, Unary.number, Unary.tokens, Power.tokens,
        Primary.tokens]
  | _ => rfl

theorem nesting_link (e : Expr) (l : Link) : (e.link l).nesting = max e.nesting 1 := by
  cases l with
  | scale op x =>
    cases e with
    | term t => rfl
    | _ => exact (Nat.max_assoc _ _ _).symm
  | _ => rfl

theorem numeric_link {m : Memory η} {e : Expr} {l : Link} (he : (e.value m).Numeric)
    (hl : l.Defined) :
    ((e.link l).value m).Numeric := by
  have hsum : ∀ a b : Float, ∃ y : Float, sum? (.num a) (.num b) = some (.num y) :=
    fun _ _ => ⟨_, rfl⟩
  have hsub : ∀ a b : Float, ∃ y : Float, applied? .sub (.num a) (.num b) = some (.num y) :=
    fun _ _ => ⟨_, rfl⟩
  cases l with
  | add x => exact he.binary (numeric_number m x) hsum
  | sub x => exact he.binary (numeric_number m x) hsub
  | scale op x =>
    cases e with
    | term t => exact numeric_scale he hl
    | add left t =>
      obtain ⟨hleft, ht⟩ := Meaning.Numeric.operands he fun _ _ _ => exists_num_of_sum?
      exact hleft.binary (numeric_scale ht hl) hsum
    | sub left t =>
      obtain ⟨hleft, ht⟩ := Meaning.Numeric.operands he fun _ _ _ => exists_num_of_applied?
      exact hleft.binary (numeric_scale ht hl) hsub

def chained (x : Float) (links : List Link) : Expr :=
  links.foldl link (.term (.unary (.number x)))

theorem tokens_chained (x : Float) (links : List Link) :
    (chained x links).tokens = chain x links := by
  suffices h : ∀ e : Expr, (links.foldl link e).tokens = e.tokens ++
    links.flatMap Link.tokens from h _
  induction links with
  | nil => simp
  | cons l links ih =>
    intro e
    rw [List.foldl_cons, ih, tokens_link, List.flatMap_cons, List.append_assoc]

theorem nesting_chained (x : Float) (links : List Link) : (chained x links).nesting = 1 := by
  suffices h : ∀ e : Expr, e.nesting = 1 → (links.foldl link e).nesting = 1 from h _ rfl
  induction links with
  | nil => exact fun _ he => he
  | cons l links ih => exact fun e he => ih _ (by rw [nesting_link, he]; rfl)

theorem numeric_chained (m : Memory η) (x : Float) {links : List Link}
    (hlinks : ∀ l ∈ links, l.Defined) :
    ((chained x links).value m).Numeric := by
  suffices h : ∀ e : Expr, (e.value m).Numeric → ((links.foldl link e).value m).Numeric from
    h _ (numeric_number m x)
  induction links with
  | nil => exact fun _ he => he
  | cons l links ih =>
    intro e he
    have hrest : ∀ l ∈ links, l.Defined := fun l hl => hlinks l (List.mem_cons_of_mem _ hl)
    exact ih hrest _ (numeric_link he (hlinks l List.mem_cons_self))

end Expr

inductive Literal where
  | num (x : Float)
  | str (s : String)

def Literal.token : Literal → Token
  | .num x => .num x
  | .str s => .str s

def Literal.primary : Literal → Primary
  | .num x => .num x
  | .str s => .str s

/-- What can stand around an operand and nests it one level deeper: parentheses, a sign, or a power
whose exponent it is. -/
inductive Wrap where
  | paren
  | minus
  | raise (base : Float)

/-- A literal within wraps, the outermost first. -/
def nested : List Wrap → Literal → List Token
  | [], literal => [literal.token]
  | .paren :: wraps, literal => .sym '(' :: nested wraps literal ++ [.sym ')']
  | .minus :: wraps, literal => .sym '-' :: nested wraps literal
  | .raise base :: wraps, literal => .num base :: .sym '^' :: nested wraps literal

/-- A text can only stand in parentheses, for the operators need numbers. -/
def Literal.Bears (wraps : List Wrap) : Literal → Prop
  | .num _ => True
  | .str _ => ∀ wrap ∈ wraps, wrap = .paren

namespace Unary

def nest : List Wrap → Literal → Unary
  | [], literal => .power (.plain literal.primary)
  | .paren :: wraps, literal => .power (.plain (.paren (.term (.unary (nest wraps literal)))))
  | .minus :: wraps, literal => .neg (nest wraps literal)
  | .raise base :: wraps, literal => .power (.pow (.num base) (nest wraps literal))

theorem tokens_nest (wraps : List Wrap) (literal : Literal) :
    (nest wraps literal).tokens = nested wraps literal := by
  induction wraps with
  | nil => cases literal <;> rfl
  | cons wrap wraps ih =>
    cases wrap <;> simp [nest, nested, tokens, Power.tokens, Primary.tokens, Expr.tokens,
      Term.tokens, ih]

theorem nesting_nest (wraps : List Wrap) (literal : Literal) :
    (nest wraps literal).nesting = wraps.length + 1 := by
  induction wraps with
  | nil => cases literal <;> rfl
  | cons wrap wraps ih =>
    cases wrap <;> simp [nest, nesting, Power.nesting, Primary.nesting, Expr.nesting,
      Term.nesting, ih]

theorem numeric_nest (m : Memory η) (wraps : List Wrap) (x : Float) :
    ((nest wraps (.num x)).value m).Numeric := by
  induction wraps with
  | nil => exact ⟨x, yields_pure_iff.mpr ⟨rfl, rfl⟩⟩
  | cons wrap wraps ih =>
    cases wrap with
    | paren => exact ih
    | minus =>
      obtain ⟨y, hy⟩ := ih
      exact ⟨_, yields_bind_iff.mpr ⟨.num y, [], [], rfl, hy, yields_known_iff.mpr ⟨rfl, rfl⟩⟩⟩
    | raise base =>
      have hbase : ((Primary.num base).value m).Numeric := ⟨base, yields_pure_iff.mpr ⟨rfl, rfl⟩⟩
      exact hbase.binary ih fun _ _ => ⟨_, rfl⟩

theorem value_nest_str (m : Memory η) {wraps : List Wrap} (s : String)
    (h : ∀ wrap ∈ wraps, wrap = .paren) :
    ((nest wraps (.str s)).value m).Yields [] (.str s) := by
  induction wraps with
  | nil => exact yields_pure_iff.mpr ⟨rfl, rfl⟩
  | cons wrap wraps ih =>
    obtain rfl : wrap = .paren := h wrap List.mem_cons_self
    exact ih fun wrap hwrap => h wrap (List.mem_cons_of_mem _ hwrap)

theorem exists_value_nest (m : Memory η) {wraps : List Wrap} {literal : Literal}
    (h : literal.Bears wraps) :
    ∃ value, ((nest wraps literal).value m).Yields [] value := by
  cases literal with
  | num x =>
    obtain ⟨y, hy⟩ := numeric_nest m wraps x
    exact ⟨.num y, hy⟩
  | str s => exact ⟨.str s, value_nest_str m s h⟩

end Unary

theorem head?_nested_ne_ident (wraps : List Wrap) (literal : Literal) (name : String) :
    (nested wraps literal).head? ≠ some (.ident name) := by
  cases wraps with
  | nil => cases literal <;> simp [nested, Literal.token]
  | cons wrap wraps => cases wrap <;> simp [nested]

section

variable {tokens : List Lexeme} {x : Float} {links : List Link} {wraps : List Wrap}
  {literal : Literal}

theorem accepts_chain (memory : Memory η) (source : Option String)
    (htokens : tokens.map (·.token) = chain x links) (hlinks : ∀ l ∈ links, l.Defined) :
    ∃ y : Float, evalTokens memory tokens source = pure (.ok (.num y), memory) := by
  obtain ⟨y, hy⟩ := Expr.numeric_chained memory x hlinks
  refine ⟨y, evalTokens_eq_of_value (htokens.trans (Expr.tokens_chained x links).symm) ?_
    ?_ hy source⟩
  · rw [Expr.nesting_chained]
    decide
  · rw [Expr.tokens_chained, chain]
    simp

theorem accepts_nested (memory : Memory η) (source : Option String)
    (htokens : tokens.map (·.token) = nested wraps literal) (hbears : literal.Bears wraps)
    (hlength : wraps.length < maxDepth) :
    ∃ value, evalTokens memory tokens source = pure (.ok value, memory) := by
  obtain ⟨value, hvalue⟩ := Unary.exists_value_nest memory hbears
  let e : Expr := .term (.unary (Unary.nest wraps literal))
  have he : e.tokens = nested wraps literal := Unary.tokens_nest wraps literal
  have hnesting : (Unary.nest wraps literal).nesting ≤ maxDepth := by
    rw [Unary.nesting_nest]
    exact hlength
  refine ⟨value, evalTokens_eq_of_value (htokens.trans he.symm) hnesting ?_ hvalue source⟩
  rw [he]
  exact head?_nested_ne_ident wraps literal "let"

end

end SessionShell.Calc
