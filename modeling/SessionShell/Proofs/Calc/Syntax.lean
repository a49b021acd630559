import SessionShell.Calc.Interpreter
import SessionShell.Proofs.Program.Serving

/-!
Calc programs as trees.

A tree is written as tokens and has a value, and neither knows of the other. Operands have their
values from left to right, and only hosts are asked anything on the way.
-/

namespace SessionShell.Calc

variable {η : Type}

inductive Scaling where
  | mul
  | div
  | rem
  deriving DecidableEq, Repr

def Scaling.arith : Scaling → Arith
  | .mul => .mul
  | .div => .div
  | .rem => .rem

def Scaling.token (op : Scaling) : Token :=
  .sym op.arith.symbol

mutual

inductive Expr where
  | term (t : Term)
  | add (left : Expr) (right : Term)
  | sub (left : Expr) (right : Term)

inductive Term where
  | unary (u : Unary)
  | scale (op : Scaling) (left : Term) (right : Unary)

inductive Unary where
  | neg (u : Unary)
  | power (p : Power)

inductive Power where
  | plain (base : Primary)
  | pow (base : Primary) (exponent : Unary)

inductive Primary where
  | num (x : Float)
  | str (s : String)
  | var (name : String)
  | paren (e : Expr)
  | call (function : String) (args : Args)
  | method (object name : String) (args : Args)

inductive Args where
  | nil
  | cons (e : Expr) (rest : Args)

end

/-! ## How trees are written -/

mutual

def Expr.tokens : Expr → List Token
  | .term t => t.tokens
  | .add left right => left.tokens ++ .sym '+' :: right.tokens
  | .sub left right => left.tokens ++ .sym '-' :: right.tokens

def Term.tokens : Term → List Token
  | .unary u => u.tokens
  | .scale op left right => left.tokens ++ op.token :: right.tokens

def Unary.tokens : Unary → List Token
  | .neg u => .sym '-' :: u.tokens
  | .power p => p.tokens

def Power.tokens : Power → List Token
  | .plain base => base.tokens
  | .pow base exponent => base.tokens ++ .sym '^' :: exponent.tokens

def Primary.tokens : Primary → List Token
  | .num x => [.num x]
  | .str s => [.str s]
  | .var name => [.ident name]
  | .paren e => .sym '(' :: e.tokens ++ [.sym ')']
  | .call function args => .ident function :: .sym '(' :: args.tokens
  | .method object name args =>
    .ident object :: .sym '.' :: .ident name :: .sym '(' :: args.tokens

def Args.tokens : Args → List Token
  | .nil => [.sym ')']
  | .cons e rest => e.tokens ++ rest.tokensBehind

def Args.tokensBehind : Args → List Token
  | .nil => [.sym ')']
  | .cons e rest => .sym ',' :: e.tokens ++ rest.tokensBehind

end

/-! ## What trees begin with -/

def Token.opens : Token → Bool
  | .num _ | .str _ | .ident _ => true
  | .sym c => c = '(' || c = '-'
  | .sep => false

theorem Primary.exists_head (p : Primary) : ∃ (token : Token) (rest : List Token),
    p.tokens = token :: rest ∧ token.opens = true ∧ token ≠ .sym '-' := by
  cases p <;> exact ⟨_, _, rfl, rfl, by simp⟩

theorem Power.exists_head (p : Power) : ∃ (token : Token) (rest : List Token),
    p.tokens = token :: rest ∧ token.opens = true ∧ token ≠ .sym '-' := by
  cases p with
  | plain base => exact base.exists_head
  | pow base exponent =>
    obtain ⟨token, rest, htokens, hopens, hsign⟩ := base.exists_head
    exact ⟨token, _, by rw [Power.tokens, htokens]; rfl, hopens, hsign⟩

theorem Unary.exists_head (u : Unary) : ∃ (token : Token) (rest : List Token),
    u.tokens = token :: rest ∧ token.opens = true := by
  cases u with
  | neg u => exact ⟨_, _, rfl, rfl⟩
  | power p =>
    obtain ⟨token, rest, htokens, hopens, -⟩ := p.exists_head
    exact ⟨token, rest, htokens, hopens⟩

theorem Term.exists_head : (t : Term) → ∃ (token : Token) (rest : List Token),
    t.tokens = token :: rest ∧ token.opens = true
  | .unary u => u.exists_head
  | .scale op left right => by
    obtain ⟨token, rest, htokens, hopens⟩ := left.exists_head
    exact ⟨token, _, by rw [Term.tokens, htokens]; rfl, hopens⟩

theorem Expr.exists_head : (e : Expr) → ∃ (token : Token) (rest : List Token),
    e.tokens = token :: rest ∧ token.opens = true
  | .term t => t.exists_head
  | .add left right | .sub left right => by
    obtain ⟨token, rest, htokens, hopens⟩ := left.exists_head
    exact ⟨token, _, by rw [Expr.tokens, htokens]; rfl, hopens⟩

/-! ## How deep signed operands are nested -/

mutual

def Expr.nesting : Expr → Nat
  | .term t => t.nesting
  | .add left right | .sub left right => max left.nesting right.nesting

def Term.nesting : Term → Nat
  | .unary u => u.nesting
  | .scale _ left right => max left.nesting right.nesting

def Unary.nesting : Unary → Nat
  | .neg u => u.nesting + 1
  | .power p => p.nesting + 1

def Power.nesting : Power → Nat
  | .plain base => base.nesting
  | .pow base exponent => max base.nesting exponent.nesting

def Primary.nesting : Primary → Nat
  | .num _ | .str _ | .var _ => 0
  | .paren e => e.nesting
  | .call _ args | .method _ _ args => args.nesting

def Args.nesting : Args → Nat
  | .nil => 0
  | .cons e rest => max e.nesting rest.nesting

end

/-! ## What trees mean -/

abbrev Meaning (η α : Type) := OptionT (Hosted η) α

namespace Meaning

variable {α : Type}

def known (a? : Option α) : Meaning η α :=
  OptionT.mk (pure a?)

def fromHost (p : Hosted η (Option α)) : Meaning η α :=
  OptionT.mk p

def answer (host : η) (call : HostCall) : Meaning η call.Reply :=
  OptionT.lift (Program.call (⟨host, call⟩ : HostRequest η))

end Meaning

open Meaning

/-- Numbers are added, else texts are put together, and nothing is added to nothing. -/
def sum? : Value → Value → Option Value
  | .num a, .num b => some (.num (a + b))
  | .unit, _ | _, .unit => none
  | a, b => some (.str (a.text ++ b.text))

def applied? (op : Arith) : Value → Value → Option Value
  | .num a, .num b => .num <$> op.apply? a b
  | _, _ => none

def functionValue (m : Memory η) (function : String) (args : List Value) : Meaning η Value :=
  fromHost (return (← callFunction m.defaultHost function args).toOption)

def methodValue (m : Memory η) (object method : String) (args : List Value) : Meaning η Value := do
  let host ← known (m.hosts.get? object)
  let call ← known ((requestOf? method args).bind Except.toOption)
  let reply ← answer host call
  known (replyValue call reply).toOption

mutual

def Expr.value (m : Memory η) : Expr → Meaning η Value
  | .term t => t.value m
  | .add left right => do
    let a ← left.value m
    let b ← right.value m
    known (sum? a b)
  | .sub left right => do
    let a ← left.value m
    let b ← right.value m
    known (applied? .sub a b)

def Term.value (m : Memory η) : Term → Meaning η Value
  | .unary u => u.value m
  | .scale op left right => do
    let a ← left.value m
    let b ← right.value m
    known (applied? op.arith a b)

def Unary.value (m : Memory η) : Unary → Meaning η Value
  | .neg u => do
    let a ← u.value m
    known (applied? .sub (.num 0) a)
  | .power p => p.value m

def Power.value (m : Memory η) : Power → Meaning η Value
  | .plain base => base.value m
  | .pow base exponent => do
    let a ← base.value m
    let b ← exponent.value m
    known (applied? .pow a b)

def Primary.value (m : Memory η) : Primary → Meaning η Value
  | .num x => return .num x
  | .str s => return .str s
  | .var name => known (m.bindings.get? name)
  | .paren e => e.value m
  | .call function args => do
    let values ← args.values m
    functionValue m function values
  | .method object name args => do
    let values ← args.values m
    methodValue m object name values

def Args.values (m : Memory η) : Args → Meaning η (List Value)
  | .nil => return []
  | .cons e rest => do
    let value ← e.value m
    let values ← rest.values m
    return value :: values

end

/-! ## Programs -/

inductive Statement where
  | bind (name : String) (e : Expr)
  | expr (e : Expr)

namespace Statement

def tokens : Statement → List Token
  | .bind name e => .ident "let" :: .ident name :: .sym '=' :: e.tokens
  | .expr e => e.tokens

theorem exists_head (s : Statement) : ∃ (token : Token) (rest : List Token),
    s.tokens = token :: rest ∧ token.opens = true := by
  cases s with
  | bind name e => exact ⟨_, _, rfl, rfl⟩
  | expr e => exact e.exists_head

def nesting : Statement → Nat
  | .bind _ e | .expr e => e.nesting

def run (m : Memory η) : Statement → Meaning η (Value × Memory η)
  | .bind name e => do
    let value ← e.value m
    return (.unit, m.bindValue name value)
  | .expr e => do
    let value ← e.value m
    return (value, m)

/-- The value of the last statement, or this one if there is none. -/
def runAll : List Statement → Value → Memory η → Meaning η (Value × Memory η)
  | [], last, m => return (last, m)
  | s :: rest, _, m => do
    let (value, m) ← s.run m
    runAll rest value m

end Statement

/-- An expression that begins with `let` is not read as one. -/
def Statement.Readable : Statement → Prop
  | .bind _ _ => True
  | .expr e => e.tokens.head? ≠ some (.ident "let")

/-- A program is written with separators between its statements, any number of them, and also before
the first and behind the last one. -/
inductive Written : List Statement → List Token → Prop where
  | nil : Written [] []
  | sep {program : List Statement} {tokens : List Token} (h : Written program tokens) :
      Written program (.sep :: tokens)
  | last (s : Statement) : Written [s] s.tokens
  | cons (s : Statement) {program : List Statement} {tokens : List Token}
      (h : Written program tokens) : Written (s :: program) (s.tokens ++ .sep :: tokens)

namespace Written

variable {program : List Statement} {tokens : List Token}

theorem eq_nil_of_nil (h : Written program []) : program = [] := by
  generalize hnil : ([] : List Token) = none at h
  cases h with
  | nil => rfl
  | sep h => cases hnil
  | last s =>
    obtain ⟨token, rest, htokens, -⟩ := s.exists_head
    rw [htokens] at hnil
    cases hnil
  | cons s h => simp at hnil

theorem of_sep (h : Written program (.sep :: tokens)) : Written program tokens := by
  generalize hsep : Token.sep :: tokens = all at h
  cases h with
  | nil => cases hsep
  | sep h =>
    cases hsep
    exact h
  | last s =>
    obtain ⟨token, rest, htokens, hopens⟩ := s.exists_head
    rw [htokens] at hsep
    cases hsep
    cases hopens
  | cons s h =>
    obtain ⟨token, rest, htokens, hopens⟩ := s.exists_head
    rw [htokens] at hsep
    cases hsep
    cases hopens

theorem behind (s : Statement) (h : Written program tokens)
    (hends : tokens.head? = none ∨ tokens.head? = some .sep) :
    Written (s :: program) (s.tokens ++ tokens) := by
  cases tokens with
  | nil =>
    rw [h.eq_nil_of_nil, List.append_nil]
    exact .last s
  | cons token tokens =>
    obtain rfl : token = .sep := by simpa using hends
    exact .cons s h.of_sep

theorem seps (k : Nat) (h : Written program tokens) :
    Written program (List.replicate k .sep ++ tokens) := by
  induction k with
  | zero => exact h
  | succ k ih => exact .sep ih

end Written

end SessionShell.Calc
