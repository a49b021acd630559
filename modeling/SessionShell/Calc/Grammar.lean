import SessionShell.Calc.Method
import SessionShell.Calc.Operator

/-!
Evaluation while reading.

A program is a sequence of statements, a statement binds a name or is an expression. `+` and `-`
bind weakest and to the left, then `*`, `/` and `%`, then the sign, then `^`, which binds to the
right and whose exponent may have a sign.

Only a signed operand opens a further level of nesting, and a statement has `maxDepth` levels. Each
function below a signed operand is given the evaluation of the next level, so the levels count down
and the reading ends.
-/

namespace SessionShell.Calc

variable {η : Type}

def maxDepth : Nat := 256

/-- `*`, `/` and `%` behind a first operand, at most `fuel` of them. -/
def factors (operand : Eval η Value) : Nat → Value → Eval η Value
  | 0, left => return left
  | fuel + 1, left => do
    let op? : Option Arith := match ← next? with
      | some (.sym '*') => some .mul
      | some (.sym '/') => some .div
      | some (.sym '%') => some .rem
      | _ => none
    match op? with
    | none => return left
    | some op =>
      skip
      let right ← operand
      factors operand fuel (← arith op left right)

def term (operand : Eval η Value) : Eval η Value := do
  let left ← operand
  factors operand (← tokensLeft) left

/-- `+` and `-` behind a first term, at most `fuel` of them. -/
def summands (operand : Eval η Value) : Nat → Value → Eval η Value
  | 0, left => return left
  | fuel + 1, left => do
    if ← eatSym '+' then
      let right ← term operand
      summands operand fuel (← add left right)
    else if ← eatSym '-' then
      let right ← term operand
      summands operand fuel (← arith .sub left right)
    else return left

def expr (operand : Eval η Value) : Eval η Value := do
  let left ← term operand
  summands operand (← tokensLeft) left

/-- Arguments through the closing parenthesis, the first one being read already missing. -/
def moreArguments (operand : Eval η Value) : Nat → List Value → Eval η (List Value)
  | 0, read => return read.reverse
  | fuel + 1, read => do
    let value ← expr operand
    if ← eatSym ')' then return (value :: read).reverse
    else
      expectSym ','
      moreArguments operand fuel (value :: read)

/-- The arguments of a call behind its opening parenthesis. -/
def arguments (operand : Eval η Value) : Eval η (List Value) := do
  if ← eatSym ')' then return []
  else moreArguments operand ((← tokensLeft) + 1) []

/-- A name: a function with its arguments, a method of a host, or a variable. -/
def named (operand : Eval η Value) (name : String) : Eval η Value := do
  if ← eatSym '(' then
    let args ← arguments operand
    let r ← get
    match ← ExceptT.lift (StateT.lift (callFunction r.memory.defaultHost name args)) with
    | .ok value => return value
    | .error message => fail message
  else if ← eatSym '.' then
    match ← next? with
    | some (.ident method) =>
      skip
      expectSym '('
      callMethod name method (← arguments operand)
    | _ => fail "expected a method name after '.'"
  else
    match (← get).memory.bindings.get? name with
    | some value => return value
    | none => fail ("unknown name '" ++ name ++ "'")

def primary (operand : Eval η Value) : Eval η Value := do
  match ← next? with
  | none => fail "unexpected end of input"
  | some token =>
    skip
    match token with
    | .num x => return .num x
    | .str s => return .str s
    | .sym '(' =>
      let value ← expr operand
      expectSym ')'
      return value
    | .ident name => named operand name
    | other => fail ("unexpected " ++ other.shown)

def power (operand : Eval η Value) : Eval η Value := do
  let base ← primary operand
  if ← eatSym '^' then
    let exponent ← operand
    arith .pow base exponent
  else return base

/-- An operand with this many levels of nesting left. -/
def signed : Nat → Eval η Value
  | 0 => fail ("expression nested deeper than " ++ toString maxDepth ++ " levels")
  | levels + 1 => do
    if ← eatSym '-' then
      let value ← signed levels
      arith .sub (.num 0) value
    else power (signed levels)

def expression : Eval η Value :=
  expr (signed maxDepth)

def statement : Eval η Value := do
  match ← next? with
  | some (.ident "let") =>
    skip
    match ← next? with
    | some (.ident name) =>
      skip
      expectSym '='
      let value ← expression
      modify fun r => { r with memory := r.memory.bindValue name value }
      return .unit
    | _ => fail "expected a name after 'let'"
  | _ => expression

def skipSeparators : List Lexeme → List Lexeme
  | ⟨.sep, _⟩ :: rest => skipSeparators rest
  | rest => rest

/-- The statements still to come, at most `fuel` of them, behind one with the value `last`. -/
def statements : Nat → Value → Eval η Value
  | 0, last => return last
  | fuel + 1, last => do
    modify fun r => { r with rest := skipSeparators r.rest }
    match ← next? with
    | none => return last
    | some _ =>
      let value ← statement
      match ← next? with
      | none | some .sep => statements fuel value
      | some other => fail ("unexpected " ++ other.shown)

/-- A whole program. Its value is that of its last statement. -/
def program : Eval η Value := do
  statements ((← tokensLeft) + 1) .unit

end SessionShell.Calc
