import SessionShell.Calc.State
import SessionShell.Number.Binary64

/-!
Operators and functions of calc.
-/

namespace SessionShell.Calc

variable {η : Type}

/-- A text takes the texts of both sides; two numbers are added. -/
def add (left right : Value) : Eval η Value :=
  match left, right with
  | .num a, .num b => return .num (a + b)
  | .unit, _ | _, .unit => fail "cannot add nothing"
  | a, b => return .str (a.text ++ b.text)

/-- The operators that need two numbers. -/
inductive Arith where
  | sub
  | mul
  | div
  | rem
  | pow
  deriving DecidableEq, Repr

def Arith.symbol : Arith → Char
  | .sub => '-'
  | .mul => '*'
  | .div => '/'
  | .rem => '%'
  | .pow => '^'

def Arith.apply? (op : Arith) (a b : Float) : Option Float :=
  match op with
  | .sub => some (a - b)
  | .mul => some (a * b)
  | .div => if b == 0 then none else some (a / b)
  | .rem => if b == 0 then none else some (Number.remainder a b)
  | .pow => some (a.pow b)

def arith (op : Arith) (left right : Value) : Eval η Value :=
  match left, right with
  | .num a, .num b =>
    match op.apply? a b with
    | some x => return .num x
    | none => fail "division by zero"
  | a, b =>
    fail ("'" ++ op.symbol.toString ++ "' needs numbers, got '" ++ a.text ++ "' and '" ++ b.text
      ++ "'")

/-- The lesser of two numbers, the other one if one is no number. Of two equal ones it is the
second, which tells the two zeros apart. -/
def lesser (a b : Float) : Float :=
  if a.isNaN then b else if b ≤ a then b else a

def greater (a b : Float) : Float :=
  if a.isNaN then b else if a ≤ b then b else a

def numbers (function : String) : List Value → Except String (List Float)
  | [] => .ok []
  | .num x :: vs => do return x :: (← numbers function vs)
  | v :: _ => .error (function ++ "() expects numbers, got '" ++ v.text ++ "'")

def single (function : String) : List Float → Except String Float
  | [x] => .ok x
  | _ => .error (function ++ "() takes exactly one argument")

def reduce (function : String) (f : Float → Float → Float) : List Float → Except String Float
  | [] => .error (function ++ "() needs at least one argument")
  | x :: xs => .ok (xs.foldl f x)

def numericFunction? (name : String) : Option (List Float → Except String Float) :=
  match name with
  | "sqrt" => some fun xs => return (← single name xs).sqrt
  | "abs" => some fun xs => return (← single name xs).abs
  | "min" => some (reduce name lesser)
  | "max" => some (reduce name greater)
  | _ => none

/-- A call of a function. `print` needs a host to write to, and answers its text without one. -/
def callFunction (defaultHost : Option η) (name : String) (args : List Value) :
    Hosted η (Except String Value) :=
  if name = "print" then
    let text := " ".intercalate (args.map Value.text)
    match defaultHost with
    | none => return .ok (.str text)
    | some host => do
      let written : Except Fault Unit ← Program.call (⟨host, .out (text ++ "\n")⟩ : HostRequest η)
      match written with
      | .ok () => return .ok .unit
      | .error e => return .error e.message
  else
    match numericFunction? name with
    | none => return .error ("unknown function '" ++ name ++ "'")
    | some f => return (numbers name args >>= f).map .num

end SessionShell.Calc
