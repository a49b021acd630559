import SessionShell.Number.Read
import SessionShell.Toml.Quoted
import SessionShell.Toml.Value

/-!
Values without quotes: numbers, booleans and times. Such a value reaches as far as its
characters do.
-/

namespace SessionShell.Toml

open Number (isDigit natOfDigits)

/-! ## Numbers -/

/-- The digits of a text in which single underscores may stand between them. -/
def digits? (p : Char → Bool) (cs : List Char) : Option (List Char) :=
  let groups := cs.splitOn '_'
  if groups.all fun g => !g.isEmpty && g.all p then some groups.flatten else none

def withoutSign : List Char → Bool × List Char
  | '-' :: r => (true, r)
  | '+' :: r => (false, r)
  | r => (false, r)

def wholeDigits? (cs : List Char) : Option (List Char) :=
  if cs.head? = some '0' ∧ cs ≠ ['0'] then none else digits? isDigit cs

def inRange (n : Int) : Bool :=
  -(Nat.pow 2 63 : Int) ≤ n && n < Nat.pow 2 63

def inBase? (base : Nat) (cs : List Char) : Option Int := do
  let ds ← digits? (fun c => isHexDigit c && hexDigitValue c < base) cs
  return ds.foldl (fun (n : Int) c => base * n + hexDigitValue c) 0

def integerOf? (cs : List Char) : Option Int := do
  let n ← match cs with
    | '0' :: 'x' :: r => inBase? 16 r
    | '0' :: 'o' :: r => inBase? 8 r
    | '0' :: 'b' :: r => inBase? 2 r
    | cs => do
      let (negative, r) := withoutSign cs
      let n : Int := natOfDigits (← wholeDigits? r)
      pure (if negative then -n else n)
  if inRange n then some n else none

def isExponentMark (c : Char) : Bool :=
  c == 'e' || c == 'E'

def isFractionOrExponentMark (c : Char) : Bool :=
  c == '.' || isExponentMark c

/-- Whether this is an exponent with its mark, or nothing. -/
def isExponent : List Char → Bool
  | [] => true
  | c :: r => isExponentMark c && (digits? isDigit (withoutSign r).2).isSome

/-- Whether digits are followed by a fraction, an exponent, or both. -/
def hasFloatForm (cs : List Char) : Bool :=
  let whole := cs.takeWhile (!isFractionOrExponentMark ·)
  (wholeDigits? whole).isSome &&
    match cs.dropWhile (!isFractionOrExponentMark ·) with
    | '.' :: r =>
      (digits? isDigit (r.takeWhile (!isExponentMark ·))).isSome
        && isExponent (r.dropWhile (!isExponentMark ·))
    | [] => false
    | r => isExponent r

/-- A number too large to be finite is none, unless it is negative. -/
def isFloat (cs : List Char) : Bool :=
  let (_, r) := withoutSign cs
  r = "inf".toList || r = "nan".toList
    || (hasFloatForm r
      && (Number.read? (String.ofList (cs.filter (· ≠ '_')))).all (· != 1.0 / 0.0))

/-! ## Times -/

/-- A number of exactly two digits between bounds. -/
def twoDigits? (low high : Nat) (a b : Char) : Option Nat :=
  let n := natOfDigits [a, b]
  if isDigit a ∧ isDigit b ∧ low ≤ n ∧ n ≤ high then some n else none

def isLeapYear (year : Nat) : Bool :=
  year % 4 = 0 && (year % 100 ≠ 0 || year % 400 = 0)

def daysInMonth (year month : Nat) : Nat :=
  if month = 2 then (if isLeapYear year then 29 else 28)
  else if month = 4 ∨ month = 6 ∨ month = 9 ∨ month = 11 then 30
  else 31

def isDate (cs : List Char) : Bool :=
  match cs with
  | [y₁, y₂, y₃, y₄, '-', m₁, m₂, '-', d₁, d₂] =>
    [y₁, y₂, y₃, y₄].all isDigit &&
      (twoDigits? 1 12 m₁ m₂).any fun month =>
        (twoDigits? 1 (daysInMonth (natOfDigits [y₁, y₂, y₃, y₄]) month) d₁ d₂).isSome
  | _ => false

/-- A time of day from the front, and what follows it. -/
def timeOfDay? (cs : List Char) : Option (List Char) :=
  match cs with
  | h₁ :: h₂ :: ':' :: m₁ :: m₂ :: ':' :: s₁ :: s₂ :: r => do
    discard (twoDigits? 0 23 h₁ h₂)
    discard (twoDigits? 0 59 m₁ m₂)
    discard (twoDigits? 0 60 s₁ s₂)
    match r with
    | '.' :: r => if (r.head?.any isDigit) then return r.dropWhile isDigit else none
    | r => return r
  | _ => none

def isOffset (cs : List Char) : Bool :=
  match cs with
  | [c] => c == 'Z' || c == 'z'
  | [sign, h₁, h₂, ':', m₁, m₂] =>
    (sign == '+' || sign == '-') && (twoDigits? 0 23 h₁ h₂).isSome
      && (twoDigits? 0 59 m₁ m₂).isSome
  | _ => false

def isTimeOfDay (cs : List Char) : Bool :=
  timeOfDay? cs = some []

def isTimeWithOffset (cs : List Char) : Bool :=
  (timeOfDay? cs).any fun r => r.isEmpty || isOffset r

def dateLength : Nat := 10

/-- A date, a time of day, or both around the letter T. -/
def isTime (cs : List Char) : Bool :=
  isDate cs || isTimeOfDay cs ||
    match cs.drop dateLength with
    | c :: r => (c == 'T' || c == 't') && isDate (cs.take dateLength) && isTimeWithOffset r
    | [] => false

/-! ## Values -/

def isScalarChar (c : Char) : Bool :=
  c.isAlphanum || c == '_' || c == '+' || c == '-' || c == '.' || c == ':'

def ofScalar? (cs : List Char) : Option Toml :=
  if cs = "true".toList then some (.boolean true)
  else if cs = "false".toList then some (.boolean false)
  else if isTime cs then some .time
  else if isFloat cs then some .float
  else (integerOf? cs).map .integer

/-- A date can be followed by a single blank and a time of day. -/
def scalar : Scan Toml := do
  let cs ← Scan.span isScalarChar
  match ← get with
  | ' ' :: c :: r =>
    if isDate cs ∧ isScalarChar c then
      set (c :: r)
      if isTimeWithOffset (← Scan.span isScalarChar) then return .time else Scan.fail
    else StateT.lift (ofScalar? cs)
  | _ => StateT.lift (ofScalar? cs)

end SessionShell.Toml
