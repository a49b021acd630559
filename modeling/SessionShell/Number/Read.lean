/-!
Reading decimal numbers. The result is the float nearest to the number written, an infinity when it
is too large.
-/

namespace SessionShell.Number

def digitValue (c : Char) : Nat :=
  c.toNat - '0'.toNat

def natOfDigits (cs : List Char) : Nat :=
  cs.foldl (fun n c => 10 * n + digitValue c) 0

def scientific (m : Nat) (e : Int) : Float :=
  if m = 0 then 0
  else
    let magnitude := (Nat.toDigits 10 m).length + e
    if magnitude > 400 then 1.0 / 0.0
    else if magnitude < -400 then 0
    else Float.ofScientific m (e < 0) e.natAbs

/-- The number with these digits before and after the point. -/
def ofDigits (whole fraction : List Char) : Float :=
  scientific (natOfDigits (whole ++ fraction)) (-(fraction.length : Int))

def isDigit (c : Char) : Bool :=
  '0' ≤ c && c ≤ '9'

/-- Digits, at least one of them, with an optional sign. -/
def exponent? (cs : List Char) : Option Int :=
  let (negative, ds) := match cs with
    | '-' :: r => (true, r)
    | '+' :: r => (false, r)
    | r => (false, r)
  if ds.isEmpty || !ds.all isDigit then none
  else some (if negative then -(natOfDigits ds : Int) else natOfDigits ds)

/-- Digits with at most one point among them, and an optional exponent. -/
def unsigned? (cs : List Char) : Option Float :=
  let whole := cs.takeWhile isDigit
  let rest := cs.dropWhile isDigit
  let (fraction, rest) := match rest with
    | '.' :: r => (r.takeWhile isDigit, r.dropWhile isDigit)
    | r => ([], r)
  if whole.isEmpty && fraction.isEmpty then none
  else
    let m := natOfDigits (whole ++ fraction)
    match rest with
    | [] => some (scientific m (-(fraction.length : Int)))
    | c :: r =>
      if c = 'e' ∨ c = 'E' then
        (exponent? r).map fun e => scientific m (e - fraction.length)
      else none

def namedFloat? (s : String) : Option Float :=
  if s = "inf" ∨ s = "infinity" then some (1.0 / 0.0)
  else if s = "nan" then some (0.0 / 0.0)
  else none

/-- A whole text as a number: a sign, then digits or the name of an infinity or of no number. -/
def read? (s : String) : Option Float :=
  let (negative, cs) := match s.toList with
    | '-' :: r => (true, r)
    | '+' :: r => (false, r)
    | r => (false, r)
  let value := (namedFloat? (String.ofList (cs.map Char.toLower))).or (unsigned? cs)
  value.map fun x => if negative then -x else x

/-! ## Natural numbers of 64 bits -/

def wordLimit : Nat := Nat.pow 2 64

/-- Digits, at least one of them, behind an optional plus sign. -/
def readWord? (s : String) : Option Nat :=
  let ds := match s.toList with
    | '+' :: r => r
    | r => r
  if ds.isEmpty || !ds.all isDigit then none
  else
    let n := natOfDigits ds
    if n < wordLimit then some n else none

end SessionShell.Number
