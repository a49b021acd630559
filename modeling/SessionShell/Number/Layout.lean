import SessionShell.Number.Binary64

/-!
How numbers are written.

The digits are the fewest that read back as the same number, and among those the ones nearest to it;
an exact tie goes to the greater. The plain form never has an exponent; the exact form, used when a
message quotes a number token, has one outside the range from 1e-4 to 1e16 and a decimal point
inside it.
-/

namespace SessionShell.Number

/-! ## The shortest decimal -/

structure Decimal where
  digits : Nat
  power : Int
  deriving DecidableEq, Repr

/-- The reals that round to `m * 2 ^ e`, in units of `2 ^ (e - 2)`. The ends belong to them if and
only if `m` is even. -/
structure Interval where
  low : Nat
  mid : Nat
  high : Nat
  closed : Bool
  deriving DecidableEq, Repr

def interval (m : Nat) (e : Int) : Interval where
  low := if m = hiddenBit ∧ e ≠ minExponent then 4 * m - 1 else 4 * m - 2
  mid := 4 * m
  high := 4 * m + 2
  closed := m % 2 = 0

/-- The point of the grid of multiples of `10 ^ k` that is nearest to the middle, if one of the two
beside it lies in the interval of `m * 2 ^ e`. -/
def onGrid? (m : Nat) (e : Int) (k : Int) : Option Nat :=
  let i := interval m e
  let p := Nat.pow 2 (e - 2).toNat * Nat.pow 10 (-k).toNat
  let q := Nat.pow 2 (2 - e).toNat * Nat.pow 10 k.toNat
  let inside (n : Nat) : Bool :=
    if i.closed then i.low * p ≤ n * q && n * q ≤ i.high * p
    else i.low * p < n * q && n * q < i.high * p
  let below := i.mid * p / q
  let above := below + 1
  match inside below, inside above with
  | true, true => if i.mid * p - below * q < above * q - i.mid * p then some below else some above
  | true, false => some below
  | false, true => some above
  | false, false => none

/-- The coarsest grid with a point in the interval, tried from `10 ^ k` down. -/
def shortestFrom : Nat → Nat → Int → Int → Decimal
  | 0, m, e, _ => if 0 ≤ e then ⟨m * Nat.pow 2 e.toNat, 0⟩ else ⟨m * Nat.pow 5 (-e).toNat, e⟩
  | fuel + 1, m, e, k =>
    match onGrid? m e k with
    | some n => ⟨n, k⟩
    | none => shortestFrom fuel m e (k - 1)

def ceilingPower (m : Nat) (e : Int) : Int :=
  Int.fdiv ((m.log2 + 1 + e) * 30103) 100000 + 1

/-- The shortest decimal of `m * 2 ^ e`, for `m > 0`. -/
def shortest (m : Nat) (e : Int) : Decimal :=
  shortestFrom 24 m e (ceilingPower m e)

/-! ## Forms -/

def zeros (n : Nat) : String :=
  String.ofList (List.replicate n '0')

/-- Positional notation, with a fraction only if there is one. -/
def Decimal.positional (d : Decimal) : String :=
  let ds := Nat.toDigits 10 d.digits
  if 0 ≤ d.power then String.ofList ds ++ zeros d.power.toNat
  else
    let places := (-d.power).toNat
    if places < ds.length then
      String.ofList (ds.take (ds.length - places)) ++ "." ++ String.ofList
        (ds.drop (ds.length - places))
    else "0." ++ zeros (places - ds.length) ++ String.ofList ds

def Decimal.scientific (d : Decimal) : String :=
  let ds := Nat.toDigits 10 d.digits
  let exponent := d.power + ds.length - 1
  String.ofList (ds.take 1) ++ (if ds.length ≤ 1 then "" else "." ++ String.ofList (ds.drop 1))
    ++ "e" ++ toString exponent

def signed (negative : Bool) (s : String) : String :=
  if negative then "-" ++ s else s

def plain (x : Float) : String :=
  match parts x with
  | .nan => "NaN"
  | .infinite negative => signed negative "inf"
  | .finite negative m e => signed negative (if m = 0 then "0" else (shortest m e).positional)

/-- Whether the exact form of `m * 2 ^ e` has an exponent. -/
def needsExponent (m : Nat) (e : Int) : Bool :=
  m ≠ 0 && (Nat.pow 10 16 * Nat.pow 2 (-e).toNat ≤ m * Nat.pow 2 e.toNat
    || m * Nat.pow 2 e.toNat * Nat.pow 10 4 < Nat.pow 2 (-e).toNat)

def exact (x : Float) : String :=
  match parts x with
  | .nan => "NaN"
  | .infinite negative => signed negative "inf"
  | .finite negative m e =>
    signed negative <|
      if m = 0 then "0.0"
      else if needsExponent m e then (shortest m e).scientific
      else
        let d := shortest m e
        if 0 ≤ d.power then d.positional ++ ".0" else d.positional

/-- Integers below 10 ^ 15 are written as such, so that a negative zero has no sign; all else in
the plain form. -/
def text (x : Float) : String :=
  match integer? x with
  | some n => if n.natAbs < Nat.pow 10 15 then toString n else plain x
  | none => plain x

end SessionShell.Number
