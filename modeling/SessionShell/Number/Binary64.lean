/-!
Binary floating-point numbers of 64 bits, taken apart into a sign, a whole number and a power of
two. All that is printed or computed exactly starts from these parts.
-/

namespace SessionShell.Number

/-- `finite negative m e` is `m * 2 ^ e`, with its sign. -/
inductive Parts where
  | nan
  | infinite (negative : Bool)
  | finite (negative : Bool) (m : Nat) (e : Int)
  deriving DecidableEq, Repr

def minExponent : Int := -1074

def hiddenBit : Nat := Nat.pow 2 52

def partsOfBits (bits : Nat) : Parts :=
  let negative := bits / Nat.pow 2 63 % 2 == 1
  let biased : Nat := bits / hiddenBit % Nat.pow 2 11
  let fraction := bits % hiddenBit
  if biased = 2047 then (if fraction = 0 then .infinite negative else .nan)
  else if biased = 0 then .finite negative fraction minExponent
  else .finite negative (hiddenBit + fraction) ((biased : Int) - 1075)

def parts (x : Float) : Parts :=
  partsOfBits x.toBits.toNat

/-- The whole number that `m * 2 ^ e` is, if it is one. -/
def whole? (m : Nat) (e : Int) : Option Nat :=
  if 0 ≤ e then some (m * Nat.pow 2 e.toNat)
  else if m % Nat.pow 2 (-e).toNat = 0 then some (m / Nat.pow 2 (-e).toNat)
  else none

/-- The integer that a number is, if it is one. Both zeros are 0. -/
def integer? (x : Float) : Option Int :=
  match parts x with
  | .finite negative m e => (whole? m e).map fun n => if negative then -(n : Int) else n
  | _ => none

def reduceHalves : Nat → Nat → Int → Nat × Int
  | 0, m, e => (m, e)
  | fuel + 1, m, e =>
    if m = 0 then (0, 0)
    else if m % 2 = 0 then reduceHalves fuel (m / 2) (e + 1)
    else (m, e)

/-- The float that is exactly `m * 2 ^ e`, with its sign, if there is one. -/
def ofExact (negative : Bool) (m : Nat) (e : Int) : Float :=
  let r := reduceHalves (m.log2 + 1) m e
  let x := (Float.ofNat r.1).scaleB r.2
  if negative then -x else x

/-!
## The remainder of a division that rounds toward zero

It is computed in whole numbers, so nothing is rounded, and it has the sign of the dividend.
-/

/-- `m₁ * 2 ^ e₁` modulo `m₂ * 2 ^ e₂`, as a multiple of the lesser power of two. -/
def exactRemainder (m₁ : Nat) (e₁ : Int) (m₂ : Nat) (e₂ : Int) : Nat × Int :=
  let e := min e₁ e₂
  ((m₁ * Nat.pow 2 (e₁ - e).toNat) % (m₂ * Nat.pow 2 (e₂ - e).toNat), e)

def remainder (x y : Float) : Float :=
  match parts x, parts y with
  | .finite negative m₁ e₁, .finite _ m₂ e₂ =>
    if m₂ = 0 then 0.0 / 0.0
    else
      let r := exactRemainder m₁ e₁ m₂ e₂
      ofExact negative r.1 r.2
  | .finite _ _ _, .infinite _ => x
  | _, _ => 0.0 / 0.0

end SessionShell.Number
