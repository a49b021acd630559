import SessionShell.Toml.Scan

/-!
Strings between quotes: with or without escapes, on one line or on several.
-/

namespace SessionShell.Toml

def isHexDigit (c : Char) : Bool :=
  ('0' ≤ c && c ≤ '9') || ('a' ≤ c && c ≤ 'f') || ('A' ≤ c && c ≤ 'F')

def hexDigitValue (c : Char) : Nat :=
  if c ≤ '9' then c.toNat - '0'.toNat
  else if c ≤ 'F' then c.toNat - 'A'.toNat + 10
  else c.toNat - 'a'.toNat + 10

def charOfCode? (n : Nat) : Option Char :=
  if n.isValidChar then some (Char.ofNat n) else none

/-- The character with a code of so many hexadecimal digits. -/
def charOfDigits (count : Nat) : Scan Char := do
  let digits := (← get).take count
  if digits.length = count ∧ digits.all isHexDigit then
    modify (·.drop count)
    StateT.lift (charOfCode? (digits.foldl (fun n c => 16 * n + hexDigitValue c) 0))
  else Scan.fail

def escape : Scan Char := do
  match ← Scan.next with
  | 'b' => return '\x08'
  | 't' => return '\t'
  | 'n' => return '\n'
  | 'f' => return '\x0c'
  | 'r' => return '\x0d'
  | '"' => return '"'
  | '\\' => return '\\'
  | 'u' => charOfDigits 4
  | 'U' => charOfDigits 8
  | _ => Scan.fail

def untilQuote (quote : Char) (escapes : Bool) : Nat → List Char → Scan String
  | 0, _ => Scan.fail
  | fuel + 1, done => do
    let c ← Scan.next
    if c = quote then return String.ofList done.reverse
    else if c = '\\' ∧ escapes then untilQuote quote escapes fuel ((← escape) :: done)
    else if isPrintable c then untilQuote quote escapes fuel (c :: done)
    else Scan.fail

/-- Blanks and line ends, of which the first line end is required. -/
def foldedLine : Scan Bool := do
  let rest ← get
  blanks
  if ← lineEnd then
    gap false
    return true
  else
    set rest
    return false

/-- The rest of a string on several lines. Up to two quotes can stand before those that end it. -/
def untilQuotes (quote : Char) (escapes : Bool) : Nat → List Char → Scan String
  | 0, _ => Scan.fail
  | fuel + 1, done => do
    if ← lineEnd then untilQuotes quote escapes fuel ('\n' :: done)
    else
      let quotes := (← get).takeWhile (· = quote)
      if 3 ≤ quotes.length then
        let kept := min (quotes.length - 3) 2
        modify (·.drop (kept + 3))
        return String.ofList (done.reverse ++ List.replicate kept quote)
      else
        let c ← Scan.next
        if c = '\\' ∧ escapes then
          if ← foldedLine then untilQuotes quote escapes fuel done
          else untilQuotes quote escapes fuel ((← escape) :: done)
        else if isPrintable c then untilQuotes quote escapes fuel (c :: done)
        else Scan.fail

/-- A string in one kind of quotes. Escapes count between double quotes only. -/
def quotedWith (quote : Char) (multiline : Bool) : Scan String := do
  let escapes := quote = '"'
  let tripled ← if multiline then Scan.eat (String.ofList [quote, quote, quote]) else pure false
  if tripled then
    discard lineEnd
    untilQuotes quote escapes (← Scan.budget) []
  else
    Scan.expect quote.toString
    untilQuote quote escapes (← Scan.budget) []

end SessionShell.Toml
