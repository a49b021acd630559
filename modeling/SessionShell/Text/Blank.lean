/-!
Sets of characters given by ranges of code points; blank characters, which are those with the
property White_Space; and the trimming and splitting of texts.
-/

namespace SessionShell.Text

def inRanges (ranges : List (Nat × Nat)) (c : Char) : Bool :=
  ranges.any fun r => r.1 ≤ c.toNat && c.toNat ≤ r.2

def blankRanges : List (Nat × Nat) := [
  (0x9, 0xD), (0x20, 0x20), (0x85, 0x85), (0xA0, 0xA0), (0x1680, 0x1680), (0x2000, 0x200A),
  (0x2028, 0x2029), (0x202F, 0x202F), (0x205F, 0x205F), (0x3000, 0x3000)]

def isBlank (c : Char) : Bool :=
  inRanges blankRanges c

def trimStartChars (cs : List Char) : List Char :=
  cs.dropWhile isBlank

def trimEndChars (cs : List Char) : List Char :=
  (cs.reverse.dropWhile isBlank).reverse

def trimStart (s : String) : String :=
  String.ofList (trimStartChars s.toList)

def trimEnd (s : String) : String :=
  String.ofList (trimEndChars s.toList)

def trim (s : String) : String :=
  String.ofList (trimEndChars (trimStartChars s.toList))

/-- The texts between the marks, one more than there are marks. -/
def split (mark : Char) (s : String) : List String :=
  (s.toList.splitOn mark).map String.ofList

end SessionShell.Text
