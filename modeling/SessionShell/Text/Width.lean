import SessionShell.Text.Blank
import SessionShell.Text.WidthTable

/-!
The number of columns a text takes on a terminal.

A text is measured from its end, because what follows a character can widen it or take its column
away: a picture selector widens the emoji before it, a skin tone or a joiner merges two emoji into
one, two regional indicators make one flag, and some letters form a ligature.
-/

namespace SessionShell.Text

/-- Letters, and beginnings of ligatures, that can merge with the letter before them. -/
inductive Partner where
  | alef
  | lamed
  | khmerLetter
  | bugineseYa
  | bugineseYaI
  | tifinagh
  | tifinaghJoiner
  | lisuTone
  | orkhonI
  deriving DecidableEq, Repr

/-- What the part of a text already measured begins with. In front of a partner may stand a joiner
and selectors that wait for the character they select. A tag sequence is counted from its end. -/
inductive Following where
  | plain
  | lineFeed
  | picture
  | joinedPicture (selected : Bool)
  | pictureSelector
  | textSelector
  | modifier
  | indicator
  | indicators
  | joinedIndicator
  | joinedIndicators (even : Bool)
  | joinedKeycap (selected : Bool)
  | joinedTags (letters : Nat)
  | joinedTagDigits (digits : Nat)
  | partner (letter : Partner) (joined asPicture asText : Bool)
  deriving DecidableEq, Repr

def Following.ofPartner (letter : Partner) : Following :=
  .partner letter false false false

def isIndicator (c : Char) : Bool :=
  0x1F1E6 ≤ c.toNat && c.toNat ≤ 0x1F1FF

def isSkinTone (c : Char) : Bool :=
  0x1F3FB ≤ c.toNat && c.toNat ≤ 0x1F3FF

def isTagLetter (c : Char) : Bool :=
  0xE0061 ≤ c.toNat && c.toNat ≤ 0xE007A

def isTagDigit (c : Char) : Bool :=
  0xE0030 ≤ c.toNat && c.toNat ≤ 0xE0039

def isTifinaghConsonant (c : Char) : Bool :=
  (0x2D31 ≤ c.toNat && c.toNat ≤ 0x2D65) || c.toNat == 0x2D6F

def isLam (c : Char) : Bool :=
  inRanges [(0x644, 0x644), (0x6B5, 0x6B8), (0x76A, 0x76A), (0x8A6, 0x8A6), (0x8C7, 0x8C7)] c

def columns (c : Char) : Nat :=
  if c.toNat = 0x17A4 then 2
  else if c.toNat = 0x17D8 then 3
  else if inRanges zeroWidthRanges c then 0
  else if inRanges wideRanges c then 2
  else 1

/-- What a character means to the one before it, when nothing after it matters. -/
def opening (c : Char) : Following :=
  let n := c.toNat
  if n = 0xFE0F then .pictureSelector
  else if n = 0xFE0E then .textSelector
  else if n = 0x5DC then .ofPartner .lamed
  else if inRanges alefRanges c then .ofPartner .alef
  else if inRanges subscriptRanges c then .ofPartner .khmerLetter
  else if n = 0x1A10 then .ofPartner .bugineseYa
  else if isTifinaghConsonant c then .ofPartner .tifinagh
  else if n = 0xA4FC ∨ n = 0xA4FD then .ofPartner .lisuTone
  else if n = 0x10C03 then .ofPartner .orkhonI
  else if isIndicator c then .indicator
  else if isSkinTone c then .modifier
  else if inRanges pictureRanges c then .picture
  else .plain

/-! ## Selectors -/

def Following.selectsPicture : Following → Bool
  | .pictureSelector | .joinedPicture true | .joinedKeycap true | .partner _ _ true _ => true
  | _ => false

/-- A picture joined to the one behind it takes no columns of its own. -/
def Following.isJoinedPicture : Following → Bool
  | .joinedPicture _ | .joinedKeycap _ => true
  | _ => false

/-- A picture selector in front, which takes the place of all but a joined picture or a partner. -/
def Following.selectPicture : Following → Following
  | .joinedPicture _ => .joinedPicture true
  | .joinedKeycap _ => .joinedKeycap true
  | .partner letter joined _ asText => .partner letter joined true asText
  | _ => .pictureSelector

/-- What is left when the character in front is no picture: nothing but a partner. -/
def Following.missPicture (next : Following) : Following :=
  match next with
  | .partner letter joined _ asText => .partner letter joined false asText
  | _ => if next.selectsPicture then .plain else next

def Following.selectsText : Following → Bool
  | .textSelector | .partner _ _ _ true => true
  | _ => false

def Following.selectText : Following → Following
  | .partner letter joined asPicture _ => .partner letter joined asPicture true
  | _ => .textSelector

def Following.missText : Following → Following
  | .partner letter joined asPicture _ => .partner letter joined asPicture false
  | .textSelector => .plain
  | next => next

def startsPicture (c : Char) : Bool :=
  inRanges selectableRanges c

/-- Pictures that a text selector narrows. Enclosed ideographs stay wide. -/
def isNarrowedByText (c : Char) : Bool :=
  inRanges selectableRanges c && inRanges pictureRanges c
    && !(0x1F200 ≤ c.toNat && c.toNat ≤ 0x1F2FF)

/-! ## Ligatures and joined pictures -/

def isLigatureTransparent (c : Char) : Bool :=
  inRanges [(0x34F, 0x34F), (0x17B4, 0x17B5), (0x180B, 0x180D), (0x180F, 0x180F),
    (0x200D, 0x200D), (0xFE00, 0xFE0F), (0xE0100, 0xE01EF)] c

/-- The columns that `c` adds to a partner it merges with, and what they begin with together. -/
def Partner.merge? (c : Char) (letter : Partner) (joined : Bool) : Option (Int × Following) :=
  let n := c.toNat
  match letter with
  | .alef =>
    if isLam c then some (0, .plain)
    else if inRanges joinTransparentRanges c then some (0, .ofPartner .alef)
    else none
  | .lamed => if joined ∧ n = 0x5D0 then some (0, .plain) else none
  | .khmerLetter => if n = 0x17D2 then some (-1, .plain) else none
  | .bugineseYa => if joined ∧ n = 0x1A17 then some (0, .ofPartner .bugineseYaI) else none
  | .bugineseYaI => if n = 0x1A15 then some (0, .plain) else none
  | .tifinagh =>
    if n = 0x2D7F then some (1, .ofPartner .tifinaghJoiner)
    else if joined && isTifinaghConsonant c then some (0, .plain)
    else none
  | .tifinaghJoiner => if isTifinaghConsonant c then some (-1, .plain) else none
  | .lisuTone => if 0xA4F8 ≤ n ∧ n ≤ 0xA4FB then some (0, .plain) else none
  | .orkhonI => if joined ∧ n = 0x10C32 then some (0, .plain) else none

/-- All partners but Alef look through a joiner and through marks without width. -/
def Partner.combined? (c : Char) (letter : Partner) (joined : Bool) : Option (Int × Following) :=
  if letter ≠ .alef ∧ c.toNat = 0x200D then some (0, .partner letter true false false)
  else if letter ≠ .alef ∧ isLigatureTransparent c then some (0, .partner letter joined false false)
  else letter.merge? c joined

/-- A flag is spelt by three or more tag letters, or by up to four of them and three digits behind
them. -/
def flagOfTags? (c : Char) (letters : Nat) : Option (Int × Following) :=
  if isTagLetter c ∧ letters < 6 then some (0, .joinedTags (letters + 1))
  else if isTagDigit c ∧ letters < 5 then some (0, .joinedTagDigits 1)
  else if c.toNat = 0x1F3F4 ∧ 3 ≤ letters then some (0, .picture)
  else none

/-- The columns that `c` adds, when what follows changes them. -/
def combined? (c : Char) (next : Following) : Option (Int × Following) :=
  let join : Option (Int × Following) :=
    if c.toNat = 0x200D then some (0, .joinedPicture false) else none
  match next with
  | .partner letter joined _ _ => letter.combined? c joined
  | .picture => join
  | .modifier => if inRanges tonedRanges c then some (0, .picture) else join
  | .indicator => if isIndicator c then some (1, .indicators) else none
  | .indicators => if isIndicator c then some (1, .indicators) else join
  | .joinedPicture _ =>
    if c.toNat = 0x20E3 then some (0, .joinedKeycap false)
    else if c.toNat = 0xE007F then some (0, .joinedTags 0)
    else if isIndicator c then some (1, .joinedIndicator)
    else if isSkinTone c then some (0, .modifier)
    else if opening c = .picture then some (0, .picture)
    else none
  | .joinedIndicator => if isIndicator c then some (-1, .joinedIndicators true) else none
  | .joinedIndicators even =>
    if isIndicator c then some (if even then 3 else -1, .joinedIndicators !even) else join
  | .joinedTags letters => flagOfTags? c letters
  | .joinedTagDigits digits =>
    if isTagDigit c ∧ digits < 3 then some (0, .joinedTagDigits (digits + 1))
    else if c.toNat = 0x1F3F4 ∧ digits = 3 then some (0, .picture)
    else none
  | _ => none

/-! ## The width of a text -/

/-- The columns that `c` adds in front of what no picture selector changes. -/
def measureUnselected (c : Char) (next : Following) : Int × Following :=
  if c = '\n' then (0, .lineFeed)
  else if c = '\r' ∧ next = .lineFeed then (0, .plain)
  else if c.toNat ≤ 0xA0 then (1, .plain)
  else if c.toNat = 0xFE0F then (0, next.selectPicture)
  else if c.toNat = 0xFE0E then (0, next.selectText)
  else if next.selectsText && isNarrowedByText c then (1, .plain)
  else (combined? c next.missText).getD (columns c, opening c)

/-- The columns `c` adds in front of `next`, and what the text begins with then. -/
def measureChar (c : Char) (next : Following) : Int × Following :=
  if next.selectsPicture && startsPicture c then
    (if next.isJoinedPicture then 0 else 2, .picture)
  else measureUnselected c next.missPicture

/-- The columns of a text; no text takes less than none. -/
def width (s : String) : Nat :=
  (s.toList.foldr (fun c m => let r := measureChar c m.2; (m.1 + r.1, r.2))
    ((0 : Int), Following.plain)).1.toNat

end SessionShell.Text
