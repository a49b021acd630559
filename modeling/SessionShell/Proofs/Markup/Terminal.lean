import Mathlib.Tactic.IntervalCases
import SessionShell.Prompt

/-!
How a terminal shows text.

A terminal takes one character after the other. Sequences that select a style are not shown; every
other character is, in the style that is selected at that point.
-/

namespace SessionShell

def styledChars (style : Style) (s : List Char) : List (Char × Style) :=
  s.map (·, style)

namespace Style

structure InPalette (s : Style) : Prop where
  fg : ∀ n ∈ s.fg, n < 16
  bg : ∀ n ∈ s.bg, n < 16

def onPalette (s : Style) : Style :=
  { s with fg := s.fg.map (· % 16), bg := s.bg.map (· % 16) }

def withoutColours (s : Style) : Style :=
  { s with fg := none, bg := none }

theorem inPalette_plain : plain.InPalette :=
  ⟨by simp [plain], by simp [plain]⟩

theorem InPalette.onPalette_eq {s : Style} (h : s.InPalette) : s.onPalette = s := by
  have hmod : ∀ c : Option Nat, (∀ n ∈ c, n < 16) → c.map (· % 16) = c := by
    intro c hc
    cases c with
    | none => rfl
    | some n => exact congrArg some (Nat.mod_eq_of_lt (hc n rfl))
  rw [onPalette, hmod _ h.fg, hmod _ h.bg]

end Style

inductive Terminal.Reading where
  | text
  | escape
  /-- The numbers in front of the last one, and the last one as far as it was read. -/
  | numbers (before : List Nat) (last : Nat)
  deriving DecidableEq, Repr

structure Terminal where
  shown : List (Char × Style)
  pen : Style
  reading : Terminal.Reading
  deriving DecidableEq, Repr

namespace Terminal

def reset : Terminal :=
  ⟨[], .plain, .text⟩

/-- The style that the numbers of a sequence select. Gives nothing if they mean nothing. -/
def select? : List Nat → Style → Option Style
  | [], pen => some pen
  | 0 :: ns, _ => select? ns .plain
  | 1 :: ns, pen => select? ns { pen with flags.bold := true }
  | 2 :: ns, pen => select? ns { pen with flags.dim := true }
  | 3 :: ns, pen => select? ns { pen with flags.italic := true }
  | 4 :: ns, pen => select? ns { pen with flags.underline := true }
  | 7 :: ns, pen => select? ns { pen with flags.reverse := true }
  | 38 :: 5 :: n :: ns, pen => select? ns { pen with fg := some n }
  | 48 :: 5 :: n :: ns, pen => select? ns { pen with bg := some n }
  | _, _ => none

/-- Takes a character. Gives nothing where a sequence is not one that selects a style. -/
def put (t : Terminal) (c : Char) : Option Terminal :=
  match t.reading with
  | .text =>
    if c = '\x1b' then some { t with reading := .escape }
    else some { t with shown := t.shown ++ [(c, t.pen)] }
  | .escape => if c = '[' then some { t with reading := .numbers [] 0 } else none
  | .numbers before last =>
    if c.isDigit then some { t with reading := .numbers before (10 * last + (c.toNat - '0'.toNat)) }
    else if c = ';' then some { t with reading := .numbers (before ++ [last]) 0 }
    else if c = 'm' then
      (select? (before ++ [last]) t.pen).map fun pen => { t with pen, reading := .text }
    else none

def feed (t : Terminal) (s : List Char) : Option Terminal :=
  s.foldlM put t

/-- What a terminal that was reset shows, and the style that is selected in the end. -/
def read? (s : String) : Option (List (Char × Style) × Style) :=
  (reset.feed s.toList).bind fun t => if t.reading = .text then some (t.shown, t.pen) else none

variable {shown : List (Char × Style)} {pen : Style} {t t' : Terminal}

theorem feed_append {s s' : List Char} (h : t.feed s = some t') :
    t.feed (s ++ s') = t'.feed s' := by
  rw [feed, List.foldlM_append, ← feed, h]
  rfl

theorem feed_text {s : List Char} (h : '\x1b' ∉ s) :
    feed ⟨shown, pen, .text⟩ s = some ⟨shown ++ styledChars pen s, pen, .text⟩ := by
  induction s generalizing shown with
  | nil => simp [feed, styledChars]
  | cons c s ih =>
    rw [List.mem_cons, not_or] at h
    have hput : put ⟨shown, pen, .text⟩ c = some ⟨shown ++ [(c, pen)], pen, .text⟩ :=
      if_neg (Ne.symm h.1)
    rw [feed, List.foldlM_cons, hput]
    refine (ih h.2).trans ?_
    simp [styledChars]

/-! ## Sequences -/

theorem feed_reset :
    feed ⟨shown, pen, .text⟩ (Markup.sgr "0").toList = some ⟨shown, .plain, .text⟩ :=
  rfl

theorem feed_foreground (n : Nat) :
    feed ⟨shown, pen, .text⟩ (Markup.sgrColour true "38" n).toList =
      some ⟨shown, { pen with fg := some (n % 16) }, .text⟩ := by
  have hn : n % 16 < 16 := Nat.mod_lt _ (by decide)
  rw [Markup.sgrColour]
  generalize n % 16 = k at hn
  interval_cases k <;> rfl

theorem feed_background (n : Nat) :
    feed ⟨shown, pen, .text⟩ (Markup.sgrColour true "48" n).toList =
      some ⟨shown, { pen with bg := some (n % 16) }, .text⟩ := by
  have hn : n % 16 < 16 := Nat.mod_lt _ (by decide)
  rw [Markup.sgrColour]
  generalize n % 16 = k at hn
  interval_cases k <;> rfl

theorem feed_colour? {use : String} {n? : Option Nat} (select : Nat → Style → Style)
    (h : ∀ n, feed ⟨shown, pen, .text⟩ (Markup.sgrColour true use n).toList =
      some ⟨shown, select (n % 16) pen, .text⟩) :
    feed ⟨shown, pen, .text⟩ (n?.elim "" (Markup.sgrColour true use)).toList =
      some ⟨shown, n?.elim pen fun n => select (n % 16) pen, .text⟩ := by
  cases n? with
  | none => rfl
  | some n => exact h n

theorem feed_monochrome (use : String) (n? : Option Nat) :
    feed ⟨shown, .plain, .text⟩ (n?.elim "" (Markup.sgrColour false use)).toList =
      some ⟨shown, .plain, .text⟩ := by
  have hempty : feed ⟨shown, .plain, .text⟩ (Markup.sgr "").toList = some ⟨shown, .plain, .text⟩ :=
    rfl
  cases n? with
  | none => rfl
  | some n => exact hempty

theorem feed_flags (fg bg : Option Nat) (flags : StyleFlags) :
    feed ⟨shown, ⟨fg, bg, .empty⟩, .text⟩
        ((Markup.textIf flags.bold (Markup.sgr "1")).toList
          ++ ((Markup.textIf flags.dim (Markup.sgr "2")).toList
          ++ ((Markup.textIf flags.italic (Markup.sgr "3")).toList
          ++ ((Markup.textIf flags.underline (Markup.sgr "4")).toList
          ++ (Markup.textIf flags.reverse (Markup.sgr "7")).toList)))) =
      some ⟨shown, ⟨fg, bg, flags⟩, .text⟩ := by
  obtain ⟨bold, dim, italic, underline, reverse⟩ := flags
  cases bold <;> cases dim <;> cases italic <;> cases underline <;> cases reverse <;> rfl

theorem feed_openAnsi (s : Style) :
    feed ⟨shown, pen, .text⟩ (Markup.openAnsi true s).toList = some
      ⟨shown, s.onPalette, .text⟩ := by
  obtain ⟨fg, bg, flags⟩ := s
  simp only [Markup.openAnsi, String.toList_append, List.append_assoc]
  rw [feed_append feed_reset,
    feed_append (feed_colour? Prompt.setForeground fun n => feed_foreground n),
    feed_append (feed_colour? Prompt.setBackground fun n => feed_background n)]
  cases fg <;> cases bg <;> exact feed_flags _ _ flags

theorem feed_openAnsi_monochrome (s : Style) :
    feed ⟨shown, pen, .text⟩ (Markup.openAnsi false s).toList = some
      ⟨shown, s.withoutColours, .text⟩ := by
  simp only [Markup.openAnsi, String.toList_append, List.append_assoc]
  rw [feed_append feed_reset, feed_append (feed_monochrome "38" s.fg),
    feed_append (feed_monochrome "48" s.bg)]
  exact feed_flags none none s.flags

end Terminal

end SessionShell
