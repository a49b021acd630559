import SessionShell.Text.LetterCase

/-!
Styled text, rendered three ways: without any styling, with terminal sequences, or as HTML. Terminal
sequences can be kept from naming colours.
-/

namespace SessionShell

inductive EscapeMode where
  | none
  | ansi
  /-- Terminal sequences that leave out which colour is meant. -/
  | monochrome
  | html
  deriving DecidableEq, Repr, Inhabited

namespace EscapeMode

/-- The name of a mode in settings. That colours are left out is not set there. -/
def name : EscapeMode → String
  | .none => "none"
  | .ansi | .monochrome => "ansi"
  | .html => "html"

def withoutColours : EscapeMode → EscapeMode
  | .ansi => .monochrome
  | mode => mode

/-- A mode by its name in any case. The plain mode has two names. -/
def read (s : String) : Except String EscapeMode :=
  match Text.asciiLower s with
  | "none" | "plain" => .ok .none
  | "ansi" => .ok .ansi
  | "html" => .ok .html
  | other => .error ("unknown escape mode '" ++ other ++ "'")

end EscapeMode

structure StyleFlags where
  bold : Bool := false
  dim : Bool := false
  italic : Bool := false
  underline : Bool := false
  reverse : Bool := false
  deriving DecidableEq, Repr, Inhabited

namespace StyleFlags

def empty : StyleFlags := {}

def union (a b : StyleFlags) : StyleFlags :=
  ⟨a.bold || b.bold, a.dim || b.dim, a.italic || b.italic, a.underline || b.underline,
    a.reverse || b.reverse⟩

def ofDigit? : Nat → Option StyleFlags
  | 1 => some { bold := true }
  | 2 => some { dim := true }
  | 3 => some { italic := true }
  | 4 => some { underline := true }
  | 7 => some { reverse := true }
  | _ => none

end StyleFlags

/-- Colours are places in the palette, taken modulo its size; without one the default shows. -/
structure Style where
  fg : Option Nat := none
  bg : Option Nat := none
  flags : StyleFlags := {}
  deriving DecidableEq, Repr, Inhabited

namespace Style

def plain : Style := {}

def isPlain (s : Style) : Bool :=
  s = plain

def error : Style := { fg := some 1, flags := { bold := true } }

def warning : Style := { fg := some 3 }

def withFlags (s : Style) (flags : StyleFlags) : Style :=
  { s with flags := s.flags.union flags }

end Style

namespace Markup

def palette : List String :=
  ["black", "maroon", "green", "olive", "navy", "purple", "teal", "silver", "gray", "red", "lime",
    "yellow", "blue", "fuchsia", "aqua", "white"]

def colourName (index : Nat) : String :=
  palette.getD (index % 16) ""

def sgr (parameters : String) : String :=
  "\x1b[" ++ parameters ++ "m"

def textIf (condition : Bool) (s : String) : String :=
  if condition then s else ""

/-- A colour, in front of which stands what it is for. -/
def sgrColour (coloured : Bool) (use : String) (n : Nat) : String :=
  sgr (textIf coloured (use ++ ";5;" ++ toString (n % 16)))

/-- Starts from a clean slate, so that a narrower style really narrows. -/
def openAnsi (coloured : Bool) (s : Style) : String :=
  sgr "0"
    ++ (s.fg.elim "" (sgrColour coloured "38"))
    ++ (s.bg.elim "" (sgrColour coloured "48"))
    ++ textIf s.flags.bold (sgr "1")
    ++ textIf s.flags.dim (sgr "2")
    ++ textIf s.flags.italic (sgr "3")
    ++ textIf s.flags.underline (sgr "4")
    ++ textIf s.flags.reverse (sgr "7")

def openHtml (s : Style) : String :=
  "<span style=\""
    ++ (s.fg.elim "" fun n => "color:" ++ colourName n ++ ";")
    ++ (s.bg.elim "" fun n => "background-color:" ++ colourName n ++ ";")
    ++ textIf s.flags.bold "font-weight:bold;"
    ++ textIf s.flags.dim "opacity:0.6;"
    ++ textIf s.flags.italic "font-style:italic;"
    ++ textIf s.flags.underline "text-decoration:underline;"
    ++ textIf s.flags.reverse "filter:invert(100%);"
    ++ "\">"

def opening (mode : EscapeMode) (s : Style) : String :=
  if s.isPlain then ""
  else match mode with
    | .none => ""
    | .ansi => openAnsi true s
    | .monochrome => openAnsi false s
    | .html => openHtml s

def closing (mode : EscapeMode) (s : Style) : String :=
  if s.isPlain then ""
  else match mode with
    | .none => ""
    | .ansi | .monochrome => sgr "0"
    | .html => "</span>"

def escapeHtmlChar (c : Char) : String :=
  match c with
  | '<' => "&lt;"
  | '>' => "&gt;"
  | '&' => "&amp;"
  | '"' => "&quot;"
  | c => c.toString

def text (mode : EscapeMode) (s : String) : String :=
  match mode with
  | .html => String.join (s.toList.map escapeHtmlChar)
  | .none | .ansi | .monochrome => s

def paint (mode : EscapeMode) (s : String) (style : Style) : String :=
  opening mode style ++ text mode s ++ closing mode style

end Markup

end SessionShell
