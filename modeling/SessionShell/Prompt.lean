import SessionShell.Markup
import SessionShell.Text.Width

/-!
Prompt templates. A percent sign and a letter stand for a fact about the session (`%n` its name,
`%i` its index, `%l`, `%v` and `%e` its language, version and engine, `%s` its script), a change of
style (`%f`, `%b` and `%y` with a digit, `%r` to reset) or a percent sign (`%%`). Unknown escapes
stand for themselves.

A continuation prompt is right-aligned under the primary one before it.
-/

namespace SessionShell

structure PromptContext where
  name : String
  index : Option Nat
  language : String
  version : String
  engine : String
  script : Option String
  deriving DecidableEq, Repr, Inhabited

namespace Prompt

/-- What the next character of a template is. -/
inductive Expecting where
  | text
  | escape
  | foreground
  | background
  | attribute
  deriving DecidableEq, Repr, Inhabited

structure Rendered where
  text : String
  width : Nat
  deriving DecidableEq, Repr

structure Rendering where
  out : Rendered
  expecting : Expecting
  style : Style
  deriving DecidableEq, Repr

def hexDigit? (c : Char) : Option Nat :=
  if '0' ≤ c ∧ c ≤ '9' then some (c.toNat - '0'.toNat)
  else if 'a' ≤ c ∧ c ≤ 'f' then some (c.toNat - 'a'.toNat + 10)
  else if 'A' ≤ c ∧ c ≤ 'F' then some (c.toNat - 'A'.toNat + 10)
  else none

variable (mode : EscapeMode) (context : PromptContext)

def literal (s : String) (r : Rendering) : Rendering :=
  { r with out := ⟨r.out.text ++ Markup.text mode s, r.out.width + Text.width s⟩ }

def restyle (style : Style) (r : Rendering) : Rendering :=
  if style = r.style then r
  else
    { r with
      out := { r.out with
        text := r.out.text ++ Markup.closing mode r.style ++ Markup.opening mode style }
      style := style }

def escape (c : Char) (r : Rendering) : Rendering :=
  let r := { r with expecting := .text }
  match c with
  | 'n' => literal mode context.name r
  | 'i' => literal mode (context.index.elim "-" toString) r
  | 'l' => literal mode context.language r
  | 'v' => literal mode context.version r
  | 'e' => literal mode context.engine r
  | 's' => literal mode (context.script.getD "") r
  | '%' => literal mode "%" r
  | 'f' => { r with expecting := .foreground }
  | 'b' => { r with expecting := .background }
  | 'y' => { r with expecting := .attribute }
  | 'r' => restyle mode .plain r
  | c => literal mode c.toString (literal mode "%" r)

/-- A digit behind an escape that changes the style; any other character is kept. -/
def styleChar (change : Nat → Style → Style) (c : Char) (r : Rendering) : Rendering :=
  let r := { r with expecting := .text }
  match hexDigit? c with
  | none => literal mode c.toString r
  | some digit => restyle mode (change digit r.style) r

def setForeground (digit : Nat) (style : Style) : Style :=
  { style with fg := some digit }

def setBackground (digit : Nat) (style : Style) : Style :=
  { style with bg := some digit }

def setAttribute (digit : Nat) (style : Style) : Style :=
  if digit = 0 then { style with flags := .empty }
  else match StyleFlags.ofDigit? digit with
    | some flags => style.withFlags flags
    | none => style

def step (r : Rendering) (c : Char) : Rendering :=
  match r.expecting with
  | .text => if c = '%' then { r with expecting := .escape } else literal mode c.toString r
  | .escape => escape mode context c r
  | .foreground => styleChar mode setForeground c r
  | .background => styleChar mode setBackground c r
  | .attribute => styleChar mode setAttribute c r

/-- The end of a template, before which a percent sign may have been left. -/
def close (r : Rendering) : Rendering :=
  let r := if r.expecting = .escape then literal mode "%" r else r
  { restyle mode .plain r with expecting := .text }

def finish (r : Rendering) : Rendered :=
  (close mode r).out

/-- What a template is rendered as when nothing is left of another one. -/
def render (template : String) : Rendered :=
  finish mode (template.toList.foldl (step mode context) ⟨⟨"", 0⟩, .text, .plain⟩)

def padding (columns : Nat) : String :=
  String.ofList (List.replicate columns ' ')

end Prompt

/-- Renders prompts and remembers the width of the last primary one. What the next character is
and the style that is selected are kept from one character to the next, and so from one prompt to
the next. -/
structure PromptFormatter where
  mode : EscapeMode
  expecting : Prompt.Expecting
  style : Style
  primaryWidth : Nat
  deriving DecidableEq, Repr, Inhabited

namespace PromptFormatter

def new (mode : EscapeMode) : PromptFormatter :=
  ⟨mode, .text, .plain, 0⟩

def reset (f : PromptFormatter) : PromptFormatter :=
  { f with expecting := .text, style := .plain }

def render (f : PromptFormatter) (template : String) (context : PromptContext) :
    Prompt.Rendered × PromptFormatter :=
  let f := f.reset
  let r := Prompt.close f.mode
    (template.toList.foldl (Prompt.step f.mode context) ⟨⟨"", 0⟩, f.expecting, f.style⟩)
  (r.out, { f with expecting := r.expecting, style := r.style })

def primary (f : PromptFormatter) (template : String) (context : PromptContext) :
    String × PromptFormatter :=
  let (r, f) := f.render template context
  (r.text, { f with primaryWidth := r.width })

/-- A prompt that is right-aligned under the last primary one. -/
def continuation (f : PromptFormatter) (template : String) (context : PromptContext) :
    String × PromptFormatter :=
  let (r, f) := f.render template context
  (Prompt.padding (f.primaryWidth - r.width) ++ r.text, f)

def secondary (f : PromptFormatter) (template : String) (context : PromptContext) : String :=
  (f.continuation template context).1

end PromptFormatter

end SessionShell
