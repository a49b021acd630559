import Mathlib.Data.List.Induction
import SessionShell.Prompt

/-!
What a prompt formatter remembers.

A template can stop in the middle of an escape or with a style still selected. At its end the style
is ended and text is expected again, so that all that is left of it is the width of a primary
prompt: whatever prompts came before, a primary prompt is what a new formatter makes of it, and a
continuation prompt is that behind as many blanks as it is narrower than the last primary one.
-/

namespace SessionShell

namespace Prompt

variable {mode : EscapeMode} {context : PromptContext}

/-! ## The end of a template -/

@[simp]
theorem style_restyle (style : Style) (r : Rendering) : (restyle mode style r).style = style := by
  unfold restyle
  split
  · next heq => exact heq.symm
  · rfl

@[simp]
theorem style_close (r : Rendering) : (close mode r).style = .plain := by
  simp [close]

@[simp]
theorem expecting_close (r : Rendering) : (close mode r).expecting = .text := rfl

/-! ## What stands in front -/

def Rendering.behind (before : Rendered) (r : Rendering) : Rendering :=
  { r with out := ⟨before.text ++ r.out.text, before.width + r.out.width⟩ }

variable (before : Rendered) (r : Rendering)

theorem literal_behind (s : String) :
    literal mode s (r.behind before) = (literal mode s r).behind before := by
  simp [literal, Rendering.behind, String.append_assoc, Nat.add_assoc]

theorem restyle_behind (style : Style) :
    restyle mode style (r.behind before) = (restyle mode style r).behind before := by
  have hstyle : (r.behind before).style = r.style := rfl
  unfold restyle
  rw [hstyle]
  split
  · rfl
  · simp [Rendering.behind, String.append_assoc]

theorem escape_behind (c : Char) :
    escape mode context c (r.behind before) = (escape mode context c r).behind before := by
  have htext : { r.behind before with expecting := .text } =
      ({ r with expecting := .text } : Rendering).behind before := rfl
  unfold escape
  simp only [htext, literal_behind, restyle_behind]
  split <;> rfl

theorem styleChar_behind (change : Nat → Style → Style) (c : Char) :
    styleChar mode change c (r.behind before) = (styleChar mode change c r).behind before := by
  have htext : { r.behind before with expecting := .text } =
      ({ r with expecting := .text } : Rendering).behind before := rfl
  unfold styleChar
  simp only [htext, literal_behind]
  split
  · rfl
  · exact restyle_behind before { r with expecting := .text } _

theorem step_behind (c : Char) :
    step mode context (r.behind before) c = (step mode context r c).behind before := by
  have hexpecting : (r.behind before).expecting = r.expecting := rfl
  unfold step
  rw [hexpecting]
  split
  · split
    · rfl
    · exact literal_behind before r _
  · exact escape_behind before r c
  · exact styleChar_behind before r _ c
  · exact styleChar_behind before r _ c
  · exact styleChar_behind before r _ c

theorem foldl_step_behind (template : List Char) :
    template.foldl (step mode context) (r.behind before) =
      (template.foldl (step mode context) r).behind before := by
  induction template generalizing r with
  | nil => rfl
  | cons c template ih => rw [List.foldl_cons, List.foldl_cons, step_behind, ih]

theorem close_behind : close mode (r.behind before) = (close mode r).behind before := by
  have hexpecting : (r.behind before).expecting = r.expecting := rfl
  unfold close
  rw [hexpecting]
  dsimp only
  split
  · rw [literal_behind, restyle_behind]
    rfl
  · rw [restyle_behind]
    rfl

theorem render_blank (template : String) : render mode context (" " ++ template) =
    ⟨" " ++ (render mode context template).text, 1 + (render mode context template).width⟩ := by
  have hblank : step mode context ⟨⟨"", 0⟩, .text, .plain⟩ ' ' =
      Rendering.behind ⟨" ", 1⟩ ⟨⟨"", 0⟩, .text, .plain⟩ := by
    cases mode <;> rfl
  have hchars : (" " ++ template).toList = ' ' :: template.toList := by simp
  simp only [render, finish]
  rw [hchars, List.foldl_cons, hblank, foldl_step_behind, close_behind]
  rfl

theorem padding_succ (columns : Nat) : padding (columns + 1) = " " ++ padding columns := by
  rw [padding, List.replicate_succ, ← List.singleton_append, String.ofList_append]
  rfl

theorem render_padding (columns : Nat) (template : String) :
    render mode context (padding columns ++ template) =
      ⟨padding columns ++ (render mode context template).text,
        columns + (render mode context template).width⟩ := by
  induction columns with
  | zero => simp [padding]
  | succ columns ih =>
    rw [padding_succ, String.append_assoc, render_blank, ih, String.append_assoc, ← Nat.add_assoc,
      Nat.add_comm 1 columns]

end Prompt

namespace PromptFormatter

open Prompt

variable (f : PromptFormatter) (mode : EscapeMode) (template : String) (context : PromptContext)

/-! ## One prompt -/

theorem render_eq :
    f.render template context = (Prompt.render f.mode context template, f.reset) := by
  simp only [render, style_close, expecting_close]
  rfl

theorem primary_eq : f.primary template context =
    ((Prompt.render f.mode context template).text,
      { f.reset with primaryWidth := (Prompt.render f.mode context template).width }) := by
  rw [primary, render_eq]

theorem continuation_eq : f.continuation template context =
    (padding (f.primaryWidth - (Prompt.render f.mode context template).width)
      ++ (Prompt.render f.mode context template).text, f.reset) := by
  rw [continuation, render_eq]
  rfl

theorem reset_primary : (f.primary template context).2.reset = (f.primary template context).2 := by
  rw [primary_eq]
  rfl

/-! ## Any number of prompts -/

/-- A prompt that a formatter is asked for. -/
inductive Call where
  | primary (template : String) (context : PromptContext)
  | continuation (template : String) (context : PromptContext)
  deriving DecidableEq, Repr

def call (f : PromptFormatter) : Call → String × PromptFormatter
  | .primary template context => f.primary template context
  | .continuation template context => f.continuation template context

/-- What becomes of a formatter that is asked for one prompt after the other. -/
def after (f : PromptFormatter) (history : List Call) : PromptFormatter :=
  history.foldl (fun f c => (f.call c).2) f

def Call.width? (mode : EscapeMode) : Call → Option Nat
  | .primary template context => some ((new mode).primary template context).2.primaryWidth
  | .continuation .. => none

/-- The width of the last primary prompt, which is none before the first. -/
def lastWidth (mode : EscapeMode) (history : List Call) : Nat :=
  (history.filterMap (Call.width? mode)).getLast?.getD 0

def resting (mode : EscapeMode) (width : Nat) : PromptFormatter :=
  { new mode with primaryWidth := width }

theorem call_resting (width : Nat) (c : Call) :
    ((resting mode width).call c).2 = resting mode ((c.width? mode).getD width) := by
  cases c with
  | primary template context =>
    simp only [call, primary_eq, Call.width?]
    rfl
  | continuation template context =>
    simp only [call, continuation_eq, Call.width?]
    rfl

theorem lastWidth_append_singleton (history : List Call) (c : Call) :
    lastWidth mode (history ++ [c]) = (c.width? mode).getD (lastWidth mode history) := by
  cases hwidth : c.width? mode <;> simp [lastWidth, hwidth]

theorem after_new (history : List Call) : (new mode).after history = resting mode
    (lastWidth mode history) := by
  induction history using List.reverseRecOn with
  | nil => rfl
  | append_singleton history c ih =>
    have hafter : (new mode).after (history ++ [c]) = (((new mode).after history).call c).2 := by
      simp [after]
    rw [hafter, ih, call_resting, lastWidth_append_singleton]

/-- After any prompts a formatter is a new one that knows the width of the last primary prompt. So
the next primary prompt is what a new formatter makes of it, and the next continuation prompt is
that behind as many blanks as it is narrower than the last primary one, which leaves the formatter
as it is. A formatter that is given the blanks as a part of the template renders the same text, and
finds it as wide as the wider of the two. -/
theorem remembers_only_width (history : List Call) :
    let f := (new mode).after history
    let last := lastWidth mode history
    let (text, next) := (new mode).primary template context
    let blanks := padding (last - next.primaryWidth)
    f = { new mode with primaryWidth := last } ∧
      f.primary template context = (text, next) ∧
      f.continuation template context = (blanks ++ text, f) ∧
      (new mode).primary (blanks ++ template) context =
        (blanks ++ text, { new mode with primaryWidth := max last next.primaryWidth }) := by
  have hafter := after_new mode history
  have hfresh := primary_eq (new mode) template context
  rw [hafter, hfresh]
  refine ⟨rfl, ?_, ?_, ?_⟩
  · rw [primary_eq]
    rfl
  · rw [continuation_eq]
    rfl
  · rw [primary_eq]
    have hrender := @render_padding mode context
      (lastWidth mode history - (Prompt.render mode context template).width) template
    rw [Nat.sub_add_eq_max] at hrender
    exact congrArg (fun r : Rendered => (r.text, { new mode with primaryWidth := r.width })) hrender

/-- A style that is left selected and an escape that is cut off do not reach the next prompt. -/
example : (((new .html).after [.primary "%f9日本%y" default]).continuation "> " default).1 =
    "  &gt; " := by
  decide +kernel

end PromptFormatter

end SessionShell
