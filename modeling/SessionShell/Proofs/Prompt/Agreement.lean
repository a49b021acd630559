import SessionShell.Proofs.Markup.Browser

/-!
Whatever it is rendered as, a prompt shows the same characters in the same styles.

What a template says are pieces of text, each in the style that the escapes before it add up to.
They are read off the template from left to right, without a state and without any markup. The
rendering is followed from character to character beside them, and beside the terminal or the
browser that shows it: what is shown so far are the pieces that were read so far, and the style that
is selected is the one that the escapes add up to.
-/

namespace SessionShell

/-! ## Pieces -/

structure Piece where
  text : String
  style : Style
  deriving DecidableEq, Repr

namespace Piece

def chars (p : Piece) : List (Char × Style) :=
  styledChars p.style p.text.toList

/-- The columns that pieces take one by one. -/
def width (ps : List Piece) : Nat :=
  (ps.map fun p => Text.width p.text).sum

end Piece

namespace PromptContext

/-- No fact begins a sequence for a terminal. -/
structure EscapeFree (context : PromptContext) : Prop where
  name : '\x1b' ∉ context.name.toList
  language : '\x1b' ∉ context.language.toList
  version : '\x1b' ∉ context.version.toList
  engine : '\x1b' ∉ context.engine.toList
  script : ∀ script ∈ context.script, '\x1b' ∉ script.toList

end PromptContext

namespace Prompt

def fact? (context : PromptContext) : Char → Option String
  | 'n' => some context.name
  | 'i' => some (context.index.elim "-" toString)
  | 'l' => some context.language
  | 'v' => some context.version
  | 'e' => some context.engine
  | 's' => some (context.script.getD "")
  | '%' => some "%"
  | _ => none

def change? : Char → Option (Nat → Style → Style)
  | 'f' => some setForeground
  | 'b' => some setBackground
  | 'y' => some setAttribute
  | _ => none

/-- An escape that is complete with one letter. An unknown one stands for itself. -/
def escaped (context : PromptContext) (style : Style) (c : Char) : List Piece :=
  match fact? context c with
  | some text => [⟨text, style⟩]
  | none => [⟨"%", style⟩, ⟨c.toString, style⟩]

/-- The pieces of a template, behind escapes that add up to a style. -/
def pieces (context : PromptContext) (style : Style) : List Char → List Piece
  | [] => []
  | ['%'] => [⟨"%", style⟩]
  | '%' :: 'r' :: rest => pieces context .plain rest
  | ['%', c] => if (change? c).isSome then [] else escaped context style c
  | '%' :: c :: d :: rest =>
    match change? c with
    | some change =>
      match hexDigit? d with
      | some digit => pieces context (change digit style) rest
      | none => ⟨d.toString, style⟩ :: pieces context style rest
    | none => escaped context style c ++ pieces context style (d :: rest)
  | c :: rest => ⟨c.toString, style⟩ :: pieces context style rest

/-- The characters of a prompt, each in its style. -/
def styled (context : PromptContext) (template : String) : List (Char × Style) :=
  (pieces context .plain template.toList).flatMap Piece.chars

/-! ## Escapes -/

variable {context : PromptContext} {c : Char} {text : String} {digit : Nat} {style : Style}

theorem hexDigit?_lt (h : hexDigit? c = some digit) : digit < 16 := by
  have hle : ∀ a b : Char, a ≤ b → a.toNat ≤ b.toNat := fun _ _ h => h
  rw [hexDigit?] at h
  split_ifs at h with hc hc hc
  all_goals
    have hc' := hle _ _ hc.2
    cases h
    simp at hc' ⊢
    omega

theorem escape_not_mem_fact (h : context.EscapeFree) (hfact : fact? context c = some text) :
    '\x1b' ∉ text.toList := by
  unfold fact? at hfact
  split at hfact <;> cases hfact
  case h_1 => exact h.name
  case h_2 =>
    cases context.index with
    | none => decide
    | some n =>
      intro hmem
      rw [Option.elim_some, Nat.toString_eq_repr, Nat.toList_repr] at hmem
      exact absurd (Nat.isDigit_of_mem_toDigits (by decide) (by decide) hmem) (by decide)
  case h_3 => exact h.language
  case h_4 => exact h.version
  case h_5 => exact h.engine
  case h_6 =>
    cases hscript : context.script with
    | none => decide
    | some script => exact h.script script hscript
  case h_7 => decide

theorem inPalette_change {change : Nat → Style → Style} (hchange : change? c = some change)
    (hdigit : digit < 16) (h : style.InPalette) : (change digit style).InPalette := by
  unfold change? at hchange
  split at hchange <;> cases hchange
  · exact ⟨fun n hn => Option.some.inj hn ▸ hdigit, h.bg⟩
  · exact ⟨h.fg, fun n hn => Option.some.inj hn ▸ hdigit⟩
  · unfold setAttribute
    split
    · exact ⟨h.fg, h.bg⟩
    · split <;> exact ⟨h.fg, h.bg⟩

end Prompt

/-! ## What is shown -/

open Prompt

variable {mode : EscapeMode} {context : PromptContext} {text : String} {pen style : Style}
  {shown : List (Char × Style)}

def Shows : EscapeMode → String → Style → List (Char × Style) → Prop
  | .none, text, _, shown => text.toList = shown.map Prod.fst
  | .ansi, text, pen, shown => Terminal.reset.feed text.toList = some ⟨shown, pen, .text⟩
  | .monochrome, text, pen, shown => Terminal.reset.feed text.toList =
      some ⟨shown.map (Prod.map id Style.withoutColours), pen.withoutColours, .text⟩
  | .html, text, pen, shown => Browser.blank.feed text.toList =
      some ⟨shown, if pen = .plain then none else some pen, .text⟩

namespace Shows

theorem empty : Shows mode "" .plain [] := by
  cases mode <;> rfl

theorem literal {s : String} (h : Shows mode text pen shown) (hs : '\x1b' ∉ s.toList) :
    Shows mode (text ++ Markup.text mode s) pen (shown ++ styledChars pen s.toList) := by
  cases mode with
  | none =>
    have hchars : s.toList = (styledChars pen s.toList).map Prod.fst := by
      simp [styledChars, Function.comp_def]
    rw [Shows, Markup.text, String.toList_append, List.map_append, ← hchars, ← h]
  | ansi =>
    rw [Shows, Markup.text, String.toList_append, Terminal.feed_append h]
    exact Terminal.feed_text hs
  | monochrome =>
    rw [Shows, Markup.text, String.toList_append, Terminal.feed_append h, Terminal.feed_text hs]
    simp [styledChars]
  | html =>
    rw [Shows, Markup.text, String.toList_append, Browser.feed_append h, Browser.feed_text]
    split
    · rename_i hplain
      rw [hplain]
      rfl
    · rfl

theorem closing (h : Shows mode text pen shown) :
    Shows mode (text ++ Markup.closing mode pen) .plain shown := by
  unfold Markup.closing
  by_cases hplain : pen = .plain
  · subst hplain
    simpa [Style.isPlain] using h
  · rw [if_neg (by simpa [Style.isPlain] using hplain)]
    cases mode with
    | none => simpa [Shows] using h
    | ansi =>
      rw [Shows, String.toList_append, Terminal.feed_append h]
      exact Terminal.feed_reset
    | monochrome =>
      rw [Shows, String.toList_append, Terminal.feed_append h]
      exact Terminal.feed_reset
    | html =>
      rw [Shows, if_neg hplain] at h
      rw [Shows, String.toList_append, Browser.feed_append h]
      exact Browser.feed_closing pen

theorem opening (h : Shows mode text .plain shown) (hstyle : style.InPalette) :
    Shows mode (text ++ Markup.opening mode style) style shown := by
  unfold Markup.opening
  by_cases hplain : style = .plain
  · subst hplain
    simpa [Style.isPlain] using h
  · rw [if_neg (by simpa [Style.isPlain] using hplain)]
    cases mode with
    | none => simpa [Shows] using h
    | ansi =>
      rw [Shows, String.toList_append, Terminal.feed_append h, Terminal.feed_openAnsi,
        hstyle.onPalette_eq]
    | monochrome =>
      rw [Shows, String.toList_append, Terminal.feed_append h, Terminal.feed_openAnsi_monochrome]
    | html =>
      rw [Shows, if_pos rfl] at h
      rw [Shows, if_neg hplain, String.toList_append, Browser.feed_append h, Browser.feed_openHtml,
        hstyle.onPalette_eq]

end Shows

namespace Prompt

/-- A rendering that has read a part of a template shows the pieces of that part. -/
structure Renders (mode : EscapeMode) (ps : List Piece) (style : Style) (r : Rendering) : Prop where
  expecting : r.expecting = .text
  selects : r.style = style
  shows : Shows mode r.out.text style (ps.flatMap Piece.chars)
  width : r.out.width = Piece.width ps
  inPalette : style.InPalette

/-- A whole prompt shows these pieces, and selects no style for what follows. -/
structure Completes (mode : EscapeMode) (ps : List Piece) (out : Rendered) : Prop where
  shows : Shows mode out.text .plain (ps.flatMap Piece.chars)
  width : out.width = Piece.width ps

variable {ps : List Piece} {r : Rendering} {c : Char} {change : Nat → Style → Style} {digit : Nat}

namespace Renders

theorem literal {s : String} (h : Renders mode ps style r) (hs : '\x1b' ∉ s.toList) :
    Renders mode (ps ++ [⟨s, style⟩]) style (literal mode s r) := by
  refine ⟨h.expecting, h.selects, ?_, ?_, h.inPalette⟩
  · have hshows := h.shows.literal hs
    simpa [Prompt.literal, Piece.chars] using hshows
  · simp [Prompt.literal, h.width, Piece.width]

theorem char (h : Renders mode ps style r) (hc : '\x1b' ≠ c) :
    Renders mode (ps ++ [⟨c.toString, style⟩]) style (Prompt.literal mode c.toString r) :=
  h.literal (by simpa using hc)

theorem restyle (h : Renders mode ps style r) (hpen : pen.InPalette) :
    Renders mode ps pen (restyle mode pen r) := by
  rw [Prompt.restyle]
  split
  · rename_i heq
    rw [heq, h.selects]
    exact h
  · have hshows := h.shows.closing.opening hpen
    exact ⟨h.expecting, rfl, h.selects ▸ hshows, h.width, hpen⟩

theorem eq_self (h : Renders mode ps style r) : { r with expecting := .text } = r := by
  rw [← h.expecting]

theorem escape (h : Renders mode ps style r) (hcontext : context.EscapeFree) (hc : '\x1b' ≠ c)
    (hr : c ≠ 'r') (hchange : change? c = none) : Renders mode (ps ++ escaped context style c) style
      (escape mode context c { r with expecting := .escape }) := by
  have hliteral : Prompt.escape mode context c { r with expecting := .escape } =
      (fact? context c).elim
        (Prompt.literal mode c.toString (Prompt.literal mode "%" { r with expecting := .text }))
        (Prompt.literal mode · { r with expecting := .text }) := by
    unfold Prompt.escape fact?
    split <;> first | rfl | exact absurd rfl hr | cases hchange | simp_all
  rw [hliteral, h.eq_self, escaped]
  cases hfact : fact? context c with
  | some text => exact h.literal (escape_not_mem_fact hcontext hfact)
  | none => simpa using (h.literal (s := "%") (by decide)).char hc

theorem styleChar (context : PromptContext) (h : Renders mode ps style r)
    (hchange : change? c = some change) (d : Char) (hd : '\x1b' ≠ d) : match hexDigit? d with
      | some digit => Renders mode ps (change digit style)
          (step mode context (Prompt.escape mode context c { r with expecting := .escape }) d)
      | none => Renders mode (ps ++ [⟨d.toString, style⟩]) style
          (step mode context (Prompt.escape mode context c { r with expecting := .escape }) d) := by
  have hstep : step mode context (Prompt.escape mode context c { r with expecting := .escape }) d =
      Prompt.styleChar mode change d { r with expecting := .text } := by
    unfold change? at hchange
    split at hchange <;> cases hchange <;> rfl
  rw [hstep, Prompt.styleChar]
  dsimp only
  rw [h.eq_self]
  cases hdigit : hexDigit? d with
  | some digit =>
    dsimp only
    rw [h.selects]
    exact h.restyle (inPalette_change hchange (hexDigit?_lt hdigit) h.inPalette)
  | none => exact h.char hd

theorem step_percent (h : Renders mode ps style r) :
    step mode context r '%' = { r with expecting := .escape } := by
  rw [step, h.expecting]
  rfl

/-- What is expected at the end makes no difference, but for a percent sign behind which nothing
stands. -/
theorem completes (h : Renders mode ps style r) (e : Expecting) (he : e ≠ .escape) :
    Completes mode ps (finish mode { r with expecting := e }) := by
  have hfinish : finish mode { r with expecting := e } = (Prompt.restyle mode .plain r).out := by
    rw [finish, close, if_neg he, Prompt.restyle, Prompt.restyle]
    dsimp only
    split <;> rfl
  have hplain := h.restyle Style.inPalette_plain
  rw [hfinish]
  exact ⟨hplain.shows, hplain.width⟩

theorem completes_text (h : Renders mode ps style r) : Completes mode ps (finish mode r) := by
  rw [← h.eq_self]
  exact h.completes .text (by decide)

theorem completes_percent (h : Renders mode ps style r) :
    Completes mode (ps ++ [⟨"%", style⟩]) (finish mode { r with expecting := .escape }) := by
  have hfinish : finish mode { r with expecting := .escape } = finish mode
      (Prompt.literal mode "%" r) := by
    rw [← h.eq_self]
    simp only [finish, close, Prompt.literal, Prompt.restyle, if_true, reduceCtorEq, if_false]
    split <;> rfl
  rw [hfinish]
  exact (h.literal (s := "%") (by decide)).completes_text

end Renders

theorem completes_foldl {template : List Char} (h : Renders mode ps style r)
    (hcontext : context.EscapeFree) (htemplate : '\x1b' ∉ template) :
    Completes mode (ps ++ pieces context style template)
      (finish mode (template.foldl (step mode context) r)) := by
  fun_induction pieces context style template generalizing r ps with
  | case1 =>
    rw [List.append_nil]
    exact h.completes_text
  | case2 style =>
    rw [List.foldl_cons, h.step_percent]
    exact h.completes_percent
  | case3 style rest ih =>
    have hplain : Renders mode ps .plain
        (escape mode context 'r' { r with expecting := .escape }) := by
      change Renders mode ps .plain (restyle mode .plain { r with expecting := .text })
      rw [h.eq_self]
      exact h.restyle Style.inPalette_plain
    rw [List.foldl_cons, List.foldl_cons, h.step_percent]
    exact ih hplain fun hmem => htemplate (.tail _ (.tail _ hmem))
  | case4 style c hr hchange =>
    obtain ⟨change, hchange⟩ := Option.isSome_iff_exists.mp hchange
    have hescape : ∃ e, e ≠ .escape ∧
        step mode context { r with expecting := .escape } c = { r with expecting := e } := by
      unfold change? at hchange
      split at hchange <;> cases hchange
      · exact ⟨.foreground, by decide, rfl⟩
      · exact ⟨.background, by decide, rfl⟩
      · exact ⟨.attribute, by decide, rfl⟩
    obtain ⟨e, he, hescape⟩ := hescape
    rw [List.foldl_cons, List.foldl_cons, h.step_percent, hescape, List.append_nil]
    exact h.completes e he
  | case5 style c hr hchange =>
    rw [Bool.not_eq_true, Option.isSome_eq_false_iff, Option.isNone_iff_eq_none] at hchange
    rw [List.foldl_cons, List.foldl_cons, h.step_percent]
    exact (h.escape hcontext (fun hc => htemplate (hc ▸ .tail _ (.head _))) hr
      hchange).completes_text
  | case6 style c d rest hr change hchange digit hdigit ih =>
    rw [List.foldl_cons, List.foldl_cons, List.foldl_cons, h.step_percent]
    have hstyle := h.styleChar context hchange d
      fun hd => htemplate (hd ▸ .tail _ (.tail _ (.head _)))
    rw [hdigit] at hstyle
    exact ih hstyle fun hmem => htemplate (.tail _ (.tail _ (.tail _ hmem)))
  | case7 style c d rest hr change hchange hdigit ih =>
    rw [List.foldl_cons, List.foldl_cons, List.foldl_cons, h.step_percent, List.append_cons]
    have hstyle := h.styleChar context hchange d
      fun hd => htemplate (hd ▸ .tail _ (.tail _ (.head _)))
    rw [hdigit] at hstyle
    exact ih hstyle fun hmem => htemplate (.tail _ (.tail _ (.tail _ hmem)))
  | case8 style c d rest hr hchange ih =>
    rw [List.foldl_cons, List.foldl_cons, h.step_percent, ← List.append_assoc]
    have hescape := h.escape hcontext (fun hc => htemplate (hc ▸ .tail _ (.head _))) hr hchange
    exact ih hescape fun hmem => htemplate (.tail _ (.tail _ hmem))
  | case9 style c rest hnil hreset hone htwo ih =>
    have hc : c ≠ '%' := by
      rintro rfl
      match rest with
      | [] => exact hnil rfl rfl
      | [c] => exact hone c rfl rfl
      | c :: d :: rest => exact htwo c d rest rfl rfl
    have hstep : step mode context r c = Prompt.literal mode c.toString r := by
      rw [step, h.expecting]
      exact if_neg hc
    rw [List.foldl_cons, hstep, List.append_cons]
    exact ih (h.char fun hc => htemplate (hc ▸ .head _)) fun hmem => htemplate (.tail _ hmem)

theorem completes_render {template : String} (mode : EscapeMode) (hcontext : context.EscapeFree)
    (htemplate : '\x1b' ∉ template.toList) :
    Completes mode (pieces context .plain template.toList) (render mode context template) := by
  have hempty : Renders mode [] .plain ⟨⟨"", 0⟩, .text, .plain⟩ :=
    ⟨rfl, rfl, .empty, rfl, Style.inPalette_plain⟩
  exact completes_foldl hempty hcontext htemplate

/-- A template over a context, neither of which begins a sequence for a terminal, says the same in
every mode. Its characters are those of the plain rendering. A browser shows them in the styles that
the escapes of the template add up to, and all spans are closed in the end; a terminal shows them in
the same styles, and is reset in the end. The width that is kept is the same in every mode. -/
theorem modes_agree {template : String} (hcontext : context.EscapeFree)
    (htemplate : '\x1b' ∉ template.toList) :
    (render .none context template).text.toList = (styled context template).map Prod.fst ∧
      Browser.read? (render .html context template).text = some (styled context template) ∧
      Terminal.read? (render .ansi context template).text = some (styled context template, .plain) ∧
      Terminal.read? (render .monochrome context template).text =
        some ((styled context template).map (Prod.map id Style.withoutColours), .plain) ∧
      ∀ mode, ((PromptFormatter.new mode).primary template context).2.primaryWidth =
        Piece.width (pieces context .plain template.toList) := by
  have hcompletes (mode : EscapeMode) := completes_render mode hcontext htemplate
  refine ⟨(hcompletes .none).shows, ?_, ?_, ?_, fun mode => (hcompletes mode).width⟩
  · have hpage : Browser.blank.feed (render .html context template).text.toList =
        some ⟨styled context template, none, .text⟩ := (hcompletes .html).shows
    rw [Browser.read?, hpage]
    rfl
  · have hterminal : Terminal.reset.feed (render .ansi context template).text.toList =
        some ⟨styled context template, .plain, .text⟩ := (hcompletes .ansi).shows
    rw [Terminal.read?, hterminal]
    rfl
  · have hterminal : Terminal.reset.feed (render .monochrome context template).text.toList =
        some ⟨(styled context template).map (Prod.map id Style.withoutColours), .plain, .text⟩ :=
      (hcompletes .monochrome).shows
    rw [Terminal.read?, hterminal]
    rfl

/-- Nested styles, signs that are spelt by entities, an unknown escape and one that is cut off. -/
theorem modes_agree_of_nested_styles :
    let context : PromptContext := ⟨"a<b", some 1, "calc", "1.0", "cuf-calc", none⟩
    context.EscapeFree ∧ '\x1b' ∉ "%f9%n%y1&%r%q%".toList ∧
      styled context "%f9%n%y1&%r%q%" =
        styledChars { fg := some 9 } "a<b".toList
          ++ styledChars { fg := some 9, flags := { bold := true } } "&".toList
          ++ styledChars .plain "%q%".toList ∧
      (render .html context "%f9%n%y1&%r%q%").text = "<span style=\"color:red;\">a&lt;b</span>" ++
        "<span style=\"color:red;font-weight:bold;\">&amp;</span>%q%" ∧
      (render .none context "%f9%n%y1&%r%q%").text.toList =
        (styled context "%f9%n%y1&%r%q%").map Prod.fst ∧
      Browser.read? (render .html context "%f9%n%y1&%r%q%").text = some
        (styled context "%f9%n%y1&%r%q%") ∧
      Terminal.read? (render .ansi context "%f9%n%y1&%r%q%").text =
        some (styled context "%f9%n%y1&%r%q%", .plain) ∧
      Terminal.read? (render .monochrome context "%f9%n%y1&%r%q%").text =
        some ((styled context "%f9%n%y1&%r%q%").map (Prod.map id Style.withoutColours), .plain) ∧
      ∀ mode, ((PromptFormatter.new mode).primary "%f9%n%y1&%r%q%" context).2.primaryWidth =
        Piece.width (pieces context .plain "%f9%n%y1&%r%q%".toList) := by
  have hcontext : (⟨"a<b", some 1, "calc", "1.0", "cuf-calc", none⟩ : PromptContext).EscapeFree :=
    ⟨by decide, by decide, by decide, by decide, fun _ h => by cases h⟩
  exact ⟨hcontext,
    by decide, by decide +kernel, by decide +kernel, modes_agree hcontext (by decide)⟩

end Prompt

end SessionShell
