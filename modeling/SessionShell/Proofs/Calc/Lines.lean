import Mathlib.Algebra.GroupWithZero.Nat
import SessionShell.Proofs.Calc.Spelling

/-!
The lines that tokens stand on.

A token is said to stand on the line that follows as many line ends as stand before it, except those
that stand behind a backslash in a text: of these none is counted, so every token behind such a text
is said to stand too high.
-/

namespace SessionShell.Calc

open Spelling

/-- How the spellings are written, one behind the other. -/
def writtenAll (ws : List Spelling) : List Char :=
  ws.flatMap written

/-- The line ends that stand behind a backslash in a text. -/
def hiddenIn (ws : List Spelling) : Nat :=
  (ws.map hiddenLines).sum

variable {w : Spelling} {ws before : List Spelling} {cs after : List Char} {line : Nat}
  {token : Token}

/-! ## Line ends -/

theorem count_quoted (chars : List QuotedChar) :
    (chars.flatMap QuotedChar.written).count '\n' =
      chars.count (.plain '\n') + chars.count (.escaped '\n') := by
  induction chars with
  | nil => rfl
  | cons first chars ih =>
    cases first with
    | plain c =>
      by_cases hc : c = '\n'
      · simp [QuotedChar.written, ih, hc]
        omega
      · simp [QuotedChar.written, ih, hc]
    | escaped c =>
      by_cases hc : c = '\n'
      · simp [QuotedChar.written, ih, hc]
        omega
      · simp [QuotedChar.written, ih, hc]

theorem count_of_digits {digits : List Char} (h : ∀ d ∈ digits, Number.isDigit d = true) :
    digits.count '\n' = 0 := by
  apply List.count_eq_zero_of_not_mem
  intro hin
  exact (ne_of_isDigit (h '\n' hin)).1 rfl

theorem count_written (h : w.Stands after) : w.written.count '\n' = w.lines + w.hiddenLines := by
  cases w with
  | lineEnd => rfl
  | semicolon => rfl
  | comment remark =>
    have hremark : '\n' ∉ remark := fun hin => h.1 '\n' hin rfl
    simp [written, lines, hiddenLines, List.count_eq_zero_of_not_mem hremark]
  | blank c => simp [written, lines, hiddenLines, h.2]
  | number whole fraction =>
    obtain ⟨-, hdigits, -, -⟩ := h
    have hwhole := count_of_digits fun d hd => hdigits d (List.mem_append_left _ hd)
    have hfraction := count_of_digits fun d hd => hdigits d (List.mem_append_right _ hd)
    cases fraction with
    | nil => simp [written, pointed, lines, hiddenLines, hwhole]
    | cons d ds =>
      have hpointed : (pointed (d :: ds)).count '\n' = (d :: ds).count '\n' := by
        simp [pointed]
      simp [written, lines, hiddenLines, hwhole, hpointed, hfraction]
  | text quote chars =>
    simp [written, lines, hiddenLines, count_quoted, (only_quote h.1).1]
  | name chars =>
    obtain ⟨c, cs, rfl, hc, hcs, -⟩ := h
    have hrest : '\n' ∉ cs := fun hin => by
      have := hcs '\n' hin
      rw [continuesName_lineEnd] at this
      cases this
    simp [written, lines, hiddenLines, (ne_of_startsName hc).1, List.count_eq_zero_of_not_mem hrest]
  | symbol c => simp [written, lines, hiddenLines, (only_symbol h).1]

/-! ## Tokens -/

theorem Spelled.split {behind : List Spelling} (h : Spelled (before ++ w :: behind) cs) :
    ∃ after, cs = writtenAll before ++ (w.written ++ after) ∧
      (writtenAll before).count '\n' = (before.map lines).sum + hiddenIn before := by
  induction before generalizing cs with
  | nil =>
    cases h with
    | @cons _ _ after _ _ => exact ⟨after, rfl, rfl⟩
  | cons first before ih =>
    cases h with
    | cons hfirst hs =>
      obtain ⟨after, rfl, hcount⟩ := ih hs
      refine ⟨after, by simp [writtenAll], ?_⟩
      simp only [writtenAll, hiddenIn, List.flatMap_cons, List.count_append, List.map_cons,
        List.sum_cons] at hcount ⊢
      rw [count_written hfirst, hcount]
      omega

/-- The token of a spelling stands behind those of the spellings before it, on the line on which the
spelling begins. -/
theorem getElem?_lexemesFrom {behind : List Spelling} (htoken : w.token? = some token)
    (line : Nat) :
    (lexemesFrom line (before ++ w :: behind))[(tokensOfAll before).length]? =
      some ⟨token, line + (before.map lines).sum⟩ := by
  induction before generalizing line with
  | nil => simp [lexemesFrom, lexemes, tokensOfAll, htoken]
  | cons first before ih =>
    have hlength : (tokensOfAll (first :: before)).length =
        (first.lexemes line).length + (tokensOfAll before).length := by
      cases hfirst : first.token? <;> simp [tokensOfAll, lexemes, hfirst]
      omega
    rw [List.cons_append, lexemesFrom, hlength, List.getElem?_append_right (Nat.le_add_right _ _),
      Nat.add_sub_cancel_left, ih]
    simp [Nat.add_assoc]

/-- Every source that has tokens can be cut into spellings. However it is cut, its tokens are those
of the spellings, and each of them stands on the line that follows as many line ends as are written
before its first character, less those of them that stand behind a backslash in a text. So the line
of a token is its true one exactly when there are none of these before it. -/
theorem line_of_lex {source : String} {lexemes : List Lexeme} (h : lex source = .ok lexemes) :
    (∃ ws, Spelled ws source.toList) ∧
    ∀ ws, Spelled ws source.toList → lexemes.map (·.token) = tokensOfAll ws ∧
      ∀ before w behind token, ws = before ++ w :: behind → w.token? = some token →
        ∃ line after, source.toList = writtenAll before ++ (w.written ++ after) ∧
          lexemes[(tokensOfAll before).length]? = some ⟨token, line⟩ ∧
          line + hiddenIn before = 1 + (writtenAll before).count '\n' ∧
          (line = 1 + (writtenAll before).count '\n' ↔ hiddenIn before = 0) := by
  obtain ⟨ws₀, hws₀, -⟩ := lex_eq_ok_iff.mp h
  refine ⟨⟨ws₀, hws₀⟩, fun ws hws => ?_⟩
  obtain rfl : lexemes = lexemesFrom 1 ws :=
    Except.ok.inj (h.symm.trans (lex_eq_ok_iff.mpr ⟨ws, hws, rfl⟩))
  refine ⟨tokens_lexemesFrom 1 ws, ?_⟩
  rintro before w behind token rfl htoken
  obtain ⟨after, hsource, hcount⟩ := hws.split
  refine ⟨_, after, hsource, getElem?_lexemesFrom htoken 1, ?_, ?_⟩
  · omega
  · omega

/-- A name behind a text over two lines and a comment. -/
theorem line_of_lex_of_remark :
    let source := "'a\nb' # ;\n x"
    let before : List Spelling :=
      [.text '\'' [.plain 'a', .plain '\n', .plain 'b'], .blank ' ', .comment [' ', ';'],
        .lineEnd, .blank ' ']
    lex source = .ok [⟨.str "a\nb", 1⟩, ⟨.sep, 2⟩, ⟨.ident "x", 3⟩] ∧
      Spelled (before ++ [.name ['x']]) source.toList ∧ hiddenIn before = 0 ∧
      ∃ line, [⟨.str "a\nb", 1⟩, ⟨.sep, 2⟩, ⟨.ident "x", 3⟩][2]? = some
        (⟨.ident "x", line⟩ : Lexeme) ∧
        line = 1 + (writtenAll before).count '\n' := by
  intro source before
  have hspelled : Spelled (before ++ [.name ['x']]) source.toList := by decide
  have hlex : lex source = .ok [⟨.str "a\nb", 1⟩, ⟨.sep, 2⟩, ⟨.ident "x", 3⟩] :=
    lex_eq_ok_iff.mpr ⟨_, hspelled, rfl⟩
  obtain ⟨line, -, -, hfound, -, htrue⟩ :=
    ((line_of_lex hlex).2 _ hspelled).2 before (.name ['x']) [] (.ident "x") rfl rfl
  exact ⟨hlex, hspelled, rfl, line, hfound, htrue.mpr rfl⟩

/-- A backslash at the end of a line in a text: the name behind it stands on the second line. -/
theorem line_short_of_escaped_lineEnd :
    lex "\"\\\n\"; x" = .ok [⟨.str "\n", 1⟩, ⟨.sep, 1⟩, ⟨.ident "x", 1⟩] ∧
      "\"\\\n\"; x".toList = "\"\\\n\"; ".toList ++ ['x'] ∧
      1 + "\"\\\n\"; ".toList.count '\n' = 2 := by
  have hspelled : Spelled [.text '"' [.escaped '\n'], .semicolon, .blank ' ', .name ['x']]
      "\"\\\n\"; x".toList := by decide
  exact ⟨lex_eq_ok_iff.mpr ⟨_, hspelled, rfl⟩, by decide, by decide⟩

end SessionShell.Calc
