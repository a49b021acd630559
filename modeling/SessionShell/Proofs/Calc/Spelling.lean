import Mathlib.Algebra.GroupWithZero.Nat
import SessionShell.Proofs.Calc.Numerals

/-!
How calc is written.

A source is cut into spellings: line ends, semicolons, comments, blanks, numbers, texts, names and
symbols, each as long as it can be. The rules are given without the lexer. Whatever a source is,
spellings can be cut off its beginning until nothing is left, or a quote stands there that is never
closed, or a character that begins nothing. In the first case it has tokens, and they are those of
its spellings, wherever it is cut; in each of the others the lexer fails and says so. It fails in no
other way.
-/

namespace SessionShell.Calc

/-- A character between quotes: one that stands for itself, or one behind a backslash. -/
inductive QuotedChar where
  | plain (c : Char)
  | escaped (c : Char)
  deriving DecidableEq, Repr

namespace QuotedChar

def written : QuotedChar → List Char
  | .plain c => [c]
  | .escaped c => ['\\', c]

def value : QuotedChar → Char
  | .plain c => c
  | .escaped c => unescaped c

def Fits (quote : Char) : QuotedChar → Prop
  | .plain c => c ≠ quote ∧ c ≠ '\\'
  | .escaped _ => True

end QuotedChar

inductive Spelling where
  | lineEnd
  | semicolon
  | comment (remark : List Char)
  | blank (c : Char)
  | number (whole fraction : List Char)
  | text (quote : Char) (chars : List QuotedChar)
  | name (chars : List Char)
  | symbol (c : Char)
  deriving DecidableEq, Repr

namespace Spelling

def written : Spelling → List Char
  | .lineEnd => ['\n']
  | .semicolon => [';']
  | .comment remark => '#' :: remark
  | .blank c => [c]
  | .number whole fraction => whole ++ pointed fraction
  | .text quote chars => quote :: (chars.flatMap QuotedChar.written ++ [quote])
  | .name chars => chars
  | .symbol c => [c]

def token? : Spelling → Option Token
  | .lineEnd | .semicolon => some .sep
  | .comment _ | .blank _ => none
  | .number whole fraction => some (.num (Number.ofDigits whole fraction))
  | .text _ chars => some (.str (String.ofList (chars.map QuotedChar.value)))
  | .name chars => some (.ident (String.ofList chars))
  | .symbol c => some (.sym c)

def lexemes (w : Spelling) (line : Nat) : List Lexeme :=
  w.token?.toList.map fun token => ⟨token, line⟩

/-- The line ends that count: those that separate statements, and those that stand in a text but not
behind a backslash. -/
def lines : Spelling → Nat
  | .lineEnd => 1
  | .text _ chars => chars.count (.plain '\n')
  | _ => 0

def hiddenLines : Spelling → Nat
  | .text _ chars => chars.count (.escaped '\n')
  | _ => 0

def EndsAt (p : Char → Bool) (after : List Char) : Prop :=
  ∀ c, after.head? = some c → p c = false

def BeginsFraction (cs : List Char) : Prop :=
  ∃ d rest, cs = '.' :: d :: rest ∧ Number.isDigit d = true

/-- Made of the right characters, and as long as it can be in front of `after`. -/
def Stands (after : List Char) : Spelling → Prop
  | .lineEnd | .semicolon => True
  | .comment remark => (∀ c ∈ remark, c ≠ '\n') ∧ EndsAt insideComment after
  | .blank c => Text.isBlank c = true ∧ c ≠ '\n'
  | .number whole fraction => whole ≠ [] ∧ (∀ d ∈ whole ++ fraction, Number.isDigit d = true) ∧
      EndsAt Number.isDigit after ∧ (fraction = [] → ¬BeginsFraction after)
  | .text quote chars => (quote = '"' ∨ quote = '\'') ∧ ∀ c ∈ chars, c.Fits quote
  | .name chars => ∃ c cs, chars = c :: cs ∧ startsName c = true ∧
      (∀ c ∈ cs, continuesName c = true) ∧ EndsAt continuesName after
  | .symbol c => isSymbol c = true

end Spelling

inductive Spelled : List Spelling → List Char → Prop where
  | nil : Spelled [] []
  | cons {w : Spelling} {ws : List Spelling} {after : List Char} (h : w.Stands after)
      (hs : Spelled ws after) : Spelled (w :: ws) (w.written ++ after)

/-- A source begins with these spellings, and goes on with `rest`. -/
inductive SpelledBefore (rest : List Char) : List Spelling → List Char → Prop where
  | nil : SpelledBefore rest [] rest
  | cons {w : Spelling} {ws : List Spelling} {after : List Char} (h : w.Stands after)
      (hs : SpelledBefore rest ws after) : SpelledBefore rest (w :: ws) (w.written ++ after)

/-- No quote of the same kind follows but behind a backslash. -/
def Unclosed (quote : Char) (inside : List Char) : Prop :=
  ∀ (chars : List QuotedChar) (after : List Char), (∀ c ∈ chars, c.Fits quote) →
    inside ≠ chars.flatMap QuotedChar.written ++ quote :: after

/-- Begins no spelling, and no text that is left open. -/
structure Unknown (c : Char) : Prop where
  lineEnd : c ≠ '\n'
  semicolon : c ≠ ';'
  comment : c ≠ '#'
  blank : Text.isBlank c = false
  digit : Number.isDigit c = false
  quote : ¬(c = '"' ∨ c = '\'')
  name : startsName c = false
  symbol : isSymbol c = false

/-- What is left of a source when no more spellings can be cut off. -/
inductive Stuck : List Char → Prop where
  | ended : Stuck []
  | unclosed {quote : Char} {inside : List Char} (hquote : quote = '"' ∨ quote = '\'')
      (h : Unclosed quote inside) : Stuck (quote :: inside)
  | unknown {c : Char} {cs : List Char} (h : Unknown c) : Stuck (c :: cs)

/-- The tokens of spellings, the first of which stands on `line`. -/
def lexemesFrom (line : Nat) : List Spelling → List Lexeme
  | [] => []
  | w :: ws => w.lexemes line ++ lexemesFrom (line + w.lines) ws

open Spelling

/-- The tokens of spellings, without their lines. -/
def tokensOfAll (ws : List Spelling) : List Token :=
  ws.filterMap token?

variable {after rest cs inside : List Char} {ws : List Spelling} {c quote : Char} {p : Char → Bool}

/-! ## The rules can be tried -/

namespace Spelling

def endsAt (p : Char → Bool) (after : List Char) : Bool :=
  after.head?.all fun c => !p c

def beginsFraction (cs : List Char) : Bool :=
  cs.head? == some '.' && cs.tail.head?.any Number.isDigit

def fits (quote : Char) : QuotedChar → Bool
  | .plain c => c != quote && c != '\\'
  | .escaped _ => true

def stands (after : List Char) : Spelling → Bool
  | .lineEnd | .semicolon => true
  | .comment remark => remark.all (· != '\n') && endsAt insideComment after
  | .blank c => Text.isBlank c && c != '\n'
  | .number whole fraction => !whole.isEmpty && (whole ++ fraction).all Number.isDigit &&
      endsAt Number.isDigit after && (!fraction.isEmpty || !beginsFraction after)
  | .text quote chars => (quote == '"' || quote == '\'') && chars.all (fits quote)
  | .name [] => false
  | .name (c :: cs) => startsName c && cs.all continuesName && endsAt continuesName after
  | .symbol c => isSymbol c

theorem endsAt_iff : endsAt p after = true ↔ EndsAt p after := by
  cases after <;> simp [endsAt, EndsAt]

theorem beginsFraction_iff : beginsFraction cs = true ↔ BeginsFraction cs := by
  match cs with
  | [] | [_] => simp [beginsFraction, BeginsFraction]
  | c :: d :: rest => simp [beginsFraction, BeginsFraction, and_assoc]

theorem fits_iff {c : QuotedChar} : fits quote c = true ↔ c.Fits quote := by
  cases c <;> simp [fits, QuotedChar.Fits]

theorem stands_iff {w : Spelling} : stands after w = true ↔ w.Stands after := by
  cases w with
  | number whole fraction =>
    have hend : (!fraction.isEmpty || !beginsFraction after) = true ↔
        (fraction = [] → ¬BeginsFraction after) := by
      cases fraction <;> simp [← beginsFraction_iff]
    simp only [stands, Stands, Bool.and_eq_true, endsAt_iff, List.all_eq_true, and_assoc, hend]
    exact and_congr_left' (by simp)
  | name chars => cases chars <;> simp [stands, Stands, endsAt_iff, and_assoc]
  | _ => simp [stands, Stands, endsAt_iff, fits_iff]

instance (after : List Char) (w : Spelling) : Decidable (w.Stands after) :=
  decidable_of_iff _ stands_iff

end Spelling

/-- Whether these are spellings of a list of characters. -/
def spells : List Spelling → List Char → Bool
  | [], cs => cs.isEmpty
  | w :: ws, cs => w.written.isPrefixOf cs && stands (cs.drop w.written.length) w &&
      spells ws (cs.drop w.written.length)

theorem spells_iff {ws : List Spelling} : spells ws cs = true ↔ Spelled ws cs := by
  induction ws generalizing cs with
  | nil =>
    rw [spells, List.isEmpty_iff]
    exact ⟨fun h => h ▸ .nil, fun h => by cases h; rfl⟩
  | cons w ws ih =>
    rw [spells, Bool.and_eq_true, Bool.and_eq_true, List.isPrefixOf_iff_prefix, stands_iff, ih]
    constructor
    · rintro ⟨⟨⟨after, rfl⟩, h⟩, hs⟩
      rw [List.drop_left] at h hs
      exact .cons h hs
    · intro h
      cases h with
      | cons h hs => simp [h, hs]

instance (ws : List Spelling) (cs : List Char) : Decidable (Spelled ws cs) :=
  decidable_of_iff _ spells_iff

/-! ## Runs of characters -/

theorem takeWhile_of_endsAt {run : List Char} (hrun : ∀ c ∈ run, p c = true) (h : EndsAt p after) :
    (run ++ after).takeWhile p = run := by
  rw [List.takeWhile_append_of_pos hrun]
  cases after with
  | nil => simp
  | cons c after => simp [h c rfl]

theorem dropWhile_of_endsAt {run : List Char} (hrun : ∀ c ∈ run, p c = true) (h : EndsAt p after) :
    (run ++ after).dropWhile p = after := by
  rw [List.dropWhile_append_of_pos hrun]
  cases after with
  | nil => simp
  | cons c after => simp [h c rfl]

theorem endsAt_dropWhile (p : Char → Bool) (cs : List Char) : EndsAt p (cs.dropWhile p) := by
  intro c hc
  have hnot := List.head?_dropWhile_not p cs
  rw [hc] at hnot
  simpa using hnot

/-! ## Kinds of characters -/

theorem not_inRanges_of_disjoint {ranges ranges' : List (Nat × Nat)}
    (h : ∀ r ∈ ranges, ∀ r' ∈ ranges', r.2 < r'.1 ∨ r'.2 < r.1)
    (hc : Text.inRanges ranges c = true) :
    Text.inRanges ranges' c = false := by
  simp only [Text.inRanges, List.any_eq_true, List.any_eq_false, Bool.and_eq_true,
    decide_eq_true_eq]
    at hc ⊢
  obtain ⟨r, hr, hlow, hhigh⟩ := hc
  intro r' hr'
  have := h r hr r' hr'
  omega

theorem blank_not_letter : ∀ r ∈ Text.blankRanges, ∀ r' ∈ Text.alphabeticRanges,
    r.2 < r'.1 ∨ r'.2 < r.1 := by
  decide +kernel

theorem isAlpha_of_startsName (h : startsName c = true) (hlow : c.toNat < 0x80) :
    c.isAlpha = true ∨ c = '_' := by
  simpa [startsName, Text.isAlphabetic, hlow] using h

theorem toNat_of_isAlpha (h : c.isAlpha = true) :
    65 ≤ c.toNat ∧ c.toNat ≤ 90 ∨ 97 ≤ c.toNat ∧ c.toNat ≤ 122 := by
  rcases (Bool.or_eq_true _ _).mp h with hupper | hlower
  · obtain ⟨hlow, hhigh⟩ := of_decide_eq_true hupper
    exact .inl ⟨UInt32.le_iff_toNat_le.mp hlow, UInt32.le_iff_toNat_le.mp hhigh⟩
  · obtain ⟨hlow, hhigh⟩ := (Bool.and_eq_true _ _).mp hlower
    exact .inr ⟨UInt32.le_iff_toNat_le.mp (of_decide_eq_true hlow),
      UInt32.le_iff_toNat_le.mp (of_decide_eq_true hhigh)⟩

theorem isBlank_of_startsName (h : startsName c = true) : Text.isBlank c = false := by
  by_contra hblank
  rw [Bool.not_eq_false] at hblank
  by_cases hlow : c.toNat < 0x80
  · rcases isAlpha_of_startsName h hlow with halpha | rfl
    · simp [Text.isBlank, Text.inRanges, Text.blankRanges] at hblank
      have := toNat_of_isAlpha halpha
      omega
    · revert hblank
      decide
  · have hletter := not_inRanges_of_disjoint blank_not_letter hblank
    have hunderscore : c ≠ '_' := by
      rintro rfl
      exact hlow (by decide)
    simp [startsName, Text.isAlphabetic, hlow, hletter, hunderscore] at h

theorem isDigit_of_startsName (h : startsName c = true) : Number.isDigit c = false := by
  by_contra hdigit
  rw [Bool.not_eq_false] at hdigit
  have hrange := toNat_of_isDigit hdigit
  rcases isAlpha_of_startsName h (by omega) with halpha | rfl
  · have := toNat_of_isAlpha halpha
    omega
  · revert hrange
    decide

theorem ne_of_startsName (h : startsName c = true) :
    c ≠ '\n' ∧ c ≠ ';' ∧ c ≠ '#' ∧ ¬(c = '"' ∨ c = '\'') := by
  refine ⟨?_, ?_, ?_, ?_⟩
  · rintro rfl
    revert h
    decide +kernel
  · rintro rfl
    revert h
    decide +kernel
  · rintro rfl
    revert h
    decide +kernel
  · rintro (rfl | rfl)
    · revert h
      decide +kernel
    · revert h
      decide +kernel

theorem continuesName_lineEnd : continuesName '\n' = false := by
  decide +kernel

theorem only_quote (h : quote = '"' ∨ quote = '\'') :
    quote ≠ '\n' ∧ quote ≠ ';' ∧ quote ≠ '#' ∧ Text.isBlank quote = false ∧
      Number.isDigit quote = false := by
  rcases h with rfl | rfl <;> decide

theorem only_symbol (h : isSymbol c = true) :
    c ≠ '\n' ∧ c ≠ ';' ∧ c ≠ '#' ∧ Text.isBlank c = false ∧ Number.isDigit c = false ∧
      ¬(c = '"' ∨ c = '\'') ∧ startsName c = false := by
  simp only [isSymbol, List.mem_cons, List.not_mem_nil, or_false, decide_eq_true_eq] at h
  rcases h with rfl | rfl | rfl | rfl | rfl | rfl | rfl | rfl | rfl | rfl | rfl <;> decide +kernel

/-! ## Texts between quotes -/

/-- By recursion of the reader: a backslash takes the next character with it, whatever it is. -/
theorem quotation?_sound {text : List Char} {lines : Nat} {q : Quotation}
    (h : quotation? quote text lines cs = some q) :
    ∃ chars : List QuotedChar, (∀ c ∈ chars, c.Fits quote) ∧
      cs = chars.flatMap QuotedChar.written ++ quote :: q.rest ∧
      q.text = text.reverse ++ chars.map QuotedChar.value ∧
      q.lines = lines + chars.count (.plain '\n') := by
  fun_induction quotation? quote text lines cs with
  | case1 => cases h
  | case2 => cases h
  | case3 text lines c cs ih =>
    obtain ⟨chars, hfits, rfl, htext, hlines⟩ := ih h
    refine ⟨.escaped c :: chars, ?_, rfl, ?_, ?_⟩
    · simpa [QuotedChar.Fits] using hfits
    · simp [htext, QuotedChar.value]
    · rw [hlines, List.count_cons_of_ne (by simp)]
  | case4 text lines cs =>
    obtain rfl := Option.some.inj h
    exact ⟨[], by simp, rfl, by simp, by simp⟩
  | case5 text lines c cs hlast hescape hc ih =>
    obtain ⟨chars, hfits, rfl, htext, hlines⟩ := ih h
    have hne : c ≠ '\\' := by
      rintro rfl
      cases chars with
      | nil => exact hescape quote _ rfl rfl
      | cons first chars => cases first <;> exact hescape _ _ rfl rfl
    refine ⟨.plain c :: chars, ?_, rfl, ?_, ?_⟩
    · simpa [QuotedChar.Fits] using ⟨⟨hc, hne⟩, hfits⟩
    · simp [htext, QuotedChar.value]
    · rw [hlines]
      by_cases hend : c = '\n'
      · subst hend
        simp
        omega
      · rw [List.count_cons_of_ne (by simpa using hend), if_neg hend]

theorem quotation?_cons {quote c : Char} (hc : c ≠ '\\') (text cs : List Char) (lines : Nat) :
    quotation? quote text lines (c :: cs) =
      if c = quote then some ⟨text.reverse, lines, cs⟩
      else quotation? quote (c :: text) (if c = '\n' then lines + 1 else lines) cs := by
  cases cs <;> simp [quotation?, hc]

theorem quotation?_complete {chars : List QuotedChar} (hquote : quote = '"' ∨ quote = '\'')
    (hchars : ∀ c ∈ chars, c.Fits quote) (text : List Char) (lines : Nat) (rest : List Char) :
    quotation? quote text lines (chars.flatMap QuotedChar.written ++ quote :: rest) =
      some ⟨text.reverse ++ chars.map QuotedChar.value,
        lines + chars.count (.plain '\n'), rest⟩ := by
  have hplain : quote ≠ '\\' := by
    rcases hquote with rfl | rfl <;> decide
  induction chars generalizing text lines with
  | nil => simp [quotation?_cons hplain]
  | cons first chars ih =>
    obtain ⟨hfirst, hothers⟩ := List.forall_mem_cons.mp hchars
    cases first with
    | plain c =>
      obtain ⟨hne, hescape⟩ := hfirst
      simp only [List.flatMap_cons, QuotedChar.written, List.cons_append, List.nil_append]
      rw [quotation?_cons hescape, if_neg hne, ih hothers]
      by_cases hend : c = '\n'
      · subst hend
        simp [QuotedChar.value]
        omega
      · simp [QuotedChar.value, hend]
    | escaped c =>
      simp only [List.flatMap_cons, QuotedChar.written, List.cons_append,
        List.nil_append, quotation?]
      rw [ih hothers]
      simp [QuotedChar.value]

theorem quotation?_eq_none_iff (hquote : quote = '"' ∨ quote = '\'') (text : List Char)
    (lines : Nat) :
    quotation? quote text lines inside = none ↔ Unclosed quote inside := by
  constructor
  · rintro hnone chars after hchars rfl
    rw [quotation?_complete hquote hchars] at hnone
    cases hnone
  · intro h
    by_contra hsome
    obtain ⟨q, hq⟩ := Option.ne_none_iff_exists'.mp hsome
    obtain ⟨chars, hchars, hinside, -, -⟩ := quotation?_sound hq
    exact h chars q.rest hchars hinside

/-! ## One spelling -/

theorem fraction_sound (cs : List Char) :
    cs = pointed (fraction cs).1 ++ (fraction cs).2 ∧
      (EndsAt Number.isDigit cs → EndsAt Number.isDigit (fraction cs).2) ∧
      ((fraction cs).1 = [] → ¬BeginsFraction cs) := by
  unfold fraction
  split
  · next d rest =>
    split
    · next hd =>
      exact ⟨by simp [pointed, List.takeWhile_append_dropWhile], fun _ => endsAt_dropWhile _ _, by
        simp⟩
    · next hd =>
      refine ⟨by simp [pointed], id, fun _ => ?_⟩
      rintro ⟨d', rest', heq, hd'⟩
      cases heq
      exact hd hd'
  · next hnot =>
    refine ⟨by simp [pointed], id, fun _ => ?_⟩
    rintro ⟨d, rest, rfl, -⟩
    exact hnot d rest rfl

theorem exists_number (hc : Number.isDigit c = true) (cs : List Char) :
    ∃ (w : Spelling) (after : List Char), w.Stands after ∧ c :: cs = w.written ++ after := by
  obtain ⟨hsplit, hstop, hnone⟩ := fraction_sound (cs.dropWhile Number.isDigit)
  refine ⟨.number (c :: cs.takeWhile Number.isDigit) (fraction (cs.dropWhile Number.isDigit)).1,
    (fraction (cs.dropWhile Number.isDigit)).2,
    ⟨by simp, ?_, hstop (endsAt_dropWhile _ _), fun hempty => ?_⟩, ?_⟩
  · intro d hd
    simp only [List.cons_append, List.mem_cons, List.mem_append] at hd
    rcases hd with rfl | hd | hd
    · exact hc
    · exact List.mem_takeWhile_imp hd
    · exact isDigit_of_mem_fraction d hd
  · rw [hempty, pointed, List.nil_append] at hsplit
    rw [← hsplit]
    exact hnone hempty
  · rw [written, List.append_assoc, ← hsplit, List.cons_append, List.takeWhile_append_dropWhile]

/-- A source begins with a spelling, or no more of it can be cut. By the cases of the lexer. -/
theorem exists_spelling_or_stuck (c : Char) (cs : List Char) :
    (∃ (w : Spelling) (after : List Char), w.Stands after ∧ c :: cs = w.written ++ after) ∨
      Stuck (c :: cs) := by
  by_cases hend : c = '\n'
  · exact .inl ⟨.lineEnd, cs, trivial, by rw [hend]; rfl⟩
  by_cases hsemi : c = ';'
  · exact .inl ⟨.semicolon, cs, trivial, by rw [hsemi]; rfl⟩
  by_cases hcomment : c = '#'
  · refine .inl ⟨.comment (cs.takeWhile insideComment), cs.dropWhile insideComment,
      ⟨fun c hc => ?_, endsAt_dropWhile _ _⟩, by simp [hcomment, written]⟩
    simpa [insideComment] using List.mem_takeWhile_imp hc
  by_cases hblank : Text.isBlank c
  · exact .inl ⟨.blank c, cs, ⟨hblank, hend⟩, rfl⟩
  by_cases hdigit : Number.isDigit c
  · exact .inl (exists_number hdigit cs)
  by_cases hquote : c = '"' ∨ c = '\''
  · cases hread : quotation? c [] 0 cs with
    | none => exact .inr (.unclosed hquote ((quotation?_eq_none_iff hquote [] 0).mp hread))
    | some q =>
      obtain ⟨chars, hfits, hsplit, -, -⟩ := quotation?_sound hread
      exact .inl ⟨.text c chars, q.rest, ⟨hquote, hfits⟩, by simp [written, hsplit]⟩
  by_cases hname : startsName c
  · exact .inl ⟨.name (c :: cs.takeWhile continuesName), cs.dropWhile continuesName,
      ⟨c, _, rfl, hname, fun d => List.mem_takeWhile_imp, endsAt_dropWhile _ _⟩,
      by simp [written]⟩
  by_cases hsymbol : isSymbol c
  · exact .inl ⟨.symbol c, cs, hsymbol, rfl⟩
  exact .inr (.unknown ⟨hend, hsemi, hcomment, by simpa using hblank, by simpa using hdigit,
    hquote, by simpa using hname, by simpa using hsymbol⟩)

theorem written_ne_nil {w : Spelling} (h : w.Stands after) : w.written ≠ [] := by
  cases w with
  | number whole fraction => exact fun hnil => h.1 (List.append_eq_nil_iff.mp hnil).1
  | name chars =>
    obtain ⟨c, cs, rfl, -⟩ := h
    exact List.cons_ne_nil c cs
  | _ => exact List.cons_ne_nil _ _

theorem endsAt_pointed (digits : List Char) (h : EndsAt Number.isDigit after) :
    EndsAt Number.isDigit (pointed digits ++ after) := by
  cases digits with
  | nil => exact h
  | cons d ds =>
    intro c hhead
    cases hhead
    decide

theorem fraction_complete {digits : List Char} (hdigits : ∀ d ∈ digits, Number.isDigit d = true)
    (hstop : EndsAt Number.isDigit after) (hnone : digits = [] → ¬BeginsFraction after) :
    fraction (pointed digits ++ after) = (digits, after) := by
  cases digits with
  | nil =>
    unfold fraction
    split
    · next d rest heq =>
      rw [pointed, List.nil_append] at heq
      have hd : ¬Number.isDigit d = true := fun hd => hnone rfl ⟨d, rest, heq, hd⟩
      simp [hd, pointed, heq]
    · rfl
  | cons d ds =>
    obtain ⟨hd, hds⟩ := List.forall_mem_cons.mp hdigits
    simp only [pointed, List.cons_append, fraction, hd, if_true]
    rw [takeWhile_of_endsAt hds hstop, dropWhile_of_endsAt hds hstop]

theorem lexFrom_of_quote {q : Quotation} (hquote : quote = '"' ∨ quote = '\'')
    (h : quotation? quote [] 0 cs = some q) (line : Nat) (read : Array Lexeme) :
    lexFrom line read (quote :: cs) =
      lexFrom (line + q.lines) (read.push ⟨.str (String.ofList q.text), line⟩) q.rest := by
  obtain ⟨hend, hsemi, hmark, hblank, hdigit⟩ := only_quote hquote
  rw [lexFrom.eq_2]
  simp only [hend, hsemi, hmark, hblank, hdigit, hquote, if_true, if_false, Bool.false_eq_true]
  split
  · next hnone => cases hnone.symm.trans h
  · next q' hq' =>
    obtain rfl := Option.some.inj (hq'.symm.trans h)
    rfl

/-- What the lexer makes of a spelling: its token on the line on which it begins, and the line ends
in it that count. -/
theorem lexFrom_spelling {w : Spelling} (h : w.Stands after) (line : Nat) (read : Array Lexeme) :
    lexFrom line read (w.written ++ after) =
      lexFrom (line + w.lines) (read ++ w.lexemes line) after := by
  cases w with
  | lineEnd => simp [written, lexFrom.eq_2, lines, lexemes, token?]
  | semicolon => simp [written, lexFrom.eq_2, lines, lexemes, token?]
  | comment remark =>
    obtain ⟨hremark, hend⟩ := h
    have hinside : ∀ c ∈ remark, insideComment c = true := fun c hc => by
      simpa [insideComment] using hremark c hc
    simp [written, lexFrom.eq_2, lines, lexemes, token?, dropWhile_of_endsAt hinside hend]
  | blank c =>
    obtain ⟨hblank, hne⟩ := h
    have hsemi : c ≠ ';' := by
      rintro rfl
      revert hblank
      decide
    have hmark : c ≠ '#' := by
      rintro rfl
      revert hblank
      decide
    simp [written, lexFrom.eq_2, lines, lexemes, token?, hblank, hne, hsemi, hmark]
  | number whole digits =>
    obtain ⟨hne, hdigits, hstop, hnone⟩ := h
    obtain ⟨c, cs, rfl⟩ := List.exists_cons_of_ne_nil hne
    have hc : Number.isDigit c = true := hdigits c (by simp)
    have hcs : ∀ d ∈ cs, Number.isDigit d = true := fun d hd => hdigits d (by simp [hd])
    have hfraction := fraction_complete (fun d hd => hdigits d (by simp [hd])) hstop hnone
    have hbehind := endsAt_pointed digits hstop
    have hwritten : (number (c :: cs) digits).written ++ after = c ::
        (cs ++ (pointed digits ++ after)) := by
      simp [written]
    rw [hwritten, lexFrom_of_isDigit hc, takeWhile_of_endsAt hcs hbehind,
      dropWhile_of_endsAt hcs hbehind, hfraction]
    simp [lines, lexemes, token?]
  | text quote chars =>
    obtain ⟨hquote, hchars⟩ := h
    have hwritten : (text quote chars).written ++ after =
        quote :: (chars.flatMap QuotedChar.written ++ quote :: after) := by
      simp [written]
    rw [hwritten, lexFrom_of_quote hquote (quotation?_complete hquote hchars [] 0 after)]
    simp [lines, lexemes, token?]
  | name chars =>
    obtain ⟨c, cs, rfl, hc, hcs, hstop⟩ := h
    obtain ⟨hend, hsemi, hmark, hquote⟩ := ne_of_startsName hc
    simp [written, lexFrom.eq_2, hend, hsemi, hmark, isBlank_of_startsName hc,
      isDigit_of_startsName hc,
      hquote, hc, takeWhile_of_endsAt hcs hstop, dropWhile_of_endsAt hcs hstop, lines,
      lexemes, token?]
  | symbol c =>
    obtain ⟨hend, hsemi, hmark, hblank, hdigit, hquote, hname⟩ := only_symbol h
    have hsymbol : isSymbol c = true := h
    simp [written, lexFrom.eq_2, hend, hsemi, hmark, hblank, hdigit, hquote, hname, hsymbol,
      lines, lexemes, token?]

/-! ## Where no spelling stands -/

theorem lexFrom_of_unclosed (hquote : quote = '"' ∨ quote = '\'') (h : Unclosed quote inside)
    (line : Nat) (read : Array Lexeme) :
    lexFrom line read (quote :: inside) = .error (.unterminated line) := by
  have hnone := (quotation?_eq_none_iff hquote [] 0).mpr h
  obtain ⟨hend, hsemi, hmark, hblank, hdigit⟩ := only_quote hquote
  rw [lexFrom.eq_2]
  simp only [hend, hsemi, hmark, hblank, hdigit, hquote, if_true, if_false, Bool.false_eq_true]
  split
  · rfl
  · next q hq => cases hnone.symm.trans hq

theorem lexFrom_of_unknown (h : Unknown c) (line : Nat) (read : Array Lexeme) (cs : List Char) :
    lexFrom line read (c :: cs) = .error (.unexpected c line) := by
  rw [lexFrom.eq_2]
  simp [h.lineEnd, h.semicolon, h.comment, h.blank, h.digit, h.quote, h.name, h.symbol]

/-! ## A whole source -/

theorem tokens_lexemesFrom (line : Nat) (ws : List Spelling) :
    (lexemesFrom line ws).map (·.token) = tokensOfAll ws := by
  induction ws generalizing line with
  | nil => rfl
  | cons w ws ih =>
    rw [lexemesFrom, List.map_append, ih]
    cases htoken : w.token? <;> simp [tokensOfAll, lexemes, htoken]

theorem spelledBefore_nil_iff : SpelledBefore [] ws cs ↔ Spelled ws cs := by
  constructor
  · intro h
    induction h with
    | nil => exact .nil
    | cons hw _ ih => exact .cons hw ih
  · intro h
    induction h with
    | nil => exact .nil
    | cons hw _ ih => exact .cons hw ih

theorem SpelledBefore.lexFrom (h : SpelledBefore rest ws cs) (line : Nat) (read : Array Lexeme) :
    Calc.lexFrom line read cs =
      Calc.lexFrom (line + (ws.map lines).sum) (read ++ lexemesFrom line ws) rest := by
  induction h generalizing line read with
  | nil => simp [lexemesFrom]
  | cons hw _ ih =>
    rw [lexFrom_spelling hw, ih, lexemesFrom, List.map_cons, List.sum_cons, Nat.add_assoc]
    refine congrArg (fun read => Calc.lexFrom _ read rest) (Array.toList_inj.mp ?_)
    simp

theorem exists_stuck (cs : List Char) : ∃ ws rest, SpelledBefore rest ws cs ∧ Stuck rest := by
  generalize hlength : cs.length = length
  induction length using Nat.strongRecOn generalizing cs with
  | ind length ih =>
    cases cs with
    | nil => exact ⟨[], [], .nil, .ended⟩
    | cons c cs =>
      rcases exists_spelling_or_stuck c cs with ⟨w, after, hw, hwritten⟩ | hstuck
      · have hpos := List.length_pos_iff.mpr (written_ne_nil hw)
        have hless : after.length < length := by
          rw [← hlength, hwritten, List.length_append]
          omega
        obtain ⟨ws, rest, hws, hstuck⟩ := ih _ hless after rfl
        exact ⟨w :: ws, rest, hwritten ▸ .cons hw hws, hstuck⟩
      · exact ⟨[], c :: cs, .nil, hstuck⟩

theorem SpelledBefore.lex {source : String} (h : SpelledBefore rest ws source.toList) :
    Calc.lex source =
      (Calc.lexFrom (1 + (ws.map lines).sum) (lexemesFrom 1 ws).toArray rest).map Array.toList := by
  rw [Calc.lex, h.lexFrom]
  simp

theorem Spelled.lex {source : String} (h : Spelled ws source.toList) :
    Calc.lex source = .ok (lexemesFrom 1 ws) := by
  rw [(spelledBefore_nil_iff.mpr h).lex, Calc.lexFrom]
  rfl

theorem SpelledBefore.lex_of_unclosed {source : String}
    (h : SpelledBefore (quote :: inside) ws source.toList)
    (hquote : quote = '"' ∨ quote = '\'') (hinside : Unclosed quote inside) :
    Calc.lex source = .error (.unterminated (1 + (ws.map lines).sum)) := by
  rw [h.lex, lexFrom_of_unclosed hquote hinside]
  rfl

theorem SpelledBefore.lex_of_unknown {source : String}
    (h : SpelledBefore (c :: cs) ws source.toList)
    (hc : Unknown c) : Calc.lex source = .error (.unexpected c (1 + (ws.map lines).sum)) := by
  rw [h.lex, lexFrom_of_unknown hc]
  rfl

/-- What is left when no more spellings can be cut off decides what the lexer comes to. -/
theorem lex_cases (source : String) :
    (∃ ws, Spelled ws source.toList ∧ lex source = .ok (lexemesFrom 1 ws)) ∨
    (∃ ws quote inside, SpelledBefore (quote :: inside) ws source.toList ∧
      (quote = '"' ∨ quote = '\'') ∧ Unclosed quote inside ∧
      lex source = .error (.unterminated (1 + (ws.map lines).sum))) ∨
    ∃ ws c after, SpelledBefore (c :: after) ws source.toList ∧ Unknown c ∧
      lex source = .error (.unexpected c (1 + (ws.map lines).sum)) := by
  obtain ⟨ws, rest, hws, hstuck⟩ := exists_stuck source.toList
  cases hstuck with
  | ended =>
    have hspelled := spelledBefore_nil_iff.mp hws
    exact .inl ⟨ws, hspelled, hspelled.lex⟩
  | @unclosed quote inside hquote hinside =>
    exact .inr (.inl ⟨ws, quote, inside, hws, hquote, hinside,
      hws.lex_of_unclosed hquote hinside⟩)
  | @unknown c after hc => exact .inr (.inr ⟨ws, c, after, hws, hc, hws.lex_of_unknown hc⟩)

/-- A source has tokens exactly when it can be cut into spellings, and they are those of the
spellings. -/
theorem lex_eq_ok_iff {source : String} {lexemes : List Lexeme} :
    lex source = .ok lexemes ↔ ∃ ws, Spelled ws source.toList ∧ lexemes = lexemesFrom 1 ws := by
  constructor
  · intro h
    rcases lex_cases source with ⟨ws, hws, hlex⟩ | ⟨_, _, _, _, _, _, hlex⟩ | ⟨_, _, _, _, _, hlex⟩
    · exact ⟨ws, hws, Except.ok.inj (h.symm.trans hlex)⟩
    · cases h.symm.trans hlex
    · cases h.symm.trans hlex
  · rintro ⟨ws, hws, rfl⟩
    exact hws.lex

theorem lex_eq_unterminated_iff {source : String} {line : Nat} :
    lex source = .error (.unterminated line) ↔
      ∃ ws quote inside, SpelledBefore (quote :: inside) ws source.toList ∧
        (quote = '"' ∨ quote = '\'') ∧
        Unclosed quote inside ∧ line = 1 + (ws.map lines).sum := by
  constructor
  · intro h
    rcases lex_cases source with ⟨_, _, hlex⟩ |
      ⟨ws, quote, inside, hws, hquote, hinside, hlex⟩ | ⟨_, _, _, _, _, hlex⟩
    · cases h.symm.trans hlex
    · obtain rfl := LexFault.unterminated.inj (Except.error.inj (h.symm.trans hlex))
      exact ⟨ws, quote, inside, hws, hquote, hinside, rfl⟩
    · cases h.symm.trans hlex
  · rintro ⟨ws, quote, inside, hws, hquote, hinside, rfl⟩
    exact hws.lex_of_unclosed hquote hinside

theorem lex_eq_unexpected_iff {source : String} {line : Nat} :
    lex source = .error (.unexpected c line) ↔
      ∃ ws after, SpelledBefore (c :: after) ws source.toList ∧ Unknown c ∧
        line = 1 + (ws.map lines).sum := by
  constructor
  · intro h
    rcases lex_cases source with ⟨_, _, hlex⟩ | ⟨_, _, _, _, _, _, hlex⟩ |
      ⟨ws, c', after, hws, hc, hlex⟩
    · cases h.symm.trans hlex
    · cases h.symm.trans hlex
    · obtain ⟨rfl, rfl⟩ := LexFault.unexpected.inj (Except.error.inj (h.symm.trans hlex))
      exact ⟨ws, after, hws, hc, rfl⟩
  · rintro ⟨ws, after, hws, hc, rfl⟩
    exact hws.lex_of_unknown hc

theorem lex_ne_badNumber {source text : String} {line : Nat} :
    lex source ≠ .error (.badNumber text line) := by
  intro h
  rcases lex_cases source with ⟨_, _, hlex⟩ | ⟨_, _, _, _, _, _, hlex⟩ | ⟨_, _, _, _, _, hlex⟩
  · cases h.symm.trans hlex
  · cases h.symm.trans hlex
  · cases h.symm.trans hlex

end SessionShell.Calc
