import SessionShell.Proofs.Calc.Lines

/-!
Tokens written out.

A list of tokens is written with a blank between one and the next: the digits of a number, the
characters of a text between two quotes, those that would end it or stand for others behind a
backslash. The lexer gives the tokens back.
-/

namespace SessionShell.Calc

open Spelling

/-- A token with all that its value leaves open: the digits of a number, the quotes of a text, the
sign of a separator. -/
inductive WrittenToken where
  | number (whole fraction : List Char)
  | text (quote : Char) (value : String)
  | name (s : String)
  | symbol (c : Char)
  | lineEnd
  | semicolon
  deriving DecidableEq, Repr

def quotedForm (quote c : Char) : List Char :=
  if c = '\\' ∨ c = quote then ['\\', c]
  else if c = '\n' then ['\\', 'n']
  else if c = '\t' then ['\\', 't']
  else [c]

namespace WrittenToken

def token : WrittenToken → Token
  | .number whole fraction => .num (Number.ofDigits whole fraction)
  | .text _ value => .str value
  | .name s => .ident s
  | .symbol c => .sym c
  | .lineEnd | .semicolon => .sep

def written : WrittenToken → List Char
  | .number whole fraction => whole ++ pointed fraction
  | .text quote value => quote :: (value.toList.flatMap (quotedForm quote) ++ [quote])
  | .name s => s.toList
  | .symbol c => [c]
  | .lineEnd => ['\n']
  | .semicolon => [';']

def Valid : WrittenToken → Prop
  | .number whole fraction => whole ≠ [] ∧ ∀ d ∈ whole ++ fraction, Number.isDigit d = true
  | .text quote _ => quote = '"' ∨ quote = '\''
  | .name s => ∃ c cs, s.toList = c :: cs ∧ startsName c = true ∧ ∀ c ∈ cs, continuesName c = true
  | .symbol c => isSymbol c = true
  | .lineEnd | .semicolon => True

end WrittenToken

def print (tokens : List WrittenToken) : String :=
  String.ofList ([' '].intercalate (tokens.map WrittenToken.written))

variable {t : WrittenToken} {tokens : List WrittenToken} {after : List Char}

/-! ## One token -/

def quotedChar (quote c : Char) : QuotedChar :=
  if c = '\\' ∨ c = quote then .escaped c
  else if c = '\n' then .escaped 'n'
  else if c = '\t' then .escaped 't'
  else .plain c

theorem written_quotedChar (quote c : Char) :
    (quotedChar quote c).written = quotedForm quote c := by
  unfold quotedChar quotedForm
  split_ifs <;> rfl

theorem fits_quotedChar (quote c : Char) : (quotedChar quote c).Fits quote := by
  unfold quotedChar
  split_ifs with hescaped
  · trivial
  · trivial
  · trivial
  · rw [not_or] at hescaped
    exact ⟨hescaped.2, hescaped.1⟩

theorem value_quotedChar {quote : Char} (hquote : quote = '"' ∨ quote = '\'') (c : Char) :
    (quotedChar quote c).value = c := by
  unfold quotedChar
  split_ifs with hescaped hend htab
  · rcases hescaped with rfl | rfl
    · rfl
    · rcases hquote with rfl | rfl <;> rfl
  · exact hend.symm
  · exact htab.symm
  · rfl

namespace WrittenToken

def spelling : WrittenToken → Spelling
  | .number whole fraction => .number whole fraction
  | .text quote value => .text quote (value.toList.map (quotedChar quote))
  | .name s => .name s.toList
  | .symbol c => .symbol c
  | .lineEnd => .lineEnd
  | .semicolon => .semicolon

theorem written_spelling (t : WrittenToken) : t.spelling.written = t.written := by
  cases t with
  | text quote value =>
    simp [spelling, Spelling.written, WrittenToken.written, List.flatMap_map, written_quotedChar]
  | _ => rfl

theorem token?_spelling (h : t.Valid) : t.spelling.token? = some t.token := by
  cases t with
  | text quote value =>
    have hvalues : (value.toList.map (quotedChar quote)).map QuotedChar.value = value.toList := by
      simp [Function.comp_def, value_quotedChar h]
    simp only [spelling, Spelling.token?, token, hvalues, String.ofList_toList]
  | name s => simp [spelling, Spelling.token?, token]
  | _ => rfl

def Apart (after : List Char) : Prop :=
  ∀ c, after.head? = some c → c = ' '

theorem stands_spelling (h : t.Valid) (hafter : Apart after) : t.spelling.Stands after := by
  cases t with
  | number whole fraction =>
    refine ⟨h.1, h.2, fun c hc => ?_, ?_⟩
    · rw [hafter c hc]
      decide
    · rintro - ⟨d, cs, rfl, -⟩
      cases hafter '.' rfl
  | text quote value =>
    refine ⟨h, fun c hc => ?_⟩
    obtain ⟨c', -, rfl⟩ := List.mem_map.mp hc
    exact fits_quotedChar quote c'
  | name s =>
    obtain ⟨c, cs, hname, hc, hcs⟩ := h
    refine ⟨c, cs, hname, hc, hcs, fun c hc => ?_⟩
    rw [hafter c hc]
    decide +kernel
  | symbol c => exact h
  | lineEnd => trivial
  | semicolon => trivial

end WrittenToken

/-! ## All tokens -/

def spellings (tokens : List WrittenToken) : List Spelling :=
  (tokens.map WrittenToken.spelling).intersperse (.blank ' ')

theorem spellings_cons_cons (t t' : WrittenToken) (tokens : List WrittenToken) :
    spellings (t :: t' :: tokens) = t.spelling :: .blank ' ' :: spellings (t' :: tokens) := by
  simp [spellings]

theorem spelled_spellings (h : ∀ t ∈ tokens, t.Valid) :
    Spelled (spellings tokens) ([' '].intercalate (tokens.map WrittenToken.written)) := by
  induction tokens with
  | nil => exact .nil
  | cons t tokens ih =>
    obtain ⟨ht, htokens⟩ := List.forall_mem_cons.mp h
    cases tokens with
    | nil =>
      have hlast : Spelled [t.spelling] (t.spelling.written ++ []) :=
        .cons (t.stands_spelling ht fun c hc => nomatch hc) .nil
      rw [List.append_nil, t.written_spelling] at hlast
      simpa [spellings, List.intercalate] using hlast
    | cons t' tokens =>
      have hblank : Spelled (.blank ' ' :: spellings (t' :: tokens))
          (' ' :: [' '].intercalate ((t' :: tokens).map WrittenToken.written)) :=
        .cons (w := .blank ' ') ⟨by decide, by decide⟩ (ih htokens)
      have hapart : WrittenToken.Apart
          (' ' :: [' '].intercalate ((t' :: tokens).map WrittenToken.written)) :=
        fun c hc => (Option.some.inj hc).symm
      have hfirst := Spelled.cons (t.stands_spelling ht hapart) hblank
      rw [t.written_spelling] at hfirst
      rw [spellings_cons_cons]
      simpa [List.intercalate] using hfirst

theorem tokensOfAll_spellings (h : ∀ t ∈ tokens, t.Valid) :
    tokensOfAll (spellings tokens) = tokens.map WrittenToken.token := by
  induction tokens with
  | nil => rfl
  | cons t tokens ih =>
    obtain ⟨ht, htokens⟩ := List.forall_mem_cons.mp h
    have htoken := t.token?_spelling ht
    cases tokens with
    | nil => simp [spellings, tokensOfAll, htoken]
    | cons t' tokens =>
      have hblank : (Spelling.blank ' ').token? = none := rfl
      rw [spellings_cons_cons, tokensOfAll, List.filterMap_cons_some htoken,
        List.filterMap_cons_none hblank, List.map_cons, ← ih htokens, tokensOfAll]

theorem lex_print (h : ∀ t ∈ tokens, t.Valid) :
    (lex (print tokens)).map (List.map (·.token)) = .ok (tokens.map WrittenToken.token) := by
  have hlex : lex (print tokens) = .ok (lexemesFrom 1 (spellings tokens)) := by
    refine lex_eq_ok_iff.mpr ⟨_, ?_, rfl⟩
    rw [print, String.toList_ofList]
    exact spelled_spellings h
  rw [hlex, Except.map, tokens_lexemesFrom, tokensOfAll_spellings h]

/-- The lexer gives back the tokens of whatever is written out. Of any source at all it makes the
tokens of its spellings if it can be cut into spellings. Else it tells of a quote that is never
closed, when spellings can be cut off up to there, or of a character that begins nothing, when they
can be cut off up to that; and in no source does it find a bad number. -/
theorem lex_inverts_print (h : ∀ t ∈ tokens, t.Valid) (source : String) :
    (lex (print tokens)).map (List.map (·.token)) = .ok (tokens.map WrittenToken.token) ∧
      (∀ lexemes, lex source = .ok lexemes ↔
        ∃ ws, Spelled ws source.toList ∧ lexemes = lexemesFrom 1 ws) ∧
      (∀ line, lex source = .error (.unterminated line) ↔
        ∃ ws quote inside, SpelledBefore (quote :: inside) ws source.toList ∧
          (quote = '"' ∨ quote = '\'') ∧
          Unclosed quote inside ∧ line = 1 + (ws.map lines).sum) ∧
      (∀ c line, lex source = .error (.unexpected c line) ↔
        ∃ ws after, SpelledBefore (c :: after) ws source.toList ∧ Unknown c ∧
          line = 1 + (ws.map lines).sum) ∧
      ∀ text line, lex source ≠ .error (.badNumber text line) :=
  ⟨lex_print h, fun _ => lex_eq_ok_iff, fun _ => lex_eq_unterminated_iff, fun _ _ =>
    lex_eq_unexpected_iff,
    fun _ _ => lex_ne_badNumber⟩

/-- A text with both quotes, a backslash and two lines, and a source whose only open quote stands
behind a closed text and behind a quote in a comment. -/
theorem lex_inverts_print_of_quotes :
    let tokens : List WrittenToken :=
      [.number ['0', '7'] ['5'], .text '\'' "it's \"\\\"\n", .name "x_1", .symbol '^',
        .lineEnd, .semicolon]
    (∀ t ∈ tokens, t.Valid) ∧ print tokens = "07.5 'it\\'s \"\\\\\"\\n' x_1 ^ \n ;" ∧
      (lex (print tokens)).map (List.map (·.token)) = .ok (tokens.map WrittenToken.token) ∧
      ∃ ws quote inside, SpelledBefore (quote :: inside) ws "'a' # 'b\n\"c\\\"".toList ∧
        (quote = '"' ∨ quote = '\'') ∧ Unclosed quote inside ∧ 2 = 1 + (ws.map lines).sum := by
  intro tokens
  have hvalid : ∀ t ∈ tokens, t.Valid := by
    have hdigits : ∀ d ∈ ['0', '7'] ++ ['5'], Number.isDigit d = true :=
      List.all_eq_true.mp (by decide)
    have hname : ∀ c ∈ ['_', '1'], continuesName c = true := List.all_eq_true.mp rfl
    have hsymbol : isSymbol '^' = true := by decide
    simp only [tokens, List.forall_mem_cons]
    exact ⟨⟨by decide, hdigits⟩, .inr rfl, ⟨'x', ['_', '1'], by decide, rfl, hname⟩,
      hsymbol, trivial, trivial, by simp⟩
  have hsource : "'a' # 'b\n\"c\\\"".toList = (text '\'' [.plain 'a']).written ++
      ((blank ' ').written ++ ((comment " 'b".toList).written ++
        (lineEnd.written ++ "\"c\\\"".toList))) := by
    decide
  have hunclosed : Unclosed '"' "c\\\"".toList := (quotation?_eq_none_iff (.inl rfl) [] 0).mp rfl
  have hlex : lex "'a' # 'b\n\"c\\\"" = .error (.unterminated 2) := by
    rw [lex, hsource, lexFrom_spelling (by decide), lexFrom_spelling (by decide),
      lexFrom_spelling (by decide), lexFrom_spelling (by decide)]
    exact congrArg (Except.map _) (lexFrom_of_unclosed (.inl rfl) hunclosed _ _)
  obtain ⟨hprint, -, hunterminated, -, -⟩ := lex_inverts_print hvalid "'a' # 'b\n\"c\\\""
  exact ⟨hvalid, by decide, hprint, (hunterminated 2).mp hlex⟩

end SessionShell.Calc
