import Mathlib.Data.List.Chain
import SessionShell.Proofs.Calc.Blame
import SessionShell.Proofs.Calc.Lines

/-!
Which statement fails.

Statements are evaluated one after the other, and the evaluation fails where one of them does. On
tokens that change their line only behind separators, each statement has a line, and the failure
tells it. The tokens of a source are such when no text in it spans lines.
-/

namespace SessionShell.Calc

variable {η α β : Type}

/-- The evaluation fails and leaves this to read. -/
def Fails (p : Eval η α) (r : Reading η) (asked : Asked η) (fault : Fault) (r' : Reading η) :
    Prop :=
  (p.run.run r).Goes asked (some (.error fault, r'))

/-! ## Statement after statement -/

theorem fails_bind_iff {p : Eval η α} {f : α → Eval η β} {r r' : Reading η} {asked : Asked η}
    {fault : Fault} :
    Fails (p >>= f) r asked fault r' ↔ Fails p r asked fault r' ∨
      ∃ first rest a s, asked = first ++ rest ∧ Reads p r first a s ∧
        Fails (f a) s rest fault r' := by
  simp only [Fails, run_bind]
  constructor
  · intro h
    obtain ⟨⟨result, s⟩, first, rest, rfl, hp, hf⟩ := Program.goes_bind_iff.mp h
    cases result with
    | error e =>
      cases hf
      rw [List.append_nil]
      exact .inl hp
    | ok a => exact .inr ⟨first, rest, a, s, rfl, hp, hf⟩
  · rintro (h | ⟨first, rest, a, s, rfl, hp, hf⟩)
    · rw [← List.append_nil asked]
      exact Program.Goes.bind h (.done _)
    · exact Program.Goes.bind hp hf

theorem afterStatement_eq (fuel : Nat) :
    (statement >>= afterStatement fuel : Eval η Value) = wholeStatement >>= statements fuel := by
  simp only [wholeStatement, bind_assoc]
  refine congrArg (statement >>= ·)
    (funext fun value => congrArg (next? >>= ·) (funext fun token? => ?_))
  cases token? with
  | none => rfl
  | some token => cases token <;> rfl

/-- While statements are evaluated, one begins here: the first one, or a later one when those before
it have been evaluated. -/
inductive Begins : Reading η → Asked η → Reading η → Prop where
  | here {r : Reading η} (hrest : r.atStatement.rest ≠ []) : Begins r [] r.atStatement
  | behind {r s s' : Reading η} {first rest : Asked η} {value : Value}
      (hrest : r.atStatement.rest ≠ [])
      (h : Reads wholeStatement r.atStatement first value s) (hbegins : Begins s rest s') :
      Begins r (first ++ rest) s'

theorem exists_begins_of_fails {fuel : Nat} {last : Value} {r r' : Reading η} {asked : Asked η}
    {fault : Fault} (h : Fails (statements fuel last) r asked fault r') :
    ∃ first rest s, asked = first ++ rest ∧ Begins r first s ∧
      Fails wholeStatement s rest fault r' := by
  induction fuel generalizing last r asked with
  | zero => cases h
  | succ fuel ih =>
    cases htokens : behindSeparators r.tokens with
    | nil =>
      rw [Fails, run_statements_of_none _ _ htokens] at h
      cases h
    | cons token tokens =>
      rw [Fails, run_statements_of_some _ _ htokens, afterStatement_eq] at h
      have hrest : r.atStatement.rest ≠ [] := fun hnone => by
        rw [← tokens_atStatement, Reading.tokens, hnone] at htokens
        cases htokens
      rcases fails_bind_iff.mp h with h | ⟨first, rest, value, s, rfl, hfirst, h⟩
      · exact ⟨[], asked, _, rfl, .here hrest, h⟩
      · obtain ⟨middle, rest, s', rfl, hbegins, hfails⟩ := ih h
        refine ⟨first ++ middle, rest, s', (List.append_assoc ..).symm, ?_, hfails⟩
        exact .behind hrest hfirst hbegins

/-! ## Lines -/

/-- Only behind a separator does a line begin. -/
def Level (tokens : List Lexeme) : Prop :=
  tokens.IsChain fun t u => t.token ≠ .sep → u.line = t.line

theorem Level.exists_statement {t : Lexeme} {tokens : List Lexeme} (h : Level (t :: tokens))
    (ht : t.token ≠ .sep) :
    ∃ own tail, t :: tokens = own ++ tail ∧ own ≠ [] ∧
      (∀ u ∈ own, u.token ≠ .sep ∧ u.line = t.line) ∧
      ∀ u, tail.head? = some u → u.token = .sep ∧ u.line = t.line := by
  induction tokens generalizing t with
  | nil => exact ⟨[t], [], rfl, by simp, by simp [ht], by simp⟩
  | cons u tokens ih =>
    obtain ⟨hline, hbehind⟩ := List.isChain_cons_cons.mp h
    by_cases hu : u.token = .sep
    · exact ⟨[t], u :: tokens, rfl, by simp, by simp [ht], by simp [hu, hline ht]⟩
    · obtain ⟨own, tail, heq, -, hown, htail⟩ := ih hbehind hu
      rw [hline ht] at hown htail
      refine ⟨t :: own, tail, by rw [heq, List.cons_append], by simp, ?_, htail⟩
      simpa [ht] using hown

theorem level_lexemesFrom {ws : List Spelling}
    (h : ∀ quote chars, Spelling.text quote chars ∈ ws → QuotedChar.plain '\n' ∉ chars)
    (line : Nat) :
    Level (lexemesFrom line ws) := by
  -- What stands before a line end stands on the line on which it is read.
  suffices hall : Level (lexemesFrom line ws) ∧
      ∀ u, (lexemesFrom line ws).head? = some u → u.line = line from hall.1
  induction ws generalizing line with
  | nil => exact ⟨.nil, by simp [lexemesFrom]⟩
  | cons w ws ih =>
    have hbehind := ih fun quote chars hin => h quote chars (List.mem_cons_of_mem _ hin)
    have hlines : w.lines = 0 ∨ w.token? = some .sep := by
      cases w with
      | lineEnd => exact .inr rfl
      | text quote chars =>
        exact .inl (List.count_eq_zero_of_not_mem (h quote chars List.mem_cons_self))
      | semicolon => exact .inl rfl
      | comment remark => exact .inl rfl
      | blank c => exact .inl rfl
      | number whole fraction => exact .inl rfl
      | name chars => exact .inl rfl
      | symbol c => exact .inl rfl
    rw [lexemesFrom, Spelling.lexemes]
    cases htoken : w.token? with
    | none =>
      have hnone : w.lines = 0 := by simpa [htoken] using hlines
      rw [hnone]
      exact hbehind line
    | some token =>
      refine ⟨?_, by simp⟩
      refine List.isChain_cons.mpr ⟨fun u hu hsep => ?_, (hbehind _).1⟩
      have hnone : w.lines = 0 :=
        hlines.resolve_right fun hw => hsep (Option.some.inj (htoken.symm.trans hw))
      rw [hnone] at hu
      exact (hbehind line).2 u hu

theorem level_of_lex {source : String} {lexemes : List Lexeme} {ws : List Spelling}
    (h : lex source = .ok lexemes) (hws : Spelled ws source.toList)
    (htexts : ∀ quote chars, Spelling.text quote chars ∈ ws → QuotedChar.plain '\n' ∉ chars) :
    Level lexemes := by
  obtain rfl : lexemes = lexemesFrom 1 ws :=
    Except.ok.inj (h.symm.trans (lex_eq_ok_iff.mpr ⟨ws, hws, rfl⟩))
  exact level_lexemesFrom htexts 1

structure Reading.Within (tokens : List Lexeme) (source : Option String) (r : Reading η) :
    Prop where
  source : r.source = source
  lastLine : r.lastLine = (tokens.getLast?.map (·.line)).getD 1
  rest : r.rest <:+ tokens

section

variable {tokens : List Lexeme} {source : Option String} {r s : Reading η} {asked : Asked η}

theorem Reading.within_start (memory : Memory η) (tokens : List Lexeme) (source : Option String) :
    (Reading.start memory tokens source).Within tokens source :=
  ⟨rfl, rfl, List.suffix_refl tokens⟩

theorem skipSeparators_suffix (tokens : List Lexeme) : skipSeparators tokens <:+ tokens := by
  fun_induction skipSeparators tokens with
  | case1 line rest ih => exact ih.trans (List.suffix_cons _ _)
  | case2 rest => exact List.suffix_refl _

theorem Reading.Within.atStatement (h : r.Within tokens source) :
    r.atStatement.Within tokens source :=
  ⟨h.source, h.lastLine, (skipSeparators_suffix _).trans h.rest⟩

theorem head_atStatement {t : Lexeme} {rest : List Lexeme} (h : r.atStatement.rest = t :: rest) :
    t.token ≠ .sep := by
  intro hsep
  apply head?_behindSeparators r.tokens
  rw [← tokens_atStatement, Reading.tokens, h, ← hsep]
  rfl

theorem Reading.Within.exists_site (h : r.Within tokens source) (hlevel : Level tokens)
    (hrest : r.atStatement.rest ≠ []) :
    ∃ S : Site, S.source = source ∧ S.lastLine = (tokens.getLast?.map (·.line)).getD 1 ∧
      S.own ≠ [] ∧ r.atStatement.rest = S.own ++ S.tail ∧ S.Inside r.atStatement := by
  have hwithin := h.atStatement
  obtain ⟨t, rest, heq⟩ := List.exists_cons_of_ne_nil hrest
  have hbehind : Level (t :: rest) := heq ▸ List.IsChain.suffix hlevel hwithin.rest
  obtain ⟨own, tail, hsplit, hne, hown, htail⟩ := hbehind.exists_statement (head_atStatement heq)
  have hlast : tail = [] → (tokens.getLast?.map (·.line)).getD 1 = t.line := by
    rintro rfl
    obtain ⟨before, hbefore⟩ := hwithin.rest
    rw [heq, hsplit, List.append_nil] at hbefore
    have hgetLast : tokens.getLast? = some (own.getLast hne) := by
      rw [← hbefore, List.getLast?_append_of_ne_nil _ hne, List.getLast?_eq_some_getLast hne]
    rw [hgetLast]
    exact (hown _ (List.getLast_mem hne)).2
  refine ⟨⟨source, own, tail, _, t.line, hown, htail, hlast⟩, rfl, rfl, hne, heq.trans hsplit, ?_⟩
  exact ⟨hwithin.source, hwithin.lastLine, own, List.suffix_refl own, heq.trans hsplit⟩

theorem Reading.Within.of_reads (h : r.Within tokens source) (hlevel : Level tokens)
    (hrest : r.atStatement.rest ≠ []) {value : Value}
    (hreads : Reads wholeStatement r.atStatement asked value s) : s.Within tokens source := by
  obtain ⟨S, hsource, hlast, -, hsplit, hinside⟩ := h.exists_site hlevel hrest
  obtain ⟨hsource', hlast', left, hleft, hs⟩ :=
    S.stays_wholeStatement _ hinside asked (.ok value) s hreads
  refine ⟨hsource'.trans hsource, hlast'.trans hlast, ?_⟩
  obtain ⟨before, hbefore⟩ := hleft
  refine List.IsSuffix.trans ⟨before, ?_⟩ h.atStatement.rest
  rw [hs, hsplit, ← hbefore, List.append_assoc]

theorem Begins.exists_site (hbegins : Begins r asked s) (h : r.Within tokens source)
    (hlevel : Level tokens) :
    ∃ S : Site, S.source = source ∧ S.lastLine = (tokens.getLast?.map (·.line)).getD 1 ∧
      S.own ≠ [] ∧ s.rest = S.own ++ S.tail ∧ S.Inside s := by
  induction hbegins with
  | here hrest => exact h.exists_site hlevel hrest
  | behind hrest hreads _ ih => exact ih (h.of_reads hlevel hrest hreads)

/-- On level tokens, whatever the hosts answer: if the evaluation fails, one statement does, those
before it having been evaluated. Its tokens stand on one line, and that is the line that the failure
tells. There are two exceptions: what a host answers is passed on, and where the statement is cut
off in front of an operand, the line is that of what follows the separator behind it. -/
theorem fault_tells_line {memory memory' : Memory η} {fault : Fault} (hlevel : Level tokens)
    (h : (evalTokens memory tokens source).Goes asked (some (.error fault, memory'))) :
    ∃ first rest s r' own tail line, asked = first ++ rest ∧
      Begins (.start memory tokens source) first s ∧ Fails wholeStatement s rest fault r' ∧
      s.rest = own ++ tail ∧ own ≠ [] ∧ (∀ t ∈ own, t.token ≠ .sep ∧ t.line = line) ∧
      (∀ t, tail.head? = some t → t.token = .sep) ∧
      Blame source line tail ((tokens.getLast?.map (·.line)).getD 1) rest fault := by
  rw [evalTokens_eq] at h
  obtain ⟨⟨result, r'⟩, asked, none', rfl, hprogram, hdone⟩ := Program.goes_bind_iff.mp h
  cases hdone
  rw [List.append_nil]
  obtain ⟨first, rest, s, rfl, hbegins, hfails⟩ := exists_begins_of_fails hprogram
  obtain ⟨S, rfl, hlast, hne, hsplit, hinside⟩ :=
    hbegins.exists_site (Reading.within_start memory tokens source) hlevel
  have hblames : S.Blames rest fault :=
    S.stays_wholeStatement s hinside rest (.error fault) r' hfails
  rw [Site.Blames, hlast] at hblames
  exact ⟨first, rest, s, r', S.own, S.tail, S.line, rfl, hbegins, hfails, hsplit, hne, S.on_line,
    fun t ht => (S.ends t ht).1, hblames⟩

end

/-- A name that is not known, on the second line. -/
theorem fault_tells_line_of_unknown :
    let tokens : List Lexeme := [⟨.str "a", 1⟩, ⟨.sep, 1⟩, ⟨.sym '(', 2⟩, ⟨.ident "b", 2⟩]
    Level tokens ∧
    (evalTokens (.empty : Memory Unit) tokens none).Goes []
      (some (.error (.of (.script ⟨"unknown name 'b'", none, some 2⟩)), .empty)) ∧
    ∃ s own tail, Begins (.start (.empty : Memory Unit) tokens none) [] s ∧ s.rest = own ++ tail ∧
      own ≠ [] ∧ ∀ t ∈ own, t.line = 2 := by
  intro tokens
  have hlevel : Level tokens := by simp [Level, tokens]
  have hfails : (evalTokens (.empty : Memory Unit) tokens none).Goes []
      (some (.error (.of (.script ⟨"unknown name 'b'", none, some 2⟩)), .empty)) := by
    have heval : evalTokens (.empty : Memory Unit) tokens none =
        .done (.error (.of (.script ⟨"unknown name 'b'", none, some 2⟩)), .empty) := by rfl
    rw [heval]
    exact .done _
  refine ⟨hlevel, hfails, ?_⟩
  obtain ⟨first, rest, s, -, own, tail, line, hasked, hbegins, -, hsplit, hne, hown, -, hblame⟩ :=
    fault_tells_line hlevel hfails
  obtain ⟨rfl, rfl⟩ := List.append_eq_nil_iff.mp hasked.symm
  refine ⟨s, own, tail, hbegins, hsplit, hne, fun t ht => ?_⟩
  generalize hfault : Fault.of (.script ⟨"unknown name 'b'", none, some 2⟩) = fault at hblame
  cases hblame with
  | own message =>
    cases hfault
    exact (hown t ht).2
  | host hin _ => cases hin
  | cutOff _ => exact absurd hfault (by simp [Fault.of])

/-- A sum that is cut off on the first line, with a name on the second. -/
theorem fault_tells_next_line_of_cutOff :
    lex "'a' +\nb" = .ok [⟨.str "a", 1⟩, ⟨.sym '+', 1⟩, ⟨.sep, 1⟩, ⟨.ident "b", 2⟩] ∧
    evalTokens (.empty : Memory Unit) [⟨.str "a", 1⟩, ⟨.sym '+', 1⟩, ⟨.sep, 1⟩,
      ⟨.ident "b", 2⟩] none =
      .done (.error (.of (.script ⟨"unexpected Sep", none, some 2⟩)), .empty) := by
  refine ⟨lex_eq_ok_iff.mpr ⟨[.text '\'' [.plain 'a'], .blank ' ', .symbol '+', .lineEnd,
    .name ['b']], by decide, rfl⟩, by rfl⟩

end SessionShell.Calc
