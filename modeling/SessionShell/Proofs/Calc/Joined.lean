import SessionShell.Calc.Interpreter
import SessionShell.Proofs.Calc.Alongside
import SessionShell.Proofs.Calc.Spelling

/-!
Two sources joined by a line end.

They do what they do one after the other: the first one as if nothing followed, and then, unless it
has failed, the second one on the memory that the first one leaves.
-/

namespace SessionShell.Calc

open Program (InStep)

variable {η γ : Type} {tail : List Token} {r r' s s' : Reading η}

/-! ## Statement after statement -/

def behindSeparators : List Token → List Token
  | .sep :: tokens => behindSeparators tokens
  | tokens => tokens

def Reading.atStatement (r : Reading η) : Reading η :=
  { r with rest := skipSeparators r.rest }

theorem tokens_atStatement (r : Reading η) : r.atStatement.tokens = behindSeparators r.tokens := by
  obtain ⟨memory, rest, source, line⟩ := r
  simp only [Reading.atStatement, Reading.tokens]
  induction rest with
  | nil => rfl
  | cons lexeme rest ih =>
    obtain ⟨token, line'⟩ := lexeme
    cases token with
    | sep => exact ih
    | num x => rfl
    | str s => rfl
    | ident name => rfl
    | sym c => rfl

theorem length_behindSeparators_le (tokens : List Token) :
    (behindSeparators tokens).length ≤ tokens.length := by
  fun_induction behindSeparators tokens with
  | case1 tokens ih => exact Nat.le_succ_of_le ih
  | case2 tokens => exact Nat.le_refl _

theorem head?_behindSeparators (tokens : List Token) :
    (behindSeparators tokens).head? ≠ some .sep := by
  fun_induction behindSeparators tokens with
  | case1 tokens ih => exact ih
  | case2 tokens h =>
    intro hhead
    obtain ⟨rest, rfl⟩ := List.head?_eq_some_iff.mp hhead
    exact h rest rfl

def afterStatement (fuel : Nat) (value : Value) : Eval η Value := do
  match ← next? with
  | none | some .sep => statements fuel value
  | some other => fail ("unexpected " ++ other.shown)

theorem run_modify_bind {α : Type} (f : Reading η → Reading η) (g : PUnit → Eval η α)
    (r : Reading η) :
    (modify f >>= g).run.run r = (g ⟨⟩).run.run (f r) := by
  rw [run_bind]
  rfl

theorem run_statements_of_none (fuel : Nat) (last : Value) (h : behindSeparators r.tokens = []) :
    (statements (fuel + 1) last).run.run r = .done (.ok last, r.atStatement) := by
  have hhead : r.atStatement.tokens.head? = none := by
    rw [tokens_atStatement, h]
    rfl
  rw [statements, run_modify_bind, run_next_bind]
  rw [Reading.atStatement] at hhead
  rw [hhead]
  rfl

theorem run_statements_of_some (fuel : Nat) (last : Value) {token : Token} {tokens : List Token}
    (h : behindSeparators r.tokens = token :: tokens) :
    (statements (fuel + 1) last).run.run r =
      (statement >>= afterStatement fuel).run.run r.atStatement := by
  have hhead : r.atStatement.tokens.head? = some token := by
    rw [tokens_atStatement, h]
    rfl
  rw [statements, run_modify_bind, run_next_bind]
  rw [Reading.atStatement] at hhead
  rw [hhead]
  rfl

theorem behindSeparators_cons_of_ne {token : Token} {tokens : List Token} (h : token ≠ .sep) :
    behindSeparators (token :: tokens) = token :: tokens := by
  cases token with
  | sep => exact absurd rfl h
  | num x => rfl
  | str s => rfl
  | ident name => rfl
  | sym c => rfl

theorem behindSeparators_append_of_nil {tokens : List Token} (tail : List Token)
    (h : behindSeparators tokens = []) :
      behindSeparators (tokens ++ tail) = behindSeparators tail := by
  fun_induction behindSeparators tokens with
  | case1 tokens ih => exact ih h
  | case2 tokens => rw [h, List.nil_append]

theorem behindSeparators_append_of_cons {tokens rest : List Token} {token : Token}
    (tail : List Token) (h : behindSeparators tokens = token :: rest) :
    behindSeparators (tokens ++ tail) = token :: rest ++ tail := by
  fun_induction behindSeparators tokens with
  | case1 tokens ih => exact ih h
  | case2 tokens hsep =>
    subst h
    exact behindSeparators_cons_of_ne fun htoken => hsep rest (by rw [htoken])

variable {K : Except Fault Value × Reading η → Hosted η γ}
  {S : γ → Except Fault Value × Reading η → Prop}

/-- Statements with something to follow them, and the same statements with more behind them. By
induction on the rounds: each statement takes at least one token. -/
theorem inStep_statements (hstops : Stops tail)
    (herror : ∀ e e' s s', s'.memory = s.memory → (tail = [] → e'.messages = e.messages) →
      InStep S (K (.error e, s)) (.done (.error e', s')))
    (hend : ∀ fuel' last s s', s'.memory = s.memory →
      behindSeparators s'.tokens = behindSeparators tail →
        (behindSeparators s'.tokens).length < fuel' →
      InStep S (K (.ok last, s)) ((statements fuel' last).run.run s'))
    {fuel fuel' : Nat} (last : Value) (hmemory : r'.memory = r.memory)
    (htokens : behindSeparators r'.tokens = behindSeparators (r.tokens ++ tail))
    (hfuel : (behindSeparators r.tokens).length < fuel)
    (hfuel' : (behindSeparators r'.tokens).length < fuel') :
    InStep S (((statements fuel last).run.run r).bind K) ((statements fuel' last).run.run r') := by
  induction fuel generalizing fuel' r r' last with
  | zero => omega
  | succ fuel ih =>
    cases hr : behindSeparators r.tokens with
    | nil =>
      rw [run_statements_of_none _ _ hr]
      exact hend _ _ _ _ hmemory (htokens.trans (behindSeparators_append_of_nil _ hr)) hfuel'
    | cons token tokens =>
      obtain ⟨fuel', rfl⟩ : ∃ n, fuel' = n + 1 := ⟨fuel' - 1, by omega⟩
      have hr' := htokens.trans (behindSeparators_append_of_cons tail hr)
      have hahead : Ahead tail r.atStatement r'.atStatement :=
        ⟨hmemory, by rw [tokens_atStatement, tokens_atStatement, hr, hr']⟩
      rw [run_statements_of_some _ _ hr, run_statements_of_some _ _ (by simpa using hr'), run_bind,
        run_bind, Program.bind_assoc]
      refine (twins_statement hstops _ _ hahead).bind ?_
      rintro ⟨result, s⟩ ⟨result', s'⟩ hout
      cases result with
      | error e =>
        cases result' with
        | error e' => exact herror e e' s s' hout.1 hout.2
        | ok value => exact hout.elim
      | ok value =>
        cases result' with
        | error e' => exact hout.elim
        | ok value' =>
          obtain ⟨rfl, hs, hsuffix⟩ := hout
          rw [tokens_atStatement, hr] at hsuffix
          have hsep : token ≠ .sep := fun htoken =>
            head?_behindSeparators r.tokens (by rw [hr, htoken]; rfl)
          have hle := length_behindSeparators_le s.tokens
          have hle' := length_behindSeparators_le s'.tokens
          have hlen : s'.tokens.length = s.tokens.length + tail.length := hs.length
          rw [hr, List.length_cons] at hfuel
          rw [hr', List.length_append, List.length_cons] at hfuel'
          have hnext : s.tokens.length < tokens.length + 1 → InStep S
              (((statements fuel value).run.run s).bind K) ((statements fuel' value).run.run s') :=
            fun hless => ih value hs.memory (congrArg behindSeparators hs.tokens)
              (by omega) (by omega)
          have hahead := hs.tokens
          simp only [afterStatement, run_next_bind]
          cases htokens : s.tokens with
          | nil =>
            rw [htokens, List.nil_append] at hahead
            rw [hahead]
            rcases hstops with hstop | hstop <;> rw [hstop] <;> exact hnext (by rw [htokens]; simp)
          | cons other rest =>
            rw [htokens, List.cons_append] at hahead
            rw [hahead]
            cases other with
            | sep =>
              refine hnext (Nat.lt_of_le_of_ne hsuffix.length_le fun heq => hsep ?_)
              have hsame := hsuffix.eq_of_length heq
              rw [htokens] at hsame
              exact (List.cons.inj hsame).1.symm
            | num x => exact herror _ _ _ _ hs.memory fun _ => rfl
            | str text => exact herror _ _ _ _ hs.memory fun _ => rfl
            | ident name => exact herror _ _ _ _ hs.memory fun _ => rfl
            | sym c => exact herror _ _ _ _ hs.memory fun _ => rfl

def SameEnd (x y : Except Fault Value × Reading η) : Prop :=
  y.2.memory = x.2.memory ∧ match x.1, y.1 with
    | .ok a, .ok b => a = b
    | .error e, .error e' => e'.messages = e.messages
    | _, _ => False

theorem inStep_statements_of_sameTokens {fuel fuel' : Nat} (last : Value)
    (hmemory : r'.memory = r.memory)
    (htokens : behindSeparators r'.tokens = behindSeparators r.tokens)
    (hfuel : (behindSeparators r.tokens).length < fuel)
    (hfuel' : (behindSeparators r'.tokens).length < fuel') :
    InStep SameEnd ((statements fuel last).run.run r) ((statements fuel' last).run.run r') := by
  rw [← Program.bind_done ((statements fuel last).run.run r)]
  have hstops : Stops [] := .inl rfl
  refine inStep_statements hstops ?_ ?_ last hmemory (by rwa [List.append_nil]) hfuel
    hfuel'
  · exact fun e e' s s' hs hmessages => .done ⟨hs, hmessages rfl⟩
  · intro fuel' last s s' hs hnone hless
    obtain ⟨fuel', rfl⟩ : ∃ n, fuel' = n + 1 := ⟨fuel' - 1, by omega⟩
    rw [run_statements_of_none _ _ hnone]
    exact .done ⟨hs, rfl⟩

/-! ## Two sources -/

/-- How the first of two sources ended, how the second one did unless the first one failed, and what
is remembered then. -/
structure Relay (α η : Type) where
  first : Except Fault α
  second? : Option (Except Fault α)
  memory : Memory η

/-- What two sources come to one after the other, where they come to this together. The value is
that of the second one if it has a statement. -/
def Relay.Comes {α : Type} (speaks : Bool) (x : Relay α η) (y : Except Fault α × Memory η) : Prop :=
  y.2 = x.memory ∧ match x.first, x.second?, y.1 with
    | .error _, none, .error _ => True
    | .ok _, some (.error e), .error e' => e'.messages = e.messages
    | .ok a, some (.ok b), .ok c => c = if speaks then b else a
    | _, _, _ => False

/-- Evaluates a source, and then another one unless that has failed. -/
def evalBoth (memory : Memory η) (first second : String) (source : Option String) :
    Hosted η (Relay (Option String) η) := do
  let (result, memory) ← eval memory first source
  match result with
  | .error e => return ⟨.error e, none, memory⟩
  | .ok value => do
    let (result', memory) ← eval memory second source
    return ⟨.ok value, some result', memory⟩

def speaks (lexemes : List Lexeme) : Bool :=
  !(skipSeparators lexemes).isEmpty

theorem Spelling.EndsAt.append_lineEnd {p : Char → Bool} {after : List Char} (hp : p '\n' = false)
    (h : EndsAt p after) (second : List Char) : EndsAt p (after ++ '\n' :: second) := by
  cases after with
  | nil =>
    intro c hc
    cases hc
    exact hp
  | cons c after => exact h

theorem Spelling.beginsFraction_of_append_lineEnd {after second : List Char}
    (h : BeginsFraction (after ++ '\n' :: second)) : BeginsFraction after := by
  obtain ⟨d, rest, heq, hd⟩ := h
  rcases after with _ | ⟨c, _ | ⟨c', after⟩⟩
  · cases heq
  · cases heq
    cases hd
  · cases heq
    exact ⟨d, after, rfl, hd⟩

/-- A comment, a number and a name end at a line end at the latest. -/
theorem Spelling.Stands.append_lineEnd {w : Spelling} {after : List Char} (h : w.Stands after)
    (second : List Char) : w.Stands (after ++ '\n' :: second) := by
  cases w with
  | comment remark => exact ⟨h.1, h.2.append_lineEnd rfl second⟩
  | number whole fraction =>
    obtain ⟨hne, hdigits, hstop, hnone⟩ := h
    exact ⟨hne, hdigits, hstop.append_lineEnd rfl second, fun hempty hbegins =>
      hnone hempty (beginsFraction_of_append_lineEnd hbegins)⟩
  | name chars =>
    obtain ⟨c, cs, hchars, hc, hcs, hstop⟩ := h
    exact ⟨c, cs, hchars, hc, hcs, hstop.append_lineEnd continuesName_lineEnd second⟩
  | _ => exact h

theorem Spelled.append_lineEnd {ws ws' : List Spelling} {first second : List Char}
    (h : Spelled ws first) (h' : Spelled ws' second) :
    Spelled (ws ++ .lineEnd :: ws') (first ++ '\n' :: second) := by
  induction h with
  | nil => exact .cons (w := .lineEnd) trivial h'
  | cons hw _ ih =>
    rw [List.append_assoc]
    exact .cons (hw.append_lineEnd second) ih

theorem exists_lex_joined {first second : String} {lexemes lexemes' : List Lexeme}
    (h : lex first = .ok lexemes) (h' : lex second = .ok lexemes') :
    ∃ joined, lex (first ++ "\n" ++ second) = .ok joined ∧
      joined.map (·.token) = lexemes.map (·.token) ++ .sep :: lexemes'.map (·.token) := by
  obtain ⟨ws, hws, rfl⟩ := lex_eq_ok_iff.mp h
  obtain ⟨ws', hws', rfl⟩ := lex_eq_ok_iff.mp h'
  have hsource : (first ++ "\n" ++ second).toList = first.toList ++ '\n' :: second.toList := by
    simp
  refine ⟨_, lex_eq_ok_iff.mpr ⟨_, hsource ▸ hws.append_lineEnd hws', rfl⟩, ?_⟩
  simp [tokens_lexemesFrom, tokensOfAll, Spelling.token?]

/-! ## One after the other -/

section

variable (memory : Memory η) (lexemes lexemes' : List Lexeme) (source : Option String)

def relay (x : Except Fault Value × Reading η) : Hosted η (Relay Value η) :=
  match x.1 with
  | .error e => .done ⟨.error e, none, x.2.memory⟩
  | .ok value => ((statements (lexemes'.length + 1) .unit).run.run
      (Reading.start x.2.memory lexemes' source)).bind fun y =>
        .done ⟨.ok value, some y.1, y.2.memory⟩

theorem tokens_start : (Reading.start memory lexemes source).tokens = lexemes.map (·.token) := rfl

theorem speaks_eq : speaks lexemes = !(behindSeparators (lexemes.map (·.token))).isEmpty := by
  have h := tokens_atStatement (Reading.start (.empty : Memory Unit) lexemes none)
  rw [tokens_start] at h
  rw [← h, speaks, Reading.tokens, List.isEmpty_map]
  rfl

variable {memory lexemes lexemes' source}

theorem inStep_tokens {joined : List Lexeme}
    (h : joined.map (·.token) = lexemes.map (·.token) ++ .sep :: lexemes'.map (·.token)) :
    InStep (fun x y => Relay.Comes (speaks lexemes') x (y.1, y.2.memory))
      (((statements (lexemes.length + 1) .unit).run.run (Reading.start memory lexemes source)).bind
        (relay lexemes' source))
      ((statements (joined.length + 1) .unit).run.run (Reading.start memory joined source)) := by
  have hlength : ∀ l : List Lexeme, (behindSeparators (l.map (·.token))).length < l.length + 1 :=
    fun l => by
    have hle := length_behindSeparators_le (l.map (·.token))
    rw [List.length_map] at hle
    omega
  refine inStep_statements (.inr rfl) ?_ ?_ _ rfl (congrArg behindSeparators h) (hlength lexemes)
    (hlength joined)
  · exact fun e e' s s' hs _ => .done ⟨hs, trivial⟩
  · intro fuel' last s s' hs hbehind hless
    obtain ⟨fuel', rfl⟩ : ∃ n, fuel' = n + 1 := ⟨fuel' - 1, by omega⟩
    have hsecond : behindSeparators (.sep :: lexemes'.map (·.token)) =
      behindSeparators (lexemes'.map (·.token)) := rfl
    rw [hsecond] at hbehind
    rw [speaks_eq]
    simp only [relay]
    let opening := Reading.start s.memory lexemes' source
    have hopening : opening.tokens = lexemes'.map (·.token) := rfl
    cases hspeaks : behindSeparators (lexemes'.map (·.token)) with
    | nil =>
      rw [run_statements_of_none (r := opening) _ _ hspeaks,
        run_statements_of_none _ _ (hbehind.trans hspeaks)]
      exact .done ⟨hs, rfl⟩
    | cons token tokens =>
      -- The value before the first statement is that of nothing.
      have hvalue : (statements (fuel' + 1) last).run.run s' =
          (statements (fuel' + 1) .unit).run.run s' := by
        rw [run_statements_of_some _ _ (hbehind.trans hspeaks),
          run_statements_of_some _ _ (hbehind.trans hspeaks)]
      rw [hvalue, ← Program.bind_done ((statements (fuel' + 1) .unit).run.run s')]
      refine (inStep_statements_of_sameTokens (r := opening) _ hs hbehind (hlength lexemes')
        hless).bind ?_
      rintro ⟨result, t⟩ ⟨result', t'⟩ ⟨hmemory, hresult⟩
      refine .done ⟨hmemory, ?_⟩
      cases result <;> cases result' <;> simp_all

end

theorem evalTokens_eq (memory : Memory η) (lexemes : List Lexeme) (source : Option String) :
    evalTokens memory lexemes source = ((statements (lexemes.length + 1) .unit).run.run
      (Reading.start memory lexemes source)).bind fun x => .done (x.1, x.2.memory) := rfl

def Relay.answer (x : Relay Value η) : Relay (Option String) η :=
  ⟨x.first.map Value.answer?, x.second?.map (·.map Value.answer?), x.memory⟩

theorem Relay.Comes.answer {speaks : Bool} {x : Relay Value η} {y : Except Fault Value × Memory η}
    (h : x.Comes speaks y) : x.answer.Comes speaks (y.1.map Value.answer?, y.2) := by
  obtain ⟨first, second?, memory⟩ := x
  obtain ⟨result, memory'⟩ := y
  obtain ⟨hmemory, h⟩ := h
  refine ⟨hmemory, ?_⟩
  cases first with
  | error e =>
    cases second? with
    | none => cases result <;> exact h
    | some second => exact h.elim
  | ok a =>
    rcases second? with _ | (e | b)
    · exact h.elim
    · cases result <;> exact h
    · cases result with
      | error e => exact h.elim
      | ok c =>
        obtain rfl : c = if speaks then b else a := h
        cases speaks <;> rfl

theorem eval_of_lex {text : String} {lexemes : List Lexeme} (h : lex text = .ok lexemes)
    (memory : Memory η) (source : Option String) :
    eval memory text source = ((statements (lexemes.length + 1) .unit).run.run
      (Reading.start memory lexemes source)).bind fun x =>
        .done (x.1.map Value.answer?, x.2.memory) := by
  rw [eval, h]
  exact Program.bind_assoc _ _ _

theorem evalBoth_of_lex {first second : String} {lexemes lexemes' : List Lexeme}
    (h : lex first = .ok lexemes) (h' : lex second = .ok lexemes') (memory : Memory η)
    (source : Option String) :
    evalBoth memory first second source = (((statements (lexemes.length + 1) .unit).run.run
      (Reading.start memory lexemes source)).bind (relay lexemes' source)).bind fun x =>
        .done x.answer := by
  rw [evalBoth, eval_of_lex h, Program.bind_assoc]
  refine (Program.bind_assoc _ _ _).trans (congrArg (Program.bind _) (funext fun x => ?_))
  obtain ⟨result, r⟩ := x
  cases result with
  | error e => rfl
  | ok value =>
    simp only [eval_of_lex h', relay, Program.bind_assoc]
    exact Program.bind_assoc _ _ _

/-- A source, a line end and another source: evaluated together, they ask what the first one asks
and then, unless that has failed, what the second one asks, whatever the answers are. They leave the
same memory, fail if one of the two fails, with the second one's message if it is the second, and
their value is that of the second if it has a statement, or else that of the first. -/
theorem eval_joined {first second : String} {lexemes lexemes' : List Lexeme}
    (h : lex first = .ok lexemes) (h' : lex second = .ok lexemes') (memory : Memory η)
    (source : Option String) :
    InStep (Relay.Comes (speaks lexemes')) (evalBoth memory first second source)
      (eval memory (first ++ "\n" ++ second) source) := by
  obtain ⟨joined, hjoined, htokens⟩ := exists_lex_joined h h'
  rw [evalBoth_of_lex h h', eval_of_lex hjoined]
  exact (inStep_tokens htokens).bind fun x y hxy => .done hxy.answer

/-- A text over two lines and a comment, and then a call. -/
theorem eval_joined_of_comment :
    lex "let a = 'x\ny' # ;" = .ok [⟨.ident "let", 1⟩, ⟨.ident "a", 1⟩, ⟨.sym '=', 1⟩,
      ⟨.str "x\ny", 1⟩] ∧
    lex "print(a)" = .ok [⟨.ident "print", 1⟩, ⟨.sym '(', 1⟩, ⟨.ident "a", 1⟩, ⟨.sym ')', 1⟩] ∧
    ∀ memory : Memory Unit, InStep (Relay.Comes true)
      (evalBoth memory "let a = 'x\ny' # ;" "print(a)" none)
      (eval memory ("let a = 'x\ny' # ;" ++ "\n" ++ "print(a)") none) := by
  have hfirst : lex "let a = 'x\ny' # ;" =
      .ok [⟨.ident "let", 1⟩, ⟨.ident "a", 1⟩, ⟨.sym '=', 1⟩, ⟨.str "x\ny", 1⟩] :=
    lex_eq_ok_iff.mpr ⟨[.name "let".toList, .blank ' ', .name ['a'], .blank ' ', .symbol '=',
      .blank ' ', .text '\'' [.plain 'x', .plain '\n', .plain 'y'], .blank ' ',
      .comment [' ', ';']], by decide, rfl⟩
  have hsecond : lex "print(a)" =
      .ok [⟨.ident "print", 1⟩, ⟨.sym '(', 1⟩, ⟨.ident "a", 1⟩, ⟨.sym ')', 1⟩] :=
    lex_eq_ok_iff.mpr ⟨[.name "print".toList, .symbol '(', .name ['a'], .symbol ')'],
      by decide, rfl⟩
  exact ⟨hfirst, hsecond, fun memory => eval_joined hfirst hsecond memory none⟩

end SessionShell.Calc
