import SessionShell.Proofs.Calc.Asking
import SessionShell.Proofs.Calc.Correctness
import SessionShell.Proofs.Calc.Faults

/-!
What a failing program leaves behind.

The statements before the one that fails have been evaluated, and what they bind stays bound. A
statement that fails itself binds nothing, for a binding is the last thing a statement does. But
where a statement is complete and more than a separator follows it, it has been evaluated by the
time this is seen, so its binding stays.
-/

namespace SessionShell

namespace Program

universe u

variable {Call : Type u} {Reply : Call → Type} {α : Type} {H : Call → Prop} {Q : α → Prop}

theorem Asks.of_goes {p : Program Call Reply α}
    (h : p.Asks H Q) {exchanges : List (Exchange Reply)} {a : α}
    (hgoes : p.Goes exchanges (some a)) : Q a := by
  generalize hresult : some a = result at hgoes
  induction hgoes with
  | done a' =>
    cases hresult
    exact h
  | crash => cases hresult
  | ask _ ih => exact ih (h.2 _) hresult

theorem asks_of_goes {p : Program Call Reply α}
    (h : ∀ exchanges a, p.Goes exchanges (some a) → Q a) :
    p.Asks (fun _ => True) Q := by
  induction p with
  | done a => exact h [] a (.done a)
  | crash => trivial
  | ask call next ih =>
    exact ⟨trivial, fun reply => ih reply fun exchanges a hgoes => h _ a (.ask hgoes)⟩

end Program

namespace Calc

open Meaning

variable {η α β : Type} {r r' s s' : Reading η} {asked : Asked η} {fault : Fault} {value : Value}

/-! ## What an evaluation keeps, failing or not -/

theorem Minds.keeps_of_goes {T : Terms η} {p : Eval η α} (h : Minds T p) (hr : T.keeps r)
    {result : Except Fault α} (hgoes : (p.run.run r).Goes asked (some (result, r'))) : T.keeps r' :=
  Program.Asks.of_goes (h r hr) hgoes

def remembering (m : Memory η) : Terms η where
  asks _ := True
  names _ := True
  keeps r := r.memory = m

theorem holdReading_remembering (m : Memory η) : (remembering m).HoldReading where
  skip _ hr := hr
  names _ _ _ _ _ _ _ := trivial
  print _ _ _ _ _ := trivial
  method _ _ _ _ _ _ _ _ _ _ := trivial

structure Reading.Onward (r s : Reading η) : Prop where
  source : s.source = r.source
  lastLine : s.lastLine = r.lastLine
  rest : s.rest <:+ r.rest
  hosts : s.memory.hosts = r.memory.hosts
  defaultHost : s.memory.defaultHost = r.memory.defaultHost

theorem Reading.Onward.refl (r : Reading η) : r.Onward r :=
  ⟨rfl, rfl, List.suffix_refl _, rfl, rfl⟩

theorem Reading.Onward.trans {t : Reading η} (h : r.Onward s) (h' : s.Onward t) : r.Onward t :=
  ⟨h'.source.trans h.source, h'.lastLine.trans h.lastLine, h'.rest.trans h.rest,
    h'.hosts.trans h.hosts, h'.defaultHost.trans h.defaultHost⟩

theorem Reading.onward_atStatement (r : Reading η) : r.Onward r.atStatement :=
  ⟨rfl, rfl, skipSeparators_suffix _, rfl, rfl⟩

def onwardFrom (r : Reading η) : Terms η where
  asks _ := True
  names _ := True
  keeps := r.Onward

theorem hold_onwardFrom (r : Reading η) : (onwardFrom r).Hold where
  skip _ hs := hs.trans ⟨rfl, rfl, List.tail_suffix _, rfl, rfl⟩
  names _ _ _ _ _ _ _ := trivial
  print _ _ _ _ _ := trivial
  method _ _ _ _ _ _ _ _ _ _ := trivial
  separators s hs := hs.trans s.onward_atStatement
  binds _ _ _ hs := hs.trans ⟨rfl, rfl, List.suffix_refl _, rfl, rfl⟩

theorem onward_of_statement {result : Except Fault Value}
    (h : (statement.run.run r).Goes asked (some (result, s))) : r.Onward s :=
  (minds_statement (hold_onwardFrom r)).keeps_of_goes (.refl r) h

def FailsUnbound (p : Eval η α) : Prop :=
  ∀ ⦃r : Reading η⦄ ⦃asked : Asked η⦄ ⦃fault : Fault⦄ ⦃r' : Reading η⦄, Fails p r asked fault r' →
    r'.memory = r.memory

theorem failsUnbound_of_minds {p : Eval η α} (h : ∀ m, Minds (remembering m) p) : FailsUnbound p :=
  fun r _ _ _ hfails => (h r.memory).keeps_of_goes rfl hfails

theorem FailsUnbound.behind {p : Eval η α} {f : α → Eval η β} (hp : ∀ m, Minds (remembering m) p)
    (hf : ∀ a, FailsUnbound (f a)) : FailsUnbound (p >>= f) := by
  intro r asked fault r' h
  rcases fails_bind_iff.mp h with h | ⟨first, rest, a, s, -, hfirst, h⟩
  · exact failsUnbound_of_minds hp h
  · have hs : s.memory = r.memory := (hp r.memory).keeps_of_goes rfl hfirst
    exact (hf a h).trans hs

/-- A statement that fails has bound nothing: once it binds, nothing in it can fail any more. -/
theorem failsUnbound_statement : FailsUnbound (statement : Eval η Value) := by
  refine .behind (fun _ => minds_next?) fun token? => ?_
  split
  · refine .behind (fun m => minds_skip (holdReading_remembering m)) fun _ => ?_
    refine .behind (fun _ => minds_next?) fun name? => ?_
    split
    · refine .behind (fun m => minds_skip (holdReading_remembering m)) fun _ => ?_
      refine .behind (fun m => minds_expectSym (holdReading_remembering m) '=') fun _ => ?_
      refine .behind (fun m => minds_expression (holdReading_remembering m)) fun value => ?_
      intro r asked fault r' h
      cases h
    · exact failsUnbound_of_minds fun _ => minds_fail _
  · exact failsUnbound_of_minds fun m => minds_expression (holdReading_remembering m)

/-! ## What is passed -/

section

variable {n : Nat} {q : Eval η α}

/-- It never goes back, and where it goes well, it has passed a token. -/
def Advances (q : Eval η α) : Prop :=
  ∀ r : Reading η, (q.run.run r).Asks (fun _ => True) fun x =>
    r.Onward x.2 ∧ ∀ a, x.1 = .ok a → x.2.rest.length < r.rest.length

theorem advances_of_reads (honward : ∀ r, Minds (onwardFrom r) q)
    (hreads : ∀ r asked a s, Reads q r asked a s → s.tokens.length < r.tokens.length) :
      Advances q := by
  refine fun r => Program.asks_of_goes fun asked x hgoes => ?_
  obtain ⟨result, s⟩ := x
  refine ⟨(honward r).keeps_of_goes (.refl r) hgoes, fun a hresult => ?_⟩
  obtain rfl : result = .ok a := hresult
  simpa only [Reading.tokens, List.length_map] using hreads r asked a s hgoes

theorem ReadAs.shorter {tokens : List Token} {nesting : Nat}
    {meaning : Memory η → Meaning η α} {a : α}
    (h : ReadAs n tokens nesting meaning r asked a s) {token : Token} {rest : List Token}
    (htokens : tokens = token :: rest) : s.tokens.length < r.tokens.length := by
  rw [h.passes.tokens, htokens, List.cons_append, List.length_cons, List.length_append]
  omega

theorem Args.exists_cons (args : Args) :
    ∃ (token : Token) (rest : List Token), args.tokens = token :: rest := by
  cases args with
  | nil => exact ⟨_, _, rfl⟩
  | cons e rest =>
    obtain ⟨token, others, he, -⟩ := e.exists_head
    exact ⟨token, _, by rw [Args.tokens, he]; rfl⟩

variable (levels : Nat)

theorem minds_onward_signed (r : Reading η) : Minds (onwardFrom r) (signed levels : Eval η Value) :=
  minds_signed (hold_onwardFrom r).toHoldReading levels

theorem advances_signed : Advances (signed levels : Eval η Value) := by
  refine advances_of_reads (minds_onward_signed levels) fun r asked value s h => ?_
  obtain ⟨u, hu⟩ := sound_signed levels _ _ _ _ h
  obtain ⟨token, rest, htokens, -⟩ := u.exists_head
  exact hu.shorter htokens

theorem advances_term : Advances (term (signed levels) : Eval η Value) := by
  refine advances_of_reads
    (fun r => minds_term (hold_onwardFrom r).toHoldReading (minds_onward_signed levels r))
    fun r asked value s h => ?_
  obtain ⟨t, ht⟩ := sound_term (sound_signed levels) h
  obtain ⟨token, rest, htokens, -⟩ := t.exists_head
  exact ht.shorter htokens

theorem advances_expr : Advances (expr (signed levels) : Eval η Value) := by
  refine advances_of_reads
    (fun r => minds_expr (hold_onwardFrom r).toHoldReading (minds_onward_signed levels r))
    fun r asked value s h => ?_
  obtain ⟨e, he⟩ := sound_expr (sound_signed levels) h
  obtain ⟨token, rest, htokens, -⟩ := e.exists_head
  exact he.shorter htokens

theorem advances_power : Advances (power (signed levels) : Eval η Value) := by
  refine advances_of_reads
    (fun r => minds_power (hold_onwardFrom r).toHoldReading (minds_onward_signed levels r))
    fun r asked value s h => ?_
  obtain ⟨p, hp⟩ := sound_power (sound_signed levels) h
  obtain ⟨token, rest, htokens, -⟩ := p.exists_head
  exact hp.shorter htokens

theorem advances_primary : Advances (primary (signed levels) : Eval η Value) := by
  refine advances_of_reads
    (fun r => minds_primary (hold_onwardFrom r).toHoldReading (minds_onward_signed levels r))
    fun r asked value s h => ?_
  obtain ⟨p, hp⟩ := sound_primary (sound_signed levels) h
  obtain ⟨token, rest, htokens, -⟩ := p.exists_head
  exact hp.shorter htokens

theorem advances_arguments : Advances (arguments (signed levels) : Eval η (List Value)) := by
  refine advances_of_reads
    (fun r => minds_arguments (hold_onwardFrom r).toHoldReading (minds_onward_signed levels r))
    fun r asked values s h => ?_
  obtain ⟨args, hargs⟩ := sound_arguments (sound_signed levels) h
  obtain ⟨token, rest, htokens⟩ := args.exists_cons
  exact hargs.shorter htokens

theorem advances_statement : Advances (statement : Eval η Value) := by
  refine advances_of_reads (fun r => minds_statement (hold_onwardFrom r)) fun r asked value s h =>
    ?_
  obtain ⟨st, htokens, -⟩ := sound_statement h
  obtain ⟨token, rest, hst, -⟩ := st.exists_head
  rw [htokens, hst, List.cons_append, List.length_cons, List.length_append]
  omega

end

/-! ## Where a statement stands -/

mutual

theorem Expr.sep_not_mem : (e : Expr) → Token.sep ∉ e.tokens
  | .term t => t.sep_not_mem
  | .add left right | .sub left right => by simp [Expr.tokens, left.sep_not_mem, right.sep_not_mem]

theorem Term.sep_not_mem : (t : Term) → Token.sep ∉ t.tokens
  | .unary u => u.sep_not_mem
  | .scale op left right => by
    simp [Term.tokens, Scaling.token, left.sep_not_mem, right.sep_not_mem]

theorem Unary.sep_not_mem : (u : Unary) → Token.sep ∉ u.tokens
  | .neg u => by simp [Unary.tokens, u.sep_not_mem]
  | .power p => p.sep_not_mem

theorem Power.sep_not_mem : (p : Power) → Token.sep ∉ p.tokens
  | .plain base => base.sep_not_mem
  | .pow base exponent => by simp [Power.tokens, base.sep_not_mem, exponent.sep_not_mem]

theorem Primary.sep_not_mem : (p : Primary) → Token.sep ∉ p.tokens
  | .num _ | .str _ | .var _ => by simp [Primary.tokens]
  | .paren e => by simp [Primary.tokens, e.sep_not_mem]
  | .call _ args | .method _ _ args => by simp [Primary.tokens, args.sep_not_mem]

theorem Args.sep_not_mem : (args : Args) → Token.sep ∉ args.tokens
  | .nil => by simp [Args.tokens]
  | .cons e rest => by simp [Args.tokens, e.sep_not_mem, rest.sep_not_mem_behind]

theorem Args.sep_not_mem_behind : (args : Args) → Token.sep ∉ args.tokensBehind
  | .nil => by simp [Args.tokensBehind]
  | .cons e rest => by simp [Args.tokensBehind, e.sep_not_mem, rest.sep_not_mem_behind]

end

theorem Statement.sep_not_mem (s : Statement) : Token.sep ∉ s.tokens := by
  cases s with
  | bind name e => simp [Statement.tokens, e.sep_not_mem]
  | expr e => exact e.sep_not_mem

/-- One statement of a source and what stands around it: separators, or nothing. -/
structure Place (tokens : List Lexeme) where
  before : List Lexeme
  own : List Lexeme
  tail : List Lexeme
  whole : tokens = before ++ own ++ tail
  own_ne_nil : own ≠ []
  own_ne_sep : ∀ t ∈ own, t.token ≠ .sep
  begins : ∀ t, before.getLast? = some t → t.token = .sep
  ends : ∀ t, tail.head? = some t → t.token = .sep

theorem exists_own (tokens : List Lexeme) : ∃ own tail, tokens = own ++ tail ∧
    (∀ t ∈ own, t.token ≠ .sep) ∧ ∀ t, tail.head? = some t → t.token = .sep := by
  induction tokens with
  | nil => exact ⟨[], [], rfl, by simp, by simp⟩
  | cons t tokens ih =>
    by_cases ht : t.token = .sep
    · exact ⟨[], t :: tokens, rfl, by simp, by simp [ht]⟩
    · obtain ⟨own, tail, rfl, hown, htail⟩ := ih
      exact ⟨t :: own, tail, rfl, by simpa [ht] using hown, htail⟩

namespace Place

variable {tokens : List Lexeme} {source : Option String} {m : Memory η}

theorem exists_of_append {before rest : List Lexeme} {t : Lexeme} (h : tokens = before ++ t :: rest)
    (ht : t.token ≠ .sep) (hbefore : ∀ u, before.getLast? = some u → u.token = .sep) :
    ∃ place : Place tokens, place.before = before ∧ place.own ++ place.tail = t :: rest := by
  obtain ⟨own, tail, hsplit, hown, htail⟩ := exists_own (t :: rest)
  have hne : own ≠ [] := by
    rintro rfl
    refine ht (htail t ?_)
    rw [← List.nil_append tail, ← hsplit]
    rfl
  exact ⟨⟨before, own, tail, by rw [h, hsplit, List.append_assoc], hne, hown, hbefore, htail⟩,
    rfl, hsplit.symm⟩

def reading (place : Place tokens) (source : Option String) (m : Memory η) : Reading η :=
  ⟨m, place.own ++ place.tail, source, (tokens.getLast?.map (·.line)).getD 1⟩

/-- Tokens that are read from a place on are its own as long as there is no separator among them. -/
theorem exists_own_eq (place : Place tokens) {front more : List Lexeme}
    (h : place.own ++ place.tail = front ++ more) (hfront : ∀ t ∈ front, t.token ≠ .sep) :
    ∃ others, place.own = front ++ others := by
  rcases List.append_eq_append_iff.mp h with ⟨behind, hfront', htail⟩ | ⟨others, hown, -⟩
  · cases behind with
    | nil => exact ⟨[], by rw [hfront']; simp⟩
    | cons t behind =>
      have hsep := place.ends t (by rw [htail]; rfl)
      exact absurd hsep (hfront t (by rw [hfront']; simp))
  · exact ⟨others, hown⟩

theorem alone (place : Place tokens) (h : ∀ t ∈ tokens, t.token ≠ .sep) :
    place.before = [] ∧ place.own = tokens := by
  have hbefore : place.before = [] := by
    rcases List.eq_nil_or_concat place.before with hnil | ⟨before, t, ht⟩
    · exact hnil
    · have hmem : t ∈ tokens := by rw [place.whole, ht]; simp
      exact absurd (place.begins t (by rw [ht]; simp)) (h t hmem)
  have htail : place.tail = [] := by
    cases ht : place.tail with
    | nil => rfl
    | cons t tail =>
      have hmem : t ∈ tokens := by rw [place.whole, ht]; simp
      exact absurd (place.ends t (by rw [ht]; rfl)) (h t hmem)
  refine ⟨hbefore, ?_⟩
  have hwhole := place.whole
  rw [hbefore, htail, List.nil_append, List.append_nil] at hwhole
  exact hwhole.symm

end Place

/-- How a statement fails at its place, with this remembered, and what is remembered then. -/
inductive FailsAt {tokens : List Lexeme} (place : Place tokens) (source : Option String)
    (m : Memory η) (asked : Asked η) : Fault → Memory η → Prop where
  | within {fault : Fault} {r' : Reading η}
      (h : Fails statement (place.reading source m) asked fault r') :
      FailsAt place source m asked fault m
  /-- A complete statement with more than a separator behind it: it has done what it does
  by then. -/
  | behind {s : Statement} {value : Value} {t : Lexeme} {others : List Lexeme} {r' : Reading η}
      (hown : place.own.map (·.token) = s.tokens ++ t.token :: others.map (·.token))
      (hreads : Reads statement (place.reading source m) asked value r')
      (hrest : r'.rest = t :: others ++ place.tail)
      (hrun : (s.run m).Yields asked (value, r'.memory)) :
      FailsAt place source m asked
        (.of (.script ⟨"unexpected " ++ t.token.shown, source, some t.line⟩)) r'.memory

section

variable {tokens : List Lexeme} {source : Option String} {m : Memory η}

theorem exists_front_of_reads (h : Reads statement r asked value s) :
    ∃ (st : Statement) (front : List Lexeme), r.rest = front ++ s.rest ∧
      front.map (·.token) = st.tokens ∧ st.nesting ≤ maxDepth ∧ st.Readable ∧
      (st.run r.memory).Yields asked (value, s.memory) := by
  obtain ⟨st, htokens, hnesting, hreadable, hrun⟩ := sound_statement h
  obtain ⟨front, hfront⟩ := (onward_of_statement h).rest
  refine ⟨st, front, hfront.symm, ?_, hnesting, hreadable, hrun⟩
  rw [Reading.tokens, ← hfront, List.map_append] at htokens
  exact List.append_cancel_right htokens

theorem fails_afterwards {value : Value} (h : Fails (do
      match ← next? with
      | none | some .sep => return value
      | some other => fail ("unexpected " ++ other.shown) : Eval η Value) s asked fault r') :
    ∃ t others, s.rest = t :: others ∧ t.token ≠ .sep ∧ asked = [] ∧ r' = s ∧
      fault = .of (.script ⟨"unexpected " ++ t.token.shown, s.source, some t.line⟩) := by
  obtain ⟨memory, rest, source, lastLine⟩ := s
  cases rest with
  | nil => cases h
  | cons t others =>
    obtain ⟨token, line⟩ := t
    refine ⟨_, _, rfl, ?_⟩
    cases token with
    | sep => cases h
    | _ =>
      cases h
      exact ⟨by simp, rfl, rfl, rfl⟩

theorem failsAt_of_fails {place : Place tokens}
    (h : Fails wholeStatement (place.reading source m) asked fault r') :
    FailsAt place source m asked fault r'.memory := by
  rcases fails_bind_iff.mp h with h | ⟨first, rest, value, s, rfl, hreads, h⟩
  · have hmemory : r'.memory = m := failsUnbound_statement h
    rw [hmemory]
    exact .within h
  · obtain ⟨t, others, hs, ht, rfl, rfl, rfl⟩ := fails_afterwards h
    obtain ⟨st, front, hfront, htokens, -, -, hrun⟩ := exists_front_of_reads hreads
    rw [List.append_nil]
    have hall : ∀ u ∈ front ++ [t], u.token ≠ .sep := by
      intro u hu hsep
      rcases List.mem_append.mp hu with hu | hu
      · exact st.sep_not_mem (htokens ▸ hsep ▸ List.mem_map_of_mem hu)
      · rw [List.mem_singleton.mp hu] at hsep
        exact ht hsep
    have hsplit : place.own ++ place.tail = (front ++ [t]) ++ others := by
      rw [List.append_assoc, List.singleton_append, ← hs]
      exact hfront
    obtain ⟨others', hown⟩ := place.exists_own_eq hsplit hall
    have hrest : r'.rest = t :: others' ++ place.tail := by
      rw [hown, List.append_assoc] at hsplit
      rw [hs, ← List.append_cancel_left hsplit]
      rfl
    have hsource : r'.source = source := (onward_of_statement hreads).source
    rw [hsource]
    refine .behind ?_ hreads hrest hrun
    rw [hown, ← htokens]
    simp

/-! ## The statements before it -/

theorem reads_statement_of_whole (h : Reads wholeStatement r asked value s) :
    Reads statement r asked value s ∧ (s.tokens.head? = none ∨ s.tokens.head? = some .sep) := by
  obtain ⟨value', s', first, rest, rfl, hreads, h⟩ := reads_bind_iff.mp h
  rw [reads_next?_bind_iff] at h
  split at h
  · next hnone =>
    obtain ⟨rfl, rfl, rfl⟩ := reads_pure_iff.mp h
    rw [List.append_nil]
    exact ⟨hreads, .inl hnone⟩
  · next hsep =>
    obtain ⟨rfl, rfl, rfl⟩ := reads_pure_iff.mp h
    rw [List.append_nil]
    exact ⟨hreads, .inr hsep⟩
  · exact (not_reads_fail _ h).elim

theorem Begins.onward (h : Begins r asked s) : r.Onward s := by
  induction h with
  | here => exact Reading.onward_atStatement _
  | behind _ hreads _ ih =>
    exact ((Reading.onward_atStatement _).trans
      (onward_of_statement (reads_statement_of_whole hreads).1)).trans ih

theorem Begins.exists_head (h : Begins r asked s) :
    ∃ t rest, s.rest = t :: rest ∧ t.token ≠ .sep := by
  induction h with
  | here hrest =>
    obtain ⟨t, rest, heq⟩ := List.exists_cons_of_ne_nil hrest
    exact ⟨t, rest, heq, head_atStatement heq⟩
  | behind _ _ _ ih => exact ih

theorem exists_atStatement (r : Reading η) : ∃ (seps : List Lexeme) (k : Nat),
    r.rest = seps ++ r.atStatement.rest ∧ seps.map (·.token) = List.replicate k .sep := by
  obtain ⟨seps, hseps⟩ := skipSeparators_suffix r.rest
  obtain ⟨k, hk⟩ := exists_separators r.rest
  refine ⟨seps, k, hseps.symm, ?_⟩
  rw [← hseps, List.map_append] at hk
  exact List.append_cancel_right (hseps ▸ hk)

/-- Where a statement begins, those before it are written and have been evaluated, and a separator
stands before it unless it is the first. -/
theorem Begins.exists_script (h : Begins r asked s) :
    ∃ (script : List Statement) (front : List Lexeme), r.rest = front ++ s.rest ∧
      Written script (front.map (·.token)) ∧ (∀ st ∈ script, st.nesting ≤ maxDepth ∧ st.Readable) ∧
      (∀ t, front.getLast? = some t → t.token = .sep) ∧
      ∀ last, ∃ value, (Statement.runAll script last r.memory).Yields asked (value, s.memory) := by
  induction h with
  | @here r hrest =>
    obtain ⟨seps, k, hsplit, hseps⟩ := exists_atStatement r
    refine ⟨[], seps, hsplit, ?_,
      by simp, fun t ht => ?_, fun last => ⟨last, yields_pure_iff.mpr ⟨rfl, rfl⟩⟩⟩
    · rw [hseps]
      simpa using Written.seps k .nil
    · have hmem : t.token ∈ seps.map (·.token) := List.mem_map_of_mem (List.mem_of_getLast? ht)
      rw [hseps] at hmem
      exact List.eq_of_mem_replicate hmem
  | @behind r s s' first rest value hrest hreads hbegins ih =>
    obtain ⟨seps, k, hsplit, hseps⟩ := exists_atStatement r
    obtain ⟨hreads, hends⟩ := reads_statement_of_whole hreads
    obtain ⟨st, own, hown, htokens, hnesting, hreadable, hrun⟩ := exists_front_of_reads hreads
    obtain ⟨script, front, hfront, hwritten, hall, hlast, hruns⟩ := ih
    -- A separator stands between this statement and the next one.
    obtain ⟨t, others, hs', ht⟩ := hbegins.exists_head
    obtain ⟨u, front', rfl⟩ : ∃ u front', front = u :: front' := by
      cases front with
      | nil =>
        rw [Reading.tokens, hfront, List.nil_append, hs'] at hends
        simp [ht] at hends
      | cons u front' => exact ⟨u, front', rfl⟩
    have hu : u.token = .sep := by
      rw [Reading.tokens, hfront] at hends
      simpa using hends
    refine ⟨st :: script, seps ++ own ++ u :: front', ?_, ?_, ?_, ?_, fun last => ?_⟩
    · rw [hsplit, hown, hfront]
      simp
    · rw [List.append_assoc, List.map_append, hseps, List.map_append, htokens]
      exact .seps k (.behind st hwritten (.inr (by simp [hu])))
    · simpa [hnesting, hreadable] using hall
    · intro t ht
      rw [List.getLast?_append_of_ne_nil _ (by simp)] at ht
      exact hlast t ht
    · obtain ⟨value', hrest'⟩ := hruns value
      exact ⟨value', yields_bind_iff.mpr ⟨(value, s.memory), first, rest, rfl, hrun, hrest'⟩⟩

theorem Reading.Onward.eq_reading {memory : Memory η} {place : Place tokens}
    (h : (Reading.start memory tokens source).Onward s)
    (hplace : place.own ++ place.tail = s.rest) :
    place.reading source s.memory = s := by
  obtain ⟨m, rest, source', lastLine⟩ := s
  obtain rfl : source' = source := h.source
  obtain rfl : lastLine = _ := h.lastLine
  rw [Place.reading, hplace]
  rfl

/-! ## A source that fails -/

theorem exists_failsAt {memory : Memory η} {fuel : Nat} {last : Value}
    (h : Fails (statements fuel last) (.start memory tokens source) asked fault r') :
    ∃ (place : Place tokens) (first rest : Asked η) (value : Value) (m : Memory η),
      asked = first ++ rest ∧
      (evalTokens memory place.before source).Goes first (some (.ok value, m)) ∧
      FailsAt place source m rest fault r'.memory := by
  obtain ⟨first, rest, s, rfl, hbegins, hfails⟩ := exists_begins_of_fails h
  obtain ⟨script, front, hfront, hwritten, hall, hlast, hruns⟩ := hbegins.exists_script
  obtain ⟨t, others, hs, ht⟩ := hbegins.exists_head
  obtain ⟨place, rfl, hplace⟩ : ∃ place : Place tokens, place.before = front ∧
    place.own ++ place.tail = s.rest := by
    rw [hs] at hfront ⊢
    exact Place.exists_of_append hfront ht hlast
  obtain ⟨value, hrun⟩ := hruns .unit
  rw [← hbegins.onward.eq_reading hplace] at hfails
  refine ⟨place, first, rest, value, s.memory, rfl, ?_, failsAt_of_fails hfails⟩
  refine goes_evalTokens_iff.mpr ?_
  unfold program
  simp only [reads_tokensLeft_bind_iff]
  exact complete_statements hwritten hall rfl (Nat.lt_succ_self _) hrun

/-- A source that fails leaves the hosts as they were. Either it has no tokens, and nothing was
asked or bound; or else it fails at one of its statements, and what is remembered is what those
before it leave when they are evaluated, with what this one binds if it is complete and there is
more behind it. -/
theorem remembered_of_failed {memory memory' : Memory η} {text : String}
    (h : (eval memory text source).Goes asked (some (.error fault, memory'))) :
    (memory'.hosts = memory.hosts ∧ memory'.defaultHost = memory.defaultHost) ∧
    ((∃ e, lex text = .error e ∧ asked = [] ∧ memory' = memory) ∨
      ∃ (tokens : List Lexeme) (place : Place tokens) (first rest : Asked η) (value : Value)
        (m : Memory η), lex text = .ok tokens ∧ asked = first ++ rest ∧
        (evalTokens memory place.before source).Goes first (some (.ok value, m)) ∧
        FailsAt place source m rest fault memory') := by
  cases hlex : lex text with
  | error e =>
    rw [eval, hlex] at h
    cases h
    exact ⟨⟨rfl, rfl⟩, .inl ⟨e, rfl, rfl, rfl⟩⟩
  | ok tokens =>
    rw [eval_of_lex hlex] at h
    obtain ⟨⟨result, r'⟩, asked, none', rfl, hprogram, hdone⟩ := Program.goes_bind_iff.mp h
    obtain ⟨rfl, hend⟩ := Program.goes_pure_iff.mp hdone
    cases result with
    | ok value => cases hend
    | error e =>
      cases hend
      rw [List.append_nil]
      have honward : (Reading.start memory tokens source).Onward r' :=
        (minds_statements (hold_onwardFrom _) _ _).keeps_of_goes (.refl _) hprogram
      obtain ⟨place, first, rest, value, m, hasked, hbefore, hfails⟩ := exists_failsAt hprogram
      exact ⟨⟨honward.hosts, honward.defaultHost⟩,
        .inr ⟨tokens, place, first, rest, value, m, rfl, hasked, hbefore, hfails⟩⟩

end

/-- A binding that is evaluated, and one that is not because its operand is unknown. -/
theorem remembered_of_unknown_operand :
    (eval (.empty : Memory Unit) "let a = 'x'; let b = c" none).Goes []
      (some (.error (.of (.script ⟨"unknown name 'c'", none, some 1⟩)),
        { Memory.empty with bindings := [("a", .str "x")] })) ∧
    ∃ (tokens : List Lexeme) (place : Place tokens) (value : Value) (m : Memory Unit),
      lex "let a = 'x'; let b = c" = .ok tokens ∧
      (evalTokens .empty place.before none).Goes [] (some (.ok value, m)) ∧
      FailsAt place none m [] (.of (.script ⟨"unknown name 'c'", none, some 1⟩))
        { Memory.empty with bindings := [("a", .str "x")] } := by
  have hlex : lex "let a = 'x'; let b = c" = .ok
      [⟨.ident "let", 1⟩, ⟨.ident "a", 1⟩, ⟨.sym '=', 1⟩, ⟨.str "x", 1⟩, ⟨.sep, 1⟩,
        ⟨.ident "let", 1⟩,
        ⟨.ident "b", 1⟩, ⟨.sym '=', 1⟩, ⟨.ident "c", 1⟩] :=
    lex_eq_ok_iff.mpr ⟨[.name "let".toList, .blank ' ', .name ['a'], .blank ' ', .symbol '=',
      .blank ' ', .text '\'' [.plain 'x'], .semicolon, .blank ' ', .name "let".toList, .blank ' ',
      .name ['b'], .blank ' ', .symbol '=', .blank ' ', .name ['c']], by decide, rfl⟩
  have hfails : (eval (.empty : Memory Unit) "let a = 'x'; let b = c" none).Goes []
      (some (.error (.of (.script ⟨"unknown name 'c'", none, some 1⟩)),
        { Memory.empty with bindings := [("a", .str "x")] })) := by
    rw [eval_of_lex hlex]
    exact .done _
  refine ⟨hfails, ?_⟩
  rcases (remembered_of_failed hfails).2 with
    ⟨e, herror, -⟩ | ⟨tokens, place, first, rest, value, m, htokens, hasked, hbefore, hstops⟩
  · rw [hlex] at herror
    cases herror
  · obtain ⟨rfl, rfl⟩ := List.append_eq_nil_iff.mp hasked.symm
    exact ⟨tokens, place, value, m, htokens, hbefore, hstops⟩

/-- A single statement, which is complete before its last token. It fails and has bound its name,
although the statements before it, of which there are none, bind nothing. -/
theorem bound_before_unexpected_token :
    let text := "let x = 'a' 'b'"
    let tokens : List Lexeme :=
      [⟨.ident "let", 1⟩, ⟨.ident "x", 1⟩, ⟨.sym '=', 1⟩, ⟨.str "a", 1⟩, ⟨.str "b", 1⟩]
    lex text = .ok tokens ∧ (∀ place : Place tokens, place.before = [] ∧ place.own = tokens) ∧
    evalTokens (.empty : Memory Unit) [] none = .done (.ok .unit, .empty) ∧
    eval (.empty : Memory Unit) text none =
      .done (.error (.of (.script ⟨"unexpected Str(\"b\")", none, some 1⟩)),
        { Memory.empty with bindings := [("x", .str "a")] }) := by
  intro text tokens
  have hlex : lex text = .ok tokens :=
    lex_eq_ok_iff.mpr ⟨[.name "let".toList, .blank ' ', .name ['x'], .blank ' ', .symbol '=',
      .blank ' ', .text '\'' [.plain 'a'], .blank ' ', .text '\'' [.plain 'b']], by decide, rfl⟩
  refine ⟨hlex, fun place => place.alone (by simp [tokens]), rfl, ?_⟩
  rw [eval_of_lex hlex]
  rfl

end Calc

end SessionShell
