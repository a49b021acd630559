import SessionShell.Proofs.Calc.Asking
import SessionShell.Proofs.Calc.Reads
import SessionShell.Proofs.Program.Serving

/-!
A program read alongside the same program with more behind it.

A statement ends where its tokens end or at a separator, and is never read beyond. So it does not
matter whether nothing is left behind its last token, or a separator and whatever follows; nor does
it matter on which lines the tokens stand, except that failures tell the line.
-/

namespace SessionShell.Calc

open Program (InStep inStep_refl)

variable {η α β : Type} {tail : List Token} {r r' s s' : Reading η}

def Stops (tail : List Token) : Prop :=
  tail.head? = none ∨ tail.head? = some .sep

/-- The same memory, and the same tokens to come with some more behind them. -/
structure Ahead (tail : List Token) (r r' : Reading η) : Prop where
  memory : r'.memory = r.memory
  tokens : r'.tokens = r.tokens ++ tail

/-- Both go on alike, and no token came back; or both fail and leave the same memory. They fail with
the same message if there is nothing more behind one of them than behind the other. -/
def Outcome (tail : List Token) (r : Reading η) (x y : Except Fault α × Reading η) : Prop :=
  match x.1, y.1 with
  | .ok a, .ok b => a = b ∧ Ahead tail x.2 y.2 ∧ x.2.tokens <:+ r.tokens
  | .error e, .error e' => y.2.memory = x.2.memory ∧ (tail = [] → e'.messages = e.messages)
  | _, _ => False

def Abreast (tail : List Token) (r r' : Reading η) (p q : Eval η α) : Prop :=
  InStep (Outcome tail r) (p.run.run r) (q.run.run r')

def Twins (tail : List Token) (p q : Eval η α) : Prop :=
  ∀ r r', Ahead tail r r' → Abreast tail r r' p q

theorem Outcome.of_suffix {x y : Except Fault α × Reading η} (h : Outcome tail s x y)
    (hs : s.tokens <:+ r.tokens) : Outcome tail r x y := by
  obtain ⟨result, left⟩ := x
  obtain ⟨result', left'⟩ := y
  cases result <;> cases result'
  · exact h
  · exact h
  · exact h
  · exact ⟨h.1, h.2.1, h.2.2.trans hs⟩

theorem abreast_bind {p q : Eval η α} {f g : α → Eval η β} (hp : Abreast tail r r' p q)
    (hf : ∀ a s s', Ahead tail s s' → s.tokens <:+ r.tokens → Abreast tail s s' (f a) (g a)) :
    Abreast tail r r' (p >>= f) (q >>= g) := by
  unfold Abreast
  rw [run_bind, run_bind]
  refine hp.bind ?_
  rintro ⟨result, left⟩ ⟨result', left'⟩ h
  cases result with
  | ok a =>
    cases result' with
    | ok b =>
      obtain ⟨rfl, hahead, hsuffix⟩ := h
      exact (hf a left left' hahead hsuffix).mono fun _ _ hout => hout.of_suffix hsuffix
    | error e => exact h.elim
  | error e =>
    cases result' with
    | ok b => exact h.elim
    | error e' => exact .done h

theorem Twins.bind {p q : Eval η α} {f g : α → Eval η β} (hp : Twins tail p q)
    (hf : ∀ a, Twins tail (f a) (g a)) : Twins tail (p >>= f) (q >>= g) :=
  fun _ _ h => abreast_bind (hp _ _ h) fun a s s' hs _ => hf a s s' hs

theorem twins_pure (a : α) : Twins tail (pure a : Eval η α) (pure a) :=
  fun _ _ h => .done ⟨rfl, h, List.suffix_refl _⟩

theorem abreast_fail {message message' : String} (h : Ahead tail r r')
    (hmessage : tail = [] → message' = message) :
    Abreast tail r r' (fail message : Eval η α) (fail message') :=
  .done ⟨h.memory, fun htail => by simp [hmessage htail, Fault.messages, Fault.of, Cause.messages]⟩

theorem twins_fail (message : String) : Twins tail (fail message : Eval η α) (fail message) :=
  fun _ _ h => abreast_fail h fun _ => rfl

theorem twins_throw (e : Fault) : Twins tail (throw e : Eval η α) (throw e) :=
  fun _ _ h => .done ⟨h.memory, fun _ => rfl⟩

theorem twins_orThrow (result : Except Fault α) : Twins tail (orThrow result : Eval η α)
    (orThrow result) := by
  cases result with
  | ok a => exact twins_pure a
  | error e => exact twins_throw e

theorem twins_get_bind {f g : Reading η → Eval η α}
    (h : ∀ r r', r'.memory = r.memory → Twins tail (f r) (g r')) :
      Twins tail (get >>= f) (get >>= g) :=
  fun r r' hr => h r r' hr.memory r r' hr

theorem twins_lift (p : Hosted η α) :
    Twins tail (ExceptT.lift (StateT.lift p) : Eval η α) (ExceptT.lift (StateT.lift p)) := by
  intro r r' h
  refine InStep.bind (InStep.bind (inStep_refl (R := Eq) (fun _ => rfl) p)
    (S := fun x y => x.1 = y.1 ∧ x.2 = r ∧ y.2 = r') ?_) ?_
  · rintro a _ rfl
    exact .done ⟨rfl, rfl, rfl⟩
  · rintro ⟨a, _⟩ ⟨_, _⟩ ⟨rfl, rfl, rfl⟩
    exact .done ⟨rfl, h, List.suffix_refl _⟩

/-! ## Tokens -/

theorem run_next_bind (f : Option Token → Eval η α) (r : Reading η) :
    (next? >>= f).run.run r = (f r.tokens.head?).run.run r := by
  have hhead : r.tokens.head? = r.rest.head?.map (·.token) := by
    simp [Reading.tokens]
  rw [hhead]
  rfl

theorem Ahead.skip {token : Token} {tokens : List Token} (h : Ahead tail r r')
    (hr : r.tokens = token :: tokens) : Ahead tail r.skipped r'.skipped :=
  ⟨h.memory, by rw [Reading.tokens_skipped, Reading.tokens_skipped, h.tokens, hr]; rfl⟩

theorem suffix_skipped (r : Reading η) : r.skipped.tokens <:+ r.tokens := by
  rw [Reading.tokens_skipped]
  exact List.tail_suffix _

theorem abreast_next_bind {f g : Option Token → Eval η α} (hstops : Stops tail)
    (h : Ahead tail r r') (htoken : ∀ token tokens, r.tokens = token :: tokens →
      Abreast tail r r' (f (some token)) (g (some token)))
    (hend : ∀ token?, tail.head? = token? → token? = none ∨ token? = some .sep →
      Abreast tail r r' (f none) (g token?)) :
    Abreast tail r r' (next? >>= f) (next? >>= g) := by
  rw [Abreast, run_next_bind, run_next_bind, h.tokens]
  cases htokens : r.tokens with
  | nil => exact hend _ rfl hstops
  | cons token tokens => exact htoken token tokens htokens

theorem Ahead.length (h : Ahead tail r r') : r'.tokens.length = r.tokens.length + tail.length := by
  rw [h.tokens, List.length_append]

theorem length_skipped_lt {token : Token} {tokens : List Token} (h : r.tokens = token :: tokens) :
    r.skipped.tokens.length < r.tokens.length := by
  rw [Reading.tokens_skipped, h]
  exact Nat.lt_succ_self _

theorem abreast_skip_bind {f g : Unit → Eval η α} {token : Token} {tokens : List Token}
    (h : Ahead tail r r') (hr : r.tokens = token :: tokens)
    (hf : ∀ s s', Ahead tail s s' → s.tokens.length < r.tokens.length →
      Abreast tail s s' (f ()) (g ())) :
    Abreast tail r r' (skip >>= f) (skip >>= g) :=
  (hf _ _ (h.skip hr) (length_skipped_lt hr)).mono fun _ _ hout => hout.of_suffix (suffix_skipped r)

theorem abreast_eatSym_bind {f g : Bool → Eval η α} (hstops : Stops tail) (c : Char)
    (h : Ahead tail r r') (heaten : ∀ s s', Ahead tail s s' → s.tokens.length < r.tokens.length →
      Abreast tail s s' (f true) (g true))
    (hother : Abreast tail r r' (f false) (g false)) :
    Abreast tail r r' (eatSym c >>= f) (eatSym c >>= g) := by
  simp only [eatSym, bind_assoc]
  refine abreast_next_bind hstops h (fun token tokens hr => ?_) fun token? _ htoken => ?_
  · split
    · split
      · simp only [bind_assoc, pure_bind]
        exact abreast_skip_bind h hr heaten
      · simpa only [pure_bind] using hother
    · simpa only [pure_bind] using hother
  · obtain rfl | rfl := htoken <;> simpa only [pure_bind] using hother

theorem twins_eatSym_bind {f g : Bool → Eval η α} (hstops : Stops tail) (c : Char)
    (h : ∀ eaten, Twins tail (f eaten) (g eaten)) : Twins tail (eatSym c >>= f) (eatSym c >>= g) :=
  fun _ _ hr => abreast_eatSym_bind hstops c hr (fun _ _ hs _ => h true _ _ hs) (h false _ _ hr)

theorem twins_expectSym (hstops : Stops tail) (c : Char) :
    Twins tail (expectSym c : Eval η Unit) (expectSym c) := by
  refine twins_eatSym_bind hstops c fun eaten => ?_
  split
  · exact twins_pure _
  · exact twins_fail _

theorem abreast_expectSym_bind {f g : Unit → Eval η α} (hstops : Stops tail) (c : Char)
    (h : Ahead tail r r') (hf : ∀ s s', Ahead tail s s' → s.tokens.length < r.tokens.length →
      Abreast tail s s' (f ()) (g ())) :
    Abreast tail r r' (expectSym c >>= f) (expectSym c >>= g) := by
  simp only [expectSym, bind_assoc]
  refine abreast_eatSym_bind hstops c h (fun s s' hs hless => ?_) ?_
  · simpa using hf s s' hs hless
  · exact .done ⟨h.memory, fun _ => rfl⟩

theorem twins_add (left right : Value) : Twins tail (add left right : Eval η Value)
    (add left right) := by
  unfold add
  split
  · exact twins_pure _
  · exact twins_fail _
  · exact twins_fail _
  · exact twins_pure _

theorem twins_arith (op : Arith) (left right : Value) :
    Twins tail (arith op left right : Eval η Value) (arith op left right) := by
  unfold arith
  split
  · split
    · exact twins_pure _
    · exact twins_fail _
  · exact twins_fail _

theorem twins_callMethod (object method : String) (args : List Value) :
    Twins tail (callMethod object method args : Eval η Value) (callMethod object method args) := by
  refine twins_get_bind fun r r' hmemory => ?_
  rw [hmemory]
  split
  · exact twins_fail _
  · split
    · exact twins_fail _
    · exact twins_fail _
    · exact Twins.bind (twins_lift _) fun _ => twins_orThrow _

/-! ## Loops

A loop is given at least as many rounds as there are tokens to come, so it never ends for want of
rounds. -/

def AtEnd (r : Reading η) : Prop :=
  Stops r.tokens

theorem Ahead.atEnd (hstops : Stops tail) (h : Ahead tail r r') (hr : r.tokens = []) :
    AtEnd r ∧ AtEnd r' := by
  refine ⟨?_, ?_⟩
  · rw [AtEnd, hr]
    exact .inl rfl
  · rw [AtEnd, h.tokens, hr]
    exact hstops

theorem run_eatSym_of_atEnd (h : AtEnd r) (c : Char) (f : Bool → Eval η α) :
    (eatSym c >>= f).run.run r = (f false).run.run r := by
  have heat : (eatSym c : Eval η Bool).run.run r = .done (.ok false, r) := by
    rw [eatSym, run_next_bind]
    rcases h with h | h <;> rw [h] <;> rfl
  rw [run_bind, heat]
  rfl

theorem run_factors_of_atEnd (h : AtEnd r) (operand : Eval η Value) (fuel : Nat) (left : Value) :
    (factors operand fuel left).run.run r = .done (.ok left, r) := by
  cases fuel with
  | zero => rfl
  | succ fuel =>
    rw [factors, run_next_bind]
    rcases h with h | h <;> rw [h] <;> rfl

theorem run_summands_of_atEnd (h : AtEnd r) (operand : Eval η Value) (fuel : Nat) (left : Value) :
    (summands operand fuel left).run.run r = .done (.ok left, r) := by
  cases fuel with
  | zero => rfl
  | succ fuel =>
    rw [summands, run_eatSym_of_atEnd h]
    simp only [Bool.false_eq_true, if_false]
    rw [run_eatSym_of_atEnd h]
    rfl

section Operand

variable {operand : Eval η Value}

theorem abreast_factors (hstops : Stops tail) (hoperand : Twins tail operand operand)
    {fuel fuel' : Nat} (left : Value) (h : Ahead tail r r') (hfuel : r.tokens.length ≤ fuel)
    (hfuel' : r'.tokens.length ≤ fuel') :
    Abreast tail r r' (factors operand fuel left) (factors operand fuel' left) := by
  induction fuel generalizing fuel' r r' left with
  | zero =>
    obtain ⟨hend, hend'⟩ := h.atEnd hstops (List.eq_nil_of_length_eq_zero (Nat.le_zero.mp hfuel))
    rw [Abreast, run_factors_of_atEnd hend, run_factors_of_atEnd hend']
    exact .done ⟨rfl, h, List.suffix_refl _⟩
  | succ fuel ih =>
    cases fuel' with
    | zero =>
      have hr : r.tokens = [] := List.eq_nil_of_length_eq_zero (by have := h.length; omega)
      obtain ⟨hend, hend'⟩ := h.atEnd hstops hr
      rw [Abreast, run_factors_of_atEnd hend, run_factors_of_atEnd hend']
      exact .done ⟨rfl, h, List.suffix_refl _⟩
    | succ fuel' =>
      refine abreast_next_bind hstops h (fun token tokens hr => ?_) fun token? _ htoken => ?_
      · have hop : ∀ op, Abreast tail r r'
            (do
              skip
              let right ← operand
              factors operand fuel (← arith op left right))
            (do
              skip
              let right ← operand
              factors operand fuel' (← arith op left right)) := fun op => by
          refine abreast_skip_bind h hr fun s s' hs hless => ?_
          refine abreast_bind (hoperand s s' hs) fun right s₁ s₁' hs₁ hle => ?_
          refine abreast_bind (twins_arith op left right s₁ s₁' hs₁) fun value s₂ s₂' hs₂ hle' => ?_
          have hlen := hle.length_le
          have hlen' := hle'.length_le
          exact ih value hs₂ (by omega) (by have := h.length; have := hs₂.length; omega)
        split
        · exact hop .mul
        · exact hop .div
        · exact hop .rem
        · exact twins_pure _ _ _ h
      · obtain rfl | rfl := htoken <;> exact twins_pure _ _ _ h

theorem length_rest (r : Reading η) : r.rest.length = r.tokens.length := by
  simp [Reading.tokens]

theorem abreast_tokensLeft_bind {f g : Nat → Eval η α}
    (h : Abreast tail r r' (f r.tokens.length) (g r'.tokens.length)) :
    Abreast tail r r' (tokensLeft >>= f) (tokensLeft >>= g) := by
  rw [← length_rest, ← length_rest] at h
  exact h

theorem twins_term (hstops : Stops tail) (h : Twins tail operand operand) :
    Twins tail (term operand) (term operand) :=
  h.bind fun left _ _ hs => abreast_tokensLeft_bind
    (abreast_factors hstops h left hs (Nat.le_refl _) (Nat.le_refl _))

theorem abreast_summands (hstops : Stops tail) (hoperand : Twins tail operand operand)
    {fuel fuel' : Nat} (left : Value) (h : Ahead tail r r') (hfuel : r.tokens.length ≤ fuel)
    (hfuel' : r'.tokens.length ≤ fuel') :
    Abreast tail r r' (summands operand fuel left) (summands operand fuel' left) := by
  induction fuel generalizing fuel' r r' left with
  | zero =>
    obtain ⟨hend, hend'⟩ := h.atEnd hstops (List.eq_nil_of_length_eq_zero (Nat.le_zero.mp hfuel))
    rw [Abreast, run_summands_of_atEnd hend, run_summands_of_atEnd hend']
    exact .done ⟨rfl, h, List.suffix_refl _⟩
  | succ fuel ih =>
    cases fuel' with
    | zero =>
      have hr : r.tokens = [] := List.eq_nil_of_length_eq_zero (by have := h.length; omega)
      obtain ⟨hend, hend'⟩ := h.atEnd hstops hr
      rw [Abreast, run_summands_of_atEnd hend, run_summands_of_atEnd hend']
      exact .done ⟨rfl, h, List.suffix_refl _⟩
    | succ fuel' =>
      have hterm : ∀ (op : Value → Eval η Value) s s', (∀ right, Twins tail (op right) (op right)) →
          Ahead tail s s' → s.tokens.length < r.tokens.length → Abreast tail s s'
            (do
              let right ← term operand
              summands operand fuel (← op right))
            (do
              let right ← term operand
              summands operand fuel' (← op right)) := fun op s s' hop hs hless => by
        refine abreast_bind (twins_term hstops hoperand s s' hs) fun right s₁ s₁' hs₁ hle => ?_
        refine abreast_bind (hop right s₁ s₁' hs₁) fun value s₂ s₂' hs₂ hle' => ?_
        have hlen := hle.length_le
        have hlen' := hle'.length_le
        exact ih value hs₂ (by omega) (by have := h.length; have := hs₂.length; omega)
      refine abreast_eatSym_bind hstops '+' h
        (hterm (add left) · · fun right => twins_add left right) ?_
      exact abreast_eatSym_bind hstops '-' h
        (hterm (arith .sub left) · · fun right => twins_arith .sub left right) (twins_pure _ _ _ h)

theorem twins_expr (hstops : Stops tail) (h : Twins tail operand operand) :
    Twins tail (expr operand) (expr operand) :=
  (twins_term hstops h).bind fun left _ _ hs => abreast_tokensLeft_bind
    (abreast_summands hstops h left hs (Nat.le_refl _) (Nat.le_refl _))

theorem abreast_moreArguments (hstops : Stops tail) (hoperand : Twins tail operand operand)
    {fuel fuel' : Nat} (read : List Value) (h : Ahead tail r r') (hfuel : r.tokens.length < fuel)
    (hfuel' : r'.tokens.length < fuel') :
    Abreast tail r r' (moreArguments operand fuel read) (moreArguments operand fuel' read) := by
  induction fuel generalizing fuel' r r' read with
  | zero => omega
  | succ fuel ih =>
    obtain ⟨fuel', rfl⟩ : ∃ n, fuel' = n + 1 := ⟨fuel' - 1, by omega⟩
    refine abreast_bind (twins_expr hstops hoperand r r' h) fun value s s' hs hle => ?_
    refine abreast_eatSym_bind hstops ')' hs (fun _ _ ht _ => twins_pure _ _ _ ht) ?_
    refine abreast_expectSym_bind hstops ',' hs fun t t' ht hless => ?_
    have hlen := hle.length_le
    exact ih _ ht (by omega) (by have := h.length; have := ht.length; omega)

theorem twins_arguments (hstops : Stops tail) (h : Twins tail operand operand) :
    Twins tail (arguments operand) (arguments operand) := by
  refine twins_eatSym_bind hstops ')' fun closed => ?_
  split
  · exact twins_pure _
  · exact fun r r' hr => abreast_tokensLeft_bind
      (abreast_moreArguments hstops h [] hr (Nat.lt_succ_self _) (Nat.lt_succ_self _))

theorem twins_named (hstops : Stops tail) (h : Twins tail operand operand) (name : String) :
    Twins tail (named operand name) (named operand name) := by
  refine twins_eatSym_bind hstops '(' fun called => ?_
  split
  · refine (twins_arguments hstops h).bind fun args => twins_get_bind fun r r' hmemory => ?_
    rw [hmemory]
    refine (twins_lift _).bind fun result => ?_
    cases result with
    | ok value => exact twins_pure _
    | error message => exact twins_fail _
  · refine twins_eatSym_bind hstops '.' fun method => ?_
    split
    · intro r r' hr
      refine abreast_next_bind hstops hr (fun token tokens htokens => ?_) fun token? _ htoken => ?_
      · split
        · refine abreast_skip_bind hr htokens fun s s' hs _ => ?_
          exact ((twins_expectSym hstops '(').bind fun _ =>
            (twins_arguments hstops h).bind fun args =>
            twins_callMethod _ _ _) s s' hs
        · exact twins_fail _ _ _ hr
      · obtain rfl | rfl := htoken <;> exact twins_fail _ _ _ hr
    · refine twins_get_bind fun r r' hmemory => ?_
      rw [hmemory]
      split
      · exact twins_pure _
      · exact twins_fail _

/-- At the end of a statement there is no operand. With more behind it, the separator is named. -/
theorem twins_primary (hstops : Stops tail) (h : Twins tail operand operand) :
    Twins tail (primary operand) (primary operand) := by
  intro r r' hr
  refine abreast_next_bind hstops hr (fun token tokens htokens => ?_) fun token? htail htoken => ?_
  · refine abreast_skip_bind hr htokens fun s s' hs _ => ?_
    split
    · exact twins_pure _ s s' hs
    · exact twins_pure _ s s' hs
    · exact ((twins_expr hstops h).bind fun _ => (twins_expectSym hstops ')').bind fun _ =>
        twins_pure _) s s' hs
    · exact twins_named hstops h _ s s' hs
    · exact twins_fail _ s s' hs
  · obtain rfl | rfl := htoken
    · exact twins_fail _ _ _ hr
    · refine .done ⟨hr.memory, fun hnil => ?_⟩
      rw [hnil] at htail
      cases htail

theorem twins_power (hstops : Stops tail) (h : Twins tail operand operand) :
    Twins tail (power operand) (power operand) := by
  refine (twins_primary hstops h).bind fun base => twins_eatSym_bind hstops '^' fun raised => ?_
  split
  · exact h.bind fun _ => twins_arith _ _ _
  · exact twins_pure _

end Operand

theorem twins_signed (hstops : Stops tail) (levels : Nat) :
    Twins tail (signed levels : Eval η Value) (signed levels) := by
  induction levels with
  | zero => exact twins_fail _
  | succ levels ih =>
    refine twins_eatSym_bind hstops '-' fun minus => ?_
    split
    · exact ih.bind fun _ => twins_arith _ _ _
    · exact twins_power hstops ih

theorem twins_expression (hstops : Stops tail) :
    Twins tail (expression : Eval η Value) expression :=
  twins_expr hstops (twins_signed hstops maxDepth)

theorem twins_bindValue (name : String) (value : Value) :
    Twins tail (modify fun r : Reading η => { r with memory := r.memory.bindValue name value })
      (modify fun r => { r with memory := r.memory.bindValue name value }) :=
  fun r _ h => .done ⟨rfl, ⟨congrArg (·.bindValue name value) h.memory, h.tokens⟩,
    List.suffix_refl r.tokens⟩

theorem twins_statement (hstops : Stops tail) :
    Twins tail (statement : Eval η Value) statement := by
  intro r r' h
  refine abreast_next_bind hstops h (fun token tokens hr => ?_) fun token? _ htoken => ?_
  · split
    · refine abreast_skip_bind h hr fun s s' hs _ => ?_
      refine abreast_next_bind hstops hs (fun token tokens hr => ?_) fun token? _ htoken => ?_
      · split
        · refine abreast_skip_bind hs hr fun t t' ht _ => ?_
          exact ((twins_expectSym hstops '=').bind fun _ =>
            (twins_expression hstops).bind fun value =>
            (twins_bindValue _ value).bind fun _ => twins_pure _) t t' ht
        · exact twins_fail _ _ _ hs
      · obtain rfl | rfl := htoken <;> exact twins_fail _ _ _ hs
    · exact twins_expression hstops _ _ h
  · obtain rfl | rfl := htoken <;> exact twins_expression hstops _ _ h

end SessionShell.Calc
