import SessionShell.Language
import SessionShell.Proofs.Program.Serving

/-!
Whom a program asks.

A program asks nobody but the hosts that are bound, and it binds no further ones. So what is bound
at first is all that an interpreter ever asks.
-/

namespace SessionShell

namespace Calc

variable {η α β : Type} {H : η → Prop}

structure Memory.BindsOnly (H : η → Prop) (m : Memory η) : Prop where
  hosts : ∀ name host, m.hosts.get? name = some host → H host
  default : ∀ host, m.defaultHost = some host → H host

theorem bindsOnly_empty : (Memory.empty : Memory η).BindsOnly H :=
  ⟨by simp [Memory.empty, Table.get?_nil], by simp [Memory.empty]⟩

theorem Memory.BindsOnly.bindHost {m : Memory η} {name : String} {host : η} (h : m.BindsOnly H)
    (hhost : H host) : (m.bindHost name host).BindsOnly H := by
  refine ⟨fun other host' hget => ?_, fun host' hd => ?_⟩
  · by_cases ho : other = name
    · subst ho
      rw [Memory.bindHost, Table.get?_insert_self] at hget
      exact Option.some.inj hget ▸ hhost
    · rw [Memory.bindHost, Table.get?_insert_of_ne _ _ ho] at hget
      exact h.hosts other host' hget
  · cases hd
    exact hhost

/-- What may be asked while a program is read, which methods it may name, and what is kept by
reading on. -/
structure Terms (η : Type) where
  asks : HostRequest η → Prop
  names : String → Prop
  keeps : Reading η → Prop

/-- Whatever an expression reads on, asks by a function or asks by a method is within the terms. -/
structure Terms.HoldReading (T : Terms η) : Prop where
  skip : ∀ r, T.keeps r → T.keeps { r with rest := r.rest.tail }
  names : ∀ r t method, T.keeps r → r.rest.head?.map Lexeme.token = some (.sym '.') →
    r.rest.tail.head? = some t → t.token = .ident method → T.names method
  print : ∀ r host text, T.keeps r → r.memory.defaultHost = some host → T.asks ⟨host, .out text⟩
  method : ∀ r object host method args call, T.keeps r → r.memory.hosts.get? object = some host →
    T.names method → requestOf? method args = some (.ok call) → T.asks ⟨host, call⟩

structure Terms.Hold (T : Terms η) : Prop extends T.HoldReading where
  separators : ∀ r, T.keeps r → T.keeps { r with rest := skipSeparators r.rest }
  binds : ∀ r name value, T.keeps r → T.keeps { r with memory := r.memory.bindValue name value }

variable {T : Terms η}

def MindsAt (T : Terms η) (r : Reading η) (p : Eval η α) : Prop :=
  Program.Asks T.asks (fun x : Except Fault α × Reading η => T.keeps x.2) (p.run.run r)

def Minds (T : Terms η) (p : Eval η α) : Prop :=
  ∀ r, T.keeps r → MindsAt T r p

theorem minds_pure (a : α) : Minds T (pure a : Eval η α) :=
  fun _ h => h

theorem minds_throw (e : Fault) : Minds T (throw e : Eval η α) :=
  fun _ h => h

theorem run_bind (p : Eval η α) (f : α → Eval η β) (r : Reading η) :
    (p >>= f).run.run r = (p.run.run r).bind fun x : Except Fault α × Reading η =>
      match x.1 with
      | .ok a => (f a).run.run x.2
      | .error e => Program.done (Except.error e, x.2) := by
  refine congrArg (Program.bind (p.run.run r)) (funext fun x => ?_)
  obtain ⟨result, r'⟩ := x
  cases result <;> rfl

theorem run_eatSym_bind_of_head {c : Char} (f : Bool → Eval η α) {r : Reading η}
    (h : r.rest.head?.map Lexeme.token = some (.sym c)) :
    (eatSym c >>= f).run.run r = (f true).run.run { r with rest := r.rest.tail } := by
  obtain ⟨memory, rest, source, lastLine⟩ := r
  cases rest with
  | nil => cases h
  | cons t rest =>
    obtain ⟨token, line⟩ := t
    cases h
    have heats : (if c = c then do skip; return true else return false : Eval η Bool) = do
        skip; return true :=
      if_pos rfl
    exact congrArg (fun p : Eval η Bool => (p >>= f).run.run _) heats

theorem run_next?_bind (f : Option Token → Eval η α) (r : Reading η) :
    (next? >>= f).run.run r = (f (r.rest.head?.map Lexeme.token)).run.run r :=
  rfl

theorem run_eatSym_bind_of_ne {c : Char} (f : Bool → Eval η α) {r : Reading η}
    (h : r.rest.head?.map Lexeme.token ≠ some (.sym c)) :
    (eatSym c >>= f).run.run r = (f false).run.run r := by
  obtain ⟨memory, rest, source, lastLine⟩ := r
  cases rest with
  | nil => rfl
  | cons t rest =>
    obtain ⟨token, line⟩ := t
    cases token with
    | sym c' =>
      have hne : c' ≠ c := by
        rintro rfl
        exact h rfl
      have hpasses : (if c' = c then do skip; return true else return false : Eval η Bool) =
          return false :=
        if_neg hne
      exact congrArg (fun p : Eval η Bool => (p >>= f).run.run _) hpasses
    | _ => rfl

theorem Minds.bind {p : Eval η α} {f : α → Eval η β} (hp : Minds T p) (hf : ∀ a, Minds T (f a)) :
    Minds T (p >>= f) := by
  intro r h
  rw [MindsAt, run_bind]
  refine (hp r h).bind fun x hx => ?_
  obtain ⟨result, r'⟩ := x
  cases result with
  | ok a => exact hf a r' hx
  | error e => exact hx

theorem minds_get_bind {f : Reading η → Eval η β} (hf : ∀ r, T.keeps r → Minds T (f r)) :
    Minds T (get >>= f) :=
  fun r h => hf r h r h

theorem minds_modify {f : Reading η → Reading η} (h : ∀ r, T.keeps r → T.keeps (f r)) :
    Minds T (modify f : Eval η PUnit) :=
  fun r hr => h r hr

theorem minds_lift {p : Hosted η α} (h : p.Asks T.asks fun _ => True) :
    Minds T (ExceptT.lift (StateT.lift p) : Eval η α) :=
  fun _ hr => Program.Asks.bind (Q := fun x : α × Reading η => T.keeps x.2) (h.bind fun _ _ => hr)
    fun _ hx => hx

theorem minds_fail (message : String) : Minds T (fail message : Eval η α) :=
  minds_get_bind fun _ _ => minds_throw _

theorem minds_next? : Minds T (next? : Eval η (Option Token)) :=
  minds_get_bind fun _ _ => minds_pure _

theorem minds_tokensLeft : Minds T (tokensLeft : Eval η Nat) :=
  minds_get_bind fun _ _ => minds_pure _

theorem minds_add (left right : Value) : Minds T (add left right : Eval η Value) := by
  unfold add
  split
  · exact minds_pure _
  · exact minds_fail _
  · exact minds_fail _
  · exact minds_pure _

theorem minds_arith (op : Arith) (left right : Value) :
    Minds T (arith op left right : Eval η Value) := by
  unfold arith
  split
  · split
    · exact minds_pure _
    · exact minds_fail _
  · exact minds_fail _

theorem minds_orThrow (result : Except Fault α) : Minds T (orThrow result : Eval η α) := by
  cases result with
  | ok a => exact minds_pure a
  | error e => exact minds_throw e

theorem asks_callFunction {host? : Option η}
    (h : ∀ host text, host? = some host → T.asks ⟨host, .out text⟩) (name : String)
    (args : List Value) :
    (callFunction host? name args).Asks T.asks fun _ => True := by
  unfold callFunction
  split
  · cases host? with
    | none => trivial
    | some host => exact ⟨h host _ rfl, fun written => by cases written <;> trivial⟩
  · split <;> trivial

section

variable (hT : T.HoldReading)

include hT

theorem minds_skip : Minds T (skip : Eval η Unit) :=
  minds_modify hT.skip

theorem minds_eatSym (c : Char) : Minds T (eatSym c : Eval η Bool) := by
  refine minds_next?.bind fun token? => ?_
  split
  · split
    · exact (minds_skip hT).bind fun _ => minds_pure _
    · exact minds_pure _
  · exact minds_pure _

theorem minds_expectSym (c : Char) : Minds T (expectSym c : Eval η Unit) := by
  refine (minds_eatSym hT c).bind fun eaten => ?_
  split
  · exact minds_pure _
  · exact minds_fail _

theorem minds_callMethod (object : String) {method : String} (hmethod : T.names method)
    (args : List Value) :
    Minds T (callMethod object method args : Eval η Value) := by
  refine minds_get_bind fun r hr => ?_
  split
  · exact minds_fail _
  · next host hhost =>
    split
    · exact minds_fail _
    · exact minds_fail _
    · next call hcall =>
      have hasks := hT.method r object host method args call hr hhost hmethod hcall
      exact Minds.bind (minds_lift ⟨hasks, fun _ => trivial⟩) fun _ => minds_orThrow _

end

/-! ## The grammar -/

section Operand

variable {operand : Eval η Value} (hT : T.HoldReading)

include hT

theorem minds_factors (h : Minds T operand) (fuel : Nat) (left : Value) :
    Minds T (factors operand fuel left) := by
  induction fuel generalizing left with
  | zero => exact minds_pure _
  | succ fuel ih =>
    have hop : ∀ op, Minds T (do
        skip
        let right ← operand
        factors operand fuel (← arith op left right)) := fun op =>
      (minds_skip hT).bind fun _ => h.bind fun right => (minds_arith op left right).bind ih
    refine minds_next?.bind fun token? => ?_
    split
    · exact hop .mul
    · exact hop .div
    · exact hop .rem
    · exact minds_pure _

theorem minds_term (h : Minds T operand) : Minds T (term operand) :=
  h.bind fun _ => minds_tokensLeft.bind fun _ => minds_factors hT h _ _

theorem minds_summands (h : Minds T operand) (fuel : Nat) (left : Value) :
    Minds T (summands operand fuel left) := by
  induction fuel generalizing left with
  | zero => exact minds_pure _
  | succ fuel ih =>
    refine (minds_eatSym hT '+').bind fun plus => ?_
    split
    · exact (minds_term hT h).bind fun _ => (minds_add _ _).bind ih
    · refine (minds_eatSym hT '-').bind fun minus => ?_
      split
      · exact (minds_term hT h).bind fun _ => (minds_arith _ _ _).bind ih
      · exact minds_pure _

theorem minds_expr (h : Minds T operand) : Minds T (expr operand) :=
  (minds_term hT h).bind fun _ => minds_tokensLeft.bind fun _ => minds_summands hT h _ _

theorem minds_moreArguments (h : Minds T operand) (fuel : Nat) (read : List Value) :
    Minds T (moreArguments operand fuel read) := by
  induction fuel generalizing read with
  | zero => exact minds_pure _
  | succ fuel ih =>
    refine (minds_expr hT h).bind fun value => (minds_eatSym hT ')').bind fun closed => ?_
    split
    · exact minds_pure _
    · exact (minds_expectSym hT ',').bind fun _ => ih _

theorem minds_arguments (h : Minds T operand) : Minds T (arguments operand) := by
  refine (minds_eatSym hT ')').bind fun closed => ?_
  split
  · exact minds_pure _
  · exact minds_tokensLeft.bind fun _ => minds_moreArguments hT h _ _

theorem minds_named (h : Minds T operand) (name : String) : Minds T (named operand name) := by
  refine (minds_eatSym hT '(').bind fun called => ?_
  split
  · refine (minds_arguments hT h).bind fun args => minds_get_bind fun r hr =>
      (minds_lift (asks_callFunction (hT.print r · · hr) name args)).bind fun result => ?_
    cases result with
    | ok value => exact minds_pure _
    | error message => exact minds_fail _
  · -- The method is named behind the dot, before its arguments are read.
    intro r hr
    by_cases hdot : r.rest.head?.map Lexeme.token = some (.sym '.')
    · rw [MindsAt, run_eatSym_bind_of_head _ hdot, if_pos rfl]
      rw [run_next?_bind]
      split
      · next method hmethod =>
        obtain ⟨t, ht, htoken⟩ := Option.map_eq_some_iff.mp hmethod
        have hnames : T.names method := hT.names r t method hr hdot ht htoken
        exact (minds_skip hT).bind (fun _ => (minds_expectSym hT '(').bind fun _ =>
          (minds_arguments hT h).bind fun _ => minds_callMethod hT _ hnames _) _ (hT.skip r hr)
      · exact minds_fail _ _ (hT.skip r hr)
    · rw [MindsAt, run_eatSym_bind_of_ne _ hdot, if_neg Bool.false_ne_true]
      refine minds_get_bind (fun r _ => ?_) r hr
      split
      · exact minds_pure _
      · exact minds_fail _

theorem minds_primary (h : Minds T operand) : Minds T (primary operand) := by
  refine minds_next?.bind fun token? => ?_
  split
  · exact minds_fail _
  · refine (minds_skip hT).bind fun _ => ?_
    split
    · exact minds_pure _
    · exact minds_pure _
    · exact (minds_expr hT h).bind fun _ => (minds_expectSym hT ')').bind fun _ => minds_pure _
    · exact minds_named hT h _
    · exact minds_fail _

theorem minds_power (h : Minds T operand) : Minds T (power operand) := by
  refine (minds_primary hT h).bind fun base => (minds_eatSym hT '^').bind fun raised => ?_
  split
  · exact h.bind fun _ => minds_arith _ _ _
  · exact minds_pure _

end Operand

theorem minds_signed (hT : T.HoldReading) (levels : Nat) :
    Minds T (signed levels : Eval η Value) := by
  induction levels with
  | zero => exact minds_fail _
  | succ levels ih =>
    refine (minds_eatSym hT '-').bind fun minus => ?_
    split
    · exact ih.bind fun _ => minds_arith _ _ _
    · exact minds_power hT ih

theorem minds_expression (hT : T.HoldReading) : Minds T (expression : Eval η Value) :=
  minds_expr hT (minds_signed hT _)

theorem minds_statement (hT : T.Hold) : Minds T (statement : Eval η Value) := by
  refine minds_next?.bind fun token? => ?_
  split
  · refine (minds_skip hT.toHoldReading).bind fun _ => minds_next?.bind fun name? => ?_
    split
    · refine (minds_skip hT.toHoldReading).bind fun _ =>
        (minds_expectSym hT.toHoldReading '=').bind fun _ =>
        (minds_expression hT.toHoldReading).bind fun value => Minds.bind ?_ fun _ => minds_pure _
      exact minds_modify fun r hr => hT.binds r _ value hr
    · exact minds_fail _
  · exact minds_expression hT.toHoldReading

theorem minds_statements (hT : T.Hold) (fuel : Nat) (last : Value) :
    Minds T (statements fuel last : Eval η Value) := by
  induction fuel generalizing last with
  | zero => exact minds_pure _
  | succ fuel ih =>
    refine (minds_modify hT.separators).bind fun _ => minds_next?.bind fun token? => ?_
    split
    · exact minds_pure _
    · refine (minds_statement hT).bind fun value => minds_next?.bind fun token? => ?_
      split
      · exact ih _
      · exact ih _
      · exact minds_fail _

theorem minds_program (hT : T.Hold) : Minds T (program : Eval η Value) :=
  minds_tokensLeft.bind fun _ => minds_statements hT _ _

theorem asks_eval_of_hold (hT : T.Hold) {memory : Memory η} {text : String} {source : Option String}
    (h : ∀ tokens, lex text = .ok tokens → T.keeps (Reading.start memory tokens source)) :
    (eval memory text source).Asks T.asks fun x =>
      x.2 = memory ∨ ∃ r, T.keeps r ∧ x.2 = r.memory := by
  unfold eval
  split
  · exact .inl rfl
  · next tokens htokens =>
    refine Program.Asks.bind (Q := fun x => ∃ r, T.keeps r ∧ x.2 = r.memory) ?_ fun _ hx => .inr hx
    exact (minds_program hT (Reading.start memory tokens source) (h tokens htokens)).bind
      fun x hx => ⟨x.2, hx, rfl⟩

def amongBound (H : η → Prop) : Terms η where
  asks request := H request.host
  names _ := True
  keeps r := r.memory.BindsOnly H

theorem hold_amongBound : (amongBound H).Hold where
  skip _ hr := hr
  separators _ hr := hr
  binds _ _ _ hr := ⟨hr.hosts, hr.default⟩
  names _ _ _ _ _ _ _ := trivial
  print _ host _ hr hhost := hr.default host hhost
  method _ object host _ _ _ hr hhost _ _ := hr.hosts object host hhost

theorem asks_eval {memory : Memory η} (h : memory.BindsOnly H) (text : String)
    (source : Option String) :
    (eval memory text source).Asks (fun request => H request.host) fun x => x.2.BindsOnly H := by
  refine (asks_eval_of_hold (T := amongBound H) hold_amongBound fun _ _ => h).mono ?_
  rintro ⟨result, memory'⟩ (rfl | ⟨r, hr, rfl⟩)
  · exact h
  · exact hr

end Calc

namespace Interpreter

variable {η : Type} {H : η → Prop}

def BindsOnly (H : η → Prop) : Interpreter η → Prop
  | .calculator memory => memory.BindsOnly H
  | .bare => True

theorem bindsOnly_ofKind (kind : EngineKind) : (ofKind kind : Interpreter η).BindsOnly H := by
  cases kind with
  | calculator => exact Calc.bindsOnly_empty
  | bare => trivial

theorem BindsOnly.bindHost {i : Interpreter η} {name : String} {host : η} (h : i.BindsOnly H)
    (hhost : H host) : (i.bindHost name host).BindsOnly H := by
  cases i with
  | calculator memory => exact Calc.Memory.BindsOnly.bindHost h hhost
  | bare => trivial

theorem asks_eval {i : Interpreter η} (h : i.BindsOnly H) (text : String) (source : Option String) :
    (i.eval text source).Asks (fun request => H request.host) fun x => x.2.BindsOnly H := by
  cases i with
  | calculator memory => exact (Calc.asks_eval h text source).bind fun _ hx => hx
  | bare => trivial

end Interpreter

/-!
## Programs that only print and exit

It can be told from the tokens that a program uses its hosts for nothing else: a method is called
only where it is named behind a dot.
-/

def HostCall.isPlain : HostCall → Bool
  | .name | .out _ | .exit _ => true
  | _ => false

namespace Calc

variable {η : Type}

def otherMethods : List String :=
  ["jump", "fork", "link", "kill", "list", "wait", "compile", "cancel", "join", "jobs"]

def methodAt? : List Token → Option String
  | .sym '.' :: .ident method :: _ => some method
  | _ => none

def sparing : List Token → Bool
  | [] => true
  | token :: tokens =>
    (methodAt? (token :: tokens)).all (!otherMethods.contains ·) && sparing tokens

theorem isPlain_of_requestOf? {method : String} {args : List Value} {call : HostCall}
    (hmethod : otherMethods.contains method = false)
    (h : requestOf? method args = some (.ok call)) :
    call.isPlain = true := by
  unfold requestOf? at h
  split at h
  case h_1 =>
    cases h
    rfl
  case h_2 =>
    split at h
    · cases h
      rfl
    · dsimp only at h
      cases hcode : codeArg? args 0 with
      | none =>
        rw [hcode] at h
        cases h
      | some code =>
        rw [hcode] at h
        cases h
        rfl
  case h_13 => cases h
  all_goals exact absurd hmethod (by decide)

theorem sparing_tail {tokens : List Token} (h : sparing tokens = true) :
    sparing tokens.tail = true := by
  cases tokens with
  | nil => exact h
  | cons token tokens => exact (Bool.and_eq_true_iff.mp h).2

theorem sparing_skipSeparators (rest : List Lexeme) (h : sparing (rest.map (·.token)) = true) :
    sparing ((skipSeparators rest).map (·.token)) = true := by
  induction rest with
  | nil => exact h
  | cons lexeme rest ih =>
    obtain ⟨token, line⟩ := lexeme
    cases token with
    | sep => exact ih (sparing_tail h)
    | _ => exact h

/-- As long as the tokens to come are sparing, hosts are only asked to print and to exit. -/
def plainly : Terms η where
  asks request := request.call.isPlain = true
  names method := otherMethods.contains method = false
  keeps r := sparing (r.rest.map (·.token)) = true

theorem hold_plainly : (plainly : Terms η).Hold where
  skip r hr := by
    have htail := sparing_tail hr
    rwa [← List.map_tail] at htail
  separators r hr := sparing_skipSeparators r.rest hr
  binds _ _ _ hr := hr
  names r t method hr hdot ht htoken := by
    have hr : sparing (r.rest.map (·.token)) = true := hr
    obtain ⟨dot, rest, hrest⟩ : ∃ dot rest, r.rest = dot :: t :: rest := by
      match hr' : r.rest, hdot, ht with
      | dot :: t' :: rest, _, ht => exact ⟨dot, rest, by rw [Option.some.inj ht]⟩
    rw [hrest] at hdot hr
    have hdot : dot.token = .sym '.' := Option.some.inj hdot
    rw [List.map_cons, List.map_cons, hdot, htoken] at hr
    have hmethod : (!otherMethods.contains method) = true := (Bool.and_eq_true_iff.mp hr).1
    rw [Bool.not_eq_true'] at hmethod
    exact hmethod
  print _ _ _ _ _ := rfl
  method _ _ _ _ _ _ _ _ hmethod hcall := isPlain_of_requestOf? hmethod hcall

def Sparing (text : String) : Prop :=
  match lex text with
  | .ok tokens => sparing (tokens.map (·.token)) = true
  | .error _ => True

instance (text : String) : Decidable (Sparing text) :=
  match h : lex text with
  | .ok tokens => decidable_of_iff (sparing (tokens.map (·.token)) = true) (by rw [Sparing, h])
  | .error _ => .isTrue (by rw [Sparing, h]; trivial)

theorem Sparing.of_lex {text : String} {tokens : List Lexeme} (h : Sparing text)
    (hlex : lex text = .ok tokens) : sparing (tokens.map (·.token)) = true := by
  rwa [Sparing, hlex] at h

theorem asks_eval_of_sparing {text : String} (h : Sparing text) (memory : Memory η)
    (source : Option String) :
    (eval memory text source).Asks (fun request => request.call.isPlain = true) fun _ => True :=
  (asks_eval_of_hold hold_plainly fun _ hlex => h.of_lex hlex).mono fun _ _ => trivial

end Calc

theorem Interpreter.asks_eval_of_sparing {η : Type} (i : Interpreter η) {text : String}
    (h : Calc.Sparing text) (source : Option String) :
    (i.eval text source).Asks (fun request => request.call.isPlain = true) fun _ => True := by
  cases i with
  | calculator memory => exact (Calc.asks_eval_of_sparing h memory source).bind fun _ _ => trivial
  | bare => trivial

end SessionShell
