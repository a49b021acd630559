import SessionShell.Proofs.Calc.Remains

/-!
Evaluation one step at a time.

The functions of the grammar call one another, and a call waits until the one that it has made
returns. A descent is an evaluation halted anywhere: the function at work, the calls that wait for
it, the position in the tokens, and the counter that keeps signed operands from being nested too
deep. A step enters a function, goes once round a loop, or returns to the call that waits.
-/

namespace SessionShell

namespace Program

universe u

variable {Call : Type u} {Reply : Call → Type} {α β : Type} {H : Call → Prop} {Q : α → Prop}

theorem Asks.bind_congr {p : Program Call Reply α} {f g : α → Program Call Reply β} (h : p.Asks H Q)
    (hfg : ∀ a, Q a → f a = g a) : p >>= f = p >>= g := by
  induction p with
  | done a => exact hfg a h
  | crash => rfl
  | ask call next ih => exact congrArg (Program.ask call) (funext fun reply => ih reply (h.2 reply))

end Program

namespace Calc

open Relation (ReflTransGen)

variable {η α : Type}

/-! ## Parsers -/

/-- What the functions share. The next token is the one at `pos`, and `depth` counts the signed
operands that are being read. -/
structure Parser (η : Type) where
  tokens : List Lexeme
  pos : Nat
  depth : Nat
  memory : Memory η
  source : Option String

namespace Parser

def reading (p : Parser η) : Reading η :=
  ⟨p.memory, p.tokens.drop p.pos, p.source, (p.tokens.getLast?.map (·.line)).getD 1⟩

def peek? (p : Parser η) : Option Token :=
  p.tokens[p.pos]?.map (·.token)

/-- Passes over a token, whether there is one or not. -/
def advance (p : Parser η) : Parser η :=
  { p with pos := p.pos + 1 }

def eat? (p : Parser η) (c : Char) : Option (Parser η) :=
  match p.peek? with
  | some (.sym c') => if c' = c then some p.advance else none
  | _ => none

def deeper (p : Parser η) : Parser η :=
  { p with depth := p.depth + 1 }

def shallower (p : Parser η) : Parser η :=
  { p with depth := p.depth - 1 }

def fault (p : Parser η) (message : String) : Fault :=
  .of (.script ⟨message, p.source, some p.reading.line⟩)

def perform (p : Parser η) (q : Eval η α) : Hosted η (Except Fault α) := do
  return (← q.run.run p.reading).1

end Parser

/-! ## Calls -/

/-- The functions that read the tokens. -/
inductive Routine where
  | program
  | statement
  | expr
  | term
  | unary
  | power
  | primary
  | args
  deriving DecidableEq, Repr

abbrev Routine.Result : Routine → Type
  | .args => List Value
  | _ => Value

/-- A call of the second function that waits for a call of the first one, with what it knows
by then. -/
inductive Frame : Routine → Routine → Type where
  | sentence : Frame .statement .program
  | binding (name : String) : Frame .expr .statement
  | lone : Frame .expr .statement
  | firstTerm : Frame .term .expr
  | addend (left : Value) : Frame .term .expr
  | subtrahend (left : Value) : Frame .term .expr
  | firstFactor : Frame .unary .term
  | factor (op : Arith) (left : Value) : Frame .unary .term
  | negated : Frame .unary .unary
  | unsigned : Frame .power .unary
  | base : Frame .primary .power
  | exponent (base : Value) : Frame .unary .power
  | enclosed : Frame .expr .primary
  | function (name : String) : Frame .args .primary
  | method (object name : String) : Frame .args .primary
  | argument (read : List Value) : Frame .expr .args

/-- Calls that wait for a call of this function, the innermost first. A program is called by
nobody. -/
inductive Stack : Routine → Type where
  | nil : Stack .program
  | push {f g : Routine} (frame : Frame f g) (outer : Stack g) : Stack f

namespace Stack

def height {f : Routine} : Stack f → Nat
  | .nil => 0
  | .push _ outer => outer.height + 1

def operands {f : Routine} : Stack f → Nat
  | .nil => 0
  | .push (g := .unary) _ outer => outer.operands + 1
  | .push _ outer => outer.operands

end Stack

/-- What a function is about to do: it is entered, it is in front of another turn of its loop, or it
returns. -/
inductive Control : Routine → Type where
  | enter {f : Routine} : Control f
  | sentences (last : Value) : Control .program
  | summands (left : Value) : Control .expr
  | factors (left : Value) : Control .term
  | leave {f : Routine} (result : Except Fault f.Result) : Control f

def Control.onward {f : Routine} (go : Value → Control f) : Except Fault Value → Control f
  | .ok value => go value
  | .error e => .leave (.error e)

/-! ## Steps -/

structure Descent (η : Type) where
  parser : Parser η
  {routine : Routine}
  control : Control routine
  stack : Stack routine

namespace Descent

def start (memory : Memory η) (tokens : List Lexeme) (source : Option String) : Descent η :=
  ⟨⟨tokens, 0, 0, memory, source⟩, .enter, .nil⟩

def calling {f g : Routine} (p : Parser η) (frame : Frame f g) (outer : Stack g) : Descent η :=
  ⟨p, .enter, .push frame outer⟩

def leaving {f : Routine} (p : Parser η) (outer : Stack f) (result : Except Fault f.Result) :
    Descent η :=
  ⟨p, .leave result, outer⟩

def refused {f : Routine} (p : Parser η) (outer : Stack f) (message : String) : Descent η :=
  leaving p outer (.error (p.fault message))

def missing {f : Routine} (p : Parser η) (outer : Stack f) (c : Char) : Descent η :=
  refused p outer ("expected '" ++ c.toString ++ "'")

def method (p : Parser η) (object : String) (outer : Stack .primary) : Descent η :=
  match p.peek? with
  | some (.ident name) =>
    match p.advance.eat? '(' with
    | some p => calling p (.method object name) outer
    | none => missing p.advance outer '('
  | _ => refused p outer "expected a method name after '.'"

/-- What a name begins: a call of a function, a call of a method, or a variable. -/
def named (p : Parser η) (name : String) (outer : Stack .primary) : Descent η :=
  match p.eat? '(' with
  | some p => calling p (.function name) outer
  | none =>
    match p.eat? '.' with
    | some p => method p name outer
    | none =>
      match p.memory.bindings.get? name with
      | some value => leaving p outer (.ok value)
      | none => refused p outer ("unknown name '" ++ name ++ "'")

def binding (p : Parser η) (outer : Stack .statement) : Descent η :=
  match p.peek? with
  | some (.ident name) =>
    match p.advance.eat? '=' with
    | some p => calling p (.binding name) outer
    | none => missing p.advance outer '='
  | _ => refused p outer "expected a name after 'let'"

def enter (p : Parser η) : (f : Routine) → Stack f → Descent η
  | .program, outer => ⟨p, .sentences .unit, outer⟩
  | .statement, outer =>
    match p.peek? with
    | some (.ident "let") => binding p.advance outer
    | _ => calling p .lone outer
  | .expr, outer => calling p .firstTerm outer
  | .term, outer => calling p .firstFactor outer
  | .unary, outer =>
    if maxDepth ≤ p.depth then
      refused p outer ("expression nested deeper than " ++ toString maxDepth ++ " levels")
    else
      match p.eat? '-' with
      | some p => calling p.deeper .negated outer
      | none => calling p.deeper .unsigned outer
  | .power, outer => calling p .base outer
  | .primary, outer =>
    match p.peek? with
    | none => refused p outer "unexpected end of input"
    | some (.num x) => leaving p.advance outer (.ok (.num x))
    | some (.str s) => leaving p.advance outer (.ok (.str s))
    | some (.sym '(') => calling p.advance .enclosed outer
    | some (.ident name) => named p.advance name outer
    | some other => refused p.advance outer ("unexpected " ++ other.shown)
  | .args, outer =>
    match p.eat? ')' with
    | some p => leaving p outer (.ok [])
    | none => calling p (.argument []) outer

def scaling? : Option Token → Option Arith
  | some (.sym '*') => some .mul
  | some (.sym '/') => some .div
  | some (.sym '%') => some .rem
  | _ => none

def applied (name : String) (args : List Value) : Eval η Value := do
  let r ← get
  match ← ExceptT.lift (StateT.lift (callFunction r.memory.defaultHost name args)) with
  | .ok value => return value
  | .error message => fail message

def resume (p : Parser η) {f g : Routine} (frame : Frame f g) (value : f.Result) (outer : Stack g) :
    Hosted η (Descent η) :=
  match frame with
  | .sentence =>
    match p.peek? with
    | none | some .sep => return ⟨p, .sentences value, outer⟩
    | some other => return refused p outer ("unexpected " ++ other.shown)
  | .binding name =>
    return leaving { p with memory := p.memory.bindValue name value } outer (.ok .unit)
  | .lone => return leaving p outer (.ok value)
  | .firstTerm => return ⟨p, .summands value, outer⟩
  | .addend left => return ⟨p, .onward .summands (← p.perform (add left value)), outer⟩
  | .subtrahend left => return ⟨p, .onward .summands (← p.perform (arith .sub left value)), outer⟩
  | .firstFactor => return ⟨p, .factors value, outer⟩
  | .factor op left => return ⟨p, .onward .factors (← p.perform (arith op left value)), outer⟩
  | .negated => return leaving p.shallower outer (← p.perform (arith .sub (.num 0) value))
  | .unsigned => return leaving p.shallower outer (.ok value)
  | .base =>
    match p.eat? '^' with
    | some p => return calling p (.exponent value) outer
    | none => return leaving p outer (.ok value)
  | .exponent base => return leaving p outer (← p.perform (arith .pow base value))
  | .enclosed =>
    match p.eat? ')' with
    | some p => return leaving p outer (.ok value)
    | none => return missing p outer ')'
  | .function name => return leaving p outer (← p.perform (applied name value))
  | .method object name => return leaving p outer (← p.perform (callMethod object name value))
  | .argument read =>
    match p.eat? ')' with
    | some p => return leaving p outer (.ok (value :: read).reverse)
    | none =>
      match p.eat? ',' with
      | some p => return calling p (.argument (value :: read)) outer
      | none => return missing p outer ','

def unwind (p : Parser η) {f g : Routine} (e : Fault) (outer : Stack g) : Frame f g → Descent η
  | .negated | .unsigned => leaving p.shallower outer (.error e)
  | _ => leaving p outer (.error e)

theorem unwind_eq_leaving (p : Parser η) {f g : Routine} (e : Fault) (outer : Stack g)
    (frame : Frame f g)
    (hg : g ≠ .unary) : unwind p e outer frame = leaving p outer (.error e) := by
  cases frame with
  | negated => exact absurd rfl hg
  | unsigned => exact absurd rfl hg
  | _ => rfl

def step (d : Descent η) : Hosted η (Descent η) :=
  match d with
  | ⟨p, .enter (f := f), outer⟩ => return enter p f outer
  | ⟨p, .sentences last, outer⟩ =>
    match p.peek? with
    | none => return leaving p outer (.ok last)
    | some .sep => return ⟨p.advance, .sentences last, outer⟩
    | some _ => return calling p .sentence outer
  | ⟨p, .summands left, outer⟩ =>
    match p.eat? '+' with
    | some p => return calling p (.addend left) outer
    | none =>
      match p.eat? '-' with
      | some p => return calling p (.subtrahend left) outer
      | none => return leaving p outer (.ok left)
  | ⟨p, .factors left, outer⟩ =>
    match scaling? p.peek? with
    | some op => return calling p.advance (.factor op left) outer
    | none => return leaving p outer (.ok left)
  | ⟨p, .leave (.ok value), .push frame outer⟩ => resume p frame value outer
  | ⟨p, .leave (.error e), .push frame outer⟩ => return unwind p e outer frame
  | ⟨p, .leave result, .nil⟩ => return ⟨p, .leave result, .nil⟩

def result? (d : Descent η) : Option (Except Fault Value × Memory η) :=
  match d with
  | ⟨_, _, .push _ _⟩ => none
  | ⟨p, control, .nil⟩ =>
    match control with
    | .leave result => some (result, p.memory)
    | _ => none

/-- So many steps, and what has come of them. -/
def drive : Nat → Descent η → Hosted η (Option (Except Fault Value × Memory η))
  | 0, d => return d.result?
  | n + 1, d => do drive n (← d.step)

def Leads (d d' : Descent η) : Prop :=
  ∃ asked, d.step.Goes asked (some d')

def Reaches : Descent η → Descent η → Prop :=
  ReflTransGen Leads

end Descent

/-! ## Passing tokens -/

namespace Parser

variable {p p' p'' : Parser η} {c : Char} {k l : Nat}

structure Passes (p : Parser η) (k : Nat) (p' : Parser η) : Prop where
  tokens : p'.tokens = p.tokens
  pos : p'.pos = p.pos + k
  depth : p'.depth = p.depth
  source : p'.source = p.source
  exist : 0 < k → p.pos + k ≤ p.tokens.length

theorem passes_refl (p : Parser η) : p.Passes 0 p :=
  ⟨rfl, rfl, rfl, rfl, fun h => absurd h (Nat.lt_irrefl 0)⟩

theorem passes_advance {token : Token} (h : p.peek? = some token) : p.Passes 1 p.advance := by
  obtain ⟨lexeme, hget, -⟩ := Option.map_eq_some_iff.mp h
  exact ⟨rfl, rfl, rfl, rfl, fun _ => (List.getElem?_eq_some_iff.mp hget).1⟩

theorem passes_of_eat? (h : p.eat? c = some p') : p.Passes 1 p' := by
  unfold eat? at h
  split at h
  · next c' hpeek =>
    split at h
    · cases h
      exact passes_advance hpeek
    · cases h
  · cases h

theorem Passes.le_length (h : p.Passes k p') (hp : p.pos ≤ p.tokens.length) :
    p'.pos ≤ p.tokens.length := by
  have hexist := h.exist
  have hpos := h.pos
  omega

theorem Passes.trans (h : p.Passes k p') (h' : p'.Passes l p'') : p.Passes (k + l) p'' := by
  obtain ⟨htokens, hpos, hdepth, hsource, hexist⟩ := h
  obtain ⟨htokens', hpos', hdepth', hsource', hexist'⟩ := h'
  rw [htokens, hpos] at hexist'
  exact ⟨htokens'.trans htokens, by omega, hdepth'.trans hdepth, hsource'.trans hsource, by omega⟩

end Parser

/-! ## How far there is to go -/

/-- A bound for the steps of a function that passes no token: one to enter it, two for its return to
a caller and the call that follows from that, and those of the functions it calls. -/
def Routine.toll : Routine → Nat
  | .program => 20
  | .statement => 16
  | .expr => 13
  | .term => 10
  | .unary => 7
  | .power => 4
  | .primary => 1
  | .args => 16

def Control.toll {f : Routine} (p : Parser η) : Control f → Nat
  | .enter => f.toll
  | .sentences _ =>
    match p.peek? with
    | none | some .sep => 1
    | some _ => 19
  | .summands _ | .factors _ => 1
  | .leave _ => 0

/-- A function that has not passed a token can only call another one, or fail. -/
def Control.waits {f : Routine} : Control f → Bool
  | .enter => f ≠ .program
  | .leave (.error _) => true
  | _ => false

namespace Descent

/-- A bound for the steps that are left. Each token pays for what can be done before the
next one. -/
def toll (d : Descent η) : Nat :=
  20 * (d.parser.tokens.length - d.parser.pos) + (2 * d.stack.height + d.control.toll d.parser)

structure Moves (d d' : Descent η) : Prop where
  tokens : d'.parser.tokens = d.parser.tokens
  forth : d.parser.pos ≤ d'.parser.pos
  within : d.parser.pos ≤ d.parser.tokens.length → d'.parser.pos ≤ d.parser.tokens.length
  counted : d.parser.depth = d.stack.operands → d'.parser.depth = d'.stack.operands
  bounded : d.parser.depth ≤ maxDepth → d'.parser.depth ≤ maxDepth
  waits : d.control.waits = true → d'.parser.pos = d.parser.pos → d'.control.waits = true
  shorter : d'.toll < d.toll

/-- These calls wait beside the one at work, and this is what it may still spend. -/
structure Over {g : Routine} (d : Descent η) (outer : Stack g) (toll : Nat) : Prop where
  toll : 2 * d.stack.height + d.control.toll d.parser = 2 * outer.height + toll
  operands : d.stack.operands = outer.operands

section

variable {d d' : Descent η} {p' : Parser η} {f g : Routine} {outer : Stack g} {k toll : Nat}

theorem toll_lt (hp : d.parser.Passes k d'.parser) (hover : d.Over outer toll)
    (h : 2 * d'.stack.height + d'.control.toll d'.parser < 2 * outer.height + toll + 20 * k) :
    d'.toll < d.toll := by
  have hexist := hp.exist
  have hpos := hp.pos
  have hspend := hover.toll
  rw [Descent.toll, Descent.toll, hp.tokens]
  omega

theorem moves_on (hp : d.parser.Passes k p') (c : Control g) (hover : d.Over outer toll)
    (hwaits : k = 0 → d.control.waits = true → c.waits = true) (htoll : c.toll p' < toll + 20 * k) :
    d.Moves ⟨p', c, outer⟩ where
  tokens := hp.tokens
  forth := hp.pos ▸ Nat.le_add_right _ _
  within := hp.le_length
  counted h := hp.depth.trans (h.trans hover.operands)
  bounded h := hp.depth ▸ h
  waits h hpos := hwaits (Nat.add_eq_left.mp (hp.pos.symm.trans hpos)) h
  shorter := toll_lt hp hover (by
    show 2 * outer.height + c.toll p' < _
    omega)

theorem moves_leave (hp : d.parser.Passes k p') (result : Except Fault g.Result)
    (hover : d.Over outer toll)
    (hwaits : k = 0 → d.control.waits = true → ∃ e, result = .error e) (htoll : 0 < toll + 20 * k) :
    d.Moves (leaving p' outer result) := by
  refine moves_on hp (.leave result) hover (fun hk hwaiting => ?_) htoll
  obtain ⟨e, rfl⟩ := hwaits hk hwaiting
  rfl

theorem moves_refuse (hp : d.parser.Passes k p') (message : String) (hover : d.Over outer toll)
    (htoll : 0 < toll + 20 * k) : d.Moves (refused p' outer message) :=
  moves_leave hp _ hover (fun _ _ => ⟨_, rfl⟩) htoll

theorem waits_calling (p : Parser η) (frame : Frame f g) (outer : Stack g) :
    (calling p frame outer).control.waits = true := by
  cases frame <;> rfl

theorem operands_push (frame : Frame f g) (hg : g ≠ .unary) :
    (Stack.push frame outer).operands = outer.operands := by
  cases g with
  | unary => exact absurd rfl hg
  | _ => rfl

theorem moves_call (hp : d.parser.Passes k p') (frame : Frame f g) (hover : d.Over outer toll)
    (hg : g ≠ .unary) (htoll : f.toll + 2 < toll + 20 * k) : d.Moves (calling p' frame outer) where
  tokens := hp.tokens
  forth := hp.pos ▸ Nat.le_add_right _ _
  within := hp.le_length
  counted h := by
    rw [hover.operands] at h
    exact hp.depth.trans (h.trans (operands_push frame hg).symm)
  bounded h := hp.depth ▸ h
  waits _ _ := waits_calling p' frame outer
  shorter := toll_lt hp hover (by
    show 2 * outer.height + 2 + f.toll < _
    omega)

theorem moves_deeper (hp : d.parser.Passes k p') {outer : Stack .unary} (frame : Frame f .unary)
    (hover : d.Over outer toll) (hdepth : d.parser.depth < maxDepth)
    (htoll : f.toll + 2 < toll + 20 * k) :
    d.Moves (calling p'.deeper frame outer) where
  tokens := hp.tokens
  forth := hp.pos ▸ Nat.le_add_right _ _
  within := hp.le_length
  counted h := congrArg (· + 1) (hp.depth.trans (h.trans hover.operands))
  bounded _ := Nat.succ_le_of_lt (hp.depth ▸ hdepth)
  waits _ _ := waits_calling _ frame outer
  shorter := by
    -- The toll does not depend on the counter.
    have hshorter : (⟨p', .enter, .push frame outer⟩ : Descent η).toll < d.toll := by
      refine toll_lt hp hover ?_
      show 2 * outer.height + 2 + f.toll < _
      omega
    exact hshorter

end

/-! ## Each step moves on -/

variable {d : Descent η} {p p' : Parser η} {k : Nat}

theorem over_enter {f : Routine} (p : Parser η) (outer : Stack f) :
    (⟨p, .enter, outer⟩ : Descent η).Over outer f.toll :=
  ⟨rfl, rfl⟩

theorem over_leave {f g : Routine} (p : Parser η) (result : Except Fault f.Result)
    (frame : Frame f g) (outer : Stack g) (hg : g ≠ .unary) :
    (⟨p, .leave result, .push frame outer⟩ : Descent η).Over outer 2 :=
  ⟨rfl, operands_push frame hg⟩

theorem moves_method (hp : d.parser.Passes k p') (object : String) (outer : Stack .primary)
    (hover : d.Over outer 1) : d.Moves (method p' object outer) := by
  unfold method
  split
  · next hmethod =>
    have hp := hp.trans (Parser.passes_advance hmethod)
    split
    · next hopen =>
      refine moves_call (hp.trans (Parser.passes_of_eat? hopen)) _ hover (by decide) ?_
      show 16 + 2 < 1 + 20 * (k + 1 + 1)
      omega
    · exact moves_refuse hp _ hover (by omega)
  · exact moves_refuse hp _ hover (by omega)

theorem moves_named (hp : p.Passes 1 p') (name : String) (outer : Stack .primary) :
    Moves ⟨p, .enter, outer⟩ (named p' name outer) := by
  have hover := over_enter p outer
  unfold named
  split
  · next hopen =>
    exact moves_call (hp.trans (Parser.passes_of_eat? hopen)) _ hover (by decide) (by decide)
  split
  · next hdot =>
    exact moves_method (hp.trans (Parser.passes_of_eat? hdot)) name outer hover
  split
  · exact moves_leave hp _ hover (fun hk => nomatch hk) (by decide)
  · exact moves_refuse hp _ hover (by decide)

theorem moves_binding (hp : d.parser.Passes k p') (outer : Stack .statement)
    (hover : d.Over outer 16) :
    d.Moves (binding p' outer) := by
  unfold binding
  split
  · next hname =>
    have hp := hp.trans (Parser.passes_advance hname)
    split
    · next hequals =>
      refine moves_call (hp.trans (Parser.passes_of_eat? hequals)) _ hover (by decide) ?_
      show 13 + 2 < 16 + 20 * (k + 1 + 1)
      omega
    · exact moves_refuse hp _ hover (by omega)
  · exact moves_refuse hp _ hover (by omega)

theorem moves_enter (p : Parser η) (f : Routine) (outer : Stack f) :
    Moves ⟨p, .enter, outer⟩ (enter p f outer) := by
  have hover := over_enter p outer
  have hp := p.passes_refl
  cases f with
  | program =>
    refine moves_on hp _ hover (fun _ hwaits => nomatch hwaits) ?_
    rw [Control.toll]
    split <;> decide
  | statement =>
    rw [enter]
    split
    · next hlet => exact moves_binding (Parser.passes_advance hlet) outer hover
    · exact moves_call hp _ hover (by decide) (by decide)
  | expr => exact moves_call hp _ hover (by decide) (by decide)
  | term => exact moves_call hp _ hover (by decide) (by decide)
  | unary =>
    rw [enter]
    split
    · exact moves_refuse hp _ hover (by decide)
    · next hdepth =>
      have hdepth := Nat.lt_of_not_le hdepth
      split
      · next hsign => exact moves_deeper (Parser.passes_of_eat? hsign) _ hover hdepth (by decide)
      · exact moves_deeper hp _ hover hdepth (by decide)
  | power => exact moves_call hp _ hover (by decide) (by decide)
  | primary =>
    rw [enter]
    split
    · exact moves_refuse hp _ hover (by decide)
    · next hpeek =>
      exact moves_leave (Parser.passes_advance hpeek) _ hover (fun hk => nomatch hk) (by decide)
    · next hpeek =>
      exact moves_leave (Parser.passes_advance hpeek) _ hover (fun hk => nomatch hk) (by decide)
    · next hpeek => exact moves_call (Parser.passes_advance hpeek) _ hover (by decide) (by decide)
    · next hpeek => exact moves_named (Parser.passes_advance hpeek) _ outer
    · next hpeek => exact moves_refuse (Parser.passes_advance hpeek) _ hover (by decide)
  | args =>
    rw [enter]
    split
    · next hclose =>
      exact moves_leave (Parser.passes_of_eat? hclose) _ hover (fun hk => nomatch hk) (by decide)
    · exact moves_call hp _ hover (by decide) (by decide)

theorem moves_shallower {f : Routine} (p : Parser η) {result : Except Fault f.Result}
    (frame : Frame f .unary) (outer : Stack .unary) (result' : Except Fault Value)
    (hwaits : (Control.leave result).waits = true → ∃ e, result' = .error e) :
    Moves ⟨p, .leave result, .push frame outer⟩ (leaving p.shallower outer result') where
  tokens := rfl
  forth := Nat.le_refl _
  within h := h
  counted h := congrArg (· - 1) h
  bounded h := Nat.le_trans (Nat.sub_le _ _) h
  waits h _ := by
    obtain ⟨e, rfl⟩ := hwaits h
    rfl
  shorter := by
    show 20 * _ + (2 * outer.height + 0) < 20 * _ + (2 * (outer.height + 1) + 0)
    exact Nat.add_lt_add_left (by omega) _

theorem asks_perform {d : Descent η} {q : Eval η α} {next : Except Fault α → Descent η}
    (h : ∀ result, Moves d (next result)) :
    Program.Asks (fun _ => True) (Moves d) (do return next (← p.perform q)) :=
  (Program.asks_anything _).bind fun result _ => h result

theorem moves_onward {f g : Routine} (p : Parser η) (value : f.Result) (frame : Frame f g)
    (outer : Stack g) (hg : g ≠ .unary) {go : Value → Control g} (hgo : ∀ v, (go v).toll p < 2)
    (result : Except Fault Value) :
    Moves ⟨p, .leave (.ok value), .push frame outer⟩ ⟨p, .onward go result, outer⟩ := by
  refine moves_on p.passes_refl _ (over_leave p _ frame outer hg)
    (fun _ hwaits => nomatch hwaits) ?_
  cases result with
  | ok v => exact hgo v
  | error e => exact Nat.succ_pos 1

theorem asks_resume (p : Parser η) {f g : Routine} (frame : Frame f g) (value : f.Result)
    (outer : Stack g) :
    (resume p frame value outer).Asks (fun _ => True)
    (Moves ⟨p, .leave (.ok value), .push frame outer⟩) := by
  have hp := p.passes_refl
  -- A value that is returned can be returned again.
  have hwaits (k : Nat) (result : Except Fault g.Result) :
      k = 0 → (Control.leave (f := f) (.ok value)).waits = true → ∃ e, result = .error e :=
    fun _ h => nomatch h
  by_cases hg : g = .unary
  · subst hg
    cases frame with
    | negated =>
      exact asks_perform fun result => moves_shallower p _ outer result (hwaits 0 result rfl)
    | unsigned => exact moves_shallower p _ outer _ (hwaits 0 _ rfl)
  have hover := over_leave p (.ok value) frame outer hg
  cases frame with
  | sentence =>
    rw [resume]
    split
    · next hpeek =>
      refine moves_on hp _ hover (fun _ h => nomatch h) ?_
      rw [Control.toll, hpeek]
      decide
    · next hpeek =>
      refine moves_on hp _ hover (fun _ h => nomatch h) ?_
      rw [Control.toll, hpeek]
      decide
    · exact moves_refuse hp _ hover (by decide)
  | binding name =>
    have hbound : p.Passes 0 { p with memory := p.memory.bindValue name value } :=
      ⟨rfl, rfl, rfl, rfl, fun h => absurd h (Nat.lt_irrefl 0)⟩
    exact moves_leave hbound _ hover (hwaits 0 _) (by decide)
  | lone => exact moves_leave hp _ hover (hwaits 0 _) (by decide)
  | firstTerm => exact moves_on hp _ hover (fun _ h => nomatch h) Nat.one_lt_two
  | addend left => exact asks_perform (moves_onward p value _ outer hg fun _ => Nat.one_lt_two)
  | subtrahend left => exact asks_perform (moves_onward p value _ outer hg fun _ => Nat.one_lt_two)
  | firstFactor => exact moves_on hp _ hover (fun _ h => nomatch h) Nat.one_lt_two
  | factor op left => exact asks_perform (moves_onward p value _ outer hg fun _ => Nat.one_lt_two)
  | negated => exact absurd rfl hg
  | unsigned => exact absurd rfl hg
  | base =>
    rw [resume]
    split
    · next hraised =>
      exact moves_call (Parser.passes_of_eat? hraised) _ hover (by decide) (by decide)
    · exact moves_leave hp _ hover (hwaits 0 _) (by decide)
  | exponent base =>
    exact asks_perform fun result => moves_leave hp _ hover (hwaits 0 _) (by decide)
  | enclosed =>
    rw [resume]
    split
    · next hclose =>
      exact moves_leave (Parser.passes_of_eat? hclose) _ hover (hwaits 1 _) (by decide)
    · exact moves_refuse hp _ hover (by decide)
  | function name =>
    exact asks_perform fun result => moves_leave hp _ hover (hwaits 0 _) (by decide)
  | method object name =>
    exact asks_perform fun result => moves_leave hp _ hover (hwaits 0 _) (by decide)
  | argument read =>
    rw [resume]
    split
    · next hclose =>
      exact moves_leave (Parser.passes_of_eat? hclose) _ hover (hwaits 1 _) (by decide)
    split
    · next hcomma => exact moves_call (Parser.passes_of_eat? hcomma) _ hover (by decide) (by decide)
    · exact moves_refuse hp _ hover (by decide)

theorem moves_unwind (p : Parser η) {f g : Routine} (e : Fault) (frame : Frame f g)
    (outer : Stack g) :
    Moves ⟨p, .leave (.error e), .push frame outer⟩ (unwind p e outer frame) := by
  by_cases hg : g = .unary
  · subst hg
    cases frame with
    | negated => exact moves_shallower p _ outer _ fun _ => ⟨e, rfl⟩
    | unsigned => exact moves_shallower p _ outer _ fun _ => ⟨e, rfl⟩
  rw [unwind_eq_leaving p e outer frame hg]
  exact moves_leave p.passes_refl _ (over_leave p _ frame outer hg)
    (fun _ _ => ⟨e, rfl⟩) (by decide)

theorem over_self {f : Routine} {c : Control f} {n : Nat} (h : c.toll p = n) (outer : Stack f) :
    (⟨p, c, outer⟩ : Descent η).Over outer n :=
  ⟨congrArg (2 * outer.height + ·) h, rfl⟩

theorem asks_step {d : Descent η} (h : d.result? = none) :
    d.step.Asks (fun _ => True) (Moves d) := by
  obtain ⟨p, control, stack⟩ := d
  have hp := p.passes_refl
  cases control with
  | enter => exact moves_enter p _ stack
  | sentences last =>
    rw [step]
    split
    · next hpeek =>
      have htoll : Control.toll p (.sentences last) = 1 := by rw [Control.toll, hpeek]
      exact moves_leave hp _ (over_self htoll stack) (fun _ h => nomatch h) (by decide)
    · next hpeek =>
      have htoll : Control.toll p (.sentences last) = 1 := by rw [Control.toll, hpeek]
      refine moves_on (Parser.passes_advance hpeek) _ (over_self htoll stack)
        (fun hk => nomatch hk) ?_
      rw [Control.toll]
      split <;> decide
    · next token hsep hpeek =>
      have htoll : Control.toll p (.sentences last) = 19 := by
        rw [Control.toll, hpeek]
        cases token with
        | sep => exact absurd rfl hsep
        | _ => rfl
      exact moves_call hp _ (over_self htoll stack) (by decide) (by decide)
  | summands left =>
    have hover : Over ⟨p, .summands left, stack⟩ stack 1 := over_self rfl stack
    rw [step]
    split
    · next hplus => exact moves_call (Parser.passes_of_eat? hplus) _ hover (by decide) (by decide)
    split
    · next hminus => exact moves_call (Parser.passes_of_eat? hminus) _ hover (by decide) (by decide)
    · exact moves_leave hp _ hover (fun _ h => nomatch h) (by decide)
  | factors left =>
    have hover : Over ⟨p, .factors left, stack⟩ stack 1 := over_self rfl stack
    rw [step]
    split
    · next op hop =>
      obtain ⟨token, hpeek⟩ : ∃ token, p.peek? = some token := by
        cases hpeek : p.peek? with
        | none =>
          rw [hpeek] at hop
          cases hop
        | some token => exact ⟨token, rfl⟩
      exact moves_call (Parser.passes_advance hpeek) _ hover (by decide) (by decide)
    · exact moves_leave hp _ hover (fun _ h => nomatch h) (by decide)
  | leave result =>
    cases stack with
    | nil => cases h
    | push frame outer =>
      cases result with
      | ok value => exact asks_resume p frame value outer
      | error e => exact moves_unwind p e frame outer

/-! ## Wherever a descent is halted -/

theorem step_eq_of_result? {d : Descent η} {outcome : Except Fault Value × Memory η}
    (h : d.result? = some outcome) : d.step = pure d := by
  obtain ⟨p, control, stack⟩ := d
  cases stack with
  | push frame outer => cases h
  | nil =>
    cases control with
    | leave result => cases result <;> rfl
    | _ => cases h

theorem Leads.moves {d d' : Descent η} (h : Leads d d') : d' = d ∨ Moves d d' := by
  obtain ⟨asked, hgoes⟩ := h
  cases hresult : d.result? with
  | none => exact .inr ((asks_step hresult).of_goes hgoes)
  | some outcome =>
    rw [step_eq_of_result? hresult] at hgoes
    cases hgoes
    exact .inl rfl

/-- The position is in the tokens or at their end, and the counter tells how many calls for a signed
operand wait, which are never too many. -/
structure Sound (d : Descent η) : Prop where
  within : d.parser.pos ≤ d.parser.tokens.length
  counted : d.parser.depth = d.stack.operands
  bounded : d.parser.depth ≤ maxDepth

theorem sound_start (memory : Memory η) (tokens : List Lexeme) (source : Option String) :
    (start memory tokens source).Sound :=
  ⟨Nat.zero_le _, rfl, Nat.zero_le _⟩

theorem Moves.sound {d d' : Descent η} (h : Moves d d') (hd : d.Sound) : d'.Sound :=
  ⟨h.tokens ▸ h.within hd.within, h.counted hd.counted, h.bounded hd.bounded⟩

theorem Reaches.sound {d d' : Descent η} (h : Reaches d d') (hd : d.Sound) : d'.Sound := by
  induction h with
  | refl => exact hd
  | tail _ hleads ih =>
    rcases hleads.moves with rfl | hmoves
    · exact ih
    · exact hmoves.sound ih

theorem Reaches.tokens {d d' : Descent η} (h : Reaches d d') :
    d'.parser.tokens = d.parser.tokens := by
  induction h with
  | refl => rfl
  | tail _ hleads ih =>
    rcases hleads.moves with rfl | hmoves
    · exact ih
    · exact hmoves.tokens.trans ih

theorem Reaches.forth {d d' : Descent η} (h : Reaches d d') : d.parser.pos ≤ d'.parser.pos := by
  induction h with
  | refl => exact Nat.le_refl _
  | tail _ hleads ih =>
    rcases hleads.moves with rfl | hmoves
    · exact ih
    · exact ih.trans hmoves.forth

theorem Reaches.waits {d d' : Descent η} (h : Reaches d d') (hd : d.control.waits = true)
    (hpos : d'.parser.pos = d.parser.pos) : d'.control.waits = true := by
  induction h with
  | refl => exact hd
  | @tail d₁ d₂ hreach hleads ih =>
    rcases hleads.moves with rfl | hmoves
    · exact ih hpos
    · have hfirst : d.parser.pos ≤ d₁.parser.pos := Reaches.forth hreach
      have hsecond := hmoves.forth
      exact hmoves.waits (ih (by omega)) (by omega)

theorem Reaches.advances {p p' : Parser η} {f : Routine} {outer outer' : Stack f} {value : f.Result}
    (h : Reaches ⟨p, .enter, outer⟩ ⟨p', .leave (.ok value), outer'⟩) (hf : f ≠ .program) :
      p.pos < p'.pos := by
  refine lt_of_le_of_ne (Reaches.forth h) fun hpos => ?_
  have hwaits := Reaches.waits h (decide_eq_true hf) hpos.symm
  cases hwaits

end Descent

/-- The most calls that wait for this one, since a signed operand or the program was entered. -/
def Routine.room : Routine → Nat
  | .program | .power => 0
  | .statement | .primary => 1
  | .args => 2
  | .expr => 3
  | .term => 4
  | .unary => 5

theorem Stack.height_le {f : Routine} (stack : Stack f) :
    stack.height ≤ 6 * stack.operands + f.room := by
  induction stack with
  | nil => exact Nat.le_refl _
  | push frame outer ih =>
    cases frame <;> simp only [height, operands, Routine.room] at ih ⊢ <;> omega

theorem Descent.Sound.height_le {d : Descent η} (h : d.Sound) :
    d.stack.height ≤ 6 * maxDepth + 5 := by
  have hstack := d.stack.height_le
  have hroom : d.routine.room ≤ 5 := by cases d.routine <;> decide
  have hoperands : d.stack.operands ≤ maxDepth := h.counted ▸ h.bounded
  omega

/-! ## Driven to the end -/

namespace Descent

variable {d : Descent η}

theorem drive_of_result? {outcome : Except Fault Value × Memory η}
    (h : d.result? = some outcome) (n : Nat) :
    drive n d = pure (some outcome) := by
  induction n with
  | zero => exact congrArg pure h
  | succ n ih => rw [drive, step_eq_of_result? h, pure_bind, ih]

theorem toll_pos_of_result? (h : d.result? = none) : 0 < d.toll := by
  obtain @⟨p, f, control, stack⟩ := d
  refine Nat.lt_of_lt_of_le ?_ (Nat.le_add_left _ _)
  cases control with
  | enter => exact Nat.lt_of_lt_of_le (by cases f <;> decide) (Nat.le_add_left f.toll _)
  | sentences last =>
    refine Nat.lt_of_lt_of_le ?_ (Nat.le_add_left (Control.toll p (.sentences last)) _)
    rw [Control.toll]
    split <;> decide
  | summands left => exact Nat.succ_pos _
  | factors left => exact Nat.succ_pos _
  | leave result =>
    cases stack with
    | nil => cases h
    | push frame outer => exact Nat.succ_pos _

theorem drive_eq_drive {n m : Nat} (hn : d.toll ≤ n) (hm : d.toll ≤ m) : drive n d = drive m d := by
  -- Each step costs one of both numbers, and the toll goes down with them.
  induction n generalizing d m with
  | zero =>
    cases hresult : d.result? with
    | none => exact absurd (toll_pos_of_result? hresult) (by omega)
    | some outcome => rw [drive_of_result? hresult, drive_of_result? hresult]
  | succ n ih =>
    cases hresult : d.result? with
    | none =>
      have hpos := toll_pos_of_result? hresult
      cases m with
      | zero => omega
      | succ m =>
        refine (asks_step hresult).bind_congr fun d' hmoves => ih ?_ ?_
        · exact Nat.le_of_lt_succ (hmoves.shorter.trans_le hn)
        · exact Nat.le_of_lt_succ (hmoves.shorter.trans_le hm)
    | some outcome => rw [drive_of_result? hresult, drive_of_result? hresult]

def finish (d : Descent η) : Hosted η (Option (Except Fault Value × Memory η)) :=
  d.drive d.toll

theorem finish_eq (d : Descent η) : d.finish = d.step >>= finish := by
  cases hresult : d.result? with
  | none =>
    have hlast : d.finish = d.drive (d.toll + 1) := drive_eq_drive (Nat.le_refl _) (Nat.le_succ _)
    rw [hlast, drive]
    exact (asks_step hresult).bind_congr fun d' hmoves =>
      drive_eq_drive hmoves.shorter.le (Nat.le_refl _)
  | some outcome => rw [step_eq_of_result? hresult, pure_bind]

theorem finish_of_step (d' : Descent η) (h : d.step = pure d') : d.finish = d'.finish := by
  rw [finish_eq, h, pure_bind]

end Descent

end Calc

end SessionShell
