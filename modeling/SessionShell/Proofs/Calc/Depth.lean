import SessionShell.Proofs.Calc.Descent

/-!
How deep evaluation goes.

Function by function, a descent does what evaluation does, so evaluation is over when the descent
is. The levels that evaluation has left for signed operands and the counter of the descent always
make up `maxDepth`. A parenthesis, a sign or an exponent takes one of these levels, and the
innermost operand takes one as well. An operator between two operands takes none, so a chain can be
of any length.
-/

namespace SessionShell.Calc

variable {η α : Type}

/-! ## Back to evaluation -/

namespace Parser

variable {p p' s : Parser η} {r : Reading η} {c : Char}

def behind (p : Parser η) (r : Reading η) : Parser η :=
  { p with pos := p.tokens.length - r.rest.length, memory := r.memory }

theorem reading_behind (h : p.reading.Onward r) : (p.behind r).reading = r := by
  obtain ⟨memory, rest, source, lastLine⟩ := r
  obtain rfl : source = p.source := h.source
  obtain rfl : lastLine = p.reading.lastLine := h.lastLine
  have hsuffix : rest <:+ p.tokens := h.rest.trans (List.drop_suffix _ _)
  simp only [reading, behind]
  rw [← List.suffix_iff_eq_drop.mp hsuffix]

theorem behind_reading (h : p.pos ≤ p.tokens.length) : p.behind p.reading = p := by
  simp only [behind, reading, List.length_drop]
  rw [Nat.sub_sub_self h]

theorem peek?_eq_head? (p : Parser η) : p.peek? = p.reading.rest.head?.map (·.token) := by
  rw [peek?, reading, List.head?_drop]

theorem reading_advance (p : Parser η) : p.advance.reading = p.reading.skipped := by
  simp only [reading, advance, Reading.skipped, List.tail_drop]

theorem eq_advance_of_eat? (h : p.eat? c = some p') : p.peek? = some (.sym c) ∧ p' = p.advance := by
  unfold eat? at h
  split at h
  · next c' hpeek =>
    split at h
    · next heq => exact ⟨heq ▸ hpeek, (Option.some.inj h).symm⟩
    · cases h
  · cases h

theorem peek?_ne_of_eat? (h : p.eat? c = none) : p.peek? ≠ some (.sym c) := by
  intro hpeek
  rw [eat?, hpeek] at h
  simp at h

theorem run_eatSym_bind_of_some (h : p.eat? c = some p') (f : Bool → Eval η α) :
    (eatSym c >>= f).run.run p.reading = (f true).run.run p'.reading := by
  obtain ⟨hpeek, rfl⟩ := eq_advance_of_eat? h
  rw [peek?_eq_head?] at hpeek
  rw [run_eatSym_bind_of_head f hpeek, reading_advance]
  rfl

theorem run_eatSym_bind_of_none (h : p.eat? c = none) (f : Bool → Eval η α) :
    (eatSym c >>= f).run.run p.reading = (f false).run.run p.reading := by
  have hne := peek?_ne_of_eat? h
  rw [peek?_eq_head?] at hne
  exact run_eatSym_bind_of_ne f hne

theorem run_expectSym_bind_of_some (h : p.eat? c = some p') (f : Unit → Eval η α) :
    (expectSym c >>= f).run.run p.reading = (f ()).run.run p'.reading := by
  unfold expectSym
  rw [bind_assoc, run_eatSym_bind_of_some h]
  rfl

theorem run_expectSym_bind_of_none (h : p.eat? c = none) (f : Unit → Eval η α) :
    (expectSym c >>= f).run.run p.reading =
      pure (.error (p.fault ("expected '" ++ c.toString ++ "'")), p.reading) := by
  unfold expectSym
  rw [bind_assoc, run_eatSym_bind_of_none h]
  rfl

theorem run_next?_bind (p : Parser η) (f : Option Token → Eval η α) :
    (next? >>= f).run.run p.reading = (f p.peek?).run.run p.reading := by
  rw [peek?_eq_head?]
  rfl

theorem run_skip_bind (p : Parser η) (f : Unit → Eval η α) :
    (skip >>= f).run.run p.reading = (f ()).run.run p.advance.reading := by
  rw [reading_advance]
  rfl

theorem run_get_bind (p : Parser η) (f : Reading η → Eval η α) :
    (get >>= f).run.run p.reading = (f p.reading).run.run p.reading :=
  rfl

def left (p : Parser η) : Nat :=
  p.tokens.length - p.pos

theorem left_eq (p : Parser η) : p.left = p.reading.rest.length :=
  List.length_drop.symm

theorem run_tokensLeft_bind (p : Parser η) (f : Nat → Eval η α) :
    (tokensLeft >>= f).run.run p.reading = (f p.left).run.run p.reading := by
  rw [left, ← List.length_drop]
  rfl

theorem perform_bind {β : Type} (p : Parser η) (q : Eval η α) (f : Except Fault α → Hosted η β) :
    p.perform q >>= f = q.run.run p.reading >>= fun x => f x.1 := by
  rw [perform, bind_assoc]
  rfl

structure Onward (p s : Parser η) : Prop where
  tokens : s.tokens = p.tokens
  depth : s.depth = p.depth
  source : s.source = p.source
  within : s.pos ≤ p.tokens.length
  forth : p.pos ≤ s.pos

theorem onward_behind (hp : p.pos ≤ p.tokens.length) (h : p.reading.Onward r) :
    p.Onward (p.behind r) := by
  refine ⟨rfl, rfl, rfl, Nat.sub_le _ _, ?_⟩
  have hlength : r.rest.length ≤ (p.tokens.drop p.pos).length := h.rest.length_le
  rw [List.length_drop] at hlength
  show p.pos ≤ p.tokens.length - r.rest.length
  omega

theorem Onward.left_le (h : p.Onward s) : s.left ≤ p.left := by
  rw [left, left, h.tokens]
  exact Nat.sub_le_sub_left h.forth _

theorem Passes.left_lt (h : p.Passes 1 s) : s.left < p.left := by
  have hexist := h.exist Nat.one_pos
  have hpos := h.pos
  rw [left, left, h.tokens]
  omega

theorem Passes.behind {k : Nat} (h : p.Passes k p') (r : Reading η) : p'.behind r = p.behind r := by
  obtain ⟨tokens, pos, depth, memory, source⟩ := p'
  obtain ⟨rfl, -, rfl, rfl, -⟩ := h
  rfl

theorem Onward.behind (h : p.Onward s) (r : Reading η) : s.behind r = p.behind r := by
  obtain ⟨tokens, pos, depth, memory, source⟩ := s
  obtain ⟨rfl, rfl, rfl, -, -⟩ := h
  rfl

end Parser

namespace Descent

variable {f g : Routine} {p p' s : Parser η} {outer : Stack g}

def conclude (p : Parser η) (outer : Stack g) (run : Hosted η (Except Fault g.Result × Reading η)) :
    Hosted η (Option (Except Fault Value × Memory η)) := do
  let x ← run
  (leaving (p.behind x.2) outer x.1).finish

def Follows (p : Parser η) (control : Control g) (q : Eval η g.Result) : Prop :=
  ∀ outer : Stack g, (⟨p, control, outer⟩ : Descent η).finish = conclude p outer
    (q.run.run p.reading)

theorem conclude_passes {k : Nat} (h : p.Passes k p') (outer : Stack g)
    (run : Hosted η (Except Fault g.Result × Reading η)) :
      conclude p' outer run = conclude p outer run := by
  simp only [conclude, h.behind]

theorem conclude_onward (h : p.Onward s) (outer : Stack g)
    (run : Hosted η (Except Fault g.Result × Reading η)) :
    conclude s outer run = conclude p outer run := by
  simp only [conclude, h.behind]

theorem finish_leaving {k : Nat} (hp : p.pos ≤ p.tokens.length) (h : p.Passes k p')
    (outer : Stack g) (result : Except Fault g.Result) :
    (leaving p' outer result).finish = conclude p outer (pure (result, p'.reading)) := by
  have hp' : p'.pos ≤ p'.tokens.length := h.tokens ▸ h.le_length hp
  rw [conclude, pure_bind, ← h.behind, Parser.behind_reading hp']

theorem finish_refused (hp : p.pos ≤ p.tokens.length) (outer : Stack g) (message : String) :
    (refused p outer message).finish = conclude p outer
    ((fail message : Eval η g.Result).run.run p.reading) :=
  finish_leaving hp p.passes_refl outer (.error (p.fault message))

theorem finish_calling {frame : Frame f g} {q : Eval η f.Result} {next : f.Result → Eval η g.Result}
    (hp' : p'.pos ≤ p'.tokens.length) (hq : Follows p' .enter q) (hadvances : Advances q)
    (hunwind : ∀ e r, unwind (p'.behind r) e outer frame = leaving (p.behind r) outer (.error e))
    (hvalue : ∀ value s, p'.Onward s → s.left < p'.left →
      (leaving s (.push frame outer) (.ok value)).finish = conclude p outer
      ((next value).run.run s.reading)) :
    (calling p' frame outer).finish = conclude p outer ((q >>= next).run.run p'.reading) := by
  have hcall := hq (.push frame outer)
  rw [calling, hcall, conclude, conclude, run_bind]
  refine Eq.trans ?_ (bind_assoc _ _ _).symm
  refine (hadvances _).bind_congr fun x hx => ?_
  obtain ⟨result, r⟩ := x
  obtain ⟨honward, hshorter⟩ := hx
  cases result with
  | ok value =>
    have hless : (p'.behind r).left < p'.left := by
      rw [Parser.left_eq, Parser.reading_behind honward, Parser.left_eq]
      exact hshorter value rfl
    have hreturn := hvalue value (p'.behind r) (Parser.onward_behind hp' honward) hless
    rw [Parser.reading_behind honward] at hreturn
    exact hreturn
  | error e =>
    rw [finish_of_step (leaving (p.behind r) outer (.error e)) (congrArg pure (hunwind e r))]
    rfl

theorem finish_calling_within {frame : Frame f g} {q : Eval η f.Result}
    {next : f.Result → Eval η g.Result}
    {k : Nat} (hp' : p'.pos ≤ p'.tokens.length) (hpasses : p.Passes k p') (hg : g ≠ .unary)
    (hq : Follows p' .enter q) (hadvances : Advances q)
    (hvalue : ∀ value s, p'.Onward s → s.left < p'.left →
      (leaving s (.push frame outer) (.ok value)).finish = conclude s outer
      ((next value).run.run s.reading)) :
    (calling p' frame outer).finish = conclude p outer ((q >>= next).run.run p'.reading) := by
  refine finish_calling hp' hq hadvances (fun e r => ?_) fun value s hs hless => ?_
  · rw [unwind_eq_leaving _ e outer frame hg, hpasses.behind]
  · rw [hvalue value s hs hless, conclude_onward hs, conclude_passes hpasses]

def standing (r : Reading η) : Terms η where
  asks _ := True
  names _ := True
  keeps s := s = r

theorem minds_standing_callMethod (r : Reading η) (object method : String) (args : List Value) :
    Minds (standing r) (callMethod object method args : Eval η Value) := by
  refine minds_get_bind fun _ _ => ?_
  split
  · exact minds_fail _
  · split
    · exact minds_fail _
    · exact minds_fail _
    · exact Minds.bind (minds_lift (Program.asks_anything _)) fun _ => minds_orThrow _

theorem minds_standing_applied (r : Reading η) (name : String) (args : List Value) :
    Minds (standing r) (applied name args : Eval η Value) := by
  refine minds_get_bind fun _ _ => (minds_lift (Program.asks_anything _)).bind fun result => ?_
  cases result with
  | ok value => exact minds_pure _
  | error message => exact minds_fail _

theorem finish_performing {d : Descent η} {q : Eval η g.Result} (hp : p.pos ≤ p.tokens.length)
    (hq : Minds (standing p.reading) q)
    (hd : d.step = p.perform q >>= fun result => pure (leaving p outer result)) :
    d.finish = conclude p outer (q.run.run p.reading) := by
  rw [finish_eq, hd, bind_assoc, p.perform_bind, conclude]
  refine (hq _ rfl).bind_congr fun x hx => ?_
  have hx : x.2 = p.reading := hx
  rw [hx, Parser.behind_reading hp]
  exact pure_bind _ _

theorem finish_performing_onward {d : Descent η} {q : Eval η Value} {go : Value → Control g}
    {k : Value → Eval η g.Result} (hp : p.pos ≤ p.tokens.length) (hq : Minds (standing p.reading) q)
    (hgo : ∀ v, Follows p (go v) (k v))
    (hd : d.step = p.perform q >>= fun result => pure ⟨p, .onward go result, outer⟩) :
    d.finish = conclude p outer ((q >>= k).run.run p.reading) := by
  rw [finish_eq, hd, bind_assoc, p.perform_bind, conclude, run_bind]
  refine Eq.trans ?_ (bind_assoc _ _ _).symm
  refine (hq _ rfl).bind_congr fun x hx => ?_
  obtain ⟨result, r⟩ := x
  obtain rfl : r = p.reading := hx
  rw [pure_bind]
  cases result with
  | ok v => exact hgo v outer
  | error e => exact finish_leaving hp p.passes_refl outer (.error e)

end Descent

/-! ## The functions of an expression -/

structure Parser.At (p : Parser η) (levels : Nat) : Prop where
  within : p.pos ≤ p.tokens.length
  depth : p.depth + levels = maxDepth

theorem Parser.At.onward {p s : Parser η} {levels : Nat} (h : p.At levels) (hs : p.Onward s) :
    s.At levels :=
  ⟨hs.tokens ▸ hs.within, hs.depth ▸ h.depth⟩

theorem Parser.At.passes {p s : Parser η} {levels k : Nat} (h : p.At levels) (hs : p.Passes k s) :
    s.At levels :=
  ⟨hs.tokens ▸ hs.le_length h.within, hs.depth ▸ h.depth⟩

theorem Parser.At.deeper {p : Parser η} {levels : Nat} (h : p.At (levels + 1)) :
    p.deeper.At levels :=
  ⟨h.within, (Nat.succ_add_eq_add_succ _ _).trans h.depth⟩

namespace Descent

variable {f g : Routine} {p p' s : Parser η} {outer : Stack g} {levels : Nat}

/-- The functions for signed operands with this many levels left do what evaluation does. -/
def OperandFollows (η : Type) (levels : Nat) : Prop :=
  ∀ p : Parser η, p.At levels → Follows p (g := .unary) .enter (signed levels)

theorem follows_of_leaving {control : Control g} {value : g.Result} (hp : p.pos ≤ p.tokens.length)
    (hstep : ∀ outer, (⟨p, control, outer⟩ : Descent η).step = pure (leaving p outer (.ok value))) :
    Follows p control (pure value) := fun outer => by
  rw [finish_of_step _ (hstep outer)]
  exact finish_leaving hp p.passes_refl outer (.ok value)

theorem run_factors_succ (operand : Eval η Value) (fuel : Nat) (left : Value) (p : Parser η) :
    (Calc.factors operand (fuel + 1) left).run.run p.reading =
      match scaling? p.peek? with
      | none => (pure left : Eval η Value).run.run p.reading
      | some op =>
        (operand >>= fun right => arith op left right >>= Calc.factors operand fuel).run.run
          p.advance.reading := by
  have hnext : (Calc.factors operand (fuel + 1) left).run.run p.reading =
      (match scaling? p.peek? with
      | none => return left
      | some op => do
        skip
        let right ← operand
        Calc.factors operand fuel (← arith op left right) : Eval η Value).run.run p.reading :=
    p.run_next?_bind _
  rw [hnext]
  cases scaling? p.peek? with
  | none => rfl
  | some op => exact p.run_skip_bind _

theorem passes_of_scaling? {op : Arith} (h : scaling? p.peek? = some op) :
    p.Passes 1 p.advance := by
  cases hpeek : p.peek? with
  | none =>
    rw [hpeek] at h
    cases h
  | some token => exact Parser.passes_advance hpeek

/-- One turn of a loop: an operator is passed, the operand behind it is called for, and the loop
goes on with what the two operands come to. -/
theorem finish_turn {frame : Frame f g} {q : Eval η f.Result} {combine : f.Result → Eval η Value}
    {go : Value → Control g} {loop : Value → Eval η g.Result} (hp' : p'.At levels)
    (hpasses : p.Passes 1 p') (hg : g ≠ .unary) (hq : Follows p' .enter q) (hadvances : Advances q)
    (hcombine : ∀ r value, Minds (standing r) (combine value))
    (hresume : ∀ s value, resume s frame value outer =
      s.perform (combine value) >>= fun result => pure ⟨s, .onward go result, outer⟩)
    (hloop : ∀ s : Parser η, s.At levels → s.left < p.left → ∀ v, Follows s (go v) (loop v)) :
    (calling p' frame outer).finish =
      conclude p outer ((q >>= fun value => combine value >>= loop).run.run p'.reading) := by
  refine finish_calling_within hp'.within hpasses hg hq hadvances fun value s hs _ => ?_
  have hless : s.left < p.left := hs.left_le.trans_lt hpasses.left_lt
  have hat := hp'.onward hs
  exact finish_performing_onward hat.within (hcombine _ _) (hloop s hat hless) (hresume s value)

theorem follows_factors (hop : OperandFollows η levels) {fuel : Nat} {left : Value}
    (hp : p.At levels) (hfuel : p.left ≤ fuel) :
      Follows p (.factors left) (Calc.factors (signed levels) fuel left) := by
  -- On the turns of the loop: each passes its operator, so there are tokens enough for all of them.
  induction fuel generalizing p left with
  | zero =>
    refine follows_of_leaving hp.within fun outer => ?_
    cases hscaling : scaling? p.peek? with
    | none => rw [step, hscaling]
    | some op =>
      have hleft := (passes_of_scaling? hscaling).left_lt
      omega
  | succ fuel ih =>
    intro outer
    rw [run_factors_succ]
    cases hscaling : scaling? p.peek? with
    | none => exact follows_of_leaving hp.within (fun outer => by rw [step, hscaling]) outer
    | some op =>
      have hpasses := passes_of_scaling? hscaling
      have hp' := hp.passes hpasses
      rw [finish_of_step (calling p.advance (.factor op left) outer) (by rw [step, hscaling])]
      exact finish_turn hp' hpasses (by decide) (hop _ hp') (advances_signed _)
        (fun _ _ => minds_arith _ _ _)
        (fun _ _ => rfl) fun s hs hless v => ih hs (by omega)

theorem follows_term (hop : OperandFollows η levels) (hp : p.At levels) :
    Follows p (g := .term) .enter (Calc.term (signed levels)) := by
  intro outer
  rw [finish_of_step (calling p .firstFactor outer) rfl]
  refine finish_calling_within hp.within p.passes_refl (by decide) (hop _ hp) (advances_signed _)
    fun value s hs _ => ?_
  rw [finish_of_step ⟨s, .factors value, outer⟩ rfl, s.run_tokensLeft_bind]
  exact follows_factors hop (hp.onward hs) (Nat.le_refl _) outer

theorem follows_summands (hop : OperandFollows η levels) {fuel : Nat} {left : Value}
    (hp : p.At levels) (hfuel : p.left ≤ fuel) :
      Follows p (.summands left) (Calc.summands (signed levels) fuel left) := by
  induction fuel generalizing p left with
  | zero =>
    refine follows_of_leaving hp.within fun outer => ?_
    have hnone (c : Char) : p.eat? c = none := by
      cases heat : p.eat? c with
      | none => rfl
      | some p' =>
        have hleft := (Parser.passes_of_eat? heat).left_lt
        omega
    rw [step, hnone, hnone]
  | succ fuel ih =>
    intro outer
    have hloop (s : Parser η) (hs : s.At levels) (hless : s.left < p.left) (v : Value) :
        Follows s (.summands v) (Calc.summands (signed levels) fuel v) := ih hs (by omega)
    rw [Calc.summands]
    cases hplus : p.eat? '+' with
    | some p' =>
      have hpasses := Parser.passes_of_eat? hplus
      have hp' := hp.passes hpasses
      rw [p.run_eatSym_bind_of_some hplus, if_pos rfl,
        finish_of_step (calling p' (.addend left) outer) (by rw [step, hplus])]
      exact finish_turn hp' hpasses (by decide) (follows_term hop hp') (advances_term _)
        (fun _ _ => minds_add _ _) (fun _ _ => rfl) hloop
    | none =>
      rw [p.run_eatSym_bind_of_none hplus, if_neg Bool.false_ne_true]
      cases hminus : p.eat? '-' with
      | some p' =>
        have hpasses := Parser.passes_of_eat? hminus
        have hp' := hp.passes hpasses
        rw [p.run_eatSym_bind_of_some hminus, if_pos rfl,
          finish_of_step (calling p' (.subtrahend left) outer) (by rw [step, hplus, hminus])]
        exact finish_turn hp' hpasses (by decide) (follows_term hop hp') (advances_term _)
          (fun _ _ => minds_arith _ _ _) (fun _ _ => rfl) hloop
      | none =>
        rw [p.run_eatSym_bind_of_none hminus, if_neg Bool.false_ne_true]
        exact follows_of_leaving hp.within (fun outer => by rw [step, hplus, hminus]) outer

theorem follows_expr (hop : OperandFollows η levels) (hp : p.At levels) :
    Follows p (g := .expr) .enter (Calc.expr (signed levels)) := by
  intro outer
  rw [finish_of_step (calling p .firstTerm outer) rfl]
  refine finish_calling_within hp.within p.passes_refl (by decide) (follows_term hop hp)
    (advances_term _)
    fun value s hs _ => ?_
  rw [finish_of_step ⟨s, .summands value, outer⟩ rfl, s.run_tokensLeft_bind]
  exact follows_summands hop (hp.onward hs) (Nat.le_refl _) outer

theorem finish_argument (hop : OperandFollows η levels) {fuel : Nat} {read : List Value}
    (hp : p.At levels) (hfuel : p.left < fuel) (outer : Stack .args) :
    (calling p (.argument read) outer).finish =
      conclude p outer ((moreArguments (signed levels) fuel read).run.run p.reading) := by
  -- On the turns of the loop: each but the last passes a comma.
  induction fuel generalizing p read with
  | zero => omega
  | succ fuel ih =>
    rw [moreArguments]
    refine finish_calling_within hp.within p.passes_refl (by decide) (follows_expr hop hp)
      (advances_expr _)
      fun value s hs _ => ?_
    have hat := hp.onward hs
    cases hclose : s.eat? ')' with
    | some s' =>
      rw [s.run_eatSym_bind_of_some hclose, if_pos rfl,
        finish_of_step (leaving s' outer (.ok (value :: read).reverse))
          (by rw [leaving, step, resume, hclose])]
      exact finish_leaving hat.within (Parser.passes_of_eat? hclose) outer _
    | none =>
      rw [s.run_eatSym_bind_of_none hclose, if_neg Bool.false_ne_true]
      cases hcomma : s.eat? ',' with
      | some s' =>
        have hpasses := Parser.passes_of_eat? hcomma
        have hpassed := hpasses.left_lt
        have hforth := hs.left_le
        rw [s.run_expectSym_bind_of_some hcomma,
          finish_of_step (calling s' (.argument (value :: read)) outer)
          (by rw [leaving, step, resume, hclose, hcomma]), ih (hat.passes hpasses) (by omega)]
        exact conclude_passes hpasses outer _
      | none =>
        rw [s.run_expectSym_bind_of_none hcomma, finish_of_step (missing s outer ',')
          (by rw [leaving, step, resume, hclose, hcomma])]
        exact finish_leaving hat.within s.passes_refl outer _

theorem follows_args (hop : OperandFollows η levels) (hp : p.At levels) :
    Follows p (g := .args) .enter (arguments (signed levels)) := by
  intro outer
  rw [arguments]
  cases hclose : p.eat? ')' with
  | some p' =>
    rw [p.run_eatSym_bind_of_some hclose, if_pos rfl,
      finish_of_step (leaving p' outer (.ok [])) (by rw [step, enter, hclose])]
    exact finish_leaving hp.within (Parser.passes_of_eat? hclose) outer _
  | none =>
    rw [p.run_eatSym_bind_of_none hclose, if_neg Bool.false_ne_true, p.run_tokensLeft_bind,
      finish_of_step (calling p (.argument []) outer) (by rw [step, enter, hclose])]
    exact finish_argument hop hp (Nat.lt_succ_self _) outer

theorem finish_method (hop : OperandFollows η levels) (hp : p.At levels) (object : String)
    (outer : Stack .primary) :
    (method p object outer).finish = conclude p outer ((do
      match ← next? with
      | some (.ident name) =>
        skip
        expectSym '('
        callMethod object name (← arguments (signed levels))
      | _ => fail "expected a method name after '.'" : Eval η Value).run.run p.reading) := by
  rw [p.run_next?_bind]
  by_cases hident : ∃ name, p.peek? = some (.ident name)
  · obtain ⟨name, hname⟩ := hident
    have hpasses := Parser.passes_advance hname
    have hp' := hp.passes hpasses
    rw [hname, p.run_skip_bind, ← conclude_passes hpasses]
    cases hopen : p.advance.eat? '(' with
    | some p' =>
      have hpasses := Parser.passes_of_eat? hopen
      have hp'' := hp'.passes hpasses
      have hmethod : method p object outer = calling p' (.method object name) outer := by
        simp only [method, hname, hopen]
      rw [hmethod, Parser.run_expectSym_bind_of_some hopen]
      refine finish_calling_within hp''.within hpasses (by decide) (follows_args hop hp'')
        (advances_arguments _)
        fun value s hs _ => ?_
      exact finish_performing (hp''.onward hs).within
        (minds_standing_callMethod _ object name value) rfl
    | none =>
      have hmethod : method p object outer = missing p.advance outer '(' := by
        simp only [method, hname, hopen]
      rw [hmethod, Parser.run_expectSym_bind_of_none hopen]
      exact finish_leaving hp'.within (Parser.passes_refl _) outer _
  · have hmethod : method p object outer = refused p outer "expected a method name after '.'" := by
      rw [method]
      split
      · next name hname => exact absurd ⟨name, hname⟩ hident
      · rfl
    rw [hmethod]
    split
    · next name hname => exact absurd ⟨name, hname⟩ hident
    · exact finish_refused hp.within outer _

theorem finish_named (hop : OperandFollows η levels) (hp : p.At levels) (name : String)
    (outer : Stack .primary) :
    (named p name outer).finish = conclude p outer
    ((Calc.named (signed levels) name).run.run p.reading) := by
  rw [Calc.named]
  cases hopen : p.eat? '(' with
  | some p' =>
    have hpasses := Parser.passes_of_eat? hopen
    have hp' := hp.passes hpasses
    have hnamed : named p name outer = calling p' (.function name) outer := by rw [named, hopen]
    rw [hnamed, p.run_eatSym_bind_of_some hopen, if_pos rfl]
    refine finish_calling_within hp'.within hpasses (by decide) (follows_args hop hp')
      (advances_arguments _)
      fun value s hs _ => ?_
    exact finish_performing (hp'.onward hs).within (minds_standing_applied _ name value) rfl
  | none =>
    rw [p.run_eatSym_bind_of_none hopen, if_neg Bool.false_ne_true]
    cases hdot : p.eat? '.' with
    | some p' =>
      have hpasses := Parser.passes_of_eat? hdot
      have hnamed : named p name outer = method p' name outer := by simp only [named, hopen, hdot]
      rw [hnamed, p.run_eatSym_bind_of_some hdot, if_pos rfl, ← conclude_passes hpasses]
      exact finish_method hop (hp.passes hpasses) name outer
    | none =>
      rw [p.run_eatSym_bind_of_none hdot, if_neg Bool.false_ne_true, p.run_get_bind]
      have hmemory : p.reading.memory = p.memory := rfl
      rw [hmemory]
      cases hvar : p.memory.bindings.get? name with
      | some value =>
        have hnamed : named p name outer = leaving p outer (.ok value) := by
          simp only [named, hopen, hdot, hvar]
        rw [hnamed]
        exact finish_leaving hp.within p.passes_refl outer (.ok value)
      | none =>
        have hnamed : named p name outer = refused p outer ("unknown name '" ++ name ++ "'") := by
          simp only [named, hopen, hdot, hvar]
        rw [hnamed]
        exact finish_refused hp.within outer _

theorem finish_enclosed (hop : OperandFollows η levels) (hp : p.At levels)
    (outer : Stack .primary) :
    (calling p .enclosed outer).finish = conclude p outer ((do
      let value ← Calc.expr (signed levels)
      expectSym ')'
      return value : Eval η Value).run.run p.reading) := by
  refine finish_calling_within hp.within p.passes_refl (by decide) (follows_expr hop hp)
    (advances_expr _)
    fun value s hs _ => ?_
  cases hclose : s.eat? ')' with
  | some s' =>
    rw [s.run_expectSym_bind_of_some hclose,
      finish_of_step (leaving s' outer (.ok value)) (by rw [leaving, step, resume, hclose])]
    exact finish_leaving (hp.onward hs).within (Parser.passes_of_eat? hclose) outer _
  | none =>
    rw [s.run_expectSym_bind_of_none hclose,
      finish_of_step (missing s outer ')') (by rw [leaving, step, resume, hclose])]
    exact finish_leaving (hp.onward hs).within s.passes_refl outer _

theorem follows_primary (hop : OperandFollows η levels) (hp : p.At levels) :
    Follows p (g := .primary) .enter (Calc.primary (signed levels)) := by
  intro outer
  rw [finish_of_step (enter p .primary outer) rfl, Calc.primary, p.run_next?_bind, enter]
  cases hpeek : p.peek? with
  | none => exact finish_refused hp.within outer _
  | some token =>
    have hpasses := Parser.passes_advance hpeek
    have hp' := hp.passes hpasses
    rw [← conclude_passes hpasses]
    refine Eq.trans ?_ (congrArg (conclude p.advance outer) (p.run_skip_bind _).symm)
    cases token with
    | num x => exact finish_leaving hp'.within (Parser.passes_refl _) outer _
    | str s => exact finish_leaving hp'.within (Parser.passes_refl _) outer _
    | ident name => exact finish_named hop hp' name outer
    | sep => exact finish_refused hp'.within outer _
    | sym c =>
      by_cases hc : c = '('
      · subst hc
        exact finish_enclosed hop hp' outer
      · -- Nothing begins with any other symbol, so each match comes to its last case.
        split <;> rename_i h <;> cases h <;> try exact absurd rfl hc
        split
        · next h => cases h
        · next h => cases h
        · next h => cases h; exact absurd rfl hc
        · next h => cases h
        · exact finish_refused hp'.within outer _

theorem follows_power (hop : OperandFollows η levels) (hp : p.At levels) :
    Follows p (g := .power) .enter (Calc.power (signed levels)) := by
  intro outer
  rw [finish_of_step (calling p .base outer) rfl]
  refine finish_calling_within hp.within p.passes_refl (by decide) (follows_primary hop hp)
    (advances_primary _) fun base s hs _ => ?_
  have hat := hp.onward hs
  cases hraised : s.eat? '^' with
  | some s' =>
    have hpasses := Parser.passes_of_eat? hraised
    have hat' := hat.passes hpasses
    rw [s.run_eatSym_bind_of_some hraised, if_pos rfl,
      finish_of_step (calling s' (.exponent base) outer)
      (by rw [leaving, step, resume, hraised]), ← conclude_passes hpasses]
    refine finish_calling_within hat'.within (Parser.passes_refl _) (by decide) (hop _ hat')
      (advances_signed _) fun value t ht _ => ?_
    exact finish_performing (hat'.onward ht).within (minds_arith _ _ _) rfl
  | none =>
    rw [s.run_eatSym_bind_of_none hraised, if_neg Bool.false_ne_true,
      finish_of_step (leaving s outer (.ok base))
      (by rw [leaving, step, resume, hraised])]
    exact finish_leaving hat.within s.passes_refl outer _

/-- A call is made from within a signed operand, and the counter goes down again when it returns,
with an error or with a value. -/
theorem finish_deeper {frame : Frame f .unary} {outer : Stack .unary} {q : Eval η f.Result}
    {next : f.Result → Eval η Value} {k : Nat} (hp : p.pos ≤ p.tokens.length)
    (hpasses : p.Passes k p') (hq : Follows p'.deeper .enter q) (hadvances : Advances q)
    (hunwind : ∀ (s : Parser η) e, unwind s e outer frame = leaving s.shallower outer (.error e))
    (hresume : ∀ (s : Parser η) value, resume s frame value outer =
      s.shallower.perform (next value) >>= fun result => pure (leaving s.shallower outer result))
    (hnext : ∀ r value, Minds (standing r) (next value)) :
    (calling p'.deeper frame outer).finish = conclude p outer
    ((q >>= next).run.run p'.reading) := by
  have hp' : p'.deeper.pos ≤ p'.deeper.tokens.length := hpasses.tokens ▸ hpasses.le_length hp
  refine finish_calling hp' hq hadvances (fun e r => ?_) fun value s hs _ => ?_
  · rw [hunwind]
    exact congrArg (leaving · outer _) (hpasses.behind r)
  · have hs : p'.Onward s.shallower :=
      ⟨hs.tokens, congrArg (· - 1) hs.depth, hs.source, hs.within, hs.forth⟩
    have hwithin : s.shallower.pos ≤ s.shallower.tokens.length := hs.tokens ▸ hs.within
    have hreturn : (leaving s (.push frame outer) (.ok value)).finish =
        conclude s.shallower outer ((next value).run.run s.reading) :=
      finish_performing (p := s.shallower) hwithin (hnext s.reading value) (hresume s value)
    rw [hreturn, conclude_onward hs, conclude_passes hpasses]

theorem follows_unary (levels : Nat) : OperandFollows η levels := by
  -- What is called from within a signed operand has one level less.
  induction levels with
  | zero =>
    intro p hp outer
    have hdepth : maxDepth ≤ p.depth := hp.depth.ge
    rw [finish_of_step
      (refused p outer ("expression nested deeper than " ++ toString maxDepth ++ " levels"))
      (by rw [step, enter, if_pos hdepth])]
    exact finish_refused hp.within outer _
  | succ levels ih =>
    intro p hp outer
    have hlevels := hp.depth
    have hdepth : ¬maxDepth ≤ p.depth := by omega
    rw [signed]
    cases hsign : p.eat? '-' with
    | some p' =>
      have hpasses := Parser.passes_of_eat? hsign
      have hdeeper := (hp.passes hpasses).deeper
      rw [p.run_eatSym_bind_of_some hsign, if_pos rfl,
        finish_of_step (calling p'.deeper .negated outer)
        (by rw [step, enter, if_neg hdepth, hsign])]
      exact finish_deeper hp.within hpasses (ih _ hdeeper) (advances_signed _) (fun _ _ => rfl)
        (fun _ _ => rfl) fun _ _ => minds_arith _ _ _
    | none =>
      rw [p.run_eatSym_bind_of_none hsign, if_neg Bool.false_ne_true,
        finish_of_step (calling p.deeper .unsigned outer)
          (by rw [step, enter, if_neg hdepth, hsign]),
        ← bind_pure (power (signed levels))]
      exact finish_deeper hp.within p.passes_refl (follows_power ih hp.deeper) (advances_power _)
        (fun _ _ => rfl) (fun _ _ => rfl) fun _ _ => minds_pure _

/-! ## Statements and programs -/

theorem follows_expression (hp : p.At maxDepth) : Follows p (g := .expr) .enter expression :=
  follows_expr (follows_unary maxDepth) hp

theorem advances_expression : Advances (expression : Eval η Value) :=
  advances_expr maxDepth

theorem finish_binding (hp : p.At maxDepth) (outer : Stack .statement) :
    (binding p outer).finish = conclude p outer ((do
      match ← next? with
      | some (.ident name) =>
        skip
        expectSym '='
        let value ← expression
        modify fun r => { r with memory := r.memory.bindValue name value }
        return .unit
      | _ => fail "expected a name after 'let'" : Eval η Value).run.run p.reading) := by
  rw [p.run_next?_bind]
  by_cases hident : ∃ name, p.peek? = some (.ident name)
  · obtain ⟨name, hname⟩ := hident
    have hpasses := Parser.passes_advance hname
    have hp' := hp.passes hpasses
    rw [hname, p.run_skip_bind, ← conclude_passes hpasses]
    cases hequals : p.advance.eat? '=' with
    | some p' =>
      have hpasses := Parser.passes_of_eat? hequals
      have hp'' := hp'.passes hpasses
      have hbinding : binding p outer = calling p' (.binding name) outer := by
        simp only [binding, hname, hequals]
      rw [hbinding, Parser.run_expectSym_bind_of_some hequals]
      refine finish_calling_within hp''.within hpasses (by decide) (follows_expression hp'')
        advances_expression
        fun value s hs _ => ?_
      have hbound : s.Passes 0 { s with memory := s.memory.bindValue name value } :=
        ⟨rfl, rfl, rfl, rfl, fun h => absurd h (Nat.lt_irrefl 0)⟩
      rw [finish_of_step (leaving { s with memory := s.memory.bindValue name value } outer
        (.ok .unit)) rfl]
      exact finish_leaving (hp''.onward hs).within hbound outer (.ok .unit)
    | none =>
      have hbinding : binding p outer = missing p.advance outer '=' := by
        simp only [binding, hname, hequals]
      rw [hbinding, Parser.run_expectSym_bind_of_none hequals]
      exact finish_leaving hp'.within (Parser.passes_refl _) outer _
  · have hbinding : binding p outer = refused p outer "expected a name after 'let'" := by
      rw [binding]
      split
      · next name hname => exact absurd ⟨name, hname⟩ hident
      · rfl
    rw [hbinding]
    split
    · next name hname => exact absurd ⟨name, hname⟩ hident
    · exact finish_refused hp.within outer _

theorem follows_statement (hp : p.At maxDepth) : Follows p (g := .statement) .enter statement := by
  intro outer
  rw [finish_of_step (enter p .statement outer) rfl, statement, p.run_next?_bind]
  by_cases hlet : p.peek? = some (.ident "let")
  · have hpasses := Parser.passes_advance hlet
    have henter : enter p .statement outer = binding p.advance outer := by simp only [enter, hlet]
    rw [henter, hlet, ← conclude_passes hpasses]
    refine Eq.trans ?_ (congrArg (conclude p.advance outer) (p.run_skip_bind _).symm)
    exact finish_binding (hp.passes hpasses) outer
  · have henter : enter p .statement outer = calling p .lone outer := by
      rw [enter]
      split
      · next h => exact absurd h hlet
      · rfl
    rw [henter]
    split
    · next h => exact absurd h hlet
    rw [← bind_pure expression]
    refine finish_calling_within hp.within p.passes_refl (by decide) (follows_expression hp)
      advances_expression
      fun value s hs _ => ?_
    rw [finish_of_step (leaving s outer (.ok value)) rfl]
    exact finish_leaving (hp.onward hs).within s.passes_refl outer (.ok value)

theorem finish_separators (hp : p.pos ≤ p.tokens.length) (last : Value) (outer : Stack .program) :
    (⟨p, .sentences last, outer⟩ : Descent η).finish =
      finish ⟨p.behind p.reading.atStatement, .sentences last, outer⟩ := by
  induction hleft : p.left using Nat.strongRecOn generalizing p with
  | ind n ih =>
    by_cases hsep : p.peek? = some .sep
    · have hpasses := Parser.passes_advance hsep
      have hskip : p.advance.reading.atStatement = p.reading.atStatement := by
        rw [p.peek?_eq_head?] at hsep
        rw [p.reading_advance, Reading.atStatement, Reading.atStatement, skipSeparators_of_sep hsep]
        rfl
      rw [finish_of_step ⟨p.advance, .sentences last, outer⟩ (by rw [step, hsep]),
        ih _ (hleft ▸ hpasses.left_lt) (hpasses.tokens ▸ hpasses.le_length hp) rfl, hskip,
        hpasses.behind]
    · have hstay : p.reading.atStatement = p.reading := by
        rw [p.peek?_eq_head?] at hsep
        rw [Reading.atStatement, skipSeparators_of_ne hsep]
      rw [hstay, Parser.behind_reading hp]

theorem finish_sentence {fuel : Nat} (hp : p.At maxDepth)
    (hon : ∀ (s : Parser η) value, s.At maxDepth → s.left < p.left →
      Follows s (.sentences value) (statements fuel value)) (outer : Stack .program) :
    (calling p .sentence outer).finish =
      conclude p outer ((statement >>= afterStatement fuel).run.run p.reading) := by
  refine finish_calling_within hp.within p.passes_refl (by decide) (follows_statement hp)
    advances_statement
    fun value s hs hless => ?_
  have hat := hp.onward hs
  have hafter := hon s value hat hless outer
  rw [afterStatement, s.run_next?_bind]
  cases hnext : s.peek? with
  | none =>
    rw [finish_of_step ⟨s, .sentences value, outer⟩ (by rw [leaving, step, resume, hnext])]
    exact hafter
  | some token =>
    have hstep : token ≠ .sep → (leaving s (.push .sentence outer) (.ok value)).step =
        pure (refused s outer ("unexpected " ++ token.shown)) := by
      intro hsep
      rw [leaving, step, resume, hnext]
      cases token with
      | sep => exact absurd rfl hsep
      | _ => rfl
    cases token with
    | sep =>
      rw [finish_of_step ⟨s, .sentences value, outer⟩ (by rw [leaving, step, resume, hnext])]
      exact hafter
    | _ =>
      rw [finish_of_step _ (hstep (by simp))]
      exact finish_refused hat.within outer _

theorem follows_statements {fuel : Nat} {last : Value} (hp : p.At maxDepth)
    (hfuel : p.left < fuel) :
    Follows p (.sentences last) (statements fuel last) := by
  -- On the turns of the loop: each reads a statement, which passes a token.
  induction fuel generalizing p last with
  | zero => omega
  | succ fuel ih =>
    intro outer
    have honward := p.reading.onward_atStatement
    have hs := Parser.onward_behind hp.within honward
    have hat := hp.onward hs
    have hpeek : (p.behind p.reading.atStatement).peek? =
        (behindSeparators p.reading.tokens).head? := by
      rw [Parser.peek?_eq_head?, Parser.reading_behind honward, ← Reading.head?_tokens,
        tokens_atStatement]
    rw [finish_separators hp.within]
    cases htokens : behindSeparators p.reading.tokens with
    | nil =>
      rw [htokens] at hpeek
      rw [run_statements_of_none _ _ htokens,
        finish_of_step (leaving (p.behind p.reading.atStatement) outer (.ok last))
          (by rw [step, hpeek]; rfl),
        finish_leaving hat.within (Parser.passes_refl _), Parser.reading_behind honward,
        conclude_onward hs]
      rfl
    | cons token rest =>
      have hsep : token ≠ .sep :=
        fun h => head?_behindSeparators p.reading.tokens (by rw [htokens, h]; rfl)
      rw [htokens] at hpeek
      have hstep : (⟨p.behind p.reading.atStatement, .sentences last, outer⟩ : Descent η).step =
          pure (calling (p.behind p.reading.atStatement) .sentence outer) := by
        rw [step, hpeek]
        cases token with
        | sep => exact absurd rfl hsep
        | _ => rfl
      have hon (s : Parser η) (value : Value) (hs' : s.At maxDepth)
          (hless : s.left < (p.behind p.reading.atStatement).left) :
          Follows s (.sentences value) (statements fuel value) := by
        have hleft := hs.left_le
        exact ih hs' (by omega)
      rw [run_statements_of_some _ _ htokens, finish_of_step _ hstep, finish_sentence hat hon,
        Parser.reading_behind honward, conclude_onward hs]

theorem follows_program (hp : p.At maxDepth) : Follows p (g := .program) .enter program := by
  intro outer
  rw [finish_of_step ⟨p, .sentences .unit, outer⟩ rfl, program, p.run_tokensLeft_bind]
  exact follows_statements hp (Nat.lt_succ_self _) outer

theorem drive_start (memory : Memory η) (tokens : List Lexeme) (source : Option String) {n : Nat}
    (hn : 20 * (tokens.length + 1) ≤ n) :
    (start memory tokens source).drive n = some <$> evalTokens memory tokens source := by
  have htoll : (start memory tokens source).toll = 20 * (tokens.length + 1) := rfl
  have hat : (start memory tokens source).parser.At maxDepth := ⟨Nat.zero_le _, Nat.zero_add _⟩
  have hfinish : (start memory tokens source).finish = _ := follows_program hat .nil
  rw [drive_eq_drive (htoll ▸ hn) (Nat.le_refl _), ← finish, hfinish, conclude,
    evalTokens, map_bind]
  refine congrArg _ (funext fun x => ?_)
  rw [map_pure]
  exact drive_of_result? rfl _

end Descent

/-- What a function evaluates, with this for signed operands. -/
def Routine.evaluation (operand : Eval η Value) : (f : Routine) → Eval η f.Result
  | .program => Calc.program
  | .statement => Calc.statement
  | .expr => Calc.expr operand
  | .term => Calc.term operand
  | .unary => operand
  | .power => Calc.power operand
  | .primary => Calc.primary operand
  | .args => Calc.arguments operand

theorem Routine.advances_evaluation (levels : Nat) {f : Routine} (hf : f ≠ .program) :
    Advances (f.evaluation (signed levels) : Eval η f.Result) := by
  cases f with
  | program => exact absurd rfl hf
  | statement => exact advances_statement
  | expr => exact advances_expr levels
  | term => exact advances_term levels
  | unary => exact advances_signed levels
  | power => exact advances_power levels
  | primary => exact advances_primary levels
  | args => exact advances_arguments levels

theorem Stack.operands_statement (outer : Stack .statement) : outer.operands = 0 := by
  cases outer with
  | push frame outer =>
    cases frame
    cases outer with
    | nil => rfl
    | push frame outer => cases frame

theorem Stack.operands_program (outer : Stack .program) : outer.operands = 0 := by
  cases outer with
  | nil => rfl
  | push frame outer => cases frame

theorem Descent.Sound.follows_evaluation {p : Parser η} {f : Routine} {outer : Stack f}
    (h : Sound ⟨p, .enter, outer⟩) :
      Follows p .enter (f.evaluation (signed (maxDepth - p.depth))) := by
  have hat : p.At (maxDepth - p.depth) := ⟨h.within, Nat.add_sub_cancel' h.bounded⟩
  have hop : OperandFollows η (maxDepth - p.depth) := follows_unary _
  have hwhole (hzero : outer.operands = 0) : p.At maxDepth :=
    ⟨h.within, by rw [h.counted.trans hzero, Nat.zero_add]⟩
  cases f with
  | program => exact follows_program (hwhole outer.operands_program)
  | statement => exact follows_statement (hwhole outer.operands_statement)
  | expr => exact follows_expr hop hat
  | term => exact follows_term hop hat
  | unary => exact hop p hat
  | power => exact follows_power hop hat
  | primary => exact follows_primary hop hat
  | args => exact follows_args hop hat

/-! ## Wraps that are refused -/

section

variable {β : Type} {r s : Reading η} {q : Eval η α} {message : String} {levels : Nat} {wrap : Wrap}
  {wraps : List Wrap} {literal : Literal} {more : List Token}

def Refused (message : String) (q : Eval η α) (r : Reading η) : Prop :=
  ∃ line s, s.memory = r.memory ∧
    q.run.run r = pure (.error (.of (.script ⟨message, r.source, some line⟩)), s)

theorem refused_fail (r : Reading η) : Refused message (fail message : Eval η α) r :=
  ⟨r.line, r, rfl, rfl⟩

theorem Refused.bind (h : Refused message q r) (f : α → Eval η β) :
    Refused message (q >>= f) r := by
  obtain ⟨line, s, hmemory, hrun⟩ := h
  exact ⟨line, s, hmemory, by rw [run_bind, hrun]; rfl⟩

theorem Refused.of_run {p : Eval η α} (h : Refused message q s) (hmemory : s.memory = r.memory)
    (hsource : s.source = r.source) (hrun : p.run.run r = q.run.run s) : Refused message p r := by
  obtain ⟨line, t, ht, hq⟩ := h
  exact ⟨line, t, ht.trans hmemory, by rw [hrun, hq, hsource]⟩

theorem refused_expr {operand : Eval η Value} (h : Refused message operand r) :
    Refused message (expr operand) r :=
  (h.bind _).bind _

theorem head?_rest {token : Token} {tokens : List Token} (h : r.tokens = token :: tokens) :
    r.rest.head?.map Lexeme.token = some token := by
  rw [← Reading.head?_tokens, h]
  rfl

namespace Wrap

def inside : Wrap → Reading η → Reading η
  | .paren, r | .minus, r => r.skipped
  | .raise _, r => r.skipped.skipped

def behind : Wrap → List Token → List Token
  | .paren, more => .sym ')' :: more
  | .minus, more | .raise _, more => more

def apply : Wrap → Value → Eval η Value
  | .paren, value => return value
  | .minus, value => arith .sub (.num 0) value
  | .raise base, value => arith .pow (.num base) value

theorem tokens_inside (htokens : r.tokens = nested (wrap :: wraps) literal ++ more) :
    (wrap.inside r).tokens = nested wraps literal ++ wrap.behind more := by
  cases wrap <;> simp [inside, behind, htokens, nested]

end Wrap

theorem refused_wrap (htokens : r.tokens = nested (wrap :: wraps) literal ++ more)
    (h : Refused message (signed levels >>= wrap.apply) (wrap.inside r)) :
    Refused message (signed (levels + 1)) r := by
  have hhead {token : Token} {tokens : List Token} (hr : r.tokens = token :: tokens)
    (hne : token ≠ .sym '-') :
      (signed (levels + 1)).run.run r = (power (signed levels)).run.run r :=
    run_eatSym_bind_of_ne _ (by rw [head?_rest hr]; simpa using hne)
  cases wrap with
  | minus => exact h.of_run rfl rfl (run_eatSym_bind_of_head _ (head?_rest htokens))
  | paren =>
    have hoperand : Refused message (signed levels) r.skipped := by
      have hsame : signed levels >>= Wrap.paren.apply = (signed levels : Eval η Value) :=
        bind_pure _
      rwa [hsame] at h
    have hprimary : (primary (signed levels)).run.run r = (expr (signed levels) >>= fun value =>
        expectSym ')' >>= fun _ => pure value).run.run r.skipped := by
      rw [primary, run_next?_bind, head?_rest htokens]
      rfl
    have hrefused : Refused message (primary (signed levels)) r :=
      ((refused_expr hoperand).bind _).of_run rfl rfl hprimary
    exact (hrefused.bind _).of_run rfl rfl (hhead htokens (by simp))
  | raise base =>
    have hsymbol : r.skipped.tokens = .sym '^' :: (nested wraps literal ++ more) := by
      simp [htokens, nested]
    have hprimary : (primary (signed levels)).run.run r = pure (.ok (.num base), r.skipped) := by
      rw [primary, run_next?_bind, head?_rest htokens]
      rfl
    have hpower : (power (signed levels)).run.run r =
        (signed levels >>= (Wrap.raise base).apply).run.run r.skipped.skipped := by
      rw [power, run_bind, hprimary]
      exact run_eatSym_bind_of_head _ (head?_rest hsymbol)
    exact h.of_run rfl rfl ((hhead htokens (by simp)).trans hpower)

/-- With no more levels than wraps, the levels are used up by the time the literal is reached. -/
theorem refused_of_deep (hlevels : levels ≤ wraps.length)
    (htokens : r.tokens = nested wraps literal ++ more) :
    Refused "expression nested deeper than 256 levels" (signed levels) r := by
  induction levels generalizing wraps r more with
  | zero => exact refused_fail r
  | succ levels ih =>
    cases wraps with
    | nil => cases hlevels
    | cons wrap wraps =>
      have hinner : levels ≤ wraps.length := Nat.le_of_succ_le_succ hlevels
      exact refused_wrap htokens ((ih hinner (Wrap.tokens_inside htokens)).bind _)

theorem refused_apply {text : String} (hwrap : wrap ≠ .paren) (r : Reading η) :
    ∃ (op : Arith) (x : Float),
    Refused ("'" ++ op.symbol.toString ++ "' needs numbers, got '" ++ (Value.num x).text ++
      "' and '" ++ text ++ "'")
      (wrap.apply (.str text)) r := by
  cases wrap with
  | paren => exact absurd rfl hwrap
  | minus => exact ⟨.sub, 0, refused_fail r⟩
  | raise base => exact ⟨.pow, base, refused_fail r⟩

/-- A text that does not bear its wraps is refused by the innermost operator, and not for
its depth. -/
theorem refused_of_text {text : String} (hlevels : wraps.length < levels)
    (hbears : ¬(Literal.str text).Bears wraps)
    (htokens : r.tokens = nested wraps (.str text) ++ more) (hends : Ends behindOperand more) :
    ∃ (op : Arith) (x : Float), Refused
      ("'" ++ op.symbol.toString ++ "' needs numbers, got '" ++ (Value.num x).text ++
        "' and '" ++ text ++ "'")
      (signed levels) r := by
  induction wraps generalizing levels r more with
  | nil => exact absurd (fun wrap hwrap => nomatch hwrap) hbears
  | cons wrap wraps ih =>
    obtain ⟨levels, rfl⟩ := Nat.exists_eq_succ_of_ne_zero (Nat.ne_zero_of_lt hlevels)
    have hinner : wraps.length < levels := Nat.lt_of_succ_lt_succ hlevels
    have hinside := Wrap.tokens_inside htokens
    have hbehind : Ends behindOperand (wrap.behind more) := by
      cases wrap with
      | paren => exact ends_sym (by decide)
      | _ => exact hends
    by_cases hparens : (Literal.str text).Bears wraps
    · have hwrap : wrap ≠ .paren := fun h => hbears (List.forall_mem_cons.mpr ⟨h, hparens⟩)
      have hnesting : (Unary.nest wraps (.str text)).nesting ≤ levels := by
        rw [Unary.nesting_nest]
        exact hinner
      rw [← Unary.tokens_nest] at hinside
      obtain ⟨s, hreads, -, hmemory⟩ := complete_signed levels _ _ _ _ _ hnesting hinside hbehind
        (Unary.value_nest_str _ text hparens)
      have hsource : s.source = (wrap.inside r).source :=
        ((minds_onward_signed levels _).keeps_of_goes (.refl _) hreads).source
      obtain ⟨op, x, hrefused⟩ := refused_apply hwrap s
      refine ⟨op, x, refused_wrap htokens (hrefused.of_run hmemory hsource ?_)⟩
      rw [run_bind, Program.Goes.eq_pure hreads]
      rfl
    · obtain ⟨op, x, hrefused⟩ := ih hinner hparens hinside hbehind
      exact ⟨op, x, refused_wrap htokens (hrefused.bind _)⟩

theorem refused_program (htokens : r.tokens = nested wraps literal)
    (h : Refused message (signed maxDepth) r) :
    Refused message program r := by
  obtain ⟨token, tokens, hnest, hopens⟩ := (Unary.nest wraps literal).exists_head
  rw [Unary.tokens_nest] at hnest
  have hsep : token ≠ .sep := by
    rintro rfl
    cases hopens
  have hhead : r.rest.head?.map Lexeme.token = some token := head?_rest (htokens.trans hnest)
  have hbehind : behindSeparators r.tokens = token :: tokens := by
    rw [htokens, hnest, behindSeparators_cons_of_ne hsep]
  have hstand : r.atStatement = r := by
    rw [Reading.atStatement, skipSeparators_of_ne (by rw [hhead]; simpa using hsep)]
  have hstatement : statement.run.run r = expression.run.run r := by
    rw [statement, run_next?_bind, hhead]
    split
    · next hlet =>
      exact absurd ((congrArg List.head? hnest).trans hlet) (head?_nested_ne_ident _ _ _)
    · rfl
  have hrefused : Refused message statement r := (refused_expr h).of_run rfl rfl hstatement
  refine (hrefused.bind (afterStatement r.rest.length)).of_run rfl rfl ?_
  exact (run_statements_of_some _ _ hbehind).trans (by rw [hstand])

theorem Refused.evalTokens_eq {memory : Memory η} {tokens : List Lexeme} {source : Option String}
    (h : Refused message program (.start memory tokens source)) :
    ∃ line, evalTokens memory tokens source =
      pure (.error (.of (.script ⟨message, source, some line⟩)), memory) := by
  obtain ⟨line, s, hmemory, hrun⟩ := h
  obtain rfl : s.memory = memory := hmemory
  refine ⟨line, ?_⟩
  rw [evalTokens, hrun]
  rfl

variable {tokens : List Lexeme} (memory : Memory η) (source : Option String)

theorem refuses_nested_iff (htokens : tokens.map (·.token) = nested wraps literal) :
    (∃ line, evalTokens memory tokens source = pure (.error (.of (.script
      ⟨"expression nested deeper than 256 levels", source, some line⟩)), memory)) ↔
        255 < wraps.length := by
  have hstart : (Reading.start memory tokens source).tokens = nested wraps literal := htokens
  have hstart' := hstart.trans (List.append_nil _).symm
  constructor
  · rintro ⟨line, hdeep⟩
    by_contra hlength
    have hlength : wraps.length < maxDepth := Nat.lt_succ_of_le (Nat.le_of_not_lt hlength)
    by_cases hbears : literal.Bears wraps
    · obtain ⟨value, haccepted⟩ := accepts_nested memory source htokens hbears hlength
      cases hdeep.symm.trans haccepted
    · cases literal with
      | num x => exact hbears trivial
      | str text =>
        obtain ⟨op, x, hrefused⟩ :=
          refused_of_text hlength hbears hstart' (ends_of_nil_or_sep (.inl rfl))
        obtain ⟨line', hneeds⟩ := (refused_program hstart hrefused).evalTokens_eq
        have hsame := Program.done.inj (hdeep.symm.trans hneeds)
        simp only [Prod.mk.injEq, Except.error.injEq, Fault.of, Fault.mk.injEq, Cause.script.injEq,
          ScriptError.mk.injEq] at hsame
        obtain ⟨⟨-, hmessage, -⟩, -⟩ := hsame
        -- One message begins with a letter, and the other with a quote.
        have hfirst := congrArg (fun message : String => message.toList.head?) hmessage
        simp at hfirst
  · exact fun hlength => (refused_program hstart (refused_of_deep hlength hstart')).evalTokens_eq

/-- A nest whose literal bears its wraps is accepted as long as it is not refused for its depth. -/
theorem accepts_nested_iff (htokens : tokens.map (·.token) = nested wraps literal)
    (hbears : literal.Bears wraps) :
    (∃ value, evalTokens memory tokens source = pure (.ok value, memory)) ↔ wraps.length ≤ 255 := by
  constructor
  · rintro ⟨value, haccepted⟩
    by_contra hlength
    obtain ⟨line, hrefused⟩ :=
      (refuses_nested_iff memory source htokens).mpr (Nat.lt_of_not_le hlength)
    cases haccepted.symm.trans hrefused
  · exact fun hlength => accepts_nested memory source htokens hbears (Nat.lt_succ_of_le hlength)

end

/-! ## Bounds -/

open Descent

/-- On all tokens, and whatever hosts answer, evaluation comes to an end and is never nested too
deep on the way. -/
theorem bounded_descent (memory : Memory η) (tokens : List Lexeme) (source : Option String) :
    -- Within twenty steps for each token and twenty more it is over, and comes to what evaluation
    -- comes to.
    (∀ n, 20 * (tokens.length + 1) ≤ n →
      (start memory tokens source).drive n = some <$> evalTokens memory tokens source ∧
      ∀ text, lex text = .ok tokens → some <$> eval memory text source =
        Option.map (fun x => (x.1.map Value.answer?, x.2)) <$>
          (start memory tokens source).drive n) ∧
    -- Wherever it is halted, the position is within the tokens, the counter tells how many calls
    -- for a signed operand wait, at most `maxDepth`, and the calls that wait are few for each of
    -- these.
    (∀ d, (start memory tokens source).Reaches d →
      d.parser.tokens = tokens ∧ d.Sound ∧ d.stack.height ≤ 6 * maxDepth + 5) ∧
    -- A call of any function in any state like these does what the function evaluates. Whether it
    -- returns a value or an error, the counter is what it was, and a value is returned only behind
    -- a token.
    (∀ {f : Routine} (p : Parser η) (outer : Stack f), Sound ⟨p, .enter, outer⟩ →
      finish ⟨p, .enter, outer⟩ = (do
        let (result, r) ← (f.evaluation (signed (maxDepth - p.depth))).run.run p.reading
        (leaving (p.behind r) outer result).finish) ∧
      ∀ p' result, Reaches ⟨p, .enter, outer⟩ (leaving p' outer result) →
        p'.depth = p.depth ∧ p.pos ≤ p'.pos ∧ p'.pos ≤ p.tokens.length ∧
        (f ≠ .program → ∀ value, result = .ok value → p.pos < p'.pos)) ∧
    -- So evaluation itself never goes back, and a function that goes well has passed a token.
    (∀ levels, ∀ f : Routine, f ≠ .program →
      Advances (f.evaluation (signed levels) : Eval η f.Result)) ∧
    -- Chains of numbers are accepted, whatever their length.
    (∀ x links, tokens.map (·.token) = chain x links → (∀ l ∈ links, l.Defined) →
      ∃ y : Float, evalTokens memory tokens source = pure (.ok (.num y), memory)) ∧
    -- A literal is refused for its depth within more than 255 wraps, and else accepted if it bears
    -- them.
    (∀ wraps literal, tokens.map (·.token) = nested wraps literal →
      ((∃ line, evalTokens memory tokens source = pure (.error (.of (.script
        ⟨"expression nested deeper than 256 levels", source, some line⟩)), memory)) ↔
          255 < wraps.length) ∧
      (literal.Bears wraps →
        ((∃ value, evalTokens memory tokens source = pure (.ok value, memory)) ↔
          wraps.length ≤ 255))) := by
  refine ⟨fun n hn => ⟨drive_start memory tokens source hn, fun text hlex => ?_⟩,
    fun d hreaches => ?_,
    fun {f} p outer hsound => ⟨?_, fun p' result hreaches => ?_⟩, fun levels f hf =>
      f.advances_evaluation levels hf,
    fun x links htokens hlinks => accepts_chain memory source htokens hlinks,
    fun wraps literal htokens =>
      ⟨refuses_nested_iff memory source htokens, accepts_nested_iff memory source htokens⟩⟩
  · have heval : eval memory text source =
        (fun x => (x.1.map Value.answer?, x.2)) <$> evalTokens memory tokens source := by
      rw [eval, hlex, map_eq_pure_bind]
    rw [heval, drive_start memory tokens source hn, Functor.map_map, Functor.map_map]
    rfl
  · have hsound := hreaches.sound (sound_start memory tokens source)
    exact ⟨hreaches.tokens, hsound, hsound.height_le⟩
  · exact hsound.follows_evaluation outer
  · have hreturn := hreaches.sound hsound
    refine ⟨hreturn.counted.trans hsound.counted.symm, hreaches.forth, hreaches.tokens ▸
      hreturn.within, ?_⟩
    rintro hf value rfl
    exact hreaches.advances hf

/-- A text in parentheses, a sum, the first number of that sum, and a number behind too
many signs. -/
theorem bounded_descent_of_small :
    let text : List Lexeme := [⟨.sym '(', 1⟩, ⟨.str "a", 1⟩, ⟨.sym ')', 1⟩]
    let sum : List Lexeme := [⟨.num 1, 1⟩, ⟨.sym '+', 1⟩, ⟨.num 2, 1⟩]
    let signs : List Lexeme :=
      (nested (List.replicate 256 .minus) (.num 1)).map fun token => ⟨token, 1⟩
    let d : Descent Unit := ⟨⟨sum, 0, 0, .empty, none⟩, .sentences .unit, .nil⟩
    let p : Parser Unit := ⟨sum, 0, 1, .empty, none⟩
    let outer : Stack .primary := .push .base (.push .unsigned (.push .firstFactor (.push .firstTerm
      (.push .lone (.push .sentence .nil)))))
    lex "('a')" = .ok text ∧
    some <$> eval (.empty : Memory Unit) "('a')" none =
      Option.map (fun x => (x.1.map Value.answer?, x.2)) <$> (start .empty text none).drive 80 ∧
    (∃ value, evalTokens (.empty : Memory Unit) text none = pure (.ok value, .empty)) ∧
    (∃ y : Float, evalTokens (.empty : Memory Unit) sum none = pure (.ok (.num y), .empty)) ∧
    (∃ line, evalTokens (.empty : Memory Unit) signs none =
      pure (.error (.of (.script ⟨"expression nested deeper than 256 levels", none, some line⟩)),
        .empty)) ∧
    Reaches (start .empty sum none) d ∧ d.Sound ∧
    Sound ⟨p, .enter, outer⟩ ∧ Reaches ⟨p, .enter, outer⟩ (leaving p.advance outer (.ok (.num 1))) ∧
    p.advance.depth = p.depth ∧ p.pos < p.advance.pos ∧
      Advances (primary (signed 3) : Eval Unit Value) := by
  intro text sum signs d p outer
  have hlex : lex "('a')" = .ok text :=
    lex_eq_ok_iff.mpr ⟨[.symbol '(', .text '\'' [.plain 'a'], .symbol ')'], by decide, rfl⟩
  have hsigns : signs.map (·.token) = nested (List.replicate 256 .minus) (.num 1) :=
    List.map_map.trans (List.map_id _)
  have hsound : Sound ⟨p, .enter, outer⟩ := ⟨by decide, rfl, by decide⟩
  have hreaches : Reaches ⟨p, .enter, outer⟩ (leaving p.advance outer (.ok (.num 1))) :=
    .single ⟨[], .done _⟩
  have hfirst : Reaches (start .empty sum none) d := .single ⟨[], .done _⟩
  obtain ⟨hdrive, -, -, -, -, hnest⟩ := bounded_descent (.empty : Memory Unit) text none
  obtain ⟨-, hhalted, hcall, hadvances, hchain, -⟩ :=
    bounded_descent (.empty : Memory Unit) sum none
  obtain ⟨-, -, -, -, -, hdeep⟩ := bounded_descent (.empty : Memory Unit) signs none
  obtain ⟨hdepth, -, -, hpassed⟩ := (hcall p outer hsound).2 _ _ hreaches
  refine ⟨hlex, (hdrive 80 (by decide)).2 _ hlex, ?_, ?_, ?_, hfirst, (hhalted d hfirst).2.1,
    hsound, hreaches, hdepth, hpassed (by decide) _ rfl, hadvances 3 .primary (by decide)⟩
  · have hbears : (Literal.str "a").Bears [.paren] := by simp [Literal.Bears]
    exact ((hnest [.paren] (.str "a") rfl).2 hbears).mpr (by decide)
  · refine hchain 1 [.add 2] rfl fun l hl => ?_
    obtain rfl := List.mem_singleton.mp hl
    trivial
  · exact (hdeep _ _ hsigns).1.mpr (by rw [List.length_replicate]; decide)

end SessionShell.Calc
