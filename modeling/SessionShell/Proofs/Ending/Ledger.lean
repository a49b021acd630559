import Mathlib.Data.List.Basic
import Mathlib.Logic.Function.Basic
import SessionShell.Proofs.Action.Noted
import SessionShell.Proofs.Shell.Outline

/-!
The ledger: what becomes of the attempts to end sessions.

An attempt does what it does in the shell, and notes in the ledger when it has recorded its code,
when it calls the exit hook, when it takes the session out of the registry, and when it ends the
shell. Whoever offers an exit hook notes the answer.
-/

namespace SessionShell

open Action Shell

structure ExitState where
  exitCode : Option Int
  exitHook : Option ExitHook
  disposed : Bool
  deriving DecidableEq, Repr

def Session.exitState (s : Session) : ExitState :=
  ⟨s.exitCode, s.exitHook, s.disposed⟩

def Shell.exitStates (s : Shell) (id : SessionId) : Option ExitState :=
  s.sessions[id]?.map Session.exitState

namespace Shell

variable {s : Shell} {id other : SessionId} {e : ExitState} {f : Session → Session}

theorem exitStates_eq_of_outline {s s' : Shell} (h : s'.outline = s.outline) :
    s'.exitStates = s.exitStates := by
  have hsessions : s'.sessions.map Session.outline = s.sessions.map Session.outline :=
    congrArg Prod.snd h
  have hof : ∀ (t : Shell) (id : SessionId),
      t.exitStates id = (t.sessions.map Session.outline)[id]?.map Session.exitState := by
    intro t id
    simp only [exitStates, Array.getElem?_map, Option.map_map]
    rfl
  funext id
  rw [hof, hof, hsessions]

theorem exitState_session (h : s.exitStates id = some e) : (s.session id).exitState = e := by
  obtain ⟨session, hsession, rfl⟩ := Option.map_eq_some_iff.mp h
  rw [Shell.session, hsession]
  rfl

theorem exitStates_modifySession_self (h : s.exitStates id = some e) :
    (modifySession id f s).exitStates id = some (f (s.session id)).exitState := by
  obtain ⟨session, hsession, -⟩ := Option.map_eq_some_iff.mp h
  simp [exitStates, modifySession, Array.getElem?_modify, Shell.session, hsession]

theorem exitStates_modifySession_of_ne (h : other ≠ id) :
    (modifySession id f s).exitStates other = s.exitStates other := by
  simp [exitStates, modifySession, Array.getElem?_modify, h.symm]

theorem exitStates_modifySession_same (h : ∀ session, (f session).exitState = session.exitState) :
    (modifySession id f s).exitStates = s.exitStates := by
  funext other
  by_cases ho : other = id
  · subst ho
    cases hs : s.sessions[other]? <;> simp [exitStates, modifySession, Array.getElem?_modify, hs, h]
  · exact exitStates_modifySession_of_ne ho

theorem keeps_exitStates_of_quiet {α : Type} {p : Action Shell α} (h : Quiet p) :
    Keeps exitStates p :=
  h.keeps fun _ _ => exitStates_eq_of_outline

theorem keeps_exitStates_updateSession
    (h : ∀ session, (f session).exitState = session.exitState) :
    Keeps exitStates (updateSession id f) :=
  keeps_update fun _ => exitStates_modifySession_same h

theorem keeps_exitStates_grantFocus : Keeps exitStates (grantFocus id) :=
  Keeps.bind (keeps_exitStates_updateSession fun _ => rfl) fun _ =>
    keeps_exitStates_updateSession fun _ => rfl

theorem keeps_exitStates_loseFocus : Keeps exitStates (loseFocus id) :=
  keeps_step fun _ => exitStates_modifySession_same fun _ => rfl

theorem keeps_exitStates_handOn (index remaining : Nat) :
    Keeps exitStates (handOn index remaining) :=
  Keeps.bind (keeps_read _) fun heir? => by
    cases heir? with
    | none => exact keeps_pure _
    | some heir => exact keeps_exitStates_grantFocus

end Shell

structure Offer where
  who : Nat
  hook : ExitHook
  late : Bool
  answer : Except ShellError Unit

/-- An attempt that has recorded the exit code. -/
structure Win where
  who : Nat
  code : Int
  hook? : Option ExitHook
  deriving DecidableEq, Repr

/-- All that was done to end one session. -/
structure Course where
  wins : List Win
  calls : List (ExitHook × Int)
  /-- The registry before each removal of the session. -/
  removals : List Registry
  terminations : List Int
  deriving DecidableEq, Repr

structure Ledger where
  offers : SessionId → List Offer
  course : SessionId → Course

namespace Course

def empty : Course :=
  ⟨[], [], [], []⟩

def win (w : Win) (c : Course) : Course :=
  { c with wins := c.wins ++ [w] }

def call (hook : ExitHook) (code : Int) (c : Course) : Course :=
  { c with calls := c.calls ++ [(hook, code)] }

def remove (before : Registry) (c : Course) : Course :=
  { c with removals := c.removals ++ [before] }

def terminate (code : Int) (c : Course) : Course :=
  { c with terminations := c.terminations ++ [code] }

end Course

namespace Ledger

def empty : Ledger :=
  ⟨fun _ => [], fun _ => .empty⟩

def modify (id : SessionId) (f : Course → Course) (l : Ledger) : Ledger :=
  { l with course := Function.update l.course id (f (l.course id)) }

def offer (id : SessionId) (o : Offer) (l : Ledger) : Ledger :=
  { l with offers := Function.update l.offers id (l.offers id ++ [o]) }

section

variable {l : Ledger} {id other : SessionId} {f : Course → Course} {o : Offer}

@[simp] theorem course_modify_self : (l.modify id f).course id = f (l.course id) := by
  simp [modify]

theorem course_modify_of_ne (h : other ≠ id) : (l.modify id f).course other = l.course other := by
  simp [modify, h]

@[simp] theorem offers_offer_self : (l.offer id o).offers id = l.offers id ++ [o] := by
  simp [offer]

theorem offers_offer_of_ne (h : other ≠ id) : (l.offer id o).offers other = l.offers other := by
  simp [offer, h]

end

def noteWin (who : Nat) (id : SessionId) (code : Int) :
    Shell → Except ShellError (Option ExitHook) → Ledger → Ledger
  | _, .ok hook?, l => l.modify id (.win ⟨who, code, hook?⟩)
  | _, .error _, l => l

def noteRemoval (id : SessionId) : Shell → Removal → Ledger → Ledger
  | _, .absent, l => l
  | s, _, l => l.modify id (.remove s.registry)

def noteOffer (who : Nat) (id : SessionId) (hook : ExitHook) :
    Shell → Except ShellError Unit → Ledger → Ledger :=
  fun _ answer l => l.offer id ⟨who, hook, !(l.course id).wins.isEmpty, answer⟩

end Ledger

namespace Shell

abbrev Accounted := ExceptT ShellError (Action (Shell × Ledger))

def leaveNoted (id : SessionId) (code : Int) (hook? : Option ExitHook) (handsOn : Bool) :
    Action (Shell × Ledger) Bool := do
  match hook? with
  | some hook =>
    record (Ledger.modify id (.call hook code))
    silent (discard (runHook code hook).attempt)
  | none => pure ()
  let wasCurrent ← silent (loseFocus id)
  match ← noted (Ledger.noteRemoval id) (leaveRegistry id) with
  | .last => return true
  | .removed index remaining =>
    if handsOn && wasCurrent then silent (handOn index remaining)
    return false
  | .absent => return false

def finishNoted (who : Nat) (id : SessionId) (code : Int) (handsOn : Bool) : Accounted Unit := do
  let hook? ← ExceptT.mk (noted (Ledger.noteWin who id code) (recordCode id code).run)
  let wasLast ← leaveNoted id code hook? handsOn
  ExceptT.lift (silent (dispose id))
  if wasLast then
    ExceptT.lift (record (Ledger.modify id (.terminate code)))
    ExceptT.lift (silent (terminate code))

def exitNoted (who : Nat) (id : SessionId) (code : Int) : Accounted Unit := do
  ExceptT.mk (silent (ensureLive id).run)
  match ExitCode.remapWarning? code with
  | some message => ExceptT.lift (silent (warning message))
  | none => pure ()
  finishNoted who id (ExitCode.sanitize code) true

def setExitHookNoted (who : Nat) (id : SessionId) (hook : ExitHook) : Accounted Unit :=
  tryCatch (ExceptT.mk (noted (Ledger.noteOffer who id hook) (putExitHook id hook).run)) fun e => do
    ExceptT.lift (silent (Action.update (dropHook hook)))
    throw e

end Shell

/-- What somebody wants with the end of a session. -/
inductive Attempt where
  | exit (id : SessionId) (code : Int)
  /-- Of the shell itself, or of another session that kills this one. -/
  | finish (id : SessionId) (code : Int) (handsOn : Bool)
  | offer (id : SessionId) (hook : ExitHook)
  deriving DecidableEq, Repr

namespace Attempt

def target : Attempt → SessionId
  | .exit id _ => id
  | .finish id _ _ => id
  | .offer id _ => id

def code? : Attempt → Option Int
  | .exit _ code => some (ExitCode.sanitize code)
  | .finish _ code _ => some code
  | .offer _ _ => none

def program : Attempt → Checked Unit
  | .exit id code => Shell.exit id code
  | .finish id code handsOn => Shell.finish id code true handsOn
  | .offer id hook => setExitHook id hook

def noted (who : Nat) : Attempt → Accounted Unit
  | .exit id code => exitNoted who id code
  | .finish id code handsOn => finishNoted who id code handsOn
  | .offer id hook => setExitHookNoted who id hook

theorem erases_leaveNoted_none (id : SessionId) (code : Int) (handsOn : Bool) :
    Erases (leaveNoted id code none handsOn) (leave id code none handsOn) := by
  refine Erases.bind (erases_silent _) fun wasCurrent =>
    Erases.bind (Action.erases_noted _ _) fun removal => ?_
  cases removal with
  | last => exact .done _
  | absent => exact .done _
  | removed index remaining =>
    cases handsOn && wasCurrent with
    | false => exact .done _
    | true => exact Erases.bind (erases_silent _) fun _ => .done _

theorem erases_leaveNoted (id : SessionId) (code : Int) (hook? : Option ExitHook) (handsOn : Bool) :
    Erases (leaveNoted id code hook? handsOn) (leave id code hook? handsOn) := by
  cases hook? with
  | none => exact erases_leaveNoted_none id code handsOn
  | some hook =>
    exact .note (Erases.bind (erases_silent _) fun _ => erases_leaveNoted_none id code handsOn)

theorem erases_finishNoted (who : Nat) (id : SessionId) (code : Int) (handsOn : Bool) :
    Erases (finishNoted who id code handsOn).run (Shell.finish id code true handsOn).run := by
  refine Erases.run_bind (Action.erases_noted _ _) fun hook? =>
    Erases.run_bind (Erases.lift (erases_leaveNoted id code hook? handsOn)) fun wasLast =>
    Erases.run_bind (Erases.lift (erases_silent (dispose id))) fun _ => ?_
  cases wasLast with
  | false => exact .done _
  | true => exact .note (Erases.lift (erases_silent (terminate code)))

theorem erases_noted (a : Attempt) (who : Nat) : Erases (a.noted who).run a.program.run := by
  cases a with
  | exit id code =>
    refine Erases.run_bind (erases_silent (ensureLive id).run) fun _ => ?_
    cases ExitCode.remapWarning? code with
    | some message =>
      exact Erases.run_bind (Erases.lift (erases_silent (warning message))) fun _ =>
        erases_finishNoted who id (ExitCode.sanitize code) true
    | none => exact erases_finishNoted who id (ExitCode.sanitize code) true
  | finish id code handsOn => exact erases_finishNoted who id code handsOn
  | offer id hook =>
    refine Erases.bind (Action.erases_noted _ _) fun r => ?_
    cases r with
    | ok => exact .done _
    | error e =>
      exact Erases.run_bind (Erases.lift (erases_silent (update (dropHook hook)))) fun _ => .done _

end Attempt

end SessionShell

/-!
What is at stake when several attempts are made to end a session.

The invariant ties the state of a session to what the ledger says: either nobody has recorded the
exit code, or one attempt has, and all else that was done to end the session was done by it.
-/

namespace SessionShell

open Action Shell

inductive Stage where
  | won
  | called
  | removed (before? : Option Registry)
  | over (before? : Option Registry)

def emptied (id : SessionId) (before? : Option Registry) : Bool :=
  before?.any fun before => (before.remove id).1 = .last

namespace Win

def calls (w : Win) : List (ExitHook × Int) :=
  w.hook?.toList.map fun hook => (hook, w.code)

def course (w : Win) (id : SessionId) : Stage → Course
  | .won => ⟨[w], [], [], []⟩
  | .called => ⟨[w], w.calls, [], []⟩
  | .removed before? => ⟨[w], w.calls, before?.toList, []⟩
  | .over before? => ⟨[w], w.calls, before?.toList, if emptied id before? then [w.code] else []⟩

@[simp] theorem wins_course (w : Win) (id : SessionId) (stage : Stage) :
    (w.course id stage).wins = [w] := by
  cases stage <;> rfl

end Win

def hooksOf (hook? : Option ExitHook) (offers : List Offer) : List ExitHook :=
  hook?.toList ++ (offers.filter (·.answer.isOk)).map (·.hook)

/-- What is at stake: who tries what, and the hooks that were there before. -/
structure Stakes where
  attempts : List Attempt
  hook? : SessionId → Option ExitHook

namespace Stakes

variable {k : Stakes} {id other : SessionId} {i : Nat} {γ γ' γ'' : Shell × Ledger}

def Contested (k : Stakes) (id : SessionId) : Prop :=
  ∃ a ∈ k.attempts, a.target = id

def IsOf (k : Stakes) (id : SessionId) (w : Win) : Prop :=
  ∃ a, k.attempts[w.who]? = some a ∧ a.target = id ∧ a.code? = some w.code

/-- How the offers, the state of a session and its course belong together. -/
structure Fits (k : Stakes) (id : SessionId) (e : ExitState) (offers : List Offer) (c : Course) :
    Prop where
  late : ∀ o ∈ offers, o.late = true → ∃ name, o.answer = .error (.hasExited name)
  early : ∀ o ∈ offers, o.late = false →
    o.answer = .ok () ∨ ∃ name, o.answer = .error (.callbackAlreadySet name)
  one : (hooksOf (k.hook? id) offers).length ≤ 1
  state :
    e = ⟨none, (hooksOf (k.hook? id) offers).head?, false⟩ ∧ c = .empty ∨
    ∃ w stage, k.IsOf id w ∧ w.hook? = (hooksOf (k.hook? id) offers).head? ∧
      e.exitCode = some w.code ∧ e.exitHook = none ∧ c = w.course id stage

def Inv (k : Stakes) (γ : Shell × Ledger) : Prop :=
  ∀ id, k.Contested id →
    ∃ e, γ.1.exitStates id = some e ∧ k.Fits id e (γ.2.offers id) (γ.2.course id)

structure Change (k : Stakes) (due : Nat → Prop) (γ γ' : Shell × Ledger) : Prop where
  inv : k.Inv γ → k.Inv γ'
  kept : ∀ id, ∀ w ∈ (γ.2.course id).wins, ¬due w.who → γ'.2.course id = γ.2.course id
  fresh : ∀ id, ∀ w ∈ (γ'.2.course id).wins, ¬due w.who → w ∈ (γ.2.course id).wins
  offers : ∀ id, γ.2.offers id ⊆ γ'.2.offers id
  wins : ∀ id, (γ.2.course id).wins ⊆ (γ'.2.course id).wins

namespace Change

variable {due due' : Nat → Prop}

theorem mono (h : k.Change due γ γ') (hdue : ∀ i, due i → due' i) : k.Change due' γ γ' :=
  ⟨h.inv, fun id w hw hn => h.kept id w hw fun hd => hn (hdue _ hd),
    fun id w hw hn => h.fresh id w hw fun hd => hn (hdue _ hd), h.offers, h.wins⟩

theorem of_eq (hstates : γ'.1.exitStates = γ.1.exitStates) (hledger : γ'.2 = γ.2) :
    k.Change due γ γ' := by
  constructor
  · intro h
    simpa only [Inv, hstates, hledger] using h
  · intro id w hw hn
    rw [hledger]
  · intro id w hw hn
    rwa [hledger] at hw
  · intro id
    rw [hledger]
    exact List.Subset.refl _
  · intro id
    rw [hledger]
    exact List.Subset.refl _

theorem refl (γ : Shell × Ledger) : k.Change due γ γ :=
  of_eq rfl rfl

theorem trans (h : k.Change due γ γ') (h' : k.Change due γ' γ'') : k.Change due γ γ'' := by
  constructor
  · exact fun hinv => h'.inv (h.inv hinv)
  · intro id w hw hn
    have hsame := h.kept id w hw hn
    rw [← hsame]
    exact h'.kept id w (hsame ▸ hw) hn
  · exact fun id w hw hn => h.fresh id w (h'.fresh id w hw hn) hn
  · exact fun id => List.Subset.trans (h.offers id) (h'.offers id)
  · exact fun id => List.Subset.trans (h.wins id) (h'.wins id)

theorem of_session (hstates : ∀ other, other ≠ id → γ'.1.exitStates other = γ.1.exitStates other)
    (hoffers : ∀ other, other ≠ id → γ'.2.offers other = γ.2.offers other)
    (hcourse : ∀ other, other ≠ id → γ'.2.course other = γ.2.course other)
    (hfits : ∀ e, γ.1.exitStates id = some e →
      k.Fits id e (γ.2.offers id) (γ.2.course id) →
      ∃ e', γ'.1.exitStates id = some e' ∧ k.Fits id e' (γ'.2.offers id) (γ'.2.course id))
    (hkept : ∀ w ∈ (γ.2.course id).wins, ¬due w.who → γ'.2.course id = γ.2.course id)
    (hfresh : ∀ w ∈ (γ'.2.course id).wins, ¬due w.who → w ∈ (γ.2.course id).wins)
    (hgrow : γ.2.offers id ⊆ γ'.2.offers id)
    (hwins : (γ.2.course id).wins ⊆ (γ'.2.course id).wins) : k.Change due γ γ' := by
  constructor
  · intro hinv other hother
    obtain ⟨e, he, hfit⟩ := hinv other hother
    by_cases ho : other = id
    · subst ho
      exact hfits e he hfit
    · exact ⟨e, by rw [hstates other ho, he], by rwa [hoffers other ho, hcourse other ho]⟩
  · intro other w hw hn
    by_cases ho : other = id
    · subst ho
      exact hkept w hw hn
    · exact hcourse other ho
  · intro other w hw hn
    by_cases ho : other = id
    · subst ho
      exact hfresh w hw hn
    · rwa [hcourse other ho] at hw
  · intro other
    by_cases ho : other = id
    · subst ho
      exact hgrow
    · rw [hoffers other ho]
      exact List.Subset.refl _
  · intro other
    by_cases ho : other = id
    · subst ho
      exact hwins
    · rw [hcourse other ho]
      exact List.Subset.refl _

end Change

def Rely (k : Stakes) (i : Nat) : Shell × Ledger → Shell × Ledger → Prop :=
  k.Change (· ≠ i)

def Guarantee (k : Stakes) (i : Nat) : Shell × Ledger → Shell × Ledger → Prop :=
  k.Change (· = i)

theorem guarantee_of_mine (id : SessionId)
    (hstates : ∀ other, other ≠ id → γ'.1.exitStates other = γ.1.exitStates other)
    (hcourse : ∀ other, other ≠ id → γ'.2.course other = γ.2.course other)
    (hoffers : γ'.2.offers = γ.2.offers)
    (hfits : ∀ e, γ.1.exitStates id = some e → k.Fits id e (γ.2.offers id) (γ.2.course id) →
      ∃ e', γ'.1.exitStates id = some e' ∧ k.Fits id e' (γ.2.offers id) (γ'.2.course id))
    (hmine : ∀ w ∈ (γ'.2.course id).wins, w.who = i)
    (hwins : (γ.2.course id).wins ⊆ (γ'.2.course id).wins) : k.Guarantee i γ γ' := by
  refine Change.of_session hstates (fun other _ => by rw [hoffers]) hcourse ?_ ?_ ?_ ?_ hwins
  · intro e he hfit
    rw [hoffers]
    exact hfits e he hfit
  · exact fun w hw hn => absurd (hmine w (hwins hw)) hn
  · exact fun w hw hn => absurd (hmine w hw) hn
  · rw [hoffers]
    exact List.Subset.refl _

def Waiting (k : Stakes) (i : Nat) (id : SessionId) (γ : Shell × Ledger) : Prop :=
  k.Inv γ ∧ ∀ w ∈ (γ.2.course id).wins, w.who ≠ i

def Beaten (k : Stakes) (i : Nat) (id : SessionId) (γ : Shell × Ledger) : Prop :=
  k.Waiting i id γ ∧ (γ.2.course id).wins ≠ []

def Running (k : Stakes) (w : Win) (id : SessionId) (stage : Stage) (γ : Shell × Ledger) : Prop :=
  k.Inv γ ∧ γ.2.course id = w.course id stage

theorem stable_waiting : Stable (k.Rely i) (k.Waiting i id) := by
  rintro γ γ' ⟨hinv, hnone⟩ hr
  refine ⟨hr.inv hinv, fun w hw hwho => ?_⟩
  exact hnone w (hr.fresh id w hw fun hne => hne hwho) hwho

theorem stable_beaten : Stable (k.Rely i) (k.Beaten i id) := by
  rintro γ γ' ⟨hwaiting, hsome⟩ hr
  refine ⟨stable_waiting γ γ' hwaiting hr, fun hnil => ?_⟩
  obtain ⟨w, hw⟩ := List.exists_mem_of_ne_nil _ hsome
  have := hr.wins id hw
  simp [hnil] at this

theorem stable_running {w : Win} {stage : Stage} (hi : w.who = i) :
    Stable (k.Rely i) (k.Running w id stage) := by
  rintro γ γ' ⟨hinv, hcourse⟩ hr
  have hw : w ∈ (γ.2.course id).wins := by simp [hcourse]
  exact ⟨hr.inv hinv, (hr.kept id w hw fun hne => hne hi).trans hcourse⟩

end Stakes

end SessionShell
