import SessionShell.Proofs.Action.Noted
import SessionShell.Proofs.Action.Observed
import SessionShell.Proofs.Ending.Ledger

/-!
The gate of a wait: the latch it has made, and whether it has hooked on to the session it waits for.

The thread that waits notes both, and nobody reads it. The latch is released when the hook is run on
the exit code, and when it is dropped without being run. So as long as the session is open the gate
is shut, and once an exit of the session has returned it is open.
-/

namespace SessionShell

open Action Shell

structure Gate where
  latch : Option Nat
  hooked : Bool
  deriving DecidableEq, Repr

namespace Gate

def none : Gate :=
  ⟨.none, false⟩

def noteLatch (_ : Shell) (latch : Nat) (g : Gate) : Gate :=
  { g with latch := some latch }

def noteHook (_ : Shell) : Except ShellError Unit → Gate → Gate
  | .ok (), g => { g with hooked := true }
  | .error _, g => g

end Gate

namespace ExitHook

def Wakes (latch : Nat) : ExitHook → Prop
  | .nothing => False
  | .note _ _ => False
  | .wake own first => latch = own ∨ first.Wakes latch
  | .report _ _ => False
  | .inParent _ hook => hook.Wakes latch

end ExitHook

namespace Shell

variable {α : Type}

abbrev Gated := ExceptT ShellError (Action (Shell × Gate))

def setExitHookGated (id : SessionId) (hook : ExitHook) : Gated Unit :=
  tryCatch (ExceptT.mk (noted Gate.noteHook (putExitHook id hook).run)) fun e => do
    ExceptT.lift (silent (Action.update (dropHook hook)))
    throw e

def awaitGated (target : SessionId) (latch : Nat) : Except ShellError Unit → Gated Int
  | .ok () => do
    ExceptT.lift (silent (awaitLatch latch))
    ExceptT.lift (silent (codeAt latch target))
  | .error (.hasExited _) => ExceptT.lift (silent (codeAt latch target))
  | .error e => throw e

def awaitExitGated (target : SessionId) (extra : ExitHook) : Gated Int := do
  let me ← ExceptT.lift (silent currentId)
  let session ← ExceptT.lift (silent (getSession target))
  if session.owner = some me then throw (.selfWait session.name)
  if ← ExceptT.lift (silent isUiThread) then throw (.mayNotBlock session.name)
  let latch ← ExceptT.lift (noted Gate.noteLatch addLatch)
  let result ← ExceptT.lift (setExitHookGated target (.wake latch extra)).run
  awaitGated target latch result

theorem erases_setExitHookGated (id : SessionId) (hook : ExitHook) :
    Erases (setExitHookGated id hook).run (setExitHook id hook).run := by
  refine Erases.bind (erases_noted _ _) fun result => ?_
  cases result with
  | ok => exact .done _
  | error e =>
    exact Erases.run_bind (Erases.lift (erases_silent (update (dropHook hook)))) fun _ => .done _

theorem erases_awaitExitGated (target : SessionId) (extra : ExitHook) :
    Erases (awaitExitGated target extra).run (awaitExit target extra).run := by
  refine Erases.run_bind (Erases.lift (erases_silent currentId)) fun me =>
    Erases.run_bind (Erases.lift (erases_silent (getSession target))) fun session => ?_
  split
  · exact .done _
  · refine Erases.run_bind (Erases.lift (erases_silent isUiThread)) fun ui => ?_
    cases ui with
    | true => exact .done _
    | false =>
      refine Erases.run_bind (Erases.lift (erases_noted Gate.noteLatch addLatch)) fun latch =>
        Erases.run_bind (Erases.lift (erases_setExitHookGated target _)) fun result => ?_
      have hcode := Erases.lift (ε := ShellError) (erases_silent (ν := Gate) (codeAt latch target))
      cases result with
      | ok => exact Erases.run_bind (Erases.lift (erases_silent (awaitLatch latch))) fun _ => hcode
      | error e => cases e <;> first | exact hcode | exact .done _

end Shell

/-- A session that is waited for, what is done besides waking, and the latches there are before. -/
structure Vigil where
  target : SessionId
  extra : ExitHook
  base : Nat

namespace Vigil

variable {k : Vigil} {γ γ' γ'' : Shell × Gate} {s s' : Shell} {g : Gate} {α : Type}

def session (k : Vigil) (γ : Shell × Gate) : Session :=
  γ.1.session k.target

def Ended (k : Vigil) (γ : Shell × Gate) : Prop :=
  (k.session γ).disposed = true ∨ (k.session γ).exitCode.isSome = true

/-- What the session has to do wakes none but latches that are there already, and not that of the
wait. -/
def Heedless (k : Vigil) (γ : Shell × Gate) : Prop :=
  ∀ hook code, .runHook hook code ∈ (k.session γ).tasks → ∀ latch, hook.Wakes latch →
    latch < γ.1.latches.size ∧ γ.2.latch ≠ some latch

structure Inv (k : Vigil) (γ : Shell × Gate) : Prop where
  known : k.target < γ.1.sessions.size
  room : k.base ≤ γ.1.latches.size
  made : ∀ latch, γ.2.latch = some latch → k.base ≤ latch ∧ latch < γ.1.latches.size
  heedless : k.Heedless γ
  /-- As long as the session is open, so long the gate is shut, and nobody else has hooked on. -/
  shut : ¬k.Ended γ → ∀ latch, γ.2.latch = some latch → γ.1.latches[latch]? = some ⟨false, none⟩
  free : ¬k.Ended γ → γ.2.hooked = false → (k.session γ).exitHook = none
  taken : γ.2.hooked = true → ∃ latch, γ.2.latch = some latch ∧
    (¬k.Ended γ → (k.session γ).exitHook = some (.wake latch k.extra))
  gone : k.Ended γ → (k.session γ).exitHook = none
  code : ∀ latch l, γ.2.latch = some latch → γ.1.latches[latch]? = some l →
    l.code = none ∨ l.code = (k.session γ).exitCode

def Opened (γ : Shell × Gate) : Prop :=
  ∃ latch l, γ.2.latch = some latch ∧ γ.1.latches[latch]? = some l ∧ l.released = true

structure Change (k : Vigil) (γ γ' : Shell × Gate) : Prop where
  inv : k.Inv γ → k.Inv γ'
  ended : k.Ended γ → k.Ended γ' ∧ (k.session γ').exitCode = (k.session γ).exitCode
  hooked : γ.2.hooked = true → γ'.2.hooked = true
  late : k.Ended γ → γ'.2.hooked = γ.2.hooked
  latch : ∀ latch, γ.2.latch = some latch → γ'.2.latch = some latch
  opened : Opened γ → Opened γ'

def Deed (k : Vigil) (γ γ' : Shell × Gate) : Prop :=
  k.Change γ γ' ∧ γ'.2 = γ.2

theorem Change.refl (γ : Shell × Gate) : k.Change γ γ :=
  ⟨id, fun h => ⟨h, rfl⟩, id, fun _ => rfl, fun _ => id, id⟩

theorem Change.trans (h : k.Change γ γ') (h' : k.Change γ' γ'') : k.Change γ γ'' := by
  refine ⟨fun hi => h'.inv (h.inv hi), fun he => ?_, fun hh => h'.hooked (h.hooked hh),
    fun he => ?_,
    fun latch hl => h'.latch latch (h.latch latch hl), fun ho => h'.opened (h.opened ho)⟩
  · obtain ⟨he', hcode⟩ := h.ended he
    exact ⟨(h'.ended he').1, (h'.ended he').2.trans hcode⟩
  · exact (h'.late (h.ended he).1).trans (h.late he)

theorem Deed.refl (γ : Shell × Gate) : k.Deed γ γ :=
  ⟨.refl γ, rfl⟩

theorem Deed.trans (h : k.Deed γ γ') (h' : k.Deed γ' γ'') : k.Deed γ γ'' :=
  ⟨h.1.trans h'.1, h'.2.trans h.2⟩

/-! ## What has nothing to do with the wait -/

/-- Leaves the end of the session and the latch of the wait alone. -/
structure Aside (k : Vigil) (γ γ' : Shell × Gate) : Prop where
  gate : γ'.2 = γ.2
  states : γ'.1.exitStates k.target = γ.1.exitStates k.target
  size : γ.1.latches.size ≤ γ'.1.latches.size
  latch : ∀ latch, γ.2.latch = some latch → γ'.1.latches[latch]? = γ.1.latches[latch]?
  /-- The session gets nothing to do that wakes the latch, nor one that is yet to be made. -/
  tasks : ∀ hook code, .runHook hook code ∈ (k.session γ').tasks →
    .runHook hook code ∈ (k.session γ).tasks ∨
      ∀ latch, hook.Wakes latch → latch < γ'.1.latches.size ∧ γ.2.latch ≠ some latch

theorem exitState_eq (h : γ'.1.exitStates k.target = γ.1.exitStates k.target)
    (hknown : k.target < γ.1.sessions.size) :
    k.target < γ'.1.sessions.size ∧ (k.session γ').exitState = (k.session γ).exitState := by
  have hsome : γ.1.exitStates k.target = some (k.session γ).exitState := by
    simp [exitStates, session, Shell.session, Array.getElem?_eq_getElem hknown]
  refine ⟨?_, exitState_session (h.trans hsome)⟩
  rw [hsome, exitStates] at h
  obtain ⟨x, hx, -⟩ := Option.map_eq_some_iff.mp h
  exact (Array.getElem?_eq_some_iff.mp hx).1

theorem exitState_eq_of_states (h : γ'.1.exitStates k.target = γ.1.exitStates k.target) :
    (k.session γ').exitState = (k.session γ).exitState := by
  have hof : ∀ γ : Shell × Gate, (k.session γ).exitState =
      (γ.1.exitStates k.target).getD (default : Session).exitState := by
    intro γ
    simp only [session, Shell.session, exitStates]
    cases γ.1.sessions[k.target]? <;> rfl
  rw [hof, hof, h]

theorem ended_iff (h : (k.session γ').exitState = (k.session γ).exitState) :
    k.Ended γ' ↔ k.Ended γ := by
  have hd : (k.session γ').disposed = (k.session γ).disposed := congrArg ExitState.disposed h
  have hc : (k.session γ').exitCode = (k.session γ).exitCode := congrArg ExitState.exitCode h
  rw [Ended, Ended, hd, hc]

theorem Aside.deed (h : k.Aside γ γ') : k.Deed γ γ' := by
  have hstate := exitState_eq_of_states h.states
  have hended := ended_iff hstate
  have hcode : (k.session γ').exitCode = (k.session γ).exitCode :=
    congrArg ExitState.exitCode hstate
  have hhook : (k.session γ').exitHook = (k.session γ).exitHook :=
    congrArg ExitState.exitHook hstate
  refine ⟨⟨fun hi => ?_, fun he => ⟨hended.mpr he, hcode⟩, by rw [h.gate]; exact id,
    fun _ => by rw [h.gate], by rw [h.gate]; exact fun _ => id, ?_⟩, h.gate⟩
  · constructor
    · exact (exitState_eq h.states hi.known).1
    · exact Nat.le_trans hi.room h.size
    · rw [h.gate]
      exact fun latch hl => ⟨(hi.made latch hl).1, Nat.lt_of_lt_of_le (hi.made latch hl).2 h.size⟩
    · intro hook code hin latch hwakes
      rw [h.gate]
      rcases h.tasks hook code hin with hold | hnew
      · obtain ⟨hlt, hne⟩ := hi.heedless hook code hold latch hwakes
        exact ⟨Nat.lt_of_lt_of_le hlt h.size, hne⟩
      · exact hnew latch hwakes
    · rw [hended, h.gate]
      exact fun he latch hl => (h.latch latch hl).trans (hi.shut he latch hl)
    · rw [hended, h.gate, hhook]
      exact hi.free
    · rw [hended, h.gate, hhook]
      exact hi.taken
    · rw [hended, hhook]
      exact hi.gone
    · rw [h.gate, hcode]
      exact fun latch l hl hget => hi.code latch l hl ((h.latch latch hl).symm.trans hget)
  · rintro ⟨latch, l, hl, hget, hreleased⟩
    exact ⟨latch, l, h.gate ▸ hl, (h.latch latch hl).trans hget, hreleased⟩

end Vigil

end SessionShell
