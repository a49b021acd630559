import SessionShell.Proofs.Waiting.Exits
import SessionShell.Shell.Life

/-!
Waiting for a session, while it ends.

The wait hooks on to the session as long as that is open, and goes on once the gate is. In between
the session may have ended at any time: then the hook is refused, and the code is there already.
-/

namespace SessionShell

open Action Shell

namespace Vigil

variable {k : Vigil} {γ γ' : Shell × Gate} {s s' : Shell} {g : Gate} {α : Type} {me : ThreadId}
  {latch : Nat} {code : Int}

structure Before (k : Vigil) (g : Gate) (γ : Shell × Gate) : Prop where
  inv : k.Inv γ
  gate : γ.2 = g

structure Behind (k : Vigil) (latch : Nat) (hooked : Bool) (γ : Shell × Gate) : Prop where
  inv : k.Inv γ
  gate : γ.2 = ⟨some latch, hooked⟩
  ended : k.Ended γ

def Awaited (k : Vigil) : Except ShellError Int → Shell × Gate → Prop
  | .ok n, γ => k.Ended γ ∧ n = (k.session γ).exitCode.getD ReservedCode.killed.code
  | .error e, γ => γ.2.hooked = false ∧ ∃ name, e = .selfWait name ∨ e = .mayNotBlock name

theorem stable_before {g : Gate} : Stable k.Deed (k.Before g) :=
  fun _ _ h hr => ⟨hr.1.inv h.inv, hr.2.trans h.gate⟩

theorem stable_behind {hooked : Bool} : Stable k.Deed (k.Behind latch hooked) :=
  fun _ _ h hr => ⟨hr.1.inv h.inv, hr.2.trans h.gate, (hr.1.ended h.ended).1⟩

theorem stable_awaited (r : Except ShellError Int) : Stable k.Deed (k.Awaited r) := by
  intro γ γ' h hr
  cases r with
  | ok n =>
    obtain ⟨hended, hcode⟩ := hr.1.ended h.1
    exact ⟨hended, by rw [hcode]; exact h.2⟩
  | error e => exact ⟨by rw [hr.2]; exact h.1, h.2⟩

theorem upholds_look {g : Gate} {p : Action Shell α} (hp : Keeps id p)
    (hcrash : NeverCrashes p) : Upholds k.Deed k.Change me (k.Before g) (silent p)
      (Fate.Returns fun _ => k.Before g) := by
  rw [Observer.silent_eq_observe]
  refine upholds_of_within stable_before ?_ (hp.within fun _ _ hs => hs) hcrash
  rintro s g' _ h rfl
  exact ⟨.refl _, h⟩

theorem change_of_addLatch (hi : k.Inv (s, .none)) :
    k.Change (s, .none)
      ({ s with latches := s.latches.push ⟨false, none⟩ }, ⟨some s.latches.size, false⟩) := by
  have hnew : (s.latches.push ⟨false, none⟩)[s.latches.size]? = some (⟨false, none⟩ : Latch) := by
    simp
  refine ⟨fun _ => ?_, fun he => ⟨he, rfl⟩, nofun, fun _ => rfl, nofun, ?_⟩
  · constructor
    · exact hi.known
    · exact Nat.le_trans hi.room (by simp)
    · intro latch hl
      cases hl
      exact ⟨hi.room, by simp⟩
    · intro hook code hin latch hw
      have hlt : latch < s.latches.size := (hi.heedless hook code hin latch hw).1
      refine ⟨by simpa using Nat.lt_succ_of_lt hlt, fun heq => ?_⟩
      cases heq
      exact Nat.lt_irrefl _ hlt
    · intro _ latch hl
      cases hl
      exact hnew
    · exact fun he _ => hi.free he rfl
    · exact nofun
    · exact hi.gone
    · intro latch l hl hget
      cases hl
      cases hnew.symm.trans hget
      exact .inl rfl
  · rintro ⟨latch, -, hl, -⟩
    cases hl

theorem upholds_addLatch :
    Upholds k.Deed k.Change me (k.Before .none) (noted Gate.noteLatch addLatch)
      (Fate.Returns fun latch => k.Before ⟨some latch, false⟩) := by
  refine upholds_step stable_before (fun _ => stable_before) ?_
  rintro ⟨s, g⟩ ⟨hi, rfl⟩
  have hchange := change_of_addLatch hi
  exact ⟨hchange, hchange.inv hi, rfl⟩

theorem change_of_hook (hi : k.Inv (s, ⟨some latch, false⟩))
    (hopen : ¬k.Ended (s, ⟨some latch, false⟩)) :
    k.Change (s, ⟨some latch, false⟩)
      (modifySession k.target (fun _ =>
        { s.session k.target with exitHook := some (.wake latch k.extra) }) s,
          ⟨some latch, true⟩) := by
  have hself : ∀ g, k.session (modifySession k.target (fun _ =>
      { s.session k.target with exitHook := some (.wake latch k.extra) }) s, g) =
      { s.session k.target with exitHook := some (.wake latch k.extra) } :=
    fun _ => session_modifySession_self _ hi.known
  refine ⟨fun _ => ?_, fun he => absurd he hopen, fun _ => rfl, fun he => absurd he hopen,
    fun _ => id, id⟩
  have hended : ¬k.Ended (modifySession k.target (fun _ =>
      { s.session k.target with exitHook := some (.wake latch k.extra) }) s,
        ⟨some latch, true⟩) := by
    rw [Ended, hself]
    exact hopen
  constructor
  · exact Nat.lt_of_lt_of_eq hi.known (size_modifySession _).symm
  · exact hi.room
  · exact hi.made
  · rw [Heedless, hself]
    exact hi.heedless
  · exact fun _ => hi.shut hopen
  · intro _ hh
    cases hh
  · exact fun _ => ⟨latch, rfl, fun _ => by rw [hself]⟩
  · exact fun he => absurd he hended
  · rw [hself]
    exact hi.code

/-- How the attempt to hook on to the session has ended. Nobody else has done so. -/
def Hooked (k : Vigil) (latch : Nat) : Except ShellError Unit → Shell × Gate → Prop
  | .ok (), γ => k.Before ⟨some latch, true⟩ γ
  | .error e, γ => (∃ name, e = .hasExited name) ∧ k.Behind latch false γ

theorem stable_hooked (r : Except ShellError Unit) : Stable k.Deed (k.Hooked latch r) := by
  cases r with
  | ok => exact stable_before
  | error e => exact fun γ γ' h hr => ⟨h.1, stable_behind γ γ' h.2 hr⟩

theorem upholds_putExitHook :
    Upholds k.Deed k.Change me (k.Before ⟨some latch, false⟩)
      (noted Gate.noteHook (putExitHook k.target (.wake latch k.extra)).run)
      (Fate.Returns (k.Hooked latch)) := by
  refine upholds_step stable_before stable_hooked ?_
  rintro ⟨s, g⟩ ⟨hi, rfl⟩
  by_cases hended : k.Ended (s, ⟨some latch, false⟩)
  · have hcond : (s.session k.target).disposed = true ∨
        (s.session k.target).exitCode.isSome = true :=
      hended
    simp only [hcond, if_true]
    exact ⟨.refl _, ⟨_, rfl⟩, hi, rfl, hended⟩
  · have hcond : ¬((s.session k.target).disposed = true ∨
        (s.session k.target).exitCode.isSome = true) := hended
    have hfree : (s.session k.target).exitHook = none := hi.free hended rfl
    have hchange := change_of_hook hi hended
    simp only [hcond, if_false, hfree, Option.isSome_none, Bool.false_eq_true]
    exact ⟨hchange, hchange.inv hi, rfl⟩

theorem upholds_dropHook (hextra : ∀ latch, k.extra.Wakes latch → latch < k.base) :
    Upholds k.Deed k.Change me (k.Behind latch false)
      (silent (Action.update (dropHook (.wake latch k.extra))))
      (Fate.Returns fun _ => k.Behind latch false) := by
  refine upholds_step stable_behind (fun _ => stable_behind) ?_
  rintro ⟨s, g⟩ h
  have hdropped := (Outside.aside h.inv (outside_dropHook hextra s)).deed
  have hdropped' := stable_behind _ _ h hdropped
  have hreleased := deed_of_latch (f := fun l => { l with released := true }) hdropped'.inv
    hdropped'.ended latch (fun _ => .inl rfl) fun _ _ => rfl
  have hdeed := hdropped.trans hreleased
  exact ⟨hdeed.1, stable_behind _ _ h hdeed⟩

theorem upholds_setExitHook (hextra : ∀ latch, k.extra.Wakes latch → latch < k.base) :
    Upholds k.Deed k.Change me (k.Before ⟨some latch, false⟩)
      (setExitHookGated k.target (.wake latch k.extra)).run (Fate.Returns (k.Hooked latch)) := by
  refine Upholds.bind upholds_putExitHook Deed.refl fun result => ?_
  cases result with
  | ok => exact upholds_pure _ (stable_hooked _) fun _ h => h
  | error e =>
    intro γ h
    obtain ⟨hname, hbehind⟩ := h
    refine Upholds.lift_bind (upholds_dropHook hextra) Deed.refl (fun _ => ?_) γ hbehind
    exact upholds_pure _ stable_behind fun _ h => ⟨hname, h⟩

theorem upholds_awaitLatch :
    Upholds k.Deed k.Change me (k.Before ⟨some latch, true⟩) (silent (awaitLatch latch))
      (Fate.Returns fun _ => k.Behind latch true) := by
  rw [Observer.silent_eq_observe]
  refine upholds_observe_await stable_before (fun _ => stable_behind) ?_
  rintro s g a s' ⟨hi, rfl⟩ hs -
  split at hs
  · next hreleased =>
    cases hs
    refine ⟨.refl _, hi, rfl, ?_⟩
    by_contra hopen
    have hshut : s.latches[latch]? = some ⟨false, none⟩ := hi.shut hopen latch rfl
    simp [hshut] at hreleased
  · cases hs

theorem upholds_codeAt {hooked : Bool} :
    Upholds k.Deed k.Change me (k.Behind latch hooked) (silent (codeAt latch k.target))
      (Fate.Returns fun n => k.Awaited (.ok n)) := by
  rw [Observer.silent_eq_observe]
  refine upholds_observe_step stable_behind (fun n => stable_awaited (.ok n)) fun s g h _ =>
    ⟨.refl _, h.ended, ?_⟩
  obtain ⟨hi, rfl, -⟩ := h
  change ((s.latches[latch]?.bind (·.code)).or (s.session k.target).exitCode).getD _ =
    (s.session k.target).exitCode.getD _
  cases hl : s.latches[latch]? with
  | none => rfl
  | some l =>
    rcases hi.code latch l rfl hl with hcode | hcode
    · rw [Option.bind_some, hcode, Option.none_or]
    · rw [Option.bind_some, hcode, session, Option.or_self]

theorem upholds_awaitGated (result : Except ShellError Unit) :
    Upholds k.Deed k.Change me (k.Hooked latch result) (awaitGated k.target latch result).run
      (Fate.Returns k.Awaited) := by
  have hcode : ∀ hooked, Upholds k.Deed k.Change me (k.Behind latch hooked)
      (ExceptT.lift (silent (codeAt latch k.target)) : Gated Int).run (Fate.Returns k.Awaited) :=
    fun hooked => Upholds.bind upholds_codeAt Deed.refl fun n =>
      upholds_pure _ (stable_awaited (.ok n)) fun _ h => h
  cases result with
  | ok => exact Upholds.lift_bind upholds_awaitLatch Deed.refl fun _ => hcode true
  | error e =>
    rintro γ ⟨⟨name, rfl⟩, h⟩
    exact hcode false γ h

theorem upholds_awaitExit (hextra : ∀ latch, k.extra.Wakes latch → latch < k.base) :
    Upholds k.Deed k.Change me (k.Before .none) (awaitExitGated k.target k.extra).run
      (Fate.Returns k.Awaited) := by
  have hself : Upholds k.Deed k.Change me (k.Before .none) (silent currentId)
      (Fate.Returns fun _ => k.Before .none) :=
    upholds_look keeps_self fun _ => trivial
  have hsession : Upholds k.Deed k.Change me (k.Before .none) (silent (getSession k.target))
      (Fate.Returns fun _ => k.Before .none) :=
    upholds_look (keeps_read _) fun _ => trivial
  have hui : Upholds k.Deed k.Change me (k.Before .none) (silent isUiThread)
      (Fate.Returns fun _ => k.Before .none) :=
    upholds_look (Keeps.bind keeps_self fun _ => keeps_read _) fun _ => fun _ => trivial
  refine Upholds.lift_bind hself Deed.refl fun caller =>
    Upholds.lift_bind hsession Deed.refl fun session => ?_
  split
  · exact upholds_pure _ stable_before fun γ h => ⟨by rw [h.gate]; rfl, _, .inl rfl⟩
  · refine Upholds.lift_bind hui Deed.refl fun ui => ?_
    cases ui with
    | true => exact upholds_pure _ stable_before fun γ h => ⟨by rw [h.gate]; rfl, _, .inr rfl⟩
    | false =>
      exact Upholds.lift_bind upholds_addLatch Deed.refl fun latch =>
        Upholds.lift_bind (upholds_setExitHook hextra) Deed.refl fun result =>
        upholds_awaitGated result

end Vigil

end SessionShell

/-!
Who waits for a session is woken when it ends, and told its exit code.

One thread waits, others end the session, in any order of their steps, and whatever else goes on
that leaves the end of the session and the latch of the wait alone. A wait that is refused has
hooked on to nothing, whatever else goes on.
-/

namespace SessionShell

open Action Shell

/-! ## A wait that is refused -/

namespace Gate

/-- Leaves the gate of the wait alone, whatever else it does. -/
def Spares (γ γ' : Shell × Gate) : Prop :=
  γ'.2 = γ.2

/-- Sets no exit hook without noting it. -/
structure Notes (γ γ' : Shell × Gate) : Prop where
  hooked : γ.2.hooked = true → γ'.2.hooked = true
  hooks : γ'.2.hooked = γ.2.hooked → ∀ id, (γ'.1.session id).exitHook = (γ.1.session id).exitHook

/-- The wait stands before its gate `g`. -/
def At (g : Gate) (γ : Shell × Gate) : Prop :=
  γ.2 = g

variable {γ γ' : Shell × Gate} {g : Gate} {me : ThreadId} {α : Type} {target : SessionId}
  {extra : ExitHook} {latch : Nat}

theorem Notes.of_sessions (hgate : γ'.2.hooked = γ.2.hooked) (h : γ'.1.sessions = γ.1.sessions) :
    Notes γ γ' :=
  ⟨fun hh => hgate.trans hh, fun _ id => by rw [Shell.session, Shell.session, h]⟩

theorem stable_at : Stable Spares (At g) :=
  fun _ _ h hr => hr.trans h

theorem upholds_at {p : Action Shell α} (hp : Keeps Shell.sessions p) (hcrash : NeverCrashes p) :
    Upholds Spares Notes me (At g) (silent p) (Fate.Returns fun _ => At g) := by
  rw [Observer.silent_eq_observe]
  exact upholds_of_within stable_at (fun _ _ _ h hs => ⟨.of_sessions rfl hs, h⟩)
    (hp.within fun _ _ hs => hs) hcrash

def Answers (latch : Nat) (r : Except ShellError Unit) : Shell × Gate → Prop :=
  At ⟨some latch, r.isOk⟩

theorem upholds_putExitHook :
    Upholds Spares Notes me (At ⟨some latch, false⟩)
      (noted noteHook (putExitHook target (.wake latch extra)).run)
      (Fate.Returns (Answers latch)) := by
  refine upholds_step stable_at (fun _ => stable_at) ?_
  rintro ⟨s, g⟩ (rfl : g = _)
  dsimp only
  split
  · exact ⟨⟨fun _ => rfl, nofun⟩, rfl⟩
  · exact ⟨.of_sessions rfl rfl, rfl⟩

theorem upholds_setExitHook :
    Upholds Spares Notes me (At ⟨some latch, false⟩)
      (setExitHookGated target (.wake latch extra)).run (Fate.Returns (Answers latch)) := by
  refine Upholds.bind upholds_putExitHook (fun _ => rfl) fun result => ?_
  cases result with
  | ok => exact upholds_pure _ stable_at fun _ h => h
  | error e =>
    exact Upholds.lift_bind (upholds_at (keeps_update (sessions_dropHook _)) fun _ => trivial)
      (fun _ => rfl) fun _ => upholds_pure _ stable_at fun _ h => h

def Refuses (r : Except ShellError Int) (γ : Shell × Gate) : Prop :=
  ∀ e, r = .error e → γ.2.hooked = false

theorem upholds_awaitGated (result : Except ShellError Unit) :
    Upholds Spares Notes me (Answers latch result) (awaitGated target latch result).run
      (Fate.Returns Refuses) := by
  have hcode : Upholds Spares Notes me (Answers latch result)
      (ExceptT.lift (silent (codeAt latch target)) : Gated Int).run (Fate.Returns Refuses) :=
    Upholds.bind (upholds_at (keeps_read _) fun _ => trivial) (fun _ => rfl) fun n =>
      upholds_pure _ stable_at fun _ _ => nofun
  have hthrow : ∀ e, Upholds Spares Notes me (Answers latch (.error e))
      (throw e : Gated Int).run (Fate.Returns Refuses) :=
    fun e => upholds_pure _ stable_at fun _ h _ _ => congrArg Gate.hooked h
  cases result with
  | ok =>
    refine Upholds.lift_bind (upholds_at (keeps_await fun s _ s' hs => ?_) fun _ => trivial)
      (fun _ => rfl) fun _ => hcode
    split at hs
    · cases hs
      rfl
    · cases hs
  | error e => cases e <;> first | exact hcode | exact hthrow _

theorem upholds_awaitExit :
    Upholds Spares Notes me (At .none) (awaitExitGated target extra).run
      (Fate.Returns Refuses) := by
  have hrefuse : ∀ e, Upholds Spares Notes me (At .none) (throw e : Gated Int).run
      (Fate.Returns Refuses) :=
    fun e => upholds_pure _ stable_at fun _ h _ _ => congrArg Gate.hooked h
  have hself : Upholds Spares Notes me (At .none) (silent currentId)
      (Fate.Returns fun _ => At .none) :=
    upholds_at keeps_self fun _ => trivial
  have hsession : Upholds Spares Notes me (At .none) (silent (getSession target))
      (Fate.Returns fun _ => At .none) :=
    upholds_at (keeps_read _) fun _ => trivial
  have hui : Upholds Spares Notes me (At .none) (silent isUiThread)
      (Fate.Returns fun _ => At .none) :=
    upholds_at (Keeps.bind keeps_self fun _ => keeps_read _) fun _ => fun _ => trivial
  have hlatch : Upholds Spares Notes me (At .none) (noted noteLatch addLatch)
      (Fate.Returns fun latch => At ⟨some latch, false⟩) := by
    refine upholds_step stable_at (fun _ => stable_at) ?_
    rintro ⟨s, g⟩ (rfl : g = _)
    exact ⟨.of_sessions rfl rfl, rfl⟩
  refine Upholds.lift_bind hself (fun _ => rfl) fun caller =>
    Upholds.lift_bind hsession (fun _ => rfl) fun session => ?_
  split
  · exact hrefuse _
  · refine Upholds.lift_bind hui (fun _ => rfl) fun ui => ?_
    cases ui with
    | true => exact hrefuse _
    | false =>
      exact Upholds.lift_bind hlatch (fun _ => rfl) fun latch =>
        Upholds.lift_bind upholds_setExitHook (fun _ => rfl) fun result => upholds_awaitGated result

end Gate

/-! ## One waits, others end the session -/

namespace Vigil

variable {k : Vigil} {γ γ' : Shell × Gate} {me : ThreadId}

inductive Exit where
  | chosen (code : Int)
  | finish (code : Int) (removes handsOn : Bool)
  deriving DecidableEq, Repr

namespace Exit

def code : Exit → Int
  | chosen code => code
  | finish code _ _ => code

def ends (k : Vigil) : Exit → Checked Unit
  | chosen code => exit k.target code
  | finish code removes handsOn => Shell.finish k.target code removes handsOn

def program (k : Vigil) (e : Exit) : Checked Int := do
  e.ends k
  return e.code

def gated (k : Vigil) (e : Exit) : Gated Int := do
  ExceptT.mk (silent (e.ends k).run)
  return e.code

theorem erases_gated (k : Vigil) (e : Exit) : Erases (e.gated k).run (e.program k).run :=
  Erases.run_bind (erases_silent _) fun _ => .done _

end Exit

def Result (k : Vigil) : Nat → Except ShellError Int → Shell × Gate → Prop
  | 0, r => k.Awaited r
  | _ + 1, .ok _ => k.Over
  | _ + 1, .error _ => fun _ => True

theorem upholds_ending (hextra : ∀ latch, k.extra.Wakes latch → latch < k.base)
    (e : Exit) (i : Nat) :
    Upholds k.Change k.Deed me k.Inv (e.gated k).run (Fate.Returns (k.Result (i + 1))) := by
  have hends : Upholds k.Change k.Deed me k.Inv (silent (e.ends k).run) (Fate.Returns k.Left) := by
    rw [Observer.silent_eq_observe]
    cases e with
    | chosen code => exact upholds_exit hextra
    | finish code removes handsOn => exact upholds_finish hextra removes handsOn
  refine Upholds.run_bind hends Change.refl (fun _ => ?_) fun e => ?_
  · exact upholds_pure _ stable_over fun _ h => h
  · exact fun _ _ _ _ => trivial

/-- The session has no exit hook, and the wait and the exits have not begun. -/
structure IsNew (k : Vigil) (exits : List Exit) (c : Crowd (Shell × Gate) (Except ShellError Int)) :
    Prop where
  wait : ∀ me p, c.runners[0]? = some (me, p) → p = (awaitExitGated k.target k.extra).run
  exits : ∀ i me p, c.runners[i + 1]? = some (me, p) → ∃ e ∈ exits, p = (e.gated k).run
  gate : c.shared.2 = .none
  known : k.target < c.shared.1.sessions.size
  unhooked : (k.session c.shared).exitHook = none
  base : k.base = c.shared.1.latches.size
  extra : ∀ latch, k.extra.Wakes latch → latch < k.base
  tasks : ∀ hook code, .runHook hook code ∈ (k.session c.shared).tasks →
    ∀ latch, hook.Wakes latch → latch < k.base

variable {exits : List Exit} {c c₀ : Crowd (Shell × Gate) (Except ShellError Int)}

theorem inv_of_isNew (h : k.IsNew exits c) : k.Inv c.shared := by
  refine ⟨h.known, Nat.le_of_eq h.base, ?_, fun hook code hin latch hw => ⟨?_, ?_⟩, fun _ => ?_,
    fun _ _ => h.unhooked, ?_, fun _ => h.unhooked, ?_⟩
  · rw [h.gate]
    exact nofun
  · exact h.base ▸ h.tasks hook code hin latch hw
  · rw [h.gate]
    exact nofun
  · rw [h.gate]
    exact nofun
  · rw [h.gate]
    exact nofun
  · rw [h.gate]
    exact nofun

def Rely (k : Vigil) : Nat → Shell × Gate → Shell × Gate → Prop
  | 0 => k.Deed
  | _ + 1 => k.Change

def Guarantee (k : Vigil) : Nat → Shell × Gate → Shell × Gate → Prop
  | 0 => k.Change
  | _ + 1 => k.Deed

theorem Deed.rely (h : k.Deed γ γ') (i : Nat) : k.Rely i γ γ' := by
  cases i with
  | zero => exact h
  | succ i => exact h.1

theorem rely_of_guarantee {i j : Nat} (hij : i ≠ j) (h : k.Guarantee i γ γ') : k.Rely j γ γ' := by
  cases i with
  | zero =>
    cases j with
    | zero => exact absurd rfl hij
    | succ j => exact h
  | succ i => exact Deed.rely h j

theorem change_of_guarantee {i : Nat} (h : k.Guarantee i γ γ') : k.Change γ γ' := by
  cases i with
  | zero => exact h
  | succ i => exact h.1

theorem Rely.trans {i : Nat} {γ'' : Shell × Gate} (h : k.Rely i γ γ') (h' : k.Rely i γ' γ'') :
    k.Rely i γ γ'' := by
  cases i with
  | zero => exact Deed.trans h h'
  | succ i => exact Change.trans h h'

theorem allSafe_of_isNew (h : k.IsNew exits c) :
    c.AllSafe k.Rely k.Guarantee fun i => Fate.Returns (k.Result i) := by
  intro i me p hi
  cases i with
  | zero =>
    rw [h.wait me p hi]
    exact upholds_awaitExit h.extra _ ⟨inv_of_isNew h, h.gate⟩
  | succ i =>
    obtain ⟨e, -, rfl⟩ := h.exits i me p hi
    exact upholds_ending h.extra e i _ (inv_of_isNew h)

/-- What can be said of the wait and the exits at any time. -/
structure Awakes (k : Vigil) (c : Crowd (Shell × Gate) (Except ShellError Int)) : Prop where
  /-- A wait that returns a code returns that of the session, which has ended. -/
  answer : ∀ me n, c.runners[0]? = some (me, .done (.ok n)) →
    k.Ended c.shared ∧ ∀ code, (k.session c.shared).exitCode = some code → n = code
  /-- When an exit has returned, the gate of the wait is open. -/
  opened : ∀ i me code, c.runners[i + 1]? = some (me, .done (.ok code)) →
    c.shared.2.hooked = true → Opened c.shared
  /-- A wait that has failed was refused, and has hooked on to nothing. -/
  refused : ∀ me e, c.runners[0]? = some (me, .done (.error e)) →
    c.shared.2.hooked = false ∧ ∃ name, e = .selfWait name ∨ e = .mayNotBlock name
  crash : ∀ (i : Nat) (me : ThreadId), c.runners[i]? ≠ some (me, .crash)

theorem awakes_of_reaches (hnew : k.IsNew exits c₀) (h : c₀.Reaches k.Aside c) : k.Awakes c := by
  obtain ⟨hsafe, -⟩ := Crowd.allSafe_of_reaches (T := k.Change)
    (fun i _ => Deed.rely (.refl _) i) (fun _ _ _ _ => Rely.trans)
    (fun _ _ _ _ => rely_of_guarantee) (fun i _ _ ha => Deed.rely ha.deed i) .refl
    (fun _ _ _ => Change.trans) (fun _ _ _ => change_of_guarantee) (fun _ _ ha => ha.deed.1) h
    (allSafe_of_isNew hnew)
  have hresult : ∀ i me r, c.runners[i]? = some (me, .done r) → k.Result i r c.shared :=
    fun i me r hi => hsafe i me _ hi _ (Deed.rely (.refl _) i)
  refine ⟨fun me n hi => ?_, fun i me code hi => (hresult (i + 1) me _ hi).opened,
    fun me e hi => hresult 0 me _ hi, fun i me hi => hsafe i me _ hi _ (Deed.rely (.refl _) i)⟩
  obtain ⟨hended, hn⟩ : k.Awaited (.ok n) c.shared := hresult 0 me _ hi
  refine ⟨hended, fun code hcode => ?_⟩
  rw [hn, hcode]
  rfl

/-! ## Threads without a gate -/

/-- The session has no exit hook, and there are no latches yet but those of others. -/
structure IsFree (k : Vigil) (s : Shell) : Prop where
  known : k.target < s.sessions.size
  unhooked : (s.session k.target).exitHook = none
  base : k.base = s.latches.size
  extra : ∀ latch, k.extra.Wakes latch → latch < k.base
  tasks : ∀ hook code, .runHook hook code ∈ (s.session k.target).tasks →
    ∀ latch, hook.Wakes latch → latch < k.base

/-- A thread before its wait, and threads before their exits. -/
def crowd (k : Vigil) (s : Shell) (me : ThreadId) (exits : List (ThreadId × Exit)) :
    Crowd Shell (Except ShellError Int) :=
  ⟨s, (me, (awaitExit k.target k.extra).run) :: exits.map fun e => (e.1, (e.2.program k).run)⟩

/-- The same threads, which note what they do to the gate. -/
def crowdGated (k : Vigil) (s : Shell) (me : ThreadId) (exits : List (ThreadId × Exit)) :
    Crowd (Shell × Gate) (Except ShellError Int) :=
  ⟨(s, .none),
    (me, (awaitExitGated k.target k.extra).run) :: exits.map fun e => (e.1, (e.2.gated k).run)⟩

/-- Leaves all latches alone that there are, whosever they are. -/
def Apart (k : Vigil) (s s' : Shell) : Prop :=
  ∀ g, k.Aside (s, g) (s', g)

variable {s : Shell} {runs : List (ThreadId × Exit)}

theorem isNew_crowdGated (h : k.IsFree s) :
    k.IsNew (runs.map Prod.snd) (k.crowdGated s me runs) := by
  refine ⟨fun me' p hi => ?_, fun i me' p hi => ?_, rfl, h.known, h.unhooked, h.base,
    h.extra, h.tasks⟩
  · cases hi
    rfl
  · obtain ⟨e, he, heq⟩ : ∃ e, runs[i]? = some e ∧ (e.1, (e.2.gated k).run) = (me', p) := by
      simpa [crowdGated] using hi
    cases heq
    exact ⟨e.2, List.mem_map_of_mem (List.mem_of_getElem? he), rfl⟩

theorem erases_crowdGated : (k.crowdGated s me runs).Erases (k.crowd s me runs) := by
  refine ⟨rfl, by simp [crowd, crowdGated], fun i me' p hi => ?_⟩
  cases i with
  | zero =>
    cases hi
    exact ⟨_, rfl, erases_awaitExitGated k.target k.extra⟩
  | succ i =>
    obtain ⟨e, he, heq⟩ : ∃ e, runs[i]? = some e ∧ (e.1, (e.2.program k).run) = (me', p) := by
      simpa [crowd] using hi
    cases heq
    exact ⟨_, by simp [crowdGated, he], Exit.erases_gated k e.2⟩

theorem exists_gated {r : Crowd Shell (Except ShellError Int)}
    (h : (k.crowd s me runs).Reaches k.Apart r) :
    ∃ c, (k.crowdGated s me runs).Reaches k.Aside c ∧ c.Erases r := by
  obtain ⟨c, hreaches, hc⟩ := Crowd.exists_noted h erases_crowdGated
  refine ⟨c, hreaches.mono fun γ γ' hbeside => ?_, hc⟩
  obtain ⟨hapart, hgate⟩ := hbeside
  have hγ' : γ' = (γ'.1, γ.2) := Prod.ext rfl hgate
  rw [hγ']
  exact hapart γ.2

/-! ## All together -/

/-- Whoever waits for a session is told its code, and is free to go on once an exit of the session
has returned, whether or not the session leaves the registry with it, and whether or not what is
done with its code besides crashes. A wait that is refused has hooked on to nothing, also when
others hook on to the session, or do anything else, in the meantime. What is noted of the gate can
be noted of whatever the threads do. -/
theorem awakes_with_code (k : Vigil) :
    (∀ s me runs r, k.IsFree s → (k.crowd s me runs).Reaches k.Apart r →
      ∃ c, k.IsNew (runs.map Prod.snd) (k.crowdGated s me runs) ∧
        (k.crowdGated s me runs).Reaches k.Aside c ∧ c.Erases r) ∧
    (∀ exits c₀ c, k.IsNew exits c₀ → c₀.Reaches k.Aside c → k.Awakes c) ∧
    ∀ (me : ThreadId) (target : SessionId) (extra : ExitHook),
      Erases (awaitExitGated target extra).run (awaitExit target extra).run ∧
      Upholds Gate.Spares Gate.Notes me (Gate.At .none) (awaitExitGated target extra).run
        (Fate.Returns Gate.Refuses) := by
  refine ⟨fun s me runs r hfree h => ?_, fun _ _ _ => awakes_of_reaches, fun _ target extra =>
    ⟨erases_awaitExitGated target extra, Gate.upholds_awaitExit⟩⟩
  obtain ⟨c, hreaches, hc⟩ := exists_gated h
  exact ⟨c, isNew_crowdGated hfree, hreaches, hc⟩

/-- The second of two sessions is waited for, and what is done with its code besides crashes. -/
def awoken : Vigil :=
  ⟨1, .note "seen" true, 0⟩

/-- The wait has hooked on to the session when that exits with a code of its own. -/
theorem awakes_with_code_of_crash :
    ∃ c₀ c, awoken.IsNew [.chosen 5] c₀ ∧ c₀.Reaches awoken.Aside c ∧ awoken.Awakes c ∧
      c.shared.2 = ⟨some 0, true⟩ ∧ c.runners = [(0, .done (.ok 5)), (2, .done (.ok 5))] := by
  let new : Shell := .new (.default 1) (.empty "") .empty ⟨[], true⟩ true false
  let one : Shell := aloneOr 0 (start 0 "calc").run (aloneOr 0 (newSession "a" none) new)
  let two : Shell := aloneOr 0 (fork 0 {}).run one
  let wait : Action (Shell × Gate) (Except ShellError Int) := (awaitExitGated 1 awoken.extra).run
  let ending : Action (Shell × Gate) (Except ShellError Int) := ((Exit.chosen 5).gated awoken).run
  let hooked : Shell × Gate := (wait.advance 0 (two, .none)).2.2
  let rest : Action (Shell × Gate) (Except ShellError Int) :=
    Life.standingRest (wait.advance 0 (two, .none)).2.1
  let exited : Shell × Gate := aloneOr 2 ending hooked
  let woken : Shell × Gate := aloneOr 0 rest exited
  have hexit : ending.runAlone? 2 hooked = some (.ok 5, exited) :=
    runAlone?_eq_aloneOr_of_map (by decide)
  have hwake : rest.runAlone? 0 exited = some (.ok 5, woken) :=
    runAlone?_eq_aloneOr_of_map (by decide +kernel)
  have hgate : woken.2 = ⟨some 0, true⟩ := by decide +kernel
  have hknown : 1 < two.sessions.size := by decide
  have hunhooked : (two.session 1).exitHook = none := by decide +kernel
  have hbase : 0 = two.latches.size := by decide +kernel
  have htasks : (two.session 1).tasks = [.boot .calculator] := by decide +kernel
  let c₀ : Crowd (Shell × Gate) (Except ShellError Int) := ⟨(two, .none), [(0, wait), (2, ending)]⟩
  have hstart : c₀.Reaches awoken.Aside ⟨hooked, [(0, rest), (2, ending)]⟩ :=
    Crowd.reaches_of_advance (i := 0) rfl
  clear_value woken exited rest hooked two
  have hnew : awoken.IsNew [.chosen 5] c₀ := by
    refine ⟨fun me p hi => ?_, fun i me p hi => ?_, rfl, hknown, hunhooked, hbase, nofun, ?_⟩
    · cases hi
      rfl
    · rcases i with _ | i
      · cases hi
        exact ⟨_, List.mem_cons_self, rfl⟩
      · cases hi
    · intro hook code hin
      have hin' : .runHook hook code ∈ (two.session 1).tasks := hin
      rw [htasks] at hin'
      simp at hin'
  have hended : c₀.Reaches awoken.Aside ⟨exited, [(0, rest), (2, .done (.ok 5))]⟩ :=
    hstart.trans (Crowd.reaches_of_runAlone? (i := 1) rfl hexit)
  have hreaches : c₀.Reaches awoken.Aside ⟨woken, [(0, .done (.ok 5)), (2, .done (.ok 5))]⟩ :=
    hended.trans (Crowd.reaches_of_runAlone? (i := 0) rfl hwake)
  exact ⟨c₀, _, hnew, hreaches, (awakes_with_code awoken).2.1 _ _ _ hnew hreaches, hgate, rfl⟩

end Vigil

end SessionShell
