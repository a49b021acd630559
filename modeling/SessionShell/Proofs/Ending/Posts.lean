import SessionShell.Proofs.Ending.Attempts
import SessionShell.Proofs.Ending.Codes
import SessionShell.Proofs.Stream.Order

/-!
What of an ending session is still written.

Once the exit code of a session is recorded, nothing more is submitted for it: hooks and heirs are
told in other ways, and the end of the shell only waits for what was submitted before.
-/

namespace SessionShell

open Action

namespace StreamService

variable {ρ : Type} {s : StreamService ρ}

theorem requests_submit (h : s.discipline = .fifo) (r : ρ) :
    requests (s.submit r).queue = requests s.queue ++ [r] := by
  simp [submit, queue_enqueue, h]

theorem requests_submitMark (s : StreamService ρ) :
    requests s.submitMark.2.queue = requests s.queue := by
  cases h : s.discipline <;> simp [submitMark, queue_enqueue, h]

end StreamService

namespace Shell

def posted (s : Shell) : List String × List String :=
  (StreamService.requests s.console.out.queue, StreamService.requests s.console.err.queue)

variable {α β : Type} {s : Shell} {id : SessionId} {code : Int}

abbrev Mute (p : Action Shell α) : Prop :=
  Keeps posted p

theorem mute_updateSession (f : Session → Session) : Mute (updateSession id f) :=
  keeps_update fun _ => rfl

theorem mute_schedule (task : Task) : Mute (schedule id task).run :=
  Keeps.run_bind keeps_ensureLive fun _ => Keeps.lift (mute_updateSession _)

theorem mute_note (event : Event) : Mute (note event) :=
  keeps_update fun _ => rfl

theorem mute_runHook (code : Int) (hook : ExitHook) : Mute (runHook code hook) :=
  (holdsOfHookSteps_keeps (fun _ _ _ => mute_note _) (fun _ _ => rfl) (fun _ _ => rfl)
    fun _ => mute_schedule).runHook code hook

theorem mute_leave (hook? : Option ExitHook) (handsOn : Bool) :
    Mute (leave id code hook? handsOn) := by
  have hgrant : ∀ id, Mute (grantFocus id) := fun _ =>
    Keeps.bind (mute_updateSession _) fun _ => mute_updateSession _
  have hhandOn : ∀ index remaining, Mute (handOn index remaining) := fun index remaining => by
    refine Keeps.bind (keeps_read _) fun target? => ?_
    cases target? with
    | none => exact keeps_pure _
    | some target => exact hgrant target
  have hrest : Mute (leave id code none handsOn) := by
    refine Keeps.bind (keeps_step fun _ => rfl) fun wasCurrent =>
      Keeps.bind (keeps_step fun _ => rfl) fun removal => ?_
    cases removal with
    | last => exact keeps_pure _
    | absent => exact keeps_pure _
    | removed index remaining =>
      dsimp only
      split
      · exact Keeps.bind (hhandOn index remaining) fun _ => keeps_pure _
      · exact keeps_pure _
  cases hook? with
  | none => exact hrest
  | some hook =>
    exact Keeps.bind (Keeps.bind (mute_runHook code hook).attempt fun _ => keeps_pure _) fun _ =>
      hrest

theorem mute_dispose : Mute (dispose id) := by
  refine Keeps.bind (keeps_step fun s => ?_) fun hook? =>
    Keeps.bind (keeps_dropHook? (fun _ _ _ => rfl) hook?) fun _ =>
    Keeps.bind (keeps_cancelJobs fun _ _ => rfl) fun _ =>
    Keeps.bind (keeps_dropTasks fun _ _ _ => rfl) fun _ =>
    Keeps.bind (mute_updateSession _) fun _ => mute_updateSession _
  change ((s.session id).compiling.elim s fun job => cancelJob job s).posted = s.posted
  cases (s.session id).compiling <;> rfl

theorem mute_sync : Mute consolePlace.sync := by
  refine Keeps.bind (Keeps.bind ?_ fun _ => Keeps.bind (keeps_step fun s => ?_) fun mark =>
    keeps_await fun s _ s' hs => ?_) fun _ =>
    Keeps.bind ?_ fun _ => Keeps.bind (keeps_step fun s => ?_) fun mark =>
    keeps_await fun s _ s' hs => ?_
  · exact keeps_update fun s => by dsimp only; split <;> rfl
  · exact congrArg (·, _) (StreamService.requests_submitMark _)
  · split at hs <;> cases hs
    rfl
  · exact keeps_update fun s => by dsimp only; split <;> rfl
  · exact congrArg (_, ·) (StreamService.requests_submitMark _)
  · split at hs <;> cases hs
    rfl

theorem mute_terminate (code : Int) : Mute (terminate code) := by
  refine Keeps.bind mute_sync fun _ => Keeps.bind (keeps_read _) fun ends => ?_
  cases ends
  · exact mute_note _
  · exact Keeps.bind (keeps_update fun _ => rfl) fun _ => keeps_halt

def parting (id : SessionId) (code : Int) (hook? : Option ExitHook) (handsOn : Bool) :
    Checked Unit := do
  let wasLast ← leave id code hook? handsOn
  dispose id
  if wasLast then terminate code

variable {hook? : Option ExitHook} {handsOn : Bool}

theorem finish_eq : finish id code true handsOn =
    recordCode id code >>= fun hook? => parting id code hook? handsOn :=
  rfl

theorem mute_parting : Mute (parting id code hook? handsOn).run := by
  refine Keeps.run_bind (Keeps.lift (mute_leave hook? handsOn)) fun wasLast =>
    Keeps.run_bind (Keeps.lift mute_dispose) fun _ => ?_
  cases wasLast with
  | true => exact Keeps.lift (mute_terminate code)
  | false => exact keeps_pure _

theorem storing_parting {may : SessionId → Int → Prop} :
    Storing may (parting id code hook? handsOn).run := by
  refine Within.run_bind (Within.lift (storing_leave hook? handsOn)) fun wasLast =>
    Within.run_bind (Within.lift storing_dispose) fun _ => ?_
  cases wasLast with
  | true => exact Within.lift (storing_of_quiet (quiet_terminate code))
  | false => exact within_pure _

theorem neverCrashes_leaving : NeverCrashes (leave id code hook? handsOn) := by
  have hrest : NeverCrashes (leave id code none handsOn) := by
    refine NeverCrashes.bind (fun _ => trivial) fun wasCurrent =>
      NeverCrashes.bind (fun _ => trivial) fun removal => ?_
    cases removal with
    | last => trivial
    | absent => trivial
    | removed index remaining =>
      dsimp only
      split
      · exact (neverCrashes_handOn index remaining).bind fun _ => trivial
      · trivial
  cases hook? with
  | none => exact hrest
  | some hook =>
    exact NeverCrashes.bind ((neverCrashes_attempt _).bind fun _ => trivial) fun _ => hrest

theorem neverCrashes_dispose : NeverCrashes (dispose id) := by
  refine NeverCrashes.bind (fun _ => trivial) fun hook? =>
    NeverCrashes.bind ?_ fun _ _ _ _ _ => trivial
  cases hook? with
  | none => trivial
  | some hook => exact fun _ => trivial

theorem neverCrashes_parting : NeverCrashes (parting id code hook? handsOn).run := by
  refine NeverCrashes.run_bind (neverCrashes_leaving.bind fun _ => trivial) fun wasLast =>
    NeverCrashes.run_bind (neverCrashes_dispose.bind fun _ => trivial) fun _ => ?_
  cases wasLast with
  | true => exact (Stakes.neverCrashes_terminate code).bind fun _ => trivial
  | false => trivial

end Shell

end SessionShell
