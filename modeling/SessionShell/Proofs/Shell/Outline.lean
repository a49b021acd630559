import SessionShell.Proofs.Shell.Hooks
import SessionShell.Shell.Starting

/-!
What of a shell stays as it is while its sessions write, run exit hooks and get work to do.

The outline of a shell is its registry and, of each session, all but the work it has. A quiet action
leaves the outline alone. Whatever can be read off the outline is left alone with it.
-/

namespace SessionShell

open Action

/-- A session without its work: its tasks, jobs and prompts, and what it is busy with. -/
def Session.outline (s : Session) : Session :=
  { s with
    tasks := []
    asking := false
    jobs := []
    owner := none
    interpreter := none
    main := none
    compiling := none
    prompt := default }

namespace Shell

def outline (s : Shell) : Registry × Array Session :=
  (s.registry, s.sessions.map Session.outline)

abbrev Quiet {α : Type} (p : Action Shell α) : Prop :=
  Keeps outline p

variable {α ω : Type} {s : Shell} {id : SessionId}

theorem Quiet.keeps {view : Shell → ω} {p : Action Shell α} (h : Quiet p)
    (hview : ∀ s s' : Shell, s'.outline = s.outline → view s' = view s) : Keeps view p := by
  induction p with
  | done a => trivial
  | crash => trivial
  | ask act next ih =>
    exact ⟨fun me s answer s' hact => hview s s' (h.1 me s answer s' hact),
      fun answer => ih answer (h.2 answer)⟩

theorem outline_modifySession {f : Session → Session}
    (h : ∀ session, (f session).outline = session.outline) :
    (modifySession id f s).outline = s.outline := by
  have hsessions : (s.sessions.modify id f).map Session.outline =
      s.sessions.map Session.outline := by
    apply Array.ext_getElem?
    intro i
    by_cases hi : id = i
    · subst hi
      cases hs : s.sessions[id]? <;> simp [Array.getElem?_modify, hs, h]
    · simp [Array.getElem?_modify, hi]
  simp only [outline, modifySession, hsessions]

theorem quiet_updateSession {f : Session → Session}
    (h : ∀ session, (f session).outline = session.outline) : Quiet (updateSession id f) :=
  keeps_update fun _ => outline_modifySession h

/-! ## Writing -/

theorem quiet_note (event : Event) : Quiet (note event) :=
  keeps_update fun _ => rfl

theorem quiet_printError (text : String) : Quiet (consolePlace.printError text) :=
  keeps_update fun _ => rfl

theorem quiet_reportError (fault : Fault) : Quiet (reportError fault) :=
  Keeps.bind (keeps_read _) fun _ => quiet_printError _

theorem quiet_warning (message : String) : Quiet (warning message) :=
  Keeps.bind (keeps_read _) fun _ => quiet_printError _

section Stream

variable {ρ : Type} {slot : StreamAt Shell ρ} {view : Shell → ω}

theorem keeps_streamStart (hset : ∀ service s, view (slot.set service s) = view s)
    (hlaunch : ∀ s, view (slot.launch s) = view s) : Keeps view slot.start :=
  keeps_update fun s => by
    dsimp only
    split
    · rfl
    · rw [hlaunch, hset]

theorem keeps_streamSync (hset : ∀ service s, view (slot.set service s) = view s)
    (hlaunch : ∀ s, view (slot.launch s) = view s) : Keeps view slot.sync := by
  refine Keeps.bind (keeps_streamStart hset hlaunch) fun _ =>
    Keeps.bind (keeps_step fun s => hset _ s) fun mark => keeps_await fun s _ s' hs => ?_
  split at hs
  · cases hs
    rfl
  · cases hs

end Stream

theorem quiet_start : Quiet consolePlace.start :=
  Keeps.bind (keeps_streamStart (fun _ _ => rfl) fun _ => rfl) fun _ =>
    Keeps.bind (keeps_streamStart (fun _ _ => rfl) fun _ => rfl) fun _ =>
      keeps_streamStart (fun _ _ => rfl) fun _ => rfl

theorem quiet_sync : Quiet consolePlace.sync :=
  Keeps.bind (keeps_streamSync (fun _ _ => rfl) fun _ => rfl) fun _ =>
    keeps_streamSync (fun _ _ => rfl) fun _ => rfl

theorem quiet_terminate (code : Int) : Quiet (terminate code) := by
  refine Keeps.bind quiet_sync fun _ => Keeps.bind (keeps_read _) fun ends => ?_
  cases ends
  · exact quiet_note _
  · exact Keeps.bind (keeps_update fun _ => rfl) fun _ => keeps_halt

/-! ## Reading -/

theorem quiet_askLine (text : String) : Quiet (askLine id text).run := by
  refine Keeps.run_bind keeps_ensureLive fun _ => Keeps.run_bind (Keeps.lift ?_) fun _ =>
    Keeps.run_bind (Keeps.lift (keeps_read _)) fun session =>
    Keeps.run_bind (Keeps.lift (keeps_update fun _ => rfl)) fun _ =>
    Keeps.run_bind (Keeps.lift (keeps_update fun _ => rfl)) fun _ =>
    Keeps.run_bind (Keeps.lift ?_) fun outcome =>
    Keeps.run_bind (Keeps.lift (quiet_updateSession fun _ => rfl)) fun _ => keeps_pure _
  · refine keeps_await fun s _ s' hs => ?_
    split at hs
    · cases hs
    · cases hs
      exact outline_modifySession fun _ => rfl
  · refine keeps_await fun s _ s' hs => ?_
    split at hs
    · cases hs
      rfl
    · cases hs

/-! ## Work and hooks -/

theorem quiet_schedule (task : Task) : Quiet (schedule id task).run :=
  Keeps.run_bind keeps_ensureLive fun _ => Keeps.lift (quiet_updateSession fun _ => rfl)

theorem outline_dropHook (hook : ExitHook) (s : Shell) :
    (dropHook hook s).outline = s.outline := by
  obtain ⟨latches, channels, h⟩ := exists_dropHook hook s
  rw [h]
  rfl

theorem quiet_runHook (code : Int) (hook : ExitHook) : Quiet (runHook code hook) :=
  (holdsOfHookSteps_keeps (fun _ _ _ => quiet_note _) (fun _ _ => rfl) (fun _ _ => rfl)
    fun _ => quiet_schedule).runHook code hook

theorem quiet_dropHook? (hook? : Option ExitHook) : Quiet (dropHook? hook?) := by
  cases hook? with
  | none => exact keeps_pure _
  | some hook => exact keeps_update (outline_dropHook hook)

theorem outline_cancelJobs (s : Shell) :
    (modifySession id (fun session => { session with jobs := [] })
      (((s.session id).jobs.filter fun job => !s.pool.isFinished job).foldl
        (fun s job => cancelJob job s) s)).outline = s.outline := by
  rw [outline_modifySession (by exact fun _ => rfl), foldl_cancelJob]
  rfl

theorem outline_dropTasks (s : Shell) :
    (modifySession id (fun session => { session with tasks := [] })
      ((s.session id).tasks.foldl (fun s task => Task.drop task s) s)).outline = s.outline := by
  obtain ⟨latches, channels, h⟩ := exists_foldl_drop (s.session id).tasks s
  rw [outline_modifySession (by exact fun _ => rfl), h]
  rfl

theorem quiet_cancelJobs : Quiet (cancelJobs id) :=
  keeps_update outline_cancelJobs

theorem quiet_dropTasks : Quiet (dropTasks id) :=
  keeps_update outline_dropTasks

end Shell

end SessionShell
