import SessionShell.Proofs.Shell.Reading
import SessionShell.Shell.Ending

/-!
What exit hooks do to a shell.

A hook that is dropped changes latches and channels and nothing else. A hook that is run notes,
releases latches, sends codes and gives other sessions tasks, and what holds of these steps and of
whatever is made of them holds of it.
-/

namespace SessionShell.Shell

open Action

variable {ω : Type} {view : Shell → ω} {x : ω} {me : ThreadId} {stops : Prop} {id : SessionId}
  {code : Int} {hook : ExitHook}

theorem keeps_currentThread : Keeps view currentThread :=
  Keeps.bind keeps_self fun _ => keeps_read _

theorem keeps_ensureLive : Keeps view (ensureLive id).run := by
  refine Keeps.run_bind (Keeps.lift (keeps_read _)) fun session => ?_
  split
  · exact keeps_pure _
  · exact keeps_pure _

/-! ## Hooks that are dropped -/

theorem exists_dropHook (hook : ExitHook) (s : Shell) :
    ∃ latches channels, dropHook hook s = { s with latches, channels } := by
  induction hook generalizing s with
  | nothing => exact ⟨_, _, rfl⟩
  | note => exact ⟨_, _, rfl⟩
  | wake latch first ih =>
    obtain ⟨latches, channels, h⟩ := ih s
    exact ⟨_, _, by rw [dropHook, h]; rfl⟩
  | report => exact ⟨_, _, rfl⟩
  | inParent parent hook ih => exact ih s

theorem exists_dropTask (task : Task) (s : Shell) :
    ∃ latches channels, Task.drop task s = { s with latches, channels } := by
  cases task with
  | boot => exact ⟨_, _, rfl⟩
  | runHook hook => exact exists_dropHook hook s
  | script => exact ⟨_, _, rfl⟩

theorem exists_foldl_drop (tasks : List Task) (s : Shell) :
    ∃ latches channels,
      tasks.foldl (fun s task => Task.drop task s) s = { s with latches, channels } := by
  induction tasks generalizing s with
  | nil => exact ⟨_, _, rfl⟩
  | cons task tasks ih =>
    obtain ⟨latches, channels, h⟩ := exists_dropTask task s
    rw [List.foldl_cons, h]
    exact ih _

theorem foldl_cancelJob (jobs : List JobId) (s : Shell) :
    jobs.foldl (fun s job => cancelJob job s) s =
      { s with pool := jobs.foldl Pool.cancel s.pool } := by
  induction jobs generalizing s with
  | nil => rfl
  | cons job jobs ih => exact ih (cancelJob job s)

theorem keeps_dropHook? (h : ∀ latches channels s, view { s with latches, channels } = view s)
    (hook? : Option ExitHook) : Keeps view (dropHook? hook?) := by
  cases hook? with
  | none => exact keeps_pure _
  | some hook =>
    refine keeps_update fun s => ?_
    obtain ⟨latches, channels, hdrop⟩ := exists_dropHook hook s
    rw [hdrop]
    exact h latches channels s

theorem keeps_dropTasks
    (h : ∀ latches channels s, view (modifySession id (fun session => { session with tasks := [] })
      { s with latches, channels }) = view s) : Keeps view (dropTasks id) := by
  refine keeps_update fun s => ?_
  obtain ⟨latches, channels, hdrop⟩ := exists_foldl_drop (s.session id).tasks s
  rw [hdrop]
  exact h latches channels s

theorem keeps_cancelJobs
    (h : ∀ pool s, view (modifySession id (fun session => { session with jobs := [] })
      { s with pool }) = view s) : Keeps view (cancelJobs id) := by
  refine keeps_update fun s => ?_
  dsimp only
  rw [foldl_cancelJob]
  exact h _ s

/-! ## Hooks that are run -/

/-- What hooks are made of when they are run has the property. -/
structure HoldsOfHookSteps (P : (α : Type) → Action Shell α → Prop) : Prop
    extends Compositional P where
  thread : P ThreadName currentThread
  note (tag : String) (code : Int) (thread : ThreadName) : P Unit (note (.exited tag code thread))
  latch (latch : Nat) (f : Latch → Latch) :
    P Unit (update fun s => { s with latches := s.latches.modify latch f })
  channel (channel : Nat) (f : Channel → Channel) : P Unit (update (modifyChannel channel f))
  schedule (id : SessionId) (task : Task) : P (Except ShellError Unit) (schedule id task).run

theorem HoldsOfHookSteps.runHook {P : (α : Type) → Action Shell α → Prop} (h : HoldsOfHookSteps P)
    (code : Int) (hook : ExitHook) : P Unit (runHook code hook) := by
  induction hook with
  | nothing => exact h.done _
  | note tag crashes =>
    refine h.bind h.thread fun _ => h.bind (h.note _ _ _) fun _ => ?_
    split
    · exact h.crash
    · exact h.done _
  | wake latch first ih =>
    refine h.bind (h.latch _ _) fun _ => h.bind (h.attempt ih) fun result? =>
      h.bind (h.latch _ _) fun _ => ?_
    split
    · exact h.crash
    · exact h.done _
  | report => exact h.bind (h.channel _ _) fun _ => h.channel _ _
  | inParent parent hook ih =>
    refine h.bind (h.schedule _ _) fun result => ?_
    cases result with
    | ok => exact h.done _
    | error => exact ih

theorem holdsOfHookSteps_keeps
    (hnote : ∀ tag code thread, Keeps view (note (.exited tag code thread)))
    (hlatches : ∀ latches s, view { s with latches } = view s)
    (hchannels : ∀ channels s, view { s with channels } = view s)
    (hschedule : ∀ id task, Keeps view (schedule id task).run) :
    HoldsOfHookSteps fun _ p => Keeps view p where
  toCompositional := compositional_keeps view
  thread := keeps_currentThread
  note := hnote
  latch _ _ := keeps_update fun s => hlatches _ s
  channel _ _ := keeps_update fun s => hchannels _ s
  schedule := hschedule

theorem feasible_schedule (task : Task) : Feasible view stops (schedule id task).run :=
  Feasible.run_bind feasible_ensureLive fun _ => Feasible.lift (feasible_update _)

theorem feasible_runHook (code : Int) (hook : ExitHook) : Feasible view stops (runHook code hook) :=
  HoldsOfHookSteps.runHook
    { toCompositional := compositional_feasible view stops
      thread := Feasible.bind feasible_self fun _ => feasible_read _
      note := fun _ _ _ => feasible_update _
      latch := fun _ _ => feasible_update _
      channel := fun _ _ => feasible_update _
      schedule := fun _ => feasible_schedule }
    code hook

theorem yields_callHook (h : Keeps view (runHook code hook)) :
    Yields view me (discard (runHook code hook).attempt) x fun _ y => y = x :=
  Yields.bind ((feasible_runHook code hook).yields_attempt h) fun _ _ hy => always_pure _ hy

end SessionShell.Shell
