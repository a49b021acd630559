import SessionShell.Proofs.Ending.Ledger
import SessionShell.Proofs.Tasks.Bystanders

/-!
An exit hook that a child was forked with and that its parent is to run, and what goes on
aside of it.

The parent may be given tasks and may exit, other sessions may do and be done whatever there is, and
further hooks may be offered to the child. None of this reaches the hook, wherever it is by then.
-/

namespace SessionShell

open Action Shell

structure ParentHook where
  parent : SessionId
  child : SessionId
  hook : ExitHook
  apart : child ≠ parent

namespace ParentHook

/-- Neither ends the child, nor runs or drops tasks of the parent. -/
structure Aside (k : ParentHook) (s s' : Shell) : Prop where
  size : s.sessions.size ≤ s'.sessions.size
  /-- Nothing is done to a child that has its hook or its exit code. -/
  child : k.child < s.sessions.size →
    (s.session k.child).exitCode.isSome ∨ (s.session k.child).exitHook.isSome →
      (s'.session k.child).exitState = (s.session k.child).exitState
  disposed : k.parent < s.sessions.size → (s.session k.parent).disposed = true →
    (s'.session k.parent).disposed = true
  tasks : k.parent < s.sessions.size → (s'.session k.parent).tasks = (s.session k.parent).tasks ∨
    ∃ task, (s'.session k.parent).tasks = (s.session k.parent).tasks ++ [task]

variable {k : ParentHook} {s s' s'' : Shell} {id : SessionId} {code : Int} {α : Type}

theorem exitState_of_plain (h : Plain s s') (id : SessionId) :
    (s'.session id).exitState = (s.session id).exitState := by
  have hcharge := h.charge id
  simp only [Session.charge, Session.Charge.mk.injEq] at hcharge
  obtain ⟨-, -, hcode, hhook, hdisposed⟩ := hcharge
  rw [Session.exitState, Session.exitState, hcode, hhook, hdisposed]

theorem tasks_of_plain (h : Plain s s') (id : SessionId) :
    (s'.session id).tasks = (s.session id).tasks :=
  congrArg Session.Charge.tasks (h.charge id)

theorem disposed_of_plain (h : Plain s s') (id : SessionId) :
    (s'.session id).disposed = (s.session id).disposed :=
  congrArg Session.Charge.disposed (h.charge id)

theorem Aside.of_plain (h : Plain s s') : k.Aside s s' :=
  ⟨Nat.le_of_eq h.size.symm, fun _ _ => exitState_of_plain h k.child,
    fun _ hd => (disposed_of_plain h k.parent).trans hd, fun _ => .inl (tasks_of_plain h k.parent)⟩

theorem Aside.refl (s : Shell) : k.Aside s s :=
  .of_plain (.refl s)

theorem Aside.behind (h : k.Aside s' s'') (hplain : Plain s s') : k.Aside s s'' := by
  have hstate := exitState_of_plain hplain k.child
  have hcode : (s'.session k.child).exitCode = (s.session k.child).exitCode :=
    congrArg ExitState.exitCode hstate
  have hhook : (s'.session k.child).exitHook = (s.session k.child).exitHook :=
    congrArg ExitState.exitHook hstate
  refine ⟨hplain.size ▸ h.size, fun hk hs => ?_, fun hk hd => ?_, fun hk => ?_⟩
  · exact (h.child (hplain.size ▸ hk) (hcode ▸ hhook ▸ hs)).trans hstate
  · exact h.disposed (hplain.size ▸ hk) ((disposed_of_plain hplain k.parent).trans hd)
  · exact tasks_of_plain hplain k.parent ▸ h.tasks (hplain.size ▸ hk)

theorem aside_modify {f : Session → Session}
    (hchild : id = k.child →
      (s.session k.child).exitCode.isSome ∨ (s.session k.child).exitHook.isSome →
        (f (s.session k.child)).exitState = (s.session k.child).exitState)
    (hparent : id = k.parent → ((s.session k.parent).disposed = true →
        (f (s.session k.parent)).disposed = true) ∧
      ((f (s.session k.parent)).tasks = (s.session k.parent).tasks ∨
        ∃ task, (f (s.session k.parent)).tasks = (s.session k.parent).tasks ++ [task])) :
    k.Aside s (modifySession id f s) := by
  refine ⟨Nat.le_of_eq (size_modifySession f).symm, fun hk hs => ?_, fun hk hd => ?_, fun hk => ?_⟩
  · by_cases hid : id = k.child
    · rw [hid, session_modifySession_self f hk]
      exact hchild hid hs
    · rw [session_modifySession_of_ne f (Ne.symm hid)]
  · by_cases hid : id = k.parent
    · rw [hid, session_modifySession_self f hk]
      exact (hparent hid).1 hd
    · rwa [session_modifySession_of_ne f (Ne.symm hid)]
  · by_cases hid : id = k.parent
    · rw [hid, session_modifySession_self f hk]
      exact (hparent hid).2
    · exact .inl (by rw [session_modifySession_of_ne f (Ne.symm hid)])

theorem aside_of_plain {p : Action Shell α} (h : Within Plain p) : Within k.Aside p :=
  h.mono fun _ _ => .of_plain

theorem aside_given (task : Task) :
    k.Aside s (modifySession id (fun session => { session with tasks := session.tasks ++ [task] })
      s) :=
  aside_modify (fun _ _ => rfl) fun _ => ⟨fun h => h, .inr ⟨task, rfl⟩⟩

theorem aside_runHook (code : Int) (hook : ExitHook) : Within k.Aside (runHook code hook) :=
  within_runHook (fun _ _ => .of_plain) (fun _ _ => aside_given) code hook

theorem aside_leave (hook? : Option ExitHook) (handsOn : Bool) :
    Within k.Aside (leave id code hook? handsOn) :=
  within_leave (fun _ _ => .of_plain) (fun _ _ => aside_given) code hook? handsOn

/-! ## The ends of other sessions -/

theorem aside_recordCode (h : id ≠ k.child) : Within k.Aside (recordCode id code).run := by
  refine within_step fun s => ?_
  dsimp only
  split
  · exact .refl s
  · exact aside_modify (fun hid => absurd hid h) fun _ => ⟨fun hd => hd, .inl rfl⟩

def marked (session : Session) : Session :=
  { session with
    disposed := true
    compiling := none
    interpreter := none
    main := none
    exitHook := none }

theorem aside_marked (h : id ≠ k.child) (s : Shell) : k.Aside s
    (modifySession id marked ((s.session id).compiling.elim s fun job => cancelJob job s)) :=
  (aside_modify (fun hid => absurd hid h) fun _ => ⟨fun _ => rfl, .inl rfl⟩).behind
    (plain_cancelled id s)

theorem aside_markDisposed (h : id ≠ k.child) : Within k.Aside (markDisposed id) :=
  within_step (aside_marked h)

theorem aside_dropTasks (h : id ≠ k.parent) : Within k.Aside (dropTasks id) :=
  within_update fun s =>
    (aside_modify (fun _ _ => rfl) fun hid => absurd hid h).behind (plain_droppedTasks id s)

theorem aside_dropped (h : id ≠ k.parent) (hook? : Option ExitHook) : Within k.Aside (do
    dropHook? hook?
    cancelJobs id
    dropTasks id
    setCurrent id false
    release id) :=
  Within.bind (aside_of_plain (plain_dropHook? hook?)) fun _ =>
    Within.bind (aside_of_plain chore_cancelJobs) fun _ =>
    Within.bind (aside_dropTasks h) fun _ =>
    Within.bind (aside_of_plain (chore_setCurrent false)) fun _ => aside_of_plain chore_release

theorem aside_finish (hchild : id ≠ k.child) (hparent : id ≠ k.parent) (removes handsOn : Bool) :
    Within k.Aside (finish id code removes handsOn).run := by
  have hdispose : Within k.Aside (dispose id) :=
    Within.bind (aside_markDisposed hchild) fun hook? => aside_dropped hparent hook?
  refine Within.run_bind (aside_recordCode hchild) fun hook? => ?_
  cases removes with
  | true =>
    refine Within.run_bind (Within.lift (aside_leave hook? handsOn)) fun wasLast =>
      Within.run_bind (Within.lift hdispose) fun _ => ?_
    cases wasLast with
    | true => exact Within.lift (aside_of_plain (plain_terminate code))
    | false => exact within_pure _
  | false =>
    exact Within.run_bind (Within.lift hdispose) fun _ =>
      Within.lift (aside_of_plain (plain_dropHook? hook?))

theorem aside_setExitHook (id : SessionId) (hook : ExitHook) :
    Within k.Aside (setExitHook id hook).run := by
  have hput : Within k.Aside (putExitHook id hook).run := by
    refine within_step fun s => ?_
    split
    · next session' heq =>
      dsimp only at heq
      split at heq
      · cases heq
      · next hopen =>
        split at heq
        · cases heq
        · next hfree =>
          cases heq
          refine aside_modify (fun hid hs => ?_) fun hid => ?_
          · subst hid
            exact (hs.elim (fun hcode => hopen (.inr hcode)) hfree).elim
          · subst hid
            exact ⟨fun hd => hd, .inl rfl⟩
    · exact .refl s
  refine Within.bind hput fun result => ?_
  cases result with
  | ok => exact within_pure _
  | error e =>
    exact Within.run_bind (Within.lift (aside_of_plain (plain_dropHook? (some hook)))) fun _ =>
      within_pure _

end ParentHook

end SessionShell
