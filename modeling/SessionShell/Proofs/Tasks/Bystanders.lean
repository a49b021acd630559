import SessionShell.Proofs.Shell.Chores

/-!
What has nothing to do with what sessions have to do.

A step is plain if it gives no session a task and takes none away, binds none to a language, ends
none and sets no exit hook. All chores are plain, and so is most of what is done for a batch.
-/

namespace SessionShell

open Action

structure Session.Charge where
  tasks : List Task
  language : Option Language
  exitCode : Option Int
  exitHook : Option ExitHook
  disposed : Bool

def Session.charge (s : Session) : Session.Charge :=
  ⟨s.tasks, s.language, s.exitCode, s.exitHook, s.disposed⟩

namespace Shell

structure Plain (s s' : Shell) : Prop where
  charge : ∀ id, (s'.session id).charge = (s.session id).charge
  size : s'.sessions.size = s.sessions.size
  started : ∃ news : List (ThreadId × Role), s'.started = s.started ++ news ∧
    ∀ t role, (t, role) ∈ news → role.IsService

variable {s s' s'' : Shell} {id : SessionId} {α : Type}

theorem Plain.of_same (hsessions : s'.sessions = s.sessions) (hstarted : s'.started = s.started) :
    Plain s s' :=
  ⟨fun id => by rw [session, session, hsessions], by rw [hsessions], [], by simp [hstarted]⟩

theorem Plain.refl (s : Shell) : Plain s s :=
  .of_same rfl rfl

theorem Plain.trans (h : Plain s s') (h' : Plain s' s'') : Plain s s'' := by
  obtain ⟨news, hnews, hservices⟩ := h.started
  obtain ⟨news', hnews', hservices'⟩ := h'.started
  refine ⟨fun id => (h'.charge id).trans (h.charge id), h'.size.trans h.size, news ++ news',
    by rw [hnews', hnews, List.append_assoc], fun t role hin => ?_⟩
  rcases List.mem_append.mp hin with hin | hin
  · exact hservices t role hin
  · exact hservices' t role hin

theorem plain_modifySession {f : Session → Session} (h : ∀ x, (f x).charge = x.charge) :
    Plain s (modifySession id f s) :=
  ⟨fun _ => read_modifySession h, size_modifySession f, [], by simp [modifySession]⟩

theorem plain_same {f : Shell → α × Shell} (hsessions : ∀ s, (f s).2.sessions = s.sessions)
    (hstarted : ∀ s, (f s).2.started = s.started) : Within Plain (step f) :=
  within_step fun s => .of_same (hsessions s) (hstarted s)

theorem plain_updateSession {f : Session → Session} (h : ∀ x, (f x).charge = x.charge) :
    Within Plain (updateSession id f) :=
  within_update fun _ => plain_modifySession h

theorem plain_launch {name : ThreadName} {role : Role} (h : role.IsService) :
    Plain s (launch name role s) :=
  ⟨fun _ => rfl, rfl, [(s.threads.size, role)], rfl, fun t role' hin => by
    cases List.mem_singleton.mp hin
    exact h⟩

theorem charge_of_lot {x y : Session} (h : x.lot = y.lot) : x.charge = y.charge := by
  simp only [Session.lot, Session.ties, Session.duty, Prod.mk.injEq, Session.Ties.mk.injEq,
    Session.Duty.mk.injEq] at h
  obtain ⟨⟨hcode, hdisposed, hhook, -⟩, ⟨-, htasks, -⟩, hlanguage⟩ := h
  simp only [Session.charge, hcode, hdisposed, hhook, htasks, hlanguage]

instance : AllowsChores Plain where
  trans := .trans
  same h _ := by
    simp only [rim, Prod.mk.injEq] at h
    exact .of_same h.1 h.2.2.2.2.2
  session h := plain_modifySession fun x => charge_of_lot (h x)
  launch := plain_launch

/-! ## Output -/

theorem plain_note (event : Event) : Within Plain (note event) :=
  plain_same (fun _ => rfl) fun _ => rfl

theorem plain_terminate (code : Int) : Within Plain (terminate code) := by
  refine Within.bind chore_consoleSync fun _ => Within.bind (chore_read _) fun ends => ?_
  cases ends
  · exact plain_note _
  · exact Within.bind (plain_same (fun _ => rfl) fun _ => rfl) fun _ => within_halt

/-! ## Focus -/

theorem plain_takeFocus : Within Plain (takeFocus id) := by
  refine Within.bind (chore_read _) fun previous? => ?_
  cases previous? with
  | none => exact chore_setCurrent true
  | some previous =>
    dsimp only
    split
    · exact Within.bind chore_acquire fun _ =>
        Within.bind (chore_setCurrent false) fun _ => chore_setCurrent true
    · exact chore_setCurrent true

/-! ## Registry, hooks and latches -/

theorem plain_leaveRegistry : Within Plain (leaveRegistry id) :=
  plain_same (fun _ => rfl) fun _ => rfl

theorem plain_dropHook (hook : ExitHook) (s : Shell) : Plain s (dropHook hook s) := by
  obtain ⟨latches, channels, h⟩ := exists_dropHook hook s
  rw [h]
  exact .of_same rfl rfl

theorem plain_dropHook? (hook? : Option ExitHook) : Within Plain (dropHook? hook?) := by
  cases hook? with
  | none => exact within_pure _
  | some hook => exact within_update (plain_dropHook hook)

theorem plain_droppedTasks (id : SessionId) (s : Shell) :
    Plain s ((s.session id).tasks.foldl (fun s task => Task.drop task s) s) := by
  obtain ⟨latches, channels, h⟩ := exists_foldl_drop (s.session id).tasks s
  rw [h]
  exact .of_same rfl rfl

/-! ## Jobs -/

theorem plain_poolModify (f : Pool SessionListener → Pool SessionListener) :
    Within Plain (poolPlace.modify f) :=
  plain_same (fun _ => rfl) fun _ => rfl

theorem plain_cancelled (id : SessionId) (s : Shell) :
    Plain s ((s.session id).compiling.elim s fun job => cancelJob job s) := by
  cases (s.session id).compiling with
  | none => exact .refl s
  | some job => exact chore_cancelJob job

theorem plain_setCompiling (job? : Option JobId) : Within Plain (setCompiling id job?) :=
  plain_updateSession fun _ => rfl

/-! ## Evaluation -/

theorem plain_putInterpreter (interpreter : SessionInterpreter) :
    Within Plain (putInterpreter id interpreter) :=
  plain_updateSession fun x => by split <;> rfl

theorem plain_claimInterpreter : Within Plain (claimInterpreter id).run := by
  refine Within.run_bind chore_checkOwner fun _ =>
    Within.run_bind (Within.lift (within_step fun _ => plain_modifySession fun _ => rfl)) fun i? =>
      ?_
  cases i? with
  | some interpreter => exact within_pure _
  | none =>
    exact Within.run_bind chore_ensureLive fun _ =>
      Within.run_bind (Within.lift (chore_read _)) fun _ => within_pure _

theorem plain_install (interpreter : SessionInterpreter) : Within Plain (install id interpreter) :=
  within_step fun s => by
    dsimp only
    split
    · exact .refl s
    · exact plain_modifySession fun _ => rfl

theorem plain_asFault {p : Checked α} (h : Within Plain p.run) : Within Plain (asFault p) :=
  h.bind fun result => by cases result <;> exact within_pure _

/-! ## The loop -/

theorem plain_rest : Within Plain (rest id) :=
  Within.bind (plain_updateSession fun x => by split <;> rfl) fun _ => within_pure _

theorem plain_takeMain : Within Plain (takeMain id) :=
  within_step fun _ => plain_modifySession fun _ => rfl

theorem plain_readScript (source : ScriptSource) : Within Plain (readScript source) :=
  chore_read _

/-! ## Batches -/

theorem plain_modifyChannel (channel : Nat) (f : Channel → Channel) :
    Within Plain (update (modifyChannel channel f)) :=
  plain_same (fun _ => rfl) fun _ => rfl

theorem plain_receivedNow {channel : Nat} {x : Received} (h : (match takeCode? channel s with
    | some ((label, code), s) => some (Received.code label code, s)
    | none =>
      if isClosed channel s then some (.closed, s) else none) = some (x, s')) : Plain s s' := by
  cases hcode : takeCode? channel s with
  | some taken =>
    rw [hcode] at h
    cases h
    simp only [takeCode?] at hcode
    split at hcode
    · cases hcode
      exact .of_same rfl rfl
    · cases hcode
  | none =>
    rw [hcode] at h
    dsimp only at h
    split at h
    · cases h
      exact .refl s
    · cases h

theorem plain_receive (channel : Nat) : Within Plain (receive channel) := by
  refine Within.bind
    (Within.bind (chore_setAlarm _ _) fun alarm => within_await fun s _ s' hs => ?_)
    fun _ => within_pure _
  split at hs
  · next x t heq =>
    cases hs
    exact (plain_receivedNow heq).trans (.of_same rfl rfl)
  · obtain ⟨s₁, hring, heq⟩ := Option.map_eq_some_iff.mp hs
    cases heq
    exact chore_ring hring

theorem plain_record (run : BatchRun) (label : String) (code : Int) :
    Within Plain (Shell.record id run label code) := by
  refine Within.bind (chore_read _) fun settings => ?_
  dsimp only
  split
  · exact Within.bind (chore_sayLine _) fun _ => within_pure _
  · exact within_pure _

theorem plain_recordAll (run : BatchRun) (codes : List (String × Int)) :
    Within Plain (recordAll id run codes) := by
  induction codes generalizing run with
  | nil => exact within_pure _
  | cons code codes ih => exact Within.bind (plain_record run code.1 code.2) fun run => ih run

theorem plain_collect (run : BatchRun) (last : Bool) : Within Plain (collect id run last) := by
  unfold collect
  split
  · exact within_pure _
  · refine Within.bind (plain_receive _) fun received => ?_
    cases received with
    | code label code => exact Within.bind (plain_record _ label code) fun _ => within_pure _
    | closed => exact within_pure _
    | nothing =>
      refine Within.bind (chore_read _) fun hostLive =>
        Within.bind (chore_read _) fun anyLive => ?_
      split
      · exact Within.bind (chore_refocus run) fun _ => within_pure _
      · exact Within.bind (plain_same (fun _ => rfl) fun _ => rfl) fun codes =>
          Within.bind (plain_recordAll run codes) fun _ => within_pure _

/-! ## Hooks

All that a hook does besides is to give a session something to do.
-/

theorem plain_leave_unhooked (code : Int) (handsOn : Bool) :
    Within Plain (leave id code none handsOn) := by
  refine Within.bind chore_loseFocus fun wasCurrent =>
    Within.bind plain_leaveRegistry fun removal => ?_
  cases removal with
  | last => exact within_pure _
  | absent => exact within_pure _
  | removed index remaining =>
    dsimp only
    split
    · exact Within.bind (chore_handOn index remaining) fun _ => within_pure _
    · exact within_pure _

section Giving

variable {R : Shell → Shell → Prop} (hplain : ∀ s s', Plain s s' → R s s')
  (hgives : ∀ s id task,
    R s (modifySession id (fun session => { session with tasks := session.tasks ++ [task] }) s))
include hplain hgives

theorem within_schedule (task : Task) : Within R (schedule id task).run :=
  Within.run_bind (Within.mono (R := Plain) chore_ensureLive hplain) fun _ =>
    Within.lift (within_update fun s => hgives s id task)

theorem within_runHook (code : Int) (hook : ExitHook) : Within R (runHook code hook) := by
  have hupdate : ∀ f : Shell → Shell, (∀ s, Plain s (f s)) → Within R (update f) :=
    fun f hf => within_update fun s => hplain _ _ (hf s)
  exact HoldsOfHookSteps.runHook
    { toCompositional := compositional_within R
      thread := Within.mono (R := Plain) chore_currentThread hplain
      note := fun _ _ _ => (plain_note _).mono hplain
      latch := fun _ _ => hupdate _ fun _ => .of_same rfl rfl
      channel := fun _ _ => hupdate _ fun _ => .of_same rfl rfl
      schedule := fun _ => within_schedule hplain hgives }
    code hook

theorem within_leave (code : Int) (hook? : Option ExitHook) (handsOn : Bool) :
    Within R (leave id code hook? handsOn) := by
  have hrest := (@plain_leave_unhooked id code handsOn).mono hplain
  cases hook? with
  | none => exact hrest
  | some hook =>
    exact Within.bind (Within.discard (within_runHook hplain hgives code hook).attempt) fun _ =>
      hrest

end Giving

end Shell

end SessionShell

/-!
What any thread may do to a session that is not its own and that it does not start.

It may put a task behind all that wait, end the session, and then drop the tasks that are left. This
is all that scripts, hooks, jobs and batches ever do, whatever they ask for.
-/

namespace SessionShell

open Action Shell

def Session.errand (s : Session) : List Task × Option Language × Bool :=
  (s.tasks, s.language, s.disposed)

def Role.IsOf (id : SessionId) : Role → Prop
  | .session other _ => other = id
  | _ => False

theorem Role.IsService.not_isOf {role : Role} (h : role.IsService) (id : SessionId) :
    ¬role.IsOf id := by
  cases role with
  | session => exact h.elim
  | stream | compiler => exact False.elim

namespace Shell

structure Ordinary (id : SessionId) (s s' : Shell) : Prop where
  size : s.sessions.size ≤ s'.sessions.size
  language : (s'.session id).language = (s.session id).language
  disposed : (s.session id).disposed = true → (s'.session id).disposed = true
  tasks : (s'.session id).tasks = (s.session id).tasks ∨
    (∃ task, (s'.session id).tasks = (s.session id).tasks ++ [task]) ∨
    (s.session id).disposed = true ∧ (s'.session id).tasks = []
  started : ∃ news : List (ThreadId × Role), s'.started = s.started ++ news ∧
    ∀ t role, (t, role) ∈ news → ¬role.IsOf id

variable {s s' s'' : Shell} {id other : SessionId} {α : Type}

theorem Ordinary.of_errand (h : (s'.session id).errand = (s.session id).errand)
    (hsize : s.sessions.size ≤ s'.sessions.size) (hstarted : s'.started = s.started) :
    Ordinary id s s' := by
  simp only [Session.errand, Prod.mk.injEq] at h
  exact ⟨hsize, h.2.1, fun hd => h.2.2.trans hd, .inl h.1, [], by simp [hstarted]⟩

theorem Plain.ordinary (h : Plain s s') : Ordinary id s s' := by
  have hcharge := h.charge id
  simp only [Session.charge, Session.Charge.mk.injEq] at hcharge
  obtain ⟨news, hnews, hservices⟩ := h.started
  exact ⟨Nat.le_of_eq h.size.symm, hcharge.2.1, fun hd => hcharge.2.2.2.2.trans hd, .inl hcharge.1,
    news, hnews, fun t role hin => (hservices t role hin).not_isOf id⟩

theorem Ordinary.behind (h : Ordinary id s' s'') (hplain : Plain s s') : Ordinary id s s'' := by
  have hordinary : Ordinary id s s' := hplain.ordinary
  obtain ⟨hsize, hlanguage, hdisposed, -, news, hnews, hroles⟩ := hordinary
  have hcharge := hplain.charge id
  simp only [Session.charge, Session.Charge.mk.injEq] at hcharge
  obtain ⟨news', hnews', hroles'⟩ := h.started
  refine ⟨Nat.le_trans hsize h.size, h.language.trans hlanguage, fun hd =>
    h.disposed (hdisposed hd),
    ?_, news ++ news', by rw [hnews', hnews, List.append_assoc], fun t role hin => ?_⟩
  · rw [← hcharge.1, ← hcharge.2.2.2.2]
    exact h.tasks
  · rcases List.mem_append.mp hin with hin | hin
    · exact hroles t role hin
    · exact hroles' t role hin

theorem ordinary_modify {f : Session → Session} (h : other = id →
    (f (s.session id)).language = (s.session id).language ∧
    ((s.session id).disposed = true → (f (s.session id)).disposed = true) ∧
    ((f (s.session id)).tasks = (s.session id).tasks ∨
      (∃ task, (f (s.session id)).tasks = (s.session id).tasks ++ [task]) ∨
      (s.session id).disposed = true ∧ (f (s.session id)).tasks = [])) :
    Ordinary id s (modifySession other f s) := by
  have hsize : s.sessions.size ≤ (modifySession other f s).sessions.size :=
    Nat.le_of_eq (size_modifySession f).symm
  by_cases ho : other = id
  · rcases Nat.lt_or_ge id s.sessions.size with hlt | hge
    · obtain ⟨hlanguage, hdisposed, htasks⟩ := h ho
      subst ho
      refine ⟨hsize, ?_, ?_, ?_, [], by simp [modifySession]⟩ <;>
        rw [session_modifySession_self f hlt]
      · exact hlanguage
      · exact hdisposed
      · exact htasks
    · refine .of_errand ?_ hsize rfl
      rw [session_of_size_le hge, session_of_size_le (by rwa [size_modifySession])]
  · exact .of_errand (by rw [session_modifySession_of_ne f (Ne.symm ho)]) hsize rfl

theorem ordinary_modifySession {f : Session → Session} (h : ∀ x, (f x).errand = x.errand) :
    Ordinary id s (modifySession other f s) :=
  ordinary_modify fun _ => by
    have hsame := h (s.session id)
    simp only [Session.errand, Prod.mk.injEq] at hsame
    exact ⟨hsame.2.1, fun hd => hsame.2.2.trans hd, .inl hsame.1⟩

theorem ordinary_tryUpdate {f : Session → Except ShellError Session}
    (h : other = id → ∀ x x', f x = .ok x' → x'.errand = x.errand) :
    Within (Ordinary id) (tryUpdate other f).run := by
  refine within_step fun s => ?_
  split
  · next x' heq =>
    refine ordinary_modify fun ho => ?_
    have hsame := h ho _ _ heq
    simp only [Session.errand, Prod.mk.injEq, ho] at hsame
    exact ⟨hsame.2.1, fun hd => hsame.2.2.trans hd, .inl hsame.1⟩
  · exact .of_errand rfl (Nat.le_refl _) rfl

theorem ordinary_of_plain {p : Action Shell α} (h : Within Plain p) : Within (Ordinary id) p :=
  h.mono fun _ _ => Plain.ordinary

/-! ## Tasks and hooks -/

theorem ordinary_given (task : Task) : Ordinary id s
    (modifySession other (fun session => { session with tasks := session.tasks ++ [task] }) s) :=
  ordinary_modify fun _ => ⟨rfl, fun h => h, .inr (.inl ⟨task, rfl⟩)⟩

theorem ordinary_schedule (task : Task) : Within (Ordinary id) (schedule other task).run :=
  within_schedule (fun _ _ => Plain.ordinary) (fun _ _ => ordinary_given) task

theorem ordinary_runHook (code : Int) (hook : ExitHook) :
    Within (Ordinary id) (runHook code hook) :=
  within_runHook (fun _ _ => Plain.ordinary) (fun _ _ => ordinary_given) code hook

theorem ordinary_recordCode (code : Int) : Within (Ordinary id) (recordCode other code).run := by
  refine within_step fun s => ?_
  dsimp only
  split
  · exact .of_errand rfl (Nat.le_refl _) rfl
  · exact ordinary_modifySession fun _ => rfl

theorem ordinary_leave (code : Int) (hook? : Option ExitHook) (handsOn : Bool) :
    Within (Ordinary id) (leave other code hook? handsOn) :=
  within_leave (fun _ _ => Plain.ordinary) (fun _ _ => ordinary_given) code hook? handsOn

/-! ## Disposal -/

theorem ordinary_droppedTasks (h : other = id → (s.session id).disposed = true) :
    Ordinary id s (modifySession other (fun session => { session with tasks := [] })
      ((s.session other).tasks.foldl (fun s task => Task.drop task s) s)) := by
  have hplain := plain_droppedTasks other s
  have hcharge := hplain.charge id
  simp only [Session.charge, Session.Charge.mk.injEq] at hcharge
  exact (ordinary_modify fun ho => ⟨rfl, fun hd => hd,
    .inr (.inr ⟨hcharge.2.2.2.2.trans (h ho), rfl⟩)⟩).behind hplain

theorem ordinary_markedDisposed : Ordinary id s (modifySession other (fun session =>
    { session with
      disposed := true
      compiling := none
      interpreter := none
      main := none
      exitHook := none }) ((s.session other).compiling.elim s fun job => cancelJob job s)) :=
  (ordinary_modify fun _ => ⟨rfl, fun _ => rfl, .inl rfl⟩).behind (plain_cancelled other s)

end Shell

end SessionShell
