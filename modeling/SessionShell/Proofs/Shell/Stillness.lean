import SessionShell.Proofs.Calc.Asking
import SessionShell.Proofs.Shell.Chores

/-!
What has nothing to do with how sessions end.

A step is still if it makes no session and ends none, sets no exit hook and runs none, leaves the
registry alone and sends nothing to a batch. All chores are still.
-/

namespace SessionShell

open Action

def MainTask.IsPlain : MainTask → Prop
  | .interactive => True
  | .script .. => True
  | .compile _ => False
  | .batch _ => False

/-- Has neither a job nor a batch before it, no exit hook of another session to run, and no session
but itself to ask. -/
structure Session.Duty.IsTame (id : SessionId) (d : Session.Duty) : Prop where
  main : ∀ main, d.main = some main → main.IsPlain
  tasks : ∀ hook code, .runHook hook code ∉ d.tasks
  hosts : ∀ i, d.interpreter = some i → i.BindsOnly (· = id)

namespace Shell

structure Still (s s' : Shell) : Prop where
  ties : ∀ id, (s'.session id).ties = (s.session id).ties
  tame : ∀ id, (s.session id).duty.IsTame id → (s'.session id).duty.IsTame id
  spares : s.SparesSessions → s'.SparesSessions
  size : s'.sessions.size = s.sessions.size
  registry : s'.registry = s.registry
  channels : s'.channels = s.channels
  settings : s'.settings = s.settings
  endsProcess : s'.endsProcess = s.endsProcess
  endedCodes : s'.endedCodes = s.endedCodes
  ended : s'.ended = s.ended
  /-- Only services are started, each on a thread that was not there before. -/
  joined : ∃ news : List (ThreadId × Role), s'.started = s.started ++ news ∧
    ∀ t role, (t, role) ∈ news → role.IsService ∧ s.threads.size ≤ t ∧ t < s'.threads.size
  threads : s.threads.size ≤ s'.threads.size

variable {s s' s'' : Shell} {id : SessionId} {α : Type}

theorem Still.of_jobs (h : (s'.sessions, s'.rim) = (s.sessions, s.rim))
    (hjobs : s.SparesSessions → s'.SparesSessions) : Still s s' := by
  simp only [rim, Prod.mk.injEq] at h
  obtain ⟨hsessions, ⟨hregistry, hchannels⟩, ⟨hsettings, hends⟩, ⟨hcodes, hended⟩, hthreads,
    hstarted⟩ := h
  have hsession : ∀ id, s'.session id = s.session id :=
    fun id => by rw [session, session, hsessions]
  exact ⟨fun id => by rw [hsession], fun id ht => (hsession id).symm ▸ ht, hjobs, by rw [hsessions],
    hregistry, hchannels, hsettings, hends, hcodes, hended, ⟨[], by simp [hstarted]⟩,
    Nat.le_of_eq (by rw [hthreads])⟩

theorem Still.of_frame (h : s'.frame = s.frame) : Still s s' := by
  simp only [frame, Prod.mk.injEq] at h
  refine .of_jobs (by rw [h.1, h.2.2]) fun hs => ?_
  rw [SparesSessions, h.2.1]
  exact hs

theorem Still.refl (s : Shell) : Still s s :=
  .of_frame rfl

theorem Still.trans (h : Still s s') (h' : Still s' s'') : Still s s'' := by
  obtain ⟨news, hnews, hfresh⟩ := h.joined
  obtain ⟨news', hnews', hfresh'⟩ := h'.joined
  refine ⟨fun id => (h'.ties id).trans (h.ties id), fun id ht => h'.tame id (h.tame id ht),
    fun hs => h'.spares (h.spares hs), h'.size.trans h.size, h'.registry.trans h.registry,
    h'.channels.trans h.channels, h'.settings.trans h.settings, h'.endsProcess.trans h.endsProcess,
    h'.endedCodes.trans h.endedCodes, h'.ended.trans h.ended,
    ⟨news ++ news', by rw [hnews', hnews, List.append_assoc], fun t role hin => ?_⟩,
    Nat.le_trans h.threads h'.threads⟩
  rcases List.mem_append.mp hin with hin | hin
  · have hnew := hfresh t role hin
    exact ⟨hnew.1, hnew.2.1, Nat.lt_of_lt_of_le hnew.2.2 h'.threads⟩
  · have hnew := hfresh' t role hin
    exact ⟨hnew.1, Nat.le_trans h.threads hnew.2.1, hnew.2.2⟩

theorem still_modifySession {f : Session → Session} (hties : ∀ x, (f x).ties = x.ties)
    (htame : (s.session id).duty.IsTame id → (f (s.session id)).duty.IsTame id) :
    Still s (modifySession id f s) := by
  refine ⟨fun other => read_modifySession hties, fun other ht => ?_, fun hs => hs,
    size_modifySession f, rfl, rfl,
    rfl, rfl, rfl, rfl, ⟨[], by simp [modifySession]⟩, Nat.le_refl _⟩
  by_cases ho : other = id
  · subst ho
    rcases Nat.lt_or_ge other s.sessions.size with hlt | hge
    · rw [session_modifySession_self f hlt]
      exact htame ht
    · rw [session_of_size_le (by rwa [size_modifySession])]
      rwa [session_of_size_le hge] at ht
  · rwa [session_modifySession_of_ne f ho]

theorem still_launch {name : ThreadName} {role : Role} (h : role.IsService) :
    Still s (launch name role s) := by
  refine ⟨fun _ => rfl, fun _ => id, id, rfl, rfl, rfl, rfl, rfl, rfl, rfl,
    ⟨[(s.threads.size, role)], rfl, fun t role' hin => ?_⟩, by simp [launch]⟩
  cases List.mem_singleton.mp hin
  exact ⟨h, Nat.le_refl _, by simp [launch]⟩

theorem within_updateSession {f : Session → Session} (hties : ∀ x, (f x).ties = x.ties)
    (htame : ∀ x, x.duty.IsTame id → (f x).duty.IsTame id) : Within Still (updateSession id f) :=
  within_update fun _ => still_modifySession hties (htame _)

instance : AllowsChores Still where
  trans := .trans
  same := .of_jobs
  session {s id f} h := by
    have hduty : (f (s.session id)).duty = (s.session id).duty :=
      congrArg (fun lot => lot.2.1) (h (s.session id))
    exact still_modifySession (fun x => congrArg Prod.fst (h x)) fun hx => hduty.symm ▸ hx
  launch := still_launch

/-! ## Actions that never crash -/

theorem neverCrashes_ensureLive : NeverCrashes (ensureLive id).run :=
  NeverCrashes.run_bind (fun _ => trivial) fun session => by
    split <;> trivial

theorem neverCrashes_sayLine (text : String) : NeverCrashes (sayLine id text) :=
  NeverCrashes.bind (NeverCrashes.run_bind neverCrashes_ensureLive fun _ _ => trivial) fun _ =>
    trivial

theorem neverCrashes_handOn (index remaining : Nat) : NeverCrashes (handOn index remaining) :=
  NeverCrashes.bind (fun _ => trivial) fun target? => by
    cases target? with
    | none => trivial
    | some target => exact fun _ _ => trivial

/-! ## Evaluation -/

theorem still_loseInterpreter :
    Still s (modifySession id (fun session => { session with interpreter := none }) s) :=
  still_modifySession (by exact fun _ => rfl) fun hx => ⟨hx.main, hx.tasks, fun i hi => nomatch hi⟩

theorem still_putInterpreter {interpreter : SessionInterpreter}
    (h : interpreter.BindsOnly (· = id)) : Within Still (putInterpreter id interpreter) := by
  refine within_updateSession (fun x => ?_) fun x hx => ?_
  · split <;> rfl
  · split
    · exact hx
    · exact ⟨hx.main, hx.tasks, fun i hi => Option.some.inj hi ▸ h⟩

theorem still_install {interpreter : SessionInterpreter} (h : interpreter.BindsOnly (· = id)) :
    Within Still (install id interpreter) :=
  within_step fun s => by
    dsimp only
    split
    · exact .refl s
    · exact still_modifySession (by exact fun _ => rfl) fun hx =>
        ⟨hx.main, hx.tasks, fun i hi => Option.some.inj hi ▸ h⟩

/-! ## The loop -/

theorem still_takenTask : Still s (match (s.session id).tasks with
    | [] => ((none : Option Task), s)
    | task :: tasks =>
      (some task, modifySession id (fun session => { session with tasks }) s)).2 := by
  split
  · exact .refl s
  · next task tasks heq =>
    refine still_modifySession (by exact fun _ => rfl) fun hx =>
      ⟨hx.main, fun hook code hin => hx.tasks hook code ?_, hx.hosts⟩
    rw [show (s.session id).duty.tasks = task :: tasks from heq]
    exact List.mem_cons_of_mem task hin

theorem still_becomeInteractive : Within Still (updateSession id fun session =>
    if session.disposed ∨ session.main.isSome then session
    else { session with main := some .interactive }) := by
  refine within_updateSession (fun x => ?_) fun x hx => ?_
  · split <;> rfl
  · split
    · exact hx
    · exact ⟨fun main hmain => by cases hmain; trivial, hx.tasks, hx.hosts⟩

end Shell

end SessionShell
