import Mathlib.Logic.Function.Basic
import SessionShell.Proofs.Action.Noted
import SessionShell.Proofs.Focus.Seating
import SessionShell.Proofs.Pool.Log
import SessionShell.Proofs.Shell.Hooks
import SessionShell.Proofs.Shell.Stillness

/-!
What sessions hold, and what becomes of it when they end.

The estate of a shell is its registry, what each session holds, the pool, and how the shell has
ended itself. Exit hooks and all that is written leave it alone.
-/

namespace SessionShell

open Action

structure Holding where
  exitCode : Option Int
  exitHook : Option ExitHook
  disposed : Bool
  current : Bool
  jobs : List JobId
  compiling : Option JobId
  deriving DecidableEq, Repr

def Session.holding (s : Session) : Holding :=
  ⟨s.exitCode, s.exitHook, s.disposed, s.current, s.jobs, s.compiling⟩

namespace Holding

/-- Nobody has begun to end the session. -/
def IsOpen (h : Holding) : Prop :=
  h.exitCode = none ∧ h.disposed = false

instance (h : Holding) : Decidable h.IsOpen :=
  inferInstanceAs (Decidable (_ ∧ _))

def record (code : Int) (h : Holding) : Holding :=
  { h with exitCode := some code, exitHook := none }

def setCurrent (current : Bool) (h : Holding) : Holding :=
  { h with current }

def dispose (h : Holding) : Holding :=
  ⟨h.exitCode, none, true, false, [], none⟩

def ended (code : Int) : Holding :=
  ⟨some code, none, true, false, [], none⟩

def work (h : Holding) : List JobId :=
  h.compiling.toList ++ h.jobs

def release {κ : Type} (h : Holding) (pool : Pool κ) : Pool κ :=
  let pool := h.compiling.elim pool pool.cancel
  (h.jobs.filter fun job => !pool.isFinished job).foldl Pool.cancel pool

end Holding

namespace Pool

variable {κ : Type} {p : Pool κ} {job other : JobId}

def IsStopped (p : Pool κ) (job : JobId) : Prop :=
  p.isFinished job = true ∨ p.isCancelled job = true

theorem isStopped_cancel (h : job < p.jobs.size) : (p.cancel job).IsStopped job :=
  .inr (isCancelled_cancel h)

theorem IsStopped.cancel (h : p.IsStopped job) : (p.cancel other).IsStopped job := by
  rcases h with h | h
  · have hsame : (p.cancel other).outcome? job = p.outcome? job := outcome?_modifyJob fun _ => rfl
    exact .inl (by rwa [isFinished, hsame])
  · exact .inr (isCancelled_modifyJob (fun _ _ => rfl) h)

theorem IsStopped.cancelAll (h : p.IsStopped job) (jobs : List JobId) :
    (jobs.foldl Pool.cancel p).IsStopped job := by
  induction jobs generalizing p with
  | nil => exact h
  | cons other jobs ih => exact ih h.cancel

@[simp] theorem size_cancel : (p.cancel job).jobs.size = p.jobs.size :=
  jobs_size_modifyJob

@[simp] theorem size_cancelAll (jobs : List JobId) :
    (jobs.foldl Pool.cancel p).jobs.size = p.jobs.size := by
  induction jobs generalizing p with
  | nil => rfl
  | cons other jobs ih => exact ih.trans size_cancel

theorem isStopped_cancelAll (h : job < p.jobs.size) (jobs : List JobId) (hin : job ∈ jobs) :
    (jobs.foldl Pool.cancel p).IsStopped job := by
  induction jobs generalizing p with
  | nil => cases hin
  | cons other jobs ih =>
    rcases List.mem_cons.mp hin with rfl | hin
    · exact (isStopped_cancel h).cancelAll jobs
    · exact ih (by simpa using h) hin

end Pool

namespace Holding

variable {κ : Type} {h : Holding} {p : Pool κ} {job : JobId}

@[simp] theorem size_release : (h.release p).jobs.size = p.jobs.size := by
  cases hc : h.compiling <;> simp [release, hc]

theorem isStopped_release_of_isStopped (hp : p.IsStopped job) : (h.release p).IsStopped job := by
  cases hc : h.compiling with
  | none =>
    rw [release, hc]
    exact hp.cancelAll _
  | some compiling =>
    rw [release, hc]
    exact hp.cancel.cancelAll _

theorem isStopped_release (hjob : job < p.jobs.size) (hin : job ∈ h.work) :
    (h.release p).IsStopped job := by
  rcases List.mem_append.mp hin with hcompiling | hjobs
  · have hc : h.compiling = some job := Option.mem_toList.mp hcompiling
    rw [release, hc]
    exact (Pool.isStopped_cancel hjob).cancelAll _
  · generalize hq : h.compiling.elim p p.cancel = q
    have hsize : q.jobs.size = p.jobs.size := by
      rw [← hq]
      cases h.compiling <;> simp
    rw [release, hq]
    cases hfinished : q.isFinished job with
    | true => exact Pool.IsStopped.cancelAll (.inl hfinished) _
    | false =>
      exact Pool.isStopped_cancelAll (hsize ▸ hjob) _
        (List.mem_filter.mpr ⟨hjobs, by simp [hfinished]⟩)

end Holding

structure Estate where
  registry : Registry
  count : Nat
  holding : SessionId → Holding
  pool : Pool SessionListener
  endings : List Int
  ended : Option Int
  endsProcess : Bool

namespace Estate

variable {v : Estate} {id other : SessionId} {f g : Holding → Holding} {code : Int}

def modify (v : Estate) (id : SessionId) (f : Holding → Holding) : Estate :=
  { v with holding := Function.update v.holding id (f (v.holding id)) }

@[simp] theorem holding_modify_self : (v.modify id f).holding id = f (v.holding id) := by
  simp [modify]

theorem holding_modify_of_ne (h : other ≠ id) :
    (v.modify id f).holding other = v.holding other := by
  simp [modify, h]

def dispose (v : Estate) (id : SessionId) : Estate :=
  { v.modify id .dispose with pool := (v.holding id).release v.pool }

def grant? (v : Estate) (heir? : Option SessionId) : Estate :=
  heir?.elim v fun heir => v.modify heir (.setCurrent true)

def conclude (v : Estate) (code : Int) : Estate :=
  if v.endsProcess then { v with ended := some code } else { v with endings := v.endings ++ [code] }

@[simp] theorem holding_conclude : (v.conclude code).holding = v.holding := by
  rw [conclude]
  split <;> rfl

@[simp] theorem pool_conclude : (v.conclude code).pool = v.pool := by
  rw [conclude]
  split <;> rfl

@[simp] theorem registry_conclude : (v.conclude code).registry = v.registry := by
  rw [conclude]
  split <;> rfl

theorem endings_conclude : ((v.conclude code).endings, (v.conclude code).ended) =
    if v.endsProcess then (v.endings, some code) else (v.endings ++ [code], v.ended) := by
  rw [conclude]
  split <;> rfl

section

variable {handsOn : Bool}

theorem holding_grant?_of_ne {heir? : Option SessionId} (h : heir? ≠ some other) :
    (v.grant? heir?).holding other = v.holding other := by
  cases heir? with
  | none => rfl
  | some heir => exact holding_modify_of_ne fun he => h (he ▸ rfl)

def heir? (v : Estate) (id : SessionId) (handsOn : Bool) : Option SessionId :=
  if handsOn && (v.holding id).current then v.registry.heir? id else none

theorem heir?_ne_self (hnodup : v.registry.Nodup) : v.heir? id handsOn ≠ some id := by
  rw [heir?]
  split
  · exact fun h => (hnodup.mem_erase_iff.mp (Registry.mem_of_heir? h)).1 rfl
  · exact nofun

def depart (v : Estate) (id : SessionId) (handsOn : Bool) : Estate :=
  { v.modify id (.setCurrent false) with registry := v.registry.erase id }.grant?
    (v.heir? id handsOn)

def finish (v : Estate) (id : SessionId) (code : Int) (handsOn : Bool) : Estate :=
  ((v.modify id (.record code)).depart id handsOn).dispose id

theorem heir?_modify_record :
    (v.modify id (.record code)).heir? id handsOn = v.heir? id handsOn := by
  simp [heir?, Holding.record, modify]

theorem holding_depart_self (hnodup : v.registry.Nodup) (id : SessionId) (handsOn : Bool) :
    (v.depart id handsOn).holding id = (v.holding id).setCurrent false := by
  rw [depart, holding_grant?_of_ne (heir?_ne_self hnodup)]
  exact holding_modify_self

theorem holding_finish_self (hnodup : v.registry.Nodup) :
    (v.finish id code handsOn).holding id = .ended code := by
  have hdepart := holding_depart_self (v := v.modify id (.record code)) hnodup id handsOn
  simp [finish, dispose, hdepart, Holding.ended, Holding.dispose, Holding.setCurrent,
    Holding.record]

theorem holding_finish_of_ne (h : other ≠ id) : (v.finish id code handsOn).holding other =
    if v.heir? id handsOn = some other then (v.holding other).setCurrent true
    else v.holding other := by
  have hrest : (v.finish id code handsOn).holding other =
      ((v.modify id (.record code)).depart id handsOn).holding other := holding_modify_of_ne h
  rw [hrest, depart, heir?_modify_record]
  split
  · next hheir => simp [hheir, grant?, modify, h]
  · next hheir => simp [holding_grant?_of_ne hheir, modify, h]

theorem pool_finish (hnodup : v.registry.Nodup) :
    (v.finish id code handsOn).pool = (v.holding id).release v.pool := by
  have hdepart := holding_depart_self (v := v.modify id (.record code)) hnodup id handsOn
  have hpool : ((v.modify id (.record code)).depart id handsOn).pool = v.pool := by
    rw [depart]
    cases (v.modify id (.record code)).heir? id handsOn <;> rfl
  simp [finish, dispose, hdepart, hpool, Holding.release, Holding.setCurrent, Holding.record]

@[simp] theorem count_depart : (v.depart id handsOn).count = v.count := by
  rw [depart]
  cases v.heir? id handsOn <;> rfl

@[simp] theorem count_finish : (v.finish id code handsOn).count = v.count := by
  rw [finish]
  exact count_depart

def frame (v : Estate) : Nat × List Int × Option Int × Bool :=
  (v.count, v.endings, v.ended, v.endsProcess)

@[simp] theorem frame_finish : (v.finish id code handsOn).frame = v.frame := by
  rw [finish, depart]
  cases (v.modify id (.record code)).heir? id handsOn <;> rfl

@[simp] theorem registry_finish :
    (v.finish id code handsOn).registry = v.registry.erase id := by
  rw [finish, depart]
  cases (v.modify id (.record code)).heir? id handsOn <;> rfl
theorem nodup_finish (hnodup : v.registry.Nodup) : (v.finish id code handsOn).registry.Nodup := by
  rw [registry_finish]
  exact hnodup.erase id

theorem isStopped_finish_of_isStopped {job : JobId} (hnodup : v.registry.Nodup)
    (h : v.pool.IsStopped job) : (v.finish id code handsOn).pool.IsStopped job := by
  rw [pool_finish hnodup]
  exact Holding.isStopped_release_of_isStopped h

theorem isStopped_finish {job : JobId} (hnodup : v.registry.Nodup) (hjob : job < v.pool.jobs.size)
    (hin : job ∈ (v.holding id).work) : (v.finish id code handsOn).pool.IsStopped job := by
  rw [pool_finish hnodup]
  exact Holding.isStopped_release hjob hin

end

section

variable {ids : List SessionId}

/-- Some sessions have ended, one after the other, and the focus was not handed on. -/
def finishAll (v : Estate) (ids : List SessionId) (code : Int) : Estate :=
  ids.foldl (fun v id => v.finish id code false) v

@[simp] theorem frame_finishAll : (v.finishAll ids code).frame = v.frame := by
  induction ids generalizing v with
  | nil => rfl
  | cons id ids ih => exact ih.trans frame_finish

theorem registry_finishAll (hnodup : v.registry.Nodup) (ids : List SessionId) (code : Int) :
    (v.finishAll ids code).registry = v.registry.filter (· ∉ ids) := by
  induction ids generalizing v with
  | nil => simp [finishAll]
  | cons id ids ih =>
    refine (ih (nodup_finish hnodup)).trans ?_
    rw [registry_finish, hnodup.erase_eq_filter, List.filter_filter]
    refine List.filter_congr fun x _ => ?_
    by_cases hx : x = id <;> simp [hx]

theorem holding_finishAll (hnodup : v.registry.Nodup) (hids : ids.Nodup) :
    (v.finishAll ids code).holding other = if other ∈
      ids then .ended code else v.holding other := by
  induction ids generalizing v with
  | nil => simp [finishAll]
  | cons id ids ih =>
    obtain ⟨hid, hids⟩ := List.nodup_cons.mp hids
    refine (ih (nodup_finish hnodup) hids).trans ?_
    by_cases ho : other = id
    · subst ho
      simp [hid, holding_finish_self hnodup]
    · simp [ho, holding_finish_of_ne ho, heir?]

theorem size_finishAll (hnodup : v.registry.Nodup) :
    (v.finishAll ids code).pool.jobs.size = v.pool.jobs.size := by
  induction ids generalizing v with
  | nil => rfl
  | cons id ids ih =>
    refine (ih (nodup_finish hnodup)).trans ?_
    rw [pool_finish hnodup, Holding.size_release]

theorem isStopped_finishAll_of_isStopped {job : JobId} (hnodup : v.registry.Nodup)
    (h : v.pool.IsStopped job) : (v.finishAll ids code).pool.IsStopped job := by
  induction ids generalizing v with
  | nil => exact h
  | cons id ids ih =>
    exact ih (nodup_finish hnodup) (isStopped_finish_of_isStopped hnodup h)

theorem isStopped_finishAll {job : JobId} (hnodup : v.registry.Nodup) (hids : ids.Nodup)
    (hin : id ∈ ids) (hjob : job < v.pool.jobs.size) (hwork : job ∈ (v.holding id).work) :
    (v.finishAll ids code).pool.IsStopped job := by
  induction ids generalizing v with
  | nil => cases hin
  | cons first ids ih =>
    obtain ⟨hfirst, hids⟩ := List.nodup_cons.mp hids
    rcases List.mem_cons.mp hin with rfl | hin
    · exact isStopped_finishAll_of_isStopped (v := v.finish id code false) (nodup_finish hnodup)
        (isStopped_finish hnodup hjob hwork)
    · have hne : id ≠ first := fun he => hfirst (he ▸ hin)
      refine ih (nodup_finish hnodup) hids hin ?_ ?_
      · rwa [pool_finish hnodup, Holding.size_release]
      · simpa [holding_finish_of_ne hne, heir?] using hwork

end

end Estate

namespace Shell

variable {α : Type} {s : Shell} {v : Estate} {me : ThreadId} {id : SessionId} {code : Int}
  {stops : Prop}

def estate (s : Shell) : Estate :=
  ⟨s.registry, s.sessions.size, fun id => (s.session id).holding, s.pool,
    s.endedCodes, s.ended, s.endsProcess⟩

theorem estate_modifySession {f : Session → Session} {g : Holding → Holding}
    (hid : id < s.sessions.size) (h : (f (s.session id)).holding = g (s.session id).holding) :
    (modifySession id f s).estate = s.estate.modify id g := by
  have hholding : (modifySession id f s).estate.holding = (s.estate.modify id g).holding := by
    funext other
    by_cases ho : other = id
    · subst ho
      simpa [estate, session_modifySession_self f hid] using h
    · simp [estate, session_modifySession_of_ne f ho, Estate.holding_modify_of_ne ho]
  have hcount : (modifySession id f s).sessions.size = s.sessions.size := by
    simp [modifySession]
  calc (modifySession id f s).estate
      = ⟨s.registry, (modifySession id f s).sessions.size,
          (modifySession id f s).estate.holding, s.pool,
          s.endedCodes, s.ended, s.endsProcess⟩ := rfl
    _ = s.estate.modify id g := by rw [hholding, hcount]; rfl

theorem estate_modifySession_same {f : Session → Session}
    (h : ∀ session, (f session).holding = session.holding) :
    (modifySession id f s).estate = s.estate := by
  have hholding : (modifySession id f s).estate.holding = s.estate.holding := by
    funext other
    by_cases ho : other = id
    · subst ho
      cases hs : s.sessions[other]? <;>
        simp [estate, session, modifySession, Array.getElem?_modify, hs, h]
    · simp [estate, session_modifySession_of_ne f ho]
  have hcount : (modifySession id f s).sessions.size = s.sessions.size := by
    simp [modifySession]
  calc (modifySession id f s).estate
      = ⟨s.registry, (modifySession id f s).sessions.size,
          (modifySession id f s).estate.holding, s.pool,
          s.endedCodes, s.ended, s.endsProcess⟩ := rfl
    _ = s.estate := by rw [hholding, hcount]; rfl

/-! ## What leaves the estate alone -/

abbrev Spares (p : Action Shell α) : Prop :=
  Keeps estate p

theorem spares_updateSession {f : Session → Session}
    (h : ∀ session, (f session).holding = session.holding) : Spares (updateSession id f) :=
  keeps_update fun _ => estate_modifySession_same h

theorem spares_note {event : Event} (h : event.ended? = none) : Spares (note event) :=
  keeps_update fun s => by
    simp [estate, session, endedCodes, h]

theorem spares_schedule (task : Task) : Spares (schedule id task).run :=
  Keeps.run_bind keeps_ensureLive fun _ => Keeps.lift (spares_updateSession fun _ => rfl)

theorem spares_runHook (code : Int) (hook : ExitHook) : Spares (runHook code hook) :=
  (holdsOfHookSteps_keeps (fun _ _ _ => spares_note rfl) (fun _ _ => rfl) (fun _ _ => rfl)
    fun _ => spares_schedule).runHook code hook

theorem estate_dropHook (hook : ExitHook) (s : Shell) : (dropHook hook s).estate = s.estate := by
  obtain ⟨latches, channels, h⟩ := exists_dropHook hook s
  rw [h]
  rfl

theorem yields_dropHook?_estate (hook? : Option ExitHook) :
    Yields estate me (dropHook? hook?) v fun _ w => w = v := by
  cases hook? with
  | none => exact always_pure _ rfl
  | some hook => exact yields_update fun s hs => (estate_dropHook hook s).trans hs

theorem yields_dropTasks : Yields estate me (dropTasks id) v fun _ w => w = v := by
  refine yields_update fun s hs => ?_
  obtain ⟨latches, channels, h⟩ := exists_foldl_drop (s.session id).tasks s
  rw [h]
  exact (estate_modifySession_same (f := fun session => { session with tasks := [] })
    fun _ => rfl).trans hs

theorem yields_release_estate : Yields estate me (release id) v fun _ w => w = v :=
  yields_update fun _ hs => (estate_modifySession_same
    (f := fun session => { session with focus := session.focus.release }) fun _ => rfl).trans hs

section Stream

variable {ρ : Type} {slot : StreamAt Shell ρ}

theorem exists_reached {ω : Type} {view : Shell → ω}
    (hset : ∀ service s, view (slot.set service s) = view s)
    (hget : ∀ service s, slot.get (slot.set service s) = service) (mark : Nat) (s : Shell) :
    ∃ s' : Shell, view s' = view s ∧
      (if (slot.get s').hasReached mark then some ((), s') else none) ≠ none := by
  refine ⟨slot.set ((slot.get s).reach mark) s, hset _ _, ?_⟩
  simp [hget, StreamService.reach, StreamService.hasReached]

theorem yields_streamSync (hset : ∀ service s, (slot.set service s).estate = s.estate)
    (hget : ∀ service s, slot.get (slot.set service s) = service)
    (hlaunch : ∀ s, (slot.launch s).estate = s.estate) :
    Yields estate me slot.sync v fun _ w => w = v := by
  refine Yields.bind (P := fun _ w => w = v) (yields_update fun s hs => ?_) ?_
  · dsimp only
    split
    · exact hs
    · rw [hlaunch, hset, hs]
  rintro _ w rfl
  refine Yields.bind (P := fun _ y => y = w) (yields_step fun s hs => (hset _ s).trans hs) ?_
  rintro mark _ rfl
  refine always_await (fun s _ s' hs hreached => ?_) fun s _ => ?_
  · split at hreached
    · cases hreached
      exact hs
    · cases hreached
  · exact (exists_reached hset hget mark s).imp fun _ h => h.2

theorem feasible_streamSync {ω : Type} {view : Shell → ω}
    (hset : ∀ service s, view (slot.set service s) = view s)
    (hget : ∀ service s, slot.get (slot.set service s) = service) : Feasible view stops slot.sync :=
  (feasible_update _).bind fun _ => (feasible_step _).bind fun mark =>
    feasible_await (exists_reached hset hget mark)

end Stream

theorem yields_sync : Yields estate me consolePlace.sync v fun _ w => w = v := by
  refine Yields.bind (yields_streamSync (fun _ _ => rfl) (fun _ _ => rfl) fun _ => rfl) ?_
  rintro _ _ rfl
  exact yields_streamSync (fun _ _ => rfl) (fun _ _ => rfl) fun _ => rfl

theorem feasible_sync : Feasible estate stops consolePlace.sync :=
  (feasible_streamSync (fun _ _ => rfl) fun _ _ => rfl).bind fun _ =>
    feasible_streamSync (fun _ _ => rfl) fun _ _ => rfl

/-! ## Disposal -/

theorem estate_modifySession_of_pool {t : Shell} {pool : Pool SessionListener}
    {f : Session → Session} {g : Holding → Holding} (hid : id < s.sessions.size)
    (hestate : t.estate = { s.estate with pool }) (hsessions : t.sessions = s.sessions)
    (h : (f (s.session id)).holding = g (s.session id).holding) :
    (modifySession id f t).estate = { s.estate.modify id g with pool } := by
  have hsession : t.session id = s.session id := by simp [session, hsessions]
  rw [estate_modifySession (g := g) (hsessions ▸ hid) (by rw [hsession, h]), hestate]
  rfl

theorem yields_markDisposed_estate (hid : id < v.count) :
    Yields estate me (markDisposed id) v fun _ w => w =
      { v.modify id fun h => { h with disposed := true, compiling := none, exitHook := none } with
        pool := (v.holding id).compiling.elim v.pool v.pool.cancel } := by
  refine yields_step fun s hs => ?_
  subst hs
  have hcancelled : ((s.session id).compiling.elim s fun job => cancelJob job s).estate =
        { s.estate with pool := (s.session id).compiling.elim s.pool s.pool.cancel } ∧
      ((s.session id).compiling.elim s fun job => cancelJob job s).sessions = s.sessions := by
    cases (s.session id).compiling <;> exact ⟨rfl, rfl⟩
  exact estate_modifySession_of_pool hid hcancelled.1 hcancelled.2 rfl

theorem yields_cancelJobs (hid : id < v.count) :
    Yields estate me (cancelJobs id) v fun _ w => w =
      { v.modify id fun h => { h with jobs := [] } with
        pool := ((v.holding id).jobs.filter fun job => !v.pool.isFinished job).foldl Pool.cancel
          v.pool } := by
  refine yields_update fun s hs => ?_
  subst hs
  dsimp only
  rw [foldl_cancelJob]
  exact estate_modifySession_of_pool hid rfl rfl rfl

theorem yields_setCurrent_estate (hid : id < v.count) (current : Bool) :
    Yields estate me (setCurrent id current) v fun _ w =>
      w = v.modify id (.setCurrent current) :=
  yields_update fun s hs => by
    subst hs
    exact estate_modifySession hid rfl

theorem yields_dispose_estate (hid : id < v.count) :
    Yields estate me (dispose id) v fun _ w => w = v.dispose id := by
  refine Yields.bind (yields_markDisposed_estate hid) ?_
  rintro hook? _ rfl
  refine Yields.bind (yields_dropHook?_estate hook?) ?_
  rintro _ _ rfl
  refine Yields.bind (yields_cancelJobs (by exact hid)) ?_
  rintro _ _ rfl
  refine Yields.bind yields_dropTasks ?_
  rintro _ _ rfl
  refine Yields.bind (yields_setCurrent_estate (by exact hid) false) ?_
  rintro _ _ rfl
  refine Yields.mono yields_release_estate ?_
  rintro _ _ rfl
  simp [Estate.dispose, Estate.modify, Holding.dispose, Holding.setCurrent, Holding.release]

/-! ## The end of a session -/

theorem yields_loseFocus_estate (hid : id < v.count) :
    Yields estate me (loseFocus id) v fun wasCurrent w =>
      wasCurrent = (v.holding id).current ∧ w = v.modify id (.setCurrent false) :=
  yields_step fun s hs => by
    subst hs
    exact ⟨rfl, estate_modifySession hid rfl⟩

theorem yields_grantFocus_estate {heir : SessionId} (hheir : heir < v.count) :
    Yields estate me (grantFocus heir) v fun _ w => w = v.modify heir (.setCurrent true) := by
  refine Yields.bind (yields_setCurrent_estate hheir true) ?_
  rintro _ _ rfl
  exact yields_release_estate

theorem yields_handOn_estate (hknown : ∀ other ∈ v.registry, other < v.count)
    (index remaining : Nat) :
    Yields estate me (handOn index remaining) v fun _ w =>
      w = v.grant? (v.registry.get? ((index + 1) % remaining)) := by
  refine Yields.bind (P := fun heir? w =>
    heir? = v.registry.get? ((index + 1) % remaining) ∧ w = v) (yields_read ?_) ?_
  · rintro s rfl
    exact ⟨rfl, rfl⟩
  · rintro heir? w ⟨hheir, rfl⟩
    rw [← hheir]
    cases heir? with
    | none => exact always_pure _ rfl
    | some heir => exact yields_grantFocus_estate (hknown heir (List.mem_of_getElem? hheir.symm))

theorem always_terminate_estate (code : Int) :
    Always estate me (terminate code) v fun fate w =>
      w = v.conclude code ∧ fate = if v.endsProcess then .halted else .returned () := by
  refine Yields.bind yields_sync ?_
  rintro _ w rfl
  refine Yields.bind (P := fun ends y => ends = w.endsProcess ∧ y = w) (yields_read ?_) ?_
  · rintro s rfl
    exact ⟨rfl, rfl⟩
  rintro ends y ⟨rfl, rfl⟩
  cases hends : y.endsProcess with
  | true =>
    refine Yields.bind (P := fun _ z => z = y.conclude code) (yields_update fun s hs => ?_) ?_
    · subst hs
      rw [Estate.conclude, if_pos hends]
      rfl
    · rintro _ _ rfl
      exact always_halt ⟨rfl, rfl⟩
  | false =>
    refine Yields.always (P := fun _ z => z = y.conclude code) (yields_update fun s hs => ?_)
      fun _ _ hz => ⟨hz, rfl⟩
    subst hs
    have hgoes : s.endsProcess = false := hends
    simp [Estate.conclude, estate, endedCodes, Event.ended?, session, hgoes]

/-! ## All this comes to an end -/

section Feasible

variable {ω : Type} {view : Shell → ω}

theorem feasible_dispose : Feasible view stops (dispose id) := by
  refine Feasible.bind (feasible_step _) fun hook? => Feasible.bind ?_ fun _ =>
    Feasible.bind (feasible_update _) fun _ => Feasible.bind (feasible_update _) fun _ =>
    Feasible.bind (feasible_update _) fun _ => feasible_update _
  cases hook? with
  | none => exact feasible_pure _
  | some hook => exact feasible_update _

theorem feasible_terminate (hsync : Feasible view True consolePlace.sync) (code : Int) :
    Feasible view True (terminate code) := by
  refine Feasible.bind hsync fun _ => Feasible.bind (feasible_read _) fun ends => ?_
  cases ends with
  | true => exact Feasible.bind (feasible_update _) fun _ => feasible_halt
  | false => exact feasible_update _

theorem feasible_handOn (index remaining : Nat) :
    Feasible view stops (handOn index remaining) := by
  refine Feasible.bind (feasible_read _) fun heir? => ?_
  cases heir? with
  | none => exact feasible_pure _
  | some heir => exact Feasible.bind (feasible_update _) fun _ => feasible_update _

theorem feasible_leave (hook? : Option ExitHook) (handsOn : Bool) :
    Feasible view stops (leave id code hook? handsOn) := by
  have hrest : Feasible view stops (leave id code none handsOn) := by
    refine Feasible.bind (feasible_step _) fun wasCurrent =>
      Feasible.bind (feasible_step _) fun removal => ?_
    cases removal with
    | last => exact feasible_pure _
    | absent => exact feasible_pure _
    | removed index remaining =>
      cases handsOn && wasCurrent with
      | false => exact feasible_pure _
      | true => exact Feasible.bind (feasible_handOn index remaining) fun _ => feasible_pure _
  cases hook? with
  | none => exact hrest
  | some hook =>
    exact Feasible.bind (Feasible.bind (feasible_runHook code hook).attempt fun _ =>
      feasible_pure _) fun _ => hrest

theorem feasible_finish (hsync : Feasible view True consolePlace.sync) (handsOn : Bool) :
    Feasible view True (finish id code true handsOn).run := by
  refine Feasible.run_bind (feasible_step _) fun hook? =>
    Feasible.run_bind (Feasible.lift (feasible_leave hook? handsOn)) fun wasLast =>
    Feasible.run_bind (Feasible.lift feasible_dispose) fun _ => ?_
  cases wasLast with
  | false => exact feasible_pure _
  | true => exact Feasible.lift (feasible_terminate hsync code)

end Feasible

end Shell

end SessionShell
