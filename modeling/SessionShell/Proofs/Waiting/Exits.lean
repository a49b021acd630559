import SessionShell.Proofs.Ending.Attempts
import SessionShell.Proofs.Shell.Stillness
import SessionShell.Proofs.Waiting.Gate

/-!
The session that is waited for ends, and opens the gate.

Whoever has recorded the exit code has the hook of the session in hand, and nobody else finds it any
more. It is run, or it is dropped, and what it does besides may crash: the latch is released.
-/

namespace SessionShell

open Action Shell

namespace Shell

variable {s : Shell} {hook : ExitHook} {latch : Nat}

theorem sessions_dropHook (hook : ExitHook) (s : Shell) :
    (dropHook hook s).sessions = s.sessions := by
  obtain ⟨latches, channels, h⟩ := exists_dropHook hook s
  rw [h]

theorem size_latches_dropHook (hook : ExitHook) (s : Shell) :
    (dropHook hook s).latches.size = s.latches.size := by
  induction hook generalizing s with
  | nothing => rfl
  | note => rfl
  | wake latch first ih => simp [dropHook, releaseLatch, ih]
  | report => rfl
  | inParent parent hook ih => exact ih s

theorem latch_dropHook (h : ¬hook.Wakes latch) (s : Shell) :
    (dropHook hook s).latches[latch]? = s.latches[latch]? := by
  induction hook generalizing s with
  | nothing => rfl
  | note => rfl
  | wake own first ih =>
    simp only [ExitHook.Wakes, not_or] at h
    rw [dropHook, releaseLatch, Array.getElem?_modify, if_neg (Ne.symm h.1)]
    exact ih h.2 s
  | report => rfl
  | inParent parent hook ih => exact ih h s

theorem size_latches_dropTask (task : Task) (s : Shell) :
    (Task.drop task s).latches.size = s.latches.size := by
  cases task with
  | runHook hook code => exact size_latches_dropHook hook s
  | boot | script => rfl

theorem latch_dropTask {task : Task}
    (h : ∀ hook code, task = .runHook hook code → ¬hook.Wakes latch)
    (s : Shell) : (Task.drop task s).latches[latch]? = s.latches[latch]? := by
  cases task with
  | runHook hook code => exact latch_dropHook (h hook code rfl) s
  | boot | script => rfl

def dropAll (tasks : List Task) (s : Shell) : Shell :=
  tasks.foldl (fun s task => Task.drop task s) s

variable {tasks : List Task}

theorem sessions_dropAll : (dropAll tasks s).sessions = s.sessions := by
  obtain ⟨latches, channels, h⟩ := exists_foldl_drop tasks s
  rw [dropAll, h]

theorem size_latches_dropAll : (dropAll tasks s).latches.size = s.latches.size := by
  induction tasks generalizing s with
  | nil => rfl
  | cons task tasks ih => exact ih.trans (size_latches_dropTask task s)

theorem latch_dropAll (h : ∀ hook code, .runHook hook code ∈ tasks → ¬hook.Wakes latch) :
    (dropAll tasks s).latches[latch]? = s.latches[latch]? := by
  induction tasks generalizing s with
  | nil => rfl
  | cons task tasks ih =>
    refine (ih fun hook code hin => h hook code (.tail _ hin)).trans (latch_dropTask ?_ s)
    rintro hook code rfl
    exact h hook code (.head _)

end Shell

namespace Vigil

variable {k : Vigil} {γ γ' : Shell × Gate} {s s' : Shell} {g : Gate} {α : Type} {me : ThreadId}
  {latch : Nat} {hook : ExitHook} {code : Int}

/-! ## What an exit does besides -/

def sight (k : Vigil) (s : Shell) : Option ExitState × Array Latch × List Task :=
  (s.exitStates k.target, s.latches, (s.session k.target).tasks)

/-- As far from the wait as a hook that wakes only those who have waited before. -/
structure Outside (k : Vigil) (s s' : Shell) : Prop where
  states : s'.exitStates k.target = s.exitStates k.target
  size : s'.latches.size = s.latches.size
  latches : ∀ latch, k.base ≤ latch → s'.latches[latch]? = s.latches[latch]?
  tasks : ∀ hook code, .runHook hook code ∈ (s'.session k.target).tasks →
    .runHook hook code ∈ (s.session k.target).tasks ∨ ∀ latch, hook.Wakes latch → latch < k.base

theorem Outside.of_sight (h : k.sight s' = k.sight s) : k.Outside s s' := by
  simp only [sight, Prod.mk.injEq] at h
  obtain ⟨hstates, hlatches, htasks⟩ := h
  exact ⟨hstates,
    by rw [hlatches], fun _ _ => by rw [hlatches], fun _ _ => by rw [htasks]; exact .inl⟩

theorem Outside.aside (hi : k.Inv (s, g)) (h : k.Outside s s') : k.Aside (s, g) (s', g) := by
  refine ⟨rfl, h.states, Nat.le_of_eq h.size.symm, fun latch hl =>
    h.latches latch (hi.made latch hl).1,
    fun hook code hin => ?_⟩
  refine (h.tasks hook code hin).imp_right fun hbase latch hw => ?_
  have hlt := hbase latch hw
  refine ⟨Nat.lt_of_lt_of_le hlt (h.size.symm ▸ hi.room), fun hl => ?_⟩
  exact Nat.not_le_of_gt hlt (hi.made latch hl).1

theorem within_of_sight {p : Action Shell α} (h : Keeps k.sight p) : Within k.Outside p :=
  h.within fun _ _ => .of_sight

theorem outside_modifyLatch (f : Latch → Latch) (h : latch < k.base) :
    k.Outside s { s with latches := s.latches.modify latch f } := by
  refine ⟨rfl, by simp, fun other ho => ?_, fun _ _ => .inl⟩
  have hne : latch ≠ other := fun heq => Nat.not_le_of_gt h (heq ▸ ho)
  simp [Array.getElem?_modify, hne]

theorem sight_modifySession {id : SessionId} {f : Session → Session}
    (hstate : ∀ session, (f session).exitState = session.exitState)
    (htasks : ∀ session, (f session).tasks = session.tasks) :
    k.sight (modifySession id f s) = k.sight s := by
  simp only [sight, exitStates_modifySession_same hstate, read_modifySession htasks]
  rfl

theorem sight_updateSession {id : SessionId} {f : Session → Session}
    (hstate : ∀ session, (f session).exitState = session.exitState)
    (htasks : ∀ session, (f session).tasks = session.tasks) : Keeps k.sight (updateSession id f) :=
  keeps_update fun _ => sight_modifySession hstate htasks

theorem outside_schedule {parent : SessionId} (h : ∀ latch, hook.Wakes latch → latch < k.base) :
    Within k.Outside (schedule parent (.runHook hook code)).run := by
  refine Within.run_bind (within_of_sight keeps_ensureLive) fun _ =>
    Within.lift (within_update fun s => ?_)
  refine ⟨congrFun (exitStates_modifySession_same (by exact fun _ => rfl)) _, rfl, fun _ _ => rfl,
    fun other n hin => ?_⟩
  by_cases hp : k.target = parent
  · subst hp
    rcases Nat.lt_or_ge k.target s.sessions.size with hlt | hge
    · rw [session_modifySession_self _ hlt] at hin
      refine (List.mem_append.mp hin).imp_right fun heq => ?_
      cases List.mem_singleton.mp heq
      exact h
    · rw [session_of_size_le (by rwa [size_modifySession])] at hin
      rw [session_of_size_le hge]
      exact .inl hin
  · rw [session_modifySession_of_ne _ hp] at hin
    exact .inl hin

theorem outside_runHook (h : ∀ latch, hook.Wakes latch → latch < k.base) :
    Within k.Outside (runHook code hook) := by
  induction hook with
  | nothing => exact within_pure _
  | note tag crashes =>
    refine within_of_sight (Keeps.bind (Keeps.bind keeps_self fun _ => keeps_read _) fun _ =>
      Keeps.bind (keeps_update fun _ => rfl) fun _ => ?_)
    split
    · exact keeps_crash
    · exact keeps_pure _
  | wake own first ih =>
    have hown : own < k.base := h own (.inl rfl)
    refine Within.bind (within_update fun s => outside_modifyLatch _ hown) fun _ =>
      Within.bind (ih fun latch hw => h latch (.inr hw)).attempt fun result? =>
      Within.bind (within_update fun s => outside_modifyLatch _ hown) fun _ => ?_
    split
    · exact within_crash
    · exact within_pure _
  | report channel label =>
    exact within_of_sight (Keeps.bind (keeps_update fun _ => rfl) fun _ =>
      keeps_update fun _ => rfl)
  | inParent parent hook ih =>
    refine Within.bind (outside_schedule h) fun result => ?_
    cases result with
    | ok => exact within_pure _
    | error => exact ih h

theorem outside_dropHook (h : ∀ latch, hook.Wakes latch → latch < k.base) (s : Shell) :
    k.Outside s (dropHook hook s) := by
  have hsession : (dropHook hook s).session = s.session := by
    funext id
    rw [Shell.session, Shell.session, sessions_dropHook]
  refine ⟨by rw [exitStates, exitStates, sessions_dropHook], size_latches_dropHook hook s,
    fun latch hl => latch_dropHook (fun hw => Nat.not_le_of_gt (h latch hw) hl) s, fun _ _ => ?_⟩
  rw [hsession]
  exact .inl

theorem sight_grantFocus {id : SessionId} : Keeps k.sight (grantFocus id) :=
  Keeps.bind (sight_updateSession (fun _ => rfl) fun _ => rfl) fun _ =>
    sight_updateSession (fun _ => rfl) fun _ => rfl

theorem sight_loseFocus {id : SessionId} : Keeps k.sight (loseFocus id) :=
  keeps_step fun _ => sight_modifySession (fun _ => rfl) fun _ => rfl

theorem sight_handOn (index remaining : Nat) : Keeps k.sight (handOn index remaining) :=
  Keeps.bind (keeps_read _) fun heir? => by
    cases heir? with
    | none => exact keeps_pure _
    | some heir => exact sight_grantFocus

theorem sight_terminate (code : Int) : Keeps k.sight (terminate code) := by
  have hsync : Keeps k.sight consolePlace.sync :=
    Keeps.bind (keeps_streamSync (fun _ _ => rfl) fun _ => rfl) fun _ =>
      keeps_streamSync (fun _ _ => rfl) fun _ => rfl
  refine Keeps.bind hsync fun _ => Keeps.bind (keeps_read _) fun ends => ?_
  cases ends with
  | false => exact keeps_update fun _ => rfl
  | true => exact Keeps.bind (keeps_update fun _ => rfl) fun _ => keeps_halt

theorem sight_leave {id : SessionId} (handsOn : Bool) :
    Keeps k.sight (leave id code none handsOn) := by
  refine Keeps.bind sight_loseFocus fun wasCurrent =>
    Keeps.bind (keeps_step fun _ => rfl) fun removal => ?_
  cases removal with
  | last => exact keeps_pure _
  | absent => exact keeps_pure _
  | removed index remaining =>
    dsimp only
    split
    · exact Keeps.bind (sight_handOn index remaining) fun _ => keeps_pure _
    · exact keeps_pure _

theorem sight_cancelJobs {id : SessionId} : Keeps k.sight (cancelJobs id) :=
  keeps_cancelJobs fun _ _ =>
    (sight_modifySession (by exact fun _ => rfl) (by exact fun _ => rfl)).trans rfl

/-! ## The exit -/

/-- The exit code is recorded, and the hook of the session is in the hands of whoever did that. -/
structure Closing (k : Vigil) (code : Int) (hook? : Option ExitHook) (γ : Shell × Gate) : Prop where
  inv : k.Inv γ
  code : (k.session γ).exitCode = some code
  hook : hook? = none ∧ γ.2.hooked = false ∨
    ∃ latch, hook? = some (.wake latch k.extra) ∧ γ.2 = ⟨some latch, true⟩

structure Over (k : Vigil) (γ : Shell × Gate) : Prop where
  inv : k.Inv γ
  ended : k.Ended γ
  opened : γ.2.hooked = true → Opened γ

theorem Closing.ended {hook? : Option ExitHook} (h : k.Closing code hook? γ) : k.Ended γ :=
  .inr (by rw [h.code]; rfl)

theorem Closing.over (h : k.Closing code none γ) : k.Over γ := by
  refine ⟨h.inv, h.ended, fun hh => ?_⟩
  obtain ⟨-, hh'⟩ | ⟨latch, hnone, -⟩ := h.hook
  · rw [hh] at hh'
    cases hh'
  · cases hnone

theorem stable_inv : Stable k.Change k.Inv :=
  fun _ _ hi hr => hr.inv hi

theorem stable_closing {hook? : Option ExitHook} : Stable k.Change (k.Closing code hook?) := by
  intro γ γ' h hr
  refine ⟨hr.inv h.inv, (hr.ended h.ended).2.trans h.code, ?_⟩
  rcases h.hook with ⟨hnone, hh⟩ | ⟨latch, hsome, hgate⟩
  · exact .inl ⟨hnone, (hr.late h.ended).trans hh⟩
  · have hlatch := hr.latch latch (by rw [hgate])
    have hhooked := hr.hooked (by rw [hgate])
    refine .inr ⟨latch, hsome, ?_⟩
    rw [← hlatch, ← hhooked]

theorem stable_over : Stable k.Change k.Over := by
  intro γ γ' h hr
  refine ⟨hr.inv h.inv, (hr.ended h.ended).1, fun hh => hr.opened (h.opened ?_)⟩
  rwa [← hr.late h.ended]

theorem deed_of_session (hi : k.Inv (s, g)) (hended : k.Ended (s', g))
    (hcode : k.Ended (s, g) → (k.session (s', g)).exitCode = (k.session (s, g)).exitCode)
    (hhook : (k.session (s', g)).exitHook = none)
    (htasks : (k.session (s', g)).tasks = (k.session (s, g)).tasks)
    (hsize : s'.sessions.size = s.sessions.size) (hlatches : s'.latches = s.latches) :
    k.Deed (s, g) (s', g) := by
  refine ⟨⟨fun _ => ?_, fun he => ⟨hended, hcode he⟩, id, fun _ => rfl, fun _ => id, ?_⟩, rfl⟩
  · constructor
    · exact hsize.symm ▸ hi.known
    · exact hlatches.symm ▸ hi.room
    · exact hlatches.symm ▸ hi.made
    · rw [Heedless, htasks]
      exact hlatches.symm ▸ hi.heedless
    · exact fun hn => absurd hended hn
    · exact fun hn => absurd hended hn
    · intro hh
      obtain ⟨latch, hl, -⟩ := hi.taken hh
      exact ⟨latch, hl, fun hn => absurd hended hn⟩
    · exact fun _ => hhook
    · intro latch l hl hget
      rw [hlatches] at hget
      by_cases he : k.Ended (s, g)
      · rw [hcode he]
        exact hi.code latch l hl hget
      · cases (hi.shut he latch hl).symm.trans hget
        exact .inl rfl
  · rintro ⟨latch, l, hl, hget, hreleased⟩
    exact ⟨latch, l, hl, by rwa [hlatches], hreleased⟩

theorem deed_of_latch (hi : k.Inv (s, g)) (hended : k.Ended (s, g))
    (latch : Nat) {f : Latch → Latch}
    (hcode : ∀ l, (f l).code = l.code ∨ (f l).code = (k.session (s, g)).exitCode)
    (hreleased : ∀ l, l.released = true → (f l).released = true) :
    k.Deed (s, g) ({ s with latches := s.latches.modify latch f }, g) := by
  have hget : ∀ (other : Nat) (l' : Latch), (s.latches.modify latch f)[other]? = some l' →
      s.latches[other]? = some l' ∨ ∃ l, s.latches[other]? = some l ∧ l' = f l := by
    intro other l' hl'
    rw [Array.getElem?_modify] at hl'
    split at hl'
    · obtain ⟨l, hl, rfl⟩ := Option.map_eq_some_iff.mp hl'
      exact .inr ⟨l, hl, rfl⟩
    · exact .inl hl'
  have hsame : ∀ g', k.session (({ s with latches := s.latches.modify latch f } : Shell), g') =
      k.session (s, g') := fun _ => rfl
  refine ⟨⟨fun _ => ?_, fun he => ⟨he, rfl⟩, id, fun _ => rfl, fun _ => id, ?_⟩, rfl⟩
  · constructor
    · exact hi.known
    · exact Nat.le_trans hi.room (by simp)
    · exact fun other hl => ⟨(hi.made other hl).1, by simpa using (hi.made other hl).2⟩
    · exact fun hook code hin other hw => by simpa using hi.heedless hook code hin other hw
    · exact fun hn => absurd hended hn
    · exact fun hn => absurd hended hn
    · intro hh
      obtain ⟨other, hl, -⟩ := hi.taken hh
      exact ⟨other, hl, fun hn => absurd hended hn⟩
    · exact hi.gone
    · intro other l' hl hl'
      rw [hsame]
      rcases hget other l' hl' with hold | ⟨l, hold, rfl⟩
      · exact hi.code other l' hl hold
      · rcases hcode l with heq | heq
        · rw [heq]
          exact hi.code other l hl hold
        · exact .inr heq
  · rintro ⟨other, l, hl, hold, hrel⟩
    by_cases hlatch : latch = other
    · subst hlatch
      exact ⟨latch, f l, hl, by simp [Array.getElem?_modify, hold], hreleased l hrel⟩
    · exact ⟨other, l, hl, by simpa [Array.getElem?_modify, hlatch] using hold, hrel⟩

section Exits

variable {P : Shell × Gate → Prop} {hook? : Option ExitHook}

theorem upholds_outside {p : Action Shell α} (hP : Stable k.Change P) (hinv : ∀ γ, P γ → k.Inv γ)
    (hp : Within k.Outside p) (hcrash : NeverCrashes p) :
    Upholds k.Change k.Deed me P (Observer.idle.observe p) (Fate.Returns fun _ => P) :=
  upholds_of_within hP (fun _ _ _ hs ho =>
    have hdeed := (Outside.aside (hinv _ hs) ho).deed
    ⟨hdeed, hP _ _ hs hdeed.1⟩) hp hcrash

def Tried (k : Vigil) (code : Int) : Except ShellError (Option ExitHook) → Shell × Gate → Prop
  | .ok hook? => k.Closing code hook?
  | .error _ => k.Inv

theorem closing_of_record (hi : k.Inv (s, g)) (hopen : ¬k.Ended (s, g)) :
    let s' := modifySession k.target
      (fun session => { session with exitCode := some code, exitHook := none }) s
    k.Deed (s, g) (s', g) ∧ k.Closing code (k.session (s, g)).exitHook (s', g) := by
  intro s'
  have hself : k.session (s', g) =
      { k.session (s, g) with exitCode := some code, exitHook := none } :=
    session_modifySession_self _ hi.known
  have hcode : (k.session (s', g)).exitCode = some code := by rw [hself]
  have hdeed : k.Deed (s, g) (s', g) :=
    deed_of_session hi (.inr (by rw [hcode]; rfl)) (fun he => absurd he hopen) (by rw [hself])
      (by rw [hself]) (size_modifySession _) rfl
  refine ⟨hdeed, hdeed.1.inv hi, hcode, ?_⟩
  rcases Bool.eq_false_or_eq_true g.hooked with hh | hh
  · obtain ⟨latch, hl, hhook⟩ := hi.taken hh
    refine .inr ⟨latch, hhook hopen, ?_⟩
    rw [← hl, ← hh]
  · exact .inl ⟨hi.free hopen hh, hh⟩

theorem upholds_recordCode : Upholds k.Change k.Deed me k.Inv
    (Observer.idle.observe (recordCode k.target code).run) (Fate.Returns (k.Tried code)) := by
  refine upholds_observe_step stable_inv (fun r => ?_) fun s g hi _ => ?_
  · cases r with
    | ok hook? => exact stable_closing
    | error => exact stable_inv
  dsimp only
  split
  · exact ⟨.refl _, hi⟩
  · next hopen => exact closing_of_record hi hopen

/-! ### The hook is run or dropped -/

theorem Closing.gate (h : k.Closing code (some (.wake latch k.extra)) γ) :
    γ.2 = ⟨some latch, true⟩ := by
  obtain ⟨hnone, -⟩ | ⟨other, hsome, hgate⟩ := h.hook
  · cases hnone
  · cases hsome
    exact hgate

theorem over_of_release (h : k.Closing code (some (.wake latch k.extra)) (s, g)) :
    k.Deed (s, g) (releaseLatch latch s, g) ∧ k.Over (releaseLatch latch s, g) := by
  have hgate := h.gate
  have hdeed := deed_of_latch (f := fun l => { l with released := true }) h.inv h.ended latch
    (fun _ => .inl rfl) fun _ _ => rfl
  have hmade := h.inv.made latch (by rw [hgate])
  refine ⟨hdeed, hdeed.1.inv h.inv, (hdeed.1.ended h.ended).1, fun _ => ?_⟩
  refine ⟨latch, { s.latches[latch] with released := true }, by rw [show g = _ from hgate], ?_, rfl⟩
  exact (Array.getElem?_modify ..).trans (by simp [Array.getElem?_eq_getElem hmade.2])

theorem upholds_setLatchCode :
    Upholds k.Change k.Deed me (k.Closing code (some (.wake latch k.extra)))
      (Observer.idle.observe (Action.update (setLatchCode latch code)))
      (Fate.Returns fun _ => k.Closing code (some (.wake latch k.extra))) := by
  refine upholds_observe_step stable_closing (fun _ => stable_closing) fun s g h _ => ?_
  have hdeed := deed_of_latch (f := fun l => { l with code := some code }) h.inv h.ended latch
    (fun _ => .inr h.code.symm) fun _ hl => hl
  exact ⟨hdeed, stable_closing _ _ h hdeed.1⟩

theorem upholds_releaseLatch :
    Upholds k.Change k.Deed me (k.Closing code (some (.wake latch k.extra)))
      (Observer.idle.observe (Action.update (releaseLatch latch)))
      (Fate.Returns fun _ => k.Over) :=
  upholds_observe_step stable_closing (fun _ => stable_over) fun _ _ h _ => over_of_release h

theorem upholds_runHook (hextra : ∀ latch, k.extra.Wakes latch → latch < k.base) :
    Upholds k.Change k.Deed me (k.Closing code (some (.wake latch k.extra)))
      (Observer.idle.observe (discard (runHook code (.wake latch k.extra)).attempt))
      (Fate.Returns fun _ => k.Over) := by
  have hrun : Upholds k.Change k.Deed me (k.Closing code (some (.wake latch k.extra)))
      (Observer.idle.observe (runHook code (.wake latch k.extra))) fun _ => k.Over := by
    refine Upholds.observe_bind upholds_setLatchCode Change.refl fun _ =>
      Upholds.observe_bind (upholds_outside stable_closing (fun _ h => h.inv)
        (outside_runHook hextra).attempt (neverCrashes_attempt _)) Change.refl fun result? =>
      Upholds.observe_bind upholds_releaseLatch Change.refl fun _ => ?_
    split
    · exact fun γ h γ' hr => stable_over γ γ' h hr
    · exact fun γ h γ' hr => stable_over γ γ' h hr
  refine Upholds.observe_bind (R := fun _ => k.Over) (fun γ h => ?_) Change.refl fun _ =>
    upholds_observe_pure _ stable_over fun _ h => h
  rw [Observer.observe_attempt]
  exact (hrun γ h).attempt (fun _ _ h => h) fun _ h => h

theorem upholds_dropHook? (hextra : ∀ latch, k.extra.Wakes latch → latch < k.base) :
    Upholds k.Change k.Deed me (k.Closing code hook?) (Observer.idle.observe (dropHook? hook?))
      (Fate.Returns fun _ => k.Over) := by
  cases hook? with
  | none => exact upholds_observe_pure _ stable_closing fun _ h => h.over
  | some hook =>
    refine upholds_observe_step stable_closing (fun _ => stable_over) fun s g h _ => ?_
    obtain ⟨hnone, -⟩ | ⟨latch, heq, hgate⟩ := h.hook
    · cases hnone
    cases heq
    have hout := Outside.aside h.inv (k.outside_dropHook hextra s)
    have hdropped := stable_closing _ _ h hout.deed.1
    have hreleased := over_of_release hdropped
    exact ⟨hout.deed.trans hreleased.1, hreleased.2⟩

/-! ### Disposal -/

theorem deed_of_disposal {pool : Pool SessionListener} (hi : k.Inv (s, g)) :
    k.Deed (s, g) (modifySession k.target (fun session =>
      { session with
        disposed := true
        compiling := none
        interpreter := none
        main := none
        exitHook := none }) { s with pool }, g) := by
  have hself := @session_modifySession_self { s with pool } k.target (fun session =>
      { session with
        disposed := true
        compiling := none
        interpreter := none
        main := none
        exitHook := none }) hi.known
  refine deed_of_session hi (.inl ?_) (fun _ => ?_) ?_ ?_ (size_modifySession _) rfl
  · rw [session, hself]
  · rw [session, hself]
    rfl
  · rw [session, hself]
  · rw [session, hself]
    rfl

theorem upholds_markDisposed (hP : Stable k.Change P) (hinv : ∀ γ, P γ → k.Inv γ ∧ k.Ended γ) :
    Upholds k.Change k.Deed me P (Observer.idle.observe (markDisposed k.target))
      (Fate.Returns fun hook? γ => hook? = none ∧ P γ) := by
  refine upholds_observe_step hP (fun _ γ γ' h hr => ⟨h.1, hP γ γ' h.2 hr⟩) fun s g hs _ => ?_
  obtain ⟨hi, hended⟩ := hinv _ hs
  have hpool : ∀ job? : Option JobId, ∃ pool,
      (job?.elim s fun job => cancelJob job s) = { s with pool } := by
    intro job?
    cases job? with
    | none => exact ⟨s.pool, rfl⟩
    | some job => exact ⟨s.pool.cancel job, rfl⟩
  obtain ⟨pool, hpool⟩ := hpool (s.session k.target).compiling
  dsimp only
  rw [hpool]
  have hdeed := @deed_of_disposal k s g pool hi
  exact ⟨hdeed, hi.gone hended, hP _ _ hs hdeed.1⟩

theorem upholds_dropTasks (hP : Stable k.Change P) (hinv : ∀ γ, P γ → k.Inv γ) :
    Upholds k.Change k.Deed me P (Observer.idle.observe (dropTasks k.target))
      (Fate.Returns fun _ => P) := by
  refine upholds_observe_step hP (fun _ => hP) fun s g hs _ => ?_
  have hi := hinv _ hs
  have haside : k.Aside (s, g) (modifySession k.target (fun session => { session with tasks := [] })
      (dropAll (s.session k.target).tasks s), g) := by
    refine ⟨rfl, ?_, Nat.le_of_eq size_latches_dropAll.symm, fun latch hl => ?_,
      fun hook code hin => ?_⟩
    · rw [exitStates_modifySession_same (by exact fun _ => rfl), exitStates, exitStates,
        sessions_dropAll]
    · exact latch_dropAll fun hook code hin hw => (hi.heedless hook code hin latch hw).2 hl
    · have hknown : k.target < (dropAll (s.session k.target).tasks s).sessions.size := by
        rw [sessions_dropAll]
        exact hi.known
      rw [session, session_modifySession_self _ hknown] at hin
      cases hin
  exact ⟨haside.deed, hP _ _ hs haside.deed.1⟩

theorem upholds_dispose (hP : Stable k.Change P) (hinv : ∀ γ, P γ → k.Inv γ ∧ k.Ended γ) :
    Upholds k.Change k.Deed me P (Observer.idle.observe (dispose k.target))
      (Fate.Returns fun _ => P) := by
  have hinv' : ∀ γ, P γ → k.Inv γ := fun γ h => (hinv γ h).1
  refine Upholds.observe_bind (upholds_markDisposed hP hinv) Change.refl fun hook? => ?_
  refine Upholds.observe_bind (R := fun _ => P) ?_ Change.refl fun _ =>
    Upholds.observe_bind (upholds_outside hP hinv' (within_of_sight sight_cancelJobs) ?_)
      Change.refl fun _ =>
    Upholds.observe_bind (upholds_dropTasks hP hinv') Change.refl fun _ =>
    upholds_outside hP hinv' (within_of_sight (Keeps.bind (sight_updateSession (fun _ => rfl)
      fun _ => rfl) fun _ => sight_updateSession (fun _ => rfl) fun _ => rfl)) ?_
  · rintro γ ⟨rfl, h⟩
    exact fun γ' hr => hP γ γ' h hr
  · exact fun _ => trivial
  · exact fun _ _ => trivial

theorem neverCrashes_leave (handsOn : Bool) : NeverCrashes (leave k.target code none handsOn) := by
  refine NeverCrashes.bind (fun _ => trivial) fun wasCurrent =>
    NeverCrashes.bind (fun _ => trivial) fun removal => ?_
  cases removal with
  | last | absent => trivial
  | removed index remaining =>
    dsimp only
    split
    · exact NeverCrashes.bind (neverCrashes_handOn index remaining) fun _ => trivial
    · trivial

theorem upholds_leave (hextra : ∀ latch, k.extra.Wakes latch → latch < k.base) (handsOn : Bool) :
    Upholds k.Change k.Deed me (k.Closing code hook?)
      (Observer.idle.observe (leave k.target code hook? handsOn))
      (Fate.Returns fun _ => k.Over) := by
  have hunhooked : Upholds k.Change k.Deed me k.Over
      (Observer.idle.observe (leave k.target code none handsOn)) (Fate.Returns fun _ => k.Over) :=
    upholds_outside stable_over (fun _ h => h.inv) (within_of_sight (sight_leave handsOn))
      (neverCrashes_leave handsOn)
  cases hook? with
  | none => exact fun γ h => hunhooked γ h.over
  | some hook =>
    refine Upholds.observe_bind (p := discard (runHook code hook).attempt) ?_ Change.refl fun _ =>
      hunhooked
    intro γ h
    obtain ⟨hnone, -⟩ | ⟨latch, heq, -⟩ := h.hook
    · cases hnone
    cases heq
    exact upholds_runHook hextra γ h

def Left (k : Vigil) : Except ShellError Unit → Shell × Gate → Prop
  | .ok () => k.Over
  | .error _ => fun _ => True

theorem upholds_over (a : Except ShellError Unit) : Upholds k.Change k.Deed me k.Over
    (Observer.idle.observe (pure a)) (Fate.Returns k.Left) :=
  upholds_observe_pure a stable_over fun γ h => by
    cases a with
    | ok => exact h
    | error => trivial

theorem upholds_finish (hextra : ∀ latch, k.extra.Wakes latch → latch < k.base)
    (removes handsOn : Bool) : Upholds k.Change k.Deed me k.Inv
      (Observer.idle.observe (finish k.target code removes handsOn).run) (Fate.Returns k.Left) := by
  refine Upholds.observe_run_bind upholds_recordCode Change.refl (fun hook? => ?_)
    fun e => upholds_observe_pure _ stable_inv fun _ _ => trivial
  cases removes with
  | true =>
    refine Upholds.observe_lift_bind (upholds_leave hextra handsOn) Change.refl fun wasLast =>
      Upholds.observe_lift_bind (upholds_dispose stable_over fun _ h => ⟨h.inv, h.ended⟩)
        Change.refl
        fun _ => ?_
    cases wasLast with
    | false => exact upholds_over _
    | true =>
      exact Upholds.observe_bind (upholds_outside stable_over (fun _ h => h.inv)
        (within_of_sight (sight_terminate code)) (Stakes.neverCrashes_terminate code)) Change.refl
        fun _ => upholds_over _
  | false =>
    exact Upholds.observe_lift_bind (upholds_dispose stable_closing fun _ h => ⟨h.inv, h.ended⟩)
      Change.refl fun _ => Upholds.observe_bind (upholds_dropHook? hextra) Change.refl
        fun _ => upholds_over _

theorem upholds_exit (hextra : ∀ latch, k.extra.Wakes latch → latch < k.base) :
    Upholds k.Change k.Deed me k.Inv
      (Observer.idle.observe (exit k.target code).run) (Fate.Returns k.Left) := by
  have hinv : ∀ γ : Shell × Gate, k.Inv γ → k.Inv γ := fun _ h => h
  refine Upholds.observe_run_bind (R := fun _ => k.Inv) (upholds_outside stable_inv hinv
    (within_of_sight keeps_ensureLive) neverCrashes_ensureLive) Change.refl (fun _ => ?_)
    fun e => upholds_observe_pure _ stable_inv fun _ _ => trivial
  cases ExitCode.remapWarning? code with
  | none => exact upholds_finish hextra true true
  | some message =>
    refine Upholds.observe_lift_bind (upholds_outside stable_inv hinv (within_of_sight
      (Keeps.bind (keeps_read _) fun _ => keeps_update fun _ => rfl)) (fun _ => fun _ => trivial))
      Change.refl fun _ => upholds_finish hextra true true

end Exits

end Vigil

end SessionShell
