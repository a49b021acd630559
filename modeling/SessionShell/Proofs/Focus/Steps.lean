import Mathlib.Data.List.Find
import SessionShell.Proofs.Focus.Seating
import SessionShell.Proofs.Shell.Outline

/-!
What the actions of the shell do to its seating.
-/

namespace SessionShell

open Action

def Session.seat (s : Session) : Seat :=
  ⟨s.current, s.focus.permits, s.language.isSome, s.exitCode.isSome, s.disposed⟩

namespace Shell

/-- A session that is not there yet has the seat it will be made with. -/
def seating (s : Shell) : Seating :=
  ⟨s.registry, s.sessions.size, fun id => s.sessions[id]?.elim .fresh Session.seat⟩

variable {α : Type} {s : Shell} {v : Seating} {me : ThreadId} {id : SessionId}

theorem session_eq (hid : id < s.sessions.size) : s.session id = s.sessions[id] := by
  simp [session, hid]

theorem seat_seating (hid : id < s.sessions.size) : s.seating.seat id = (s.session id).seat := by
  simp [seating, session_eq hid, hid]

theorem seating_modifySession {f : Session → Session} {g : Seat → Seat}
    (hid : id < s.sessions.size) (h : (f (s.session id)).seat = g (s.session id).seat) :
    (modifySession id f s).seating = s.seating.modify id g := by
  have hseat : (modifySession id f s).seating.seat = (s.seating.modify id g).seat := by
    funext other
    by_cases ho : other = id
    · subst ho
      rw [session_eq hid] at h
      simp [seating, modifySession, Array.getElem?_modify, hid, h]
    · rw [Seating.seat_modify_of_ne g ho]
      simp [seating, modifySession, Array.getElem?_modify, Ne.symm ho]
  have hcount : (modifySession id f s).seating.count = s.seating.count := by
    simp [seating, modifySession]
  calc (modifySession id f s).seating
      = ⟨s.registry, (modifySession id f s).seating.count, (modifySession id f s).seating.seat⟩ :=
        rfl
    _ = s.seating.modify id g := by rw [hseat, hcount]; rfl

theorem seating_eq_of_outline {s s' : Shell} (h : s'.outline = s.outline) :
    s'.seating = s.seating := by
  have hregistry : s'.registry = s.registry := congrArg Prod.fst h
  have hsessions : s'.sessions.map Session.outline = s.sessions.map Session.outline :=
    congrArg Prod.snd h
  have hsize : s'.sessions.size = s.sessions.size := by
    simpa using congrArg Array.size hsessions
  have hseat : ∀ id : SessionId, s'.sessions[id]?.elim Seat.fresh Session.seat =
      s.sessions[id]?.elim Seat.fresh Session.seat := by
    intro id
    have hid : (s'.sessions[id]?).map Session.outline = (s.sessions[id]?).map Session.outline := by
      simpa using congrArg (fun sessions : Array Session => sessions[id]?) hsessions
    have hof : ∀ session? : Option Session, session?.elim Seat.fresh Session.seat =
        (session?.map Session.outline).elim Seat.fresh Session.seat := by
      intro session?
      cases session? <;> rfl
    rw [hof, hid, ← hof]
  simp only [seating, hregistry, hsize, hseat]

theorem keeps_of_quiet {p : Action Shell α} (h : Quiet p) : Keeps seating p :=
  h.keeps fun _ _ => seating_eq_of_outline

theorem always_of_quiet {p : Action Shell α} (h : Quiet p) :
    Always seating me p v fun _ w => w = v :=
  (keeps_of_quiet h).always

/-! ## Single changes -/

theorem yields_update_of_outline {f : Shell → Shell} (h : ∀ s, (f s).outline = s.outline) :
    Yields seating me (update f) v fun _ w => w = v :=
  yields_update fun s hs => (seating_eq_of_outline (h s)).trans hs

theorem yields_updateSession {f : Session → Session} {g : Seat → Seat} (hid : id < v.count)
    (h : ∀ session, (f session).seat = g session.seat) :
    Yields seating me (updateSession id f) v fun _ w => w = v.modify id g :=
  yields_update fun s hs => by
    subst hs
    exact seating_modifySession hid (h _)

theorem yields_release (hid : id < v.count) :
    Yields seating me (release id) v fun _ w => w = v.modify id .give :=
  yields_updateSession hid fun _ => rfl

theorem yields_setCurrent (hid : id < v.count) (current : Bool) :
    Yields seating me (setCurrent id current) v fun _ w => w = v.modify id (.setCurrent current) :=
  yields_updateSession hid fun _ => rfl

theorem yields_drainFocus (hid : id < v.count) :
    Yields seating me (drainFocus id) v fun _ w => w = v.modify id .drain :=
  yields_updateSession hid fun _ => rfl

theorem yields_acquire (hid : id < v.count) :
    Yields seating me (acquire id) v fun _ w =>
      0 < (v.seat id).permits ∧ w = v.modify id .take := by
  refine Yields.bind (P := fun _ w => w = v) (yields_step fun s hs => ?_) ?_
  · subst hs
    dsimp only
    rw [seating_modifySession (g := fun c => c) hid (by rfl)]
    simp [Seating.modify]
  · rintro ticket w rfl
    refine always_await (fun s a s' hs hgrant => ?_) fun s hs => ?_
    · subst hs
      obtain ⟨focus, hfocus, heq⟩ := Option.map_eq_some_iff.mp hgrant
      cases heq
      simp only [FairSemaphore.grant?] at hfocus
      split at hfocus
      · next hfree =>
        cases hfocus
        refine ⟨by rw [seat_seating hid]; exact hfree.2, ?_⟩
        exact seating_modifySession hid rfl
      · cases hfocus
    · -- A state in which it is the ticket's turn and a permit is free.
      subst hs
      refine ⟨modifySession id (fun session => { session with focus := ⟨1, 0, ticket⟩ }) s, ?_⟩
      have hfocus : ((modifySession id (fun session => { session with focus := ⟨1, 0, ticket⟩ })
          s).session id).focus = ⟨1, 0, ticket⟩ := by
        have hid' : id < s.sessions.size := hid
        simp [session, modifySession, hid', Array.getElem_modify_self]
      simp [hfocus, FairSemaphore.grant?]

theorem yields_grantFocus (hid : id < v.count) :
    Yields seating me (grantFocus id) v fun _ w => w = v.grant id := by
  refine Yields.bind (yields_setCurrent hid true) ?_
  rintro _ w rfl
  refine Yields.mono (yields_release hid) ?_
  rintro _ w rfl
  exact Seating.modify_modify _ _

theorem yields_getSession (hid : id < v.count) :
    Yields seating me (getSession id) v fun session w => w = v ∧ session.seat = v.seat id :=
  yields_read fun s hs => by
    subst hs
    exact ⟨rfl, (seat_seating hid).symm⟩

theorem yields_ensureLive (hid : id < v.count) :
    Yields seating me (ensureLive id).run v fun r w =>
      w = v ∧ (r = .ok () → (v.seat id).disposed = false) ∧
        ∀ e, r = .error e → ∃ name, e = .hasExited name := by
  refine Yields.lift_bind (yields_getSession hid) ?_
  rintro session w ⟨rfl, hseat⟩
  have hdisposed : session.disposed = (w.seat id).disposed := by rw [← hseat]; rfl
  cases hd : session.disposed
  · simp only [Session.isLive, hd, Bool.not_false, if_true]
    exact always_pure _ ⟨rfl, fun _ => hdisposed ▸ hd, fun e h => by cases h⟩
  · simp only [Session.isLive, hd, Bool.not_true]
    refine always_pure _ ⟨rfl, fun h => ?_, fun e h => ?_⟩
    · cases h
    · cases h
      exact ⟨_, rfl⟩

theorem yields_tryUpdate {f : Session → Except ShellError Session}
    {P : Except ShellError Unit → Seating → Prop} (hid : id < v.count)
    (herror : ∀ session e, session.seat = v.seat id → f session = .error e → P (.error e) v)
    (hok : ∀ session session', session.seat = v.seat id → f session = .ok session' →
      P (.ok ()) (v.modify id fun _ => session'.seat)) :
    Yields seating me (tryUpdate id f).run v P := by
  refine yields_step fun s hs => ?_
  subst hs
  have hseat := (seat_seating hid).symm
  cases hf : f (s.session id) with
  | error e => exact herror _ e hseat hf
  | ok session =>
    dsimp only
    rw [seating_modifySession (g := fun _ => session.seat) hid rfl]
    exact hok _ session hseat hf

/-! ## Starting -/

theorem yields_setLanguage (hid : id < v.count) (language : Language) :
    Yields seating me (setLanguage id language).run v fun r w =>
      (w = v ∧ ∃ session name, r = .error (.alreadyStarted session name)) ∨
      (r = .ok () ∧ (v.seat id).started = false ∧ w = v.modify id .start) := by
  refine yields_tryUpdate hid (fun session e _ hf => .inl ?_) fun session session' hseat hf =>
    .inr ?_
  · split at hf
    · cases hf
      exact ⟨rfl, _, _, rfl⟩
    · cases hf
  · split at hf
    · cases hf
    · next hname =>
      cases hf
      have hlanguage : session.language = none := Option.map_eq_none_iff.mp hname
      refine ⟨rfl, ?_, ?_⟩
      · rw [← hseat, Session.seat, hlanguage]
        rfl
      · simp only [Seating.modify, ← hseat]
        rfl

theorem yields_enterRegistry :
    Yields seating me (enterRegistry id) v fun _ w =>
      w = { v with registry := v.registry ++ [id] } :=
  yields_update fun s hs => by
    subst hs
    rfl

theorem yields_holder (hknown : ∀ other ∈ v.registry, other < v.count) :
    Yields seating me
      (Action.read fun s => s.registry.find? fun other => (s.session other).current) v
      fun holder? w => w = v ∧ holder? = v.registry.find? fun other => (v.seat other).current :=
  yields_read fun s hs => by
    subst hs
    refine ⟨rfl, ?_⟩
    have hcurrent : ∀ other ∈ s.registry,
        (s.session other).current = (s.seating.seat other).current := by
      intro other hother
      rw [seat_seating (hknown other hother)]
      rfl
    exact List.find?_congr hcurrent

theorem yields_takeFocus_of_some {holder : SessionId} (hid : id < v.count)
    (hknown : ∀ other ∈ v.registry, other < v.count)
    (hholder : v.registry.find? (fun other => (v.seat other).current) = some holder)
    (hne : holder ≠ id) :
    Yields seating me (takeFocus id) v fun _ w =>
      0 < (v.seat holder).permits ∧ w = (v.yield holder).modify id (.setCurrent true) := by
  have hin : holder < v.count := hknown holder (List.mem_of_find?_eq_some hholder)
  refine Yields.bind (yields_holder hknown) ?_
  rintro _ w ⟨rfl, rfl⟩
  simp only [hholder, ne_eq, hne, not_false_eq_true, if_true]
  refine Yields.bind (yields_acquire hin) ?_
  rintro _ w ⟨hp, rfl⟩
  refine Yields.bind (yields_setCurrent (by exact hin) false) ?_
  rintro _ w rfl
  refine Yields.mono (yields_setCurrent (by exact hid) true) ?_
  rintro _ w rfl
  exact ⟨hp, by rw [Seating.modify_modify]; rfl⟩

theorem yields_takeFocus_of_none (hid : id < v.count)
    (hknown : ∀ other ∈ v.registry, other < v.count)
    (hnone : v.registry.find? (fun other => (v.seat other).current) = none) :
    Yields seating me (takeFocus id) v fun _ w => w = v.modify id (.setCurrent true) := by
  refine Yields.bind (yields_holder hknown) ?_
  rintro _ w ⟨rfl, rfl⟩
  rw [hnone]
  exact yields_setCurrent hid true

theorem yields_startThread : Yields seating me (startThread id) v fun _ w => w = v :=
  yields_step fun s hs => by
    split
    · exact hs
    · exact hs

theorem yields_newSession (name : String) (script : Option String) :
    Yields seating me (newSession name script) v fun child w =>
      child = v.count ∧ v.seat child = .fresh ∧ w = { v with count := v.count + 1 } :=
  yields_step fun s hs => by
    subst hs
    refine ⟨rfl, by simp [seating], ?_⟩
    have hseat : ∀ id : SessionId, (s.sessions.push (Session.new name script
        s.console.addMailbox.1 s.settings.escapeMode))[id]?.elim Seat.fresh Session.seat =
        s.sessions[id]?.elim Seat.fresh Session.seat := by
      intro id
      rcases Nat.lt_trichotomy id s.sessions.size with hlt | heq | hgt
      · simp [Array.getElem?_push_lt hlt, hlt]
      · subst heq
        simp [Session.new, Session.seat, FairSemaphore.new, Seat.fresh]
      · rw [Array.getElem?_eq_none (by simp; omega), Array.getElem?_eq_none (by omega)]
    simp only [seating, hseat, Array.size_push]

/-! ## Ending -/

theorem yields_markDisposed (hid : id < v.count) :
    Yields seating me (markDisposed id) v fun _ w =>
      w = v.modify id fun c => { c with disposed := true } :=
  yields_step fun s hs => by
    subst hs
    have hcancel : ∀ job? : Option JobId,
        (job?.elim s fun job => cancelJob job s).sessions = s.sessions ∧
        (job?.elim s fun job => cancelJob job s).seating = s.seating := by
      intro job?
      cases job? <;> exact ⟨rfl, rfl⟩
    obtain ⟨hsessions, hseating⟩ := hcancel (s.session id).compiling
    rw [← hseating]
    refine seating_modifySession ?_ rfl
    rw [hsessions]
    exact hid

theorem yields_dropHook? (hook? : Option ExitHook) :
    Yields seating me (dropHook? hook?) v fun _ w => w = v := by
  cases hook? with
  | none => exact always_pure _ rfl
  | some hook => exact yields_update_of_outline (outline_dropHook hook)

theorem yields_dispose (hid : id < v.count) :
    Yields seating me (dispose id) v fun _ w => w = v.modify id .dispose := by
  refine Yields.bind (yields_markDisposed hid) ?_
  rintro hook? w rfl
  refine Yields.bind (yields_dropHook? hook?) ?_
  rintro _ w rfl
  refine Yields.bind (yields_update_of_outline outline_cancelJobs) ?_
  rintro _ w rfl
  refine Yields.bind (yields_update_of_outline outline_dropTasks) ?_
  rintro _ w rfl
  refine Yields.bind (yields_setCurrent (by exact hid) false) ?_
  rintro _ w rfl
  refine Yields.mono (yields_release (by exact hid)) ?_
  rintro _ w rfl
  simp only [Seating.modify_modify]
  rfl

theorem yields_recordCode (hid : id < v.count) (code : Int) :
    Yields seating me (recordCode id code).run v fun r w =>
      (∃ e, r = .error e) ∧ w = v ∧ ((v.seat id).disposed = true ∨ (v.seat id).exited = true) ∨
      (∃ hook?, r = .ok hook?) ∧ w = v.modify id .exit :=
  yields_step fun s hs => by
    subst hs
    dsimp only
    split
    · next hended =>
      refine .inl ⟨⟨_, rfl⟩, rfl, ?_⟩
      rw [seat_seating hid]
      exact hended
    · exact .inr ⟨⟨_, rfl⟩, seating_modifySession hid rfl⟩

theorem yields_loseFocus (hid : id < v.count) :
    Yields seating me (loseFocus id) v fun wasCurrent w =>
      wasCurrent = (v.seat id).current ∧ w = v.modify id (.setCurrent false) :=
  yields_step fun s hs => by
    subst hs
    exact ⟨by rw [seat_seating hid]; rfl, seating_modifySession hid rfl⟩

theorem yields_leaveRegistry :
    Yields seating me (leaveRegistry id) v fun removal w =>
      removal = (v.registry.remove id).1 ∧ w = { v with registry := v.registry.erase id } :=
  yields_step fun s hs => by
    subst hs
    refine ⟨rfl, ?_⟩
    dsimp only [seating]
    rw [Registry.remove_snd]

end Shell

end SessionShell
