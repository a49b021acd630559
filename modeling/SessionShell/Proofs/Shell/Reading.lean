import SessionShell.Proofs.Action.Run
import SessionShell.Shell.Basic

/-!
What can be read of a shell of which one session was changed, and of a session that is alive.
-/

namespace SessionShell.Shell

open SessionShell.Action

variable {s : Shell} {id other : SessionId}

theorem session_of_size_le (h : s.sessions.size ≤ id) : s.session id = default := by
  simp [session, h]

theorem size_modifySession (f : Session → Session) :
    (modifySession id f s).sessions.size = s.sessions.size := by
  simp [modifySession]

theorem session_modifySession_self (f : Session → Session) (h : id < s.sessions.size) :
    (modifySession id f s).session id = f (s.session id) := by
  simp [session, modifySession, h, Array.getElem_modify_self]

theorem session_modifySession_of_ne (f : Session → Session) (h : other ≠ id) :
    (modifySession id f s).session other = s.session other := by
  simp [session, modifySession, Array.getElem?_modify, h.symm]

theorem read_modifySession {ω : Type} {read : Session → ω} {f : Session → Session}
    (h : ∀ session, read (f session) = read session) :
    read ((modifySession id f s).session other) = read (s.session other) := by
  by_cases ho : other = id
  · subst ho
    rcases Nat.lt_or_ge other s.sessions.size with hlt | hge
    · rw [session_modifySession_self f hlt, h]
    · rw [session_of_size_le hge, session_of_size_le (by rwa [size_modifySession])]
  · rw [session_modifySession_of_ne f ho]

theorem runAlone?_ensureLive (h : (s.session id).isLive) (me : ThreadId) :
    (ensureLive id).run.runAlone? me s = some (.ok (), s) := by
  refine (runAlone?_bind (a := Except.ok (s.session id)) rfl).trans ?_
  simp only [ExceptT.bindCont, h, if_true]
  rfl

theorem runAlone?_ensureLive_of_exited (h : (s.session id).isLive = false) (me : ThreadId) :
    (ensureLive id).run.runAlone? me s = some (.error (.hasExited (s.session id).name), s) := by
  refine (runAlone?_bind (a := Except.ok (s.session id)) rfl).trans ?_
  simp only [ExceptT.bindCont, h]
  rfl

section Alive

variable {ω : Type} {view : Shell → ω} {x : ω} {me : ThreadId} {stops : Prop}

theorem yields_ensureLive_of_live (hlive : ∀ s, view s = x → (s.session id).disposed = false) :
    Yields view me (ensureLive id).run x fun r y => r = .ok () ∧ y = x := by
  refine Yields.lift_bind (P := fun session y => session.disposed = false ∧ y = x)
    (yields_read fun s hs => ⟨hlive s hs, rfl⟩) ?_
  rintro session _ ⟨hsession, rfl⟩
  simp only [Session.isLive, hsession, Bool.not_false, if_true]
  exact always_pure _ ⟨rfl, rfl⟩

theorem feasible_ensureLive : Feasible view stops (ensureLive id).run := by
  refine Feasible.run_bind (Feasible.lift (feasible_read _)) fun session => ?_
  split
  · exact feasible_pure _
  · exact feasible_pure _

end Alive

end SessionShell.Shell
