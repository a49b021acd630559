import SessionShell.Proofs.ParentHook.Passage

/-!
What each deed guarantees, whatever the others do.

A thread has nothing in hand before a deed and behind it. In between it may have the hook: from the
step that records the child's code to the one that hands it over, and from the step that takes it
off the tasks to the call. Nobody else touches it then.
-/

namespace SessionShell

open Action Shell

namespace Action

variable {σ α β ε : Type} {rely guar : σ → σ → Prop} {me : ThreadId} {P P' Q : σ → Prop}

/-- What holds between the two, however the first has come to its end, is enough for the second. -/
theorem Upholds.andThen {p : Action σ α} {f : α → Action σ β} (hrefl : ∀ s, rely s s)
    (hp : Upholds rely guar me P p fun _ => P') (hf : ∀ a, Upholds rely guar me P' (f a) fun _ => Q)
    (hcrash : ∀ s, P' s → Q s) : Upholds rely guar me P (p >>= f) fun _ => Q :=
  fun s hs => (hp s hs).bind_fate hrefl (fun a s' hs' => hf a s' hs') hcrash

theorem Upholds.run_andThen {p : ExceptT ε (Action σ) α} {f : α → ExceptT ε (Action σ) β}
    (hrefl : ∀ s, rely s s) (hQ : Stable rely Q) (hp : Upholds rely guar me P p.run fun _ => Q)
    (hf : ∀ a, Upholds rely guar me Q (f a).run fun _ => Q) :
    Upholds rely guar me P (p >>= f).run fun _ => Q :=
  Upholds.andThen hrefl hp (fun r => by
    cases r with
    | ok a => exact hf a
    | error e => exact upholds_pure _ hQ fun _ h => h) fun _ h => h

theorem Upholds.lift_andThen {p : Action σ α} {f : α → ExceptT ε (Action σ) β}
    (hrefl : ∀ s, rely s s) (hp : Upholds rely guar me P p fun _ => P')
    (hf : ∀ a, Upholds rely guar me P' (f a).run fun _ => Q) (hcrash : ∀ s, P' s → Q s) :
    Upholds rely guar me P ((liftM p : ExceptT ε (Action σ) α) >>= f).run fun _ => Q := by
  rw [run_lift_bind]
  exact Upholds.andThen hrefl hp hf hcrash

theorem Upholds.lift {p : Action σ α} (hrefl : ∀ s, rely s s) (hQ : Stable rely Q)
    (hp : Upholds rely guar me P p fun _ => Q) :
    Upholds rely guar me P (ExceptT.lift p : ExceptT ε (Action σ) α).run fun _ => Q :=
  hp.andThen hrefl (fun _ => upholds_pure _ hQ fun _ h => h) fun _ h => h

theorem Upholds.weaken {p : Action σ α} (h : Upholds rely guar me P p fun _ => P')
    (hQ : ∀ s, P' s → Q s) : Upholds rely guar me P p fun _ => Q :=
  fun s hs => (h s hs).mono fun _ s' => hQ s'

end Action

namespace ParentHook

variable {k : ParentHook} {i : Nat} {me : ThreadId} {code : Int} {α : Type} {γ γ' : Shell × Passage}

abbrev Rely (k : ParentHook) (i : Nat) : Shell × Passage → Shell × Passage → Prop :=
  k.Change (· ≠ i)

abbrev Guarantee (k : ParentHook) (i : Nat) : Shell × Passage → Shell × Passage → Prop :=
  k.Change (· = i)

def At (k : ParentHook) (F : Passage → Prop) (γ : Shell × Passage) : Prop :=
  k.Inv γ ∧ F γ.2

/-! ## What a thread knows of the record -/

def Free (i : Nat) (r : Passage) : Prop :=
  r.holder.thread? ≠ some i

def Holds (i : Nat) (code : Int) (r : Passage) : Prop :=
  r.holder = .ender i code

def HoldsInTime (i : Nat) (code : Int) (r : Passage) : Prop :=
  r.holder = .ender i code ∧ r.late = false

def Over (i : Nat) (r : Passage) : Prop :=
  Free i r ∧ r.holder.isHandedOver = true

def Took (k : ParentHook) (i : Nat) (task? : Option Task) (r : Passage) : Prop :=
  Free i r ∨ ∃ code, r.holder = .server i code ∧ task? = some (.runHook k.hook code)

def Lasting (k : ParentHook) (i : Nat) (F : Passage → Prop) : Prop :=
  ∀ γ γ', k.Rely i γ γ' → F γ.2 → F γ'.2

theorem stable_at {F : Passage → Prop} (hF : k.Lasting i F) : Stable (k.Rely i) (k.At F) :=
  fun γ γ' hγ hr => ⟨hr.inv hγ.1, hF γ γ' hr hγ.2⟩

theorem lasting_free : k.Lasting i (Free i) :=
  fun _ _ hr hfree hi => hfree (hr.fresh i hi fun hne => hne rfl)

theorem Lasting.of_hand {F : Passage → Prop} (h : ∀ r, F r → r.holder.thread? = some i) :
    k.Lasting i F := by
  intro γ γ' hr hF
  rw [hr.kept i (h γ.2 hF) fun hne => hne rfl]
  exact hF

theorem lasting_holds : k.Lasting i (Holds i code) :=
  .of_hand fun r hr => by rw [hr]; rfl

theorem lasting_holdsInTime : k.Lasting i (HoldsInTime i code) :=
  .of_hand fun r hr => by rw [hr.1]; rfl

theorem lasting_over : k.Lasting i (Over i) :=
  fun γ γ' hr hover => ⟨lasting_free γ γ' hr hover.1, hr.handedOver hover.2⟩

theorem lasting_took (task? : Option Task) : k.Lasting i (k.Took i task?) := by
  rintro γ γ' hr (hfree | ⟨code, hserver, htask⟩)
  · exact .inl (lasting_free γ γ' hr hfree)
  · have hsame := hr.kept i (by rw [hserver]; rfl) fun hne => hne rfl
    exact .inr ⟨code, hsame ▸ hserver, htask⟩

theorem upholds_silent {P : Shell × Passage → Prop} {p : Action Shell α} (hP : Stable (k.Rely i) P)
    (hsame : ∀ s r s', P (s, r) → k.Aside s s' → P (s', r)) (hp : Within k.Aside p) :
    Upholds (k.Rely i) (k.Guarantee i) me P (silent p) fun _ => P := by
  have hlasts : Lasts .idle (k.Rely i) (k.Guarantee i) me P p fun _ => True :=
    lasts_of_within hP (fun s r s' hs haside => ⟨.of_aside haside, hsame s r s' hs haside⟩) hp
  rw [Observer.silent_eq_observe]
  exact fun γ hγ => (hlasts.upholds γ hγ).mono fun _ _ h => h.1

theorem upholds_aside {F : Passage → Prop} {p : Action Shell α} (hF : k.Lasting i F)
    (hp : Within k.Aside p) :
    Upholds (k.Rely i) (k.Guarantee i) me (k.At F) (silent p) fun _ => k.At F :=
  upholds_silent (stable_at hF) (fun _ _ _ hs haside => ⟨hs.1.of_aside haside, hs.2⟩) hp

theorem upholds_plain {F : Passage → Prop} {p : Action Shell α} (hF : k.Lasting i F)
    (hp : Within Plain p) :
    Upholds (k.Rely i) (k.Guarantee i) me (k.At F) (silent p) fun _ => k.At F :=
  upholds_aside hF (aside_of_plain hp)

theorem upholds_done {F : Passage → Prop} (hF : k.Lasting i F) (a : α) :
    Upholds (k.Rely i) (k.Guarantee i) me (k.At F) (pure a) fun _ => k.At F :=
  upholds_pure a (stable_at hF) fun _ hγ => hγ

theorem at_of_step {s s' : Shell} {r r' : Passage} {F : Passage → Prop} (hinv : k.Inv (s, r))
    (hstep : Passage.Step (· = i) (s.session k.parent).disposed r r')
    (hsize : s'.sessions.size = s.sessions.size)
    (hdisposed : (s.session k.parent).disposed = true → (s'.session k.parent).disposed = true)
    (hfits : k.Fits s' r') (hF : F r') : k.Guarantee i (s, r) (s', r') ∧ k.At F (s', r') := by
  have hinv' : k.Inv (s', r') := ⟨hsize.symm ▸ hinv.parent, hsize.symm ▸ hinv.child, hfits⟩
  exact ⟨.of_step hstep (fun _ => hdisposed) fun _ => hinv', hinv', hF⟩

/-! ## The end of the child -/

theorem upholds_recordCode (code : Int) :
    Upholds (k.Rely i) (k.Guarantee i) me (k.At (Free i))
      (noted (k.noteCode i code) (recordCode k.child code).run)
      (Fate.Returns fun r γ =>
        match r with
        | .ok hook? => hook? = some k.childHook ∧ k.At (Holds i code) γ
        | .error _ => k.At (Free i) γ) := by
  refine upholds_step (stable_at lasting_free) (fun r => ?_) ?_
  · cases r with
    | ok hook? => exact fun γ γ' hγ hr => ⟨hγ.1, stable_at lasting_holds γ γ' hγ.2 hr⟩
    | error e => exact stable_at lasting_free
  rintro ⟨s, ⟨holder, late, calls⟩⟩ hγ
  by_cases hended : (s.session k.child).disposed = true ∨ (s.session k.child).exitCode.isSome = true
  · simp only [hended, if_true]
    exact ⟨Change.refl _, hγ⟩
  · simp only [hended, if_false]
    push Not at hended
    have hfits := hγ.1.fits
    -- As nobody has recorded a code, the child still has the hook.
    cases holder with
    | child =>
      have hhook : (s.session k.child).exitHook = some k.childHook :=
        congrArg ExitState.exitHook hfits.1
      let f : Session → Session := fun session =>
        { session with exitCode := some code, exitHook := none }
      have hsame : (modifySession k.child f s).session k.parent = s.session k.parent :=
        session_modifySession_of_ne f k.apart.symm
      have hself : (modifySession k.child f s).session k.child = f (s.session k.child) :=
        session_modifySession_self f hγ.1.child
      have hlive : (f (s.session k.child)).disposed = false := by simpa using hended.1
      obtain ⟨hguar, hholds⟩ :=
        @at_of_step k i s (modifySession k.child f s) _ _ (Holds i code) hγ.1
        (.ended rfl) (size_modifySession f) (fun hd => by rwa [hsame])
        ⟨by rw [hself], by rw [hself, hlive], hfits.2, fun hl => by rwa [hsame]⟩ rfl
      exact ⟨hguar, hhook, hholds⟩
    | ender who other | queue ahead other | server who other | called other | dropped other =>
      have hcode : (s.session k.child).exitCode = some other := hfits.1
      exact absurd (by rw [hcode]; rfl) hended.2

theorem run_ensureLive (id : SessionId) :
    (ensureLive id).run = getSession id >>= fun session =>
      pure (if session.isLive then .ok () else .error (.hasExited session.name)) := by
  rw [ensureLive, run_lift_bind]
  congr
  funext session
  cases session.isLive <;> rfl

theorem upholds_ensureLive :
    Upholds (k.Rely i) (k.Guarantee i) me (k.At (Holds i code)) (silent (ensureLive k.parent).run)
      (Fate.Returns fun r γ =>
        match r with
        | .ok () => k.At (HoldsInTime i code) γ
        | .error _ => k.At (Holds i code) γ) := by
  have hlasting : ∀ session : Session, k.Lasting i fun r =>
      Holds i code r ∧ (session.isLive = true → r.late = false) :=
    fun _ => .of_hand fun r hr => by rw [hr.1]; rfl
  have hread : Upholds (k.Rely i) (k.Guarantee i) me (k.At (Holds i code))
      (silent (getSession k.parent)) (Fate.Returns fun session => k.At fun r =>
        Holds i code r ∧ (session.isLive = true → r.late = false)) := by
    refine upholds_step (stable_at lasting_holds) (fun session => stable_at (hlasting session))
      fun γ hγ => ⟨Change.refl γ, hγ.1, hγ.2, fun hlive => ?_⟩
    have hfits := hγ.1.fits
    rw [Fits, hγ.2] at hfits
    by_contra hlate
    have hgone := hfits.2.2.2 (by simpa using hlate)
    simp [Session.isLive, hgone] at hlive
  rw [run_ensureLive, silent_bind]
  refine Upholds.bind hread Change.refl fun session =>
    upholds_pure _ (stable_at (hlasting session)) fun γ hγ => ?_
  cases hlive : session.isLive with
  | true => exact ⟨hγ.1, hγ.2.1, hγ.2.2 hlive⟩
  | false => exact ⟨hγ.1, hγ.2.1⟩

theorem upholds_given : Upholds (k.Rely i) (k.Guarantee i) me (k.At (HoldsInTime i code))
    (noted (k.noteGiven code) (updateSession k.parent fun session =>
      { session with tasks := session.tasks ++ [.runHook k.hook code] }))
    (Fate.Returns fun _ => k.At (Over i)) := by
  refine upholds_step (stable_at lasting_holdsInTime) (fun _ => stable_at lasting_over) ?_
  rintro ⟨s, ⟨holder, late, calls⟩⟩ ⟨hinv, rfl, rfl⟩
  obtain ⟨hcode, -, hcalls, -⟩ := hinv.fits
  let f : Session → Session := fun session =>
    { session with tasks := session.tasks ++ [.runHook k.hook code] }
  have hself : (modifySession k.parent f s).session k.parent = f (s.session k.parent) :=
    session_modifySession_self f hinv.parent
  have hsame : (modifySession k.parent f s).session k.child = s.session k.child :=
    session_modifySession_of_ne f k.apart
  refine at_of_step hinv (.given rfl) (size_modifySession f) (fun hd => by rw [hself]; exact hd)
    ⟨by rwa [hsame], hcalls, rfl, ?_⟩ ⟨nofun, rfl⟩
  rw [hself]
  simp [f]

theorem upholds_giveTold :
    Upholds (k.Rely i) (k.Guarantee i) me (k.At (Holds i code)) (k.giveTold code).run
      (Fate.Returns fun r γ =>
        match r with
        | .ok () => k.At (Over i) γ
        | .error _ => k.At (Holds i code) γ) := by
  refine Upholds.run_bind upholds_ensureLive Change.refl (fun _ => ?_) fun e =>
    upholds_pure _ (stable_at lasting_holds) fun γ hγ => hγ
  exact Upholds.bind upholds_given Change.refl fun _ =>
    upholds_pure _ (stable_at lasting_over) fun γ hγ => hγ

theorem upholds_call : Upholds (k.Rely i) (k.Guarantee i) me (k.At (Holds i code))
    (record (Passage.call code)) (Fate.Returns fun _ => k.At (Over i)) := by
  refine upholds_step (stable_at lasting_holds) (fun _ => stable_at lasting_over) ?_
  rintro ⟨s, ⟨holder, late, calls⟩⟩ ⟨hinv, rfl⟩
  obtain ⟨hcode, -, rfl, -⟩ := hinv.fits
  exact at_of_step hinv (.refused rfl) rfl id ⟨hcode, rfl⟩ ⟨nofun, rfl⟩

theorem upholds_handOver : Upholds (k.Rely i) (k.Guarantee i) me (k.At (Holds i code))
    (k.handOver code) fun _ => k.At (Over i) := by
  refine Upholds.bind upholds_giveTold Change.refl fun r => ?_
  cases r with
  | ok => exact upholds_done lasting_over ()
  | error e =>
    exact Upholds.bind upholds_call Change.refl fun _ =>
      upholds_aside lasting_over (aside_runHook code k.hook)

theorem upholds_leaveTold (handsOn : Bool) :
    Upholds (k.Rely i) (k.Guarantee i) me (k.At (Holds i code))
      (k.leaveTold code (some k.childHook) handsOn) fun _ => k.At (Over i) := by
  rw [leaveTold, if_pos rfl]
  have hattempt : Upholds (k.Rely i) (k.Guarantee i) me (k.At (Holds i code))
      (Program.attempt (k.handOver code)) fun _ => k.At (Over i) :=
    fun γ hγ => (upholds_handOver γ hγ).attempt (fun _ _ h => h) fun _ h => h
  exact (hattempt.andThen Change.refl (fun _ => upholds_done lasting_over ()) fun _ h => h).andThen
    Change.refl (fun _ => upholds_aside lasting_over (aside_leave none handsOn)) fun _ h => h

theorem upholds_markDisposed : Upholds (k.Rely i) (k.Guarantee i) me (k.At (Over i))
    (silent (markDisposed k.child)) (Fate.Returns fun _ => k.At (Over i)) := by
  refine upholds_step (stable_at lasting_over) (fun _ => stable_at lasting_over) ?_
  rintro ⟨s, r⟩ ⟨hinv, hover⟩
  let cancelled := (s.session k.child).compiling.elim s fun job => cancelJob job s
  have hplain : Plain s cancelled := plain_cancelled k.child s
  have hself : (modifySession k.child marked cancelled).session k.child =
      marked (cancelled.session k.child) :=
    session_modifySession_self marked (hplain.size ▸ hinv.child)
  have hsame : (modifySession k.child marked cancelled).session k.parent =
      cancelled.session k.parent :=
    session_modifySession_of_ne marked k.apart.symm
  have hcode : ((modifySession k.child marked cancelled).session k.child).exitCode =
      (s.session k.child).exitCode := by
    rw [hself]
    exact congrArg ExitState.exitCode (exitState_of_plain hplain k.child)
  have htasks : ((modifySession k.child marked cancelled).session k.parent).tasks =
      (s.session k.parent).tasks := by
    rw [hsame, tasks_of_plain hplain]
  have hdisposed : (s.session k.parent).disposed = true →
      ((modifySession k.child marked cancelled).session k.parent).disposed = true := by
    rw [hsame, disposed_of_plain hplain]
    exact id
  exact at_of_step hinv (.same r) ((size_modifySession marked).trans hplain.size) hdisposed
    (hinv.fits.of_handedOver hover.2 hcode hdisposed htasks) hover

theorem upholds_disposeChild : Upholds (k.Rely i) (k.Guarantee i) me (k.At (Over i))
    (silent (dispose k.child)) fun _ => k.At (Over i) := by
  rw [dispose, silent_bind]
  exact Upholds.bind upholds_markDisposed Change.refl fun hook? =>
    upholds_aside lasting_over (aside_dropped k.apart hook?)

theorem upholds_endChildTold (code : Int) (handsOn : Bool) :
    Upholds (k.Rely i) (k.Guarantee i) me (k.At (Free i)) (k.endChildTold i code handsOn).run
      fun _ => k.At (Free i) := by
  have hover : ∀ γ, k.At (Over i) γ → k.At (Free i) γ := fun γ hγ => ⟨hγ.1, hγ.2.1⟩
  refine Upholds.run_bind (upholds_recordCode code) Change.refl (fun hook? => ?_) fun e =>
    upholds_done lasting_free _
  rintro γ ⟨rfl, hγ⟩
  refine Upholds.lift_andThen Change.refl (upholds_leaveTold handsOn) (fun wasLast => ?_) hover γ hγ
  refine Upholds.lift_andThen Change.refl upholds_disposeChild (fun _ => ?_) hover
  refine Upholds.weaken ?_ hover
  cases wasLast with
  | true =>
    exact Upholds.lift Change.refl (stable_at lasting_over)
      (upholds_plain lasting_over (plain_terminate code))
  | false => exact upholds_done lasting_over _

/-! ## The end of the parent -/

def FreeBehind (k : ParentHook) (i : Nat) (γ : Shell × Passage) : Prop :=
  k.At (Free i) γ ∧ (γ.1.session k.parent).disposed = true

theorem stable_freeBehind : Stable (k.Rely i) (k.FreeBehind i) :=
  fun γ γ' hγ hr => ⟨stable_at lasting_free γ γ' hγ.1 hr, hr.disposed hγ.1.1 hγ.2⟩

theorem upholds_behind {p : Action Shell α} (hp : Within k.Aside p) :
    Upholds (k.Rely i) (k.Guarantee i) me (k.FreeBehind i) (silent p) fun _ => k.FreeBehind i := by
  refine upholds_silent stable_freeBehind (fun s r s' hs haside => ?_) hp
  exact ⟨⟨hs.1.1.of_aside haside, hs.1.2⟩, haside.disposed hs.1.1.parent hs.2⟩

theorem upholds_markParent : Upholds (k.Rely i) (k.Guarantee i) me (k.At (Free i))
    (silent (markDisposed k.parent)) (Fate.Returns fun _ => k.FreeBehind i) := by
  refine upholds_step (stable_at lasting_free) (fun _ => stable_freeBehind) ?_
  rintro ⟨s, r⟩ ⟨hinv, hfree⟩
  let cancelled := (s.session k.parent).compiling.elim s fun job => cancelJob job s
  have haside : k.Aside s (modifySession k.parent marked cancelled) := aside_marked k.apart.symm s
  have hsize : k.parent < cancelled.sessions.size := (plain_cancelled k.parent s).size ▸ hinv.parent
  have hgone : ((modifySession k.parent marked cancelled).session k.parent).disposed = true := by
    rw [session_modifySession_self marked hsize]
    rfl
  exact ⟨.of_aside haside, ⟨hinv.of_aside haside, hfree⟩, hgone⟩

theorem upholds_dropTasks : Upholds (k.Rely i) (k.Guarantee i) me (k.FreeBehind i)
    (noted noteDropped (dropTasks k.parent)) (Fate.Returns fun _ => k.At (Free i)) := by
  refine upholds_step stable_freeBehind (fun _ => stable_at lasting_free) ?_
  rintro ⟨s, ⟨holder, late, calls⟩⟩ ⟨⟨hinv, hfree⟩, hgone⟩
  have hfits := hinv.fits
  let emptied := (s.session k.parent).tasks.foldl (fun s task => Task.drop task s) s
  let f : Session → Session := fun session => { session with tasks := [] }
  have hplain : Plain s emptied := plain_droppedTasks k.parent s
  have hself : (modifySession k.parent f emptied).session k.parent = f (emptied.session k.parent) :=
    session_modifySession_self f (hplain.size ▸ hinv.parent)
  have hsame : (modifySession k.parent f emptied).session k.child = emptied.session k.child :=
    session_modifySession_of_ne f k.apart
  have hstate : ((modifySession k.parent f emptied).session k.child).exitState =
      (s.session k.child).exitState := by
    rw [hsame, exitState_of_plain hplain]
  have hdisposed : (s.session k.parent).disposed = true →
      ((modifySession k.parent f emptied).session k.parent).disposed = true := by
    rw [hself]
    exact (disposed_of_plain hplain k.parent).trans
  have hsize : (modifySession k.parent f emptied).sessions.size = s.sessions.size :=
    (size_modifySession f).trans hplain.size
  cases holder with
  | queue ahead code =>
    exact at_of_step hinv .dropped hsize hdisposed
      ⟨(congrArg ExitState.exitCode hstate).trans hfits.1, hfits.2.1, hfits.2.2.1, hdisposed hgone⟩
      nofun
  | child | ender | server | called | dropped =>
    exact at_of_step hinv (.same _) hsize hdisposed
      (hfits.of_same hstate hdisposed fun _ _ h => Holder.noConfusion h) hfree

theorem upholds_disposeTold : Upholds (k.Rely i) (k.Guarantee i) me (k.At (Free i)) k.disposeTold
    fun _ => k.At (Free i) := by
  have hfree : ∀ γ, k.FreeBehind i γ → k.At (Free i) γ := fun _ h => h.1
  refine Upholds.bind upholds_markParent Change.refl fun hook? => ?_
  refine (upholds_behind (aside_of_plain (plain_dropHook? hook?))).andThen Change.refl
    (fun _ => ?_) hfree
  refine (upholds_behind (aside_of_plain chore_cancelJobs)).andThen Change.refl (fun _ => ?_) hfree
  refine Upholds.bind upholds_dropTasks Change.refl fun _ => ?_
  exact (upholds_plain lasting_free (chore_setCurrent false)).andThen Change.refl
    (fun _ => upholds_plain lasting_free chore_release) fun _ h => h

theorem upholds_endParentTold (code : Int) (removes handsOn : Bool) :
    Upholds (k.Rely i) (k.Guarantee i) me (k.At (Free i))
      (k.endParentTold code removes handsOn).run fun _ => k.At (Free i) := by
  have hstable : Stable (k.Rely i) (k.At (Free i)) := stable_at lasting_free
  refine Upholds.run_andThen Change.refl hstable
    (upholds_aside lasting_free (aside_recordCode k.apart.symm)) fun hook? => ?_
  cases removes with
  | true =>
    refine Upholds.lift_andThen Change.refl (upholds_aside lasting_free (aside_leave hook? handsOn))
      (fun wasLast => ?_) fun _ h => h
    refine Upholds.lift_andThen Change.refl upholds_disposeTold (fun _ => ?_) fun _ h => h
    cases wasLast with
    | true =>
      exact Upholds.lift Change.refl hstable (upholds_plain lasting_free (plain_terminate code))
    | false => exact upholds_done lasting_free _
  | false =>
    exact Upholds.lift_andThen Change.refl upholds_disposeTold
      (fun _ => Upholds.lift Change.refl hstable
      (upholds_plain lasting_free (plain_dropHook? hook?))) fun _ h => h

/-! ## The tasks of the parent -/

theorem upholds_takeTask : Upholds (k.Rely i) (k.Guarantee i) me (k.At (Free i))
    (noted (noteTaken i) (takeTask k.parent))
    (Fate.Returns fun task? => k.At (k.Took i task?)) := by
  refine upholds_step (stable_at lasting_free) (fun task? => stable_at (lasting_took task?)) ?_
  rintro ⟨s, ⟨holder, late, calls⟩⟩ hγ
  cases htasks : (s.session k.parent).tasks with
  | nil =>
    simp only [htasks]
    exact ⟨Change.refl _, hγ.1, .inl hγ.2⟩
  | cons task tasks =>
    simp only [htasks]
    obtain ⟨hinv, hfree⟩ := hγ
    have hfits := hinv.fits
    let f : Session → Session := fun session => { session with tasks }
    have hself : (modifySession k.parent f s).session k.parent = f (s.session k.parent) :=
      session_modifySession_self f hinv.parent
    have hsame : (modifySession k.parent f s).session k.child = s.session k.child :=
      session_modifySession_of_ne f k.apart
    have hdisposed : (s.session k.parent).disposed = true →
        ((modifySession k.parent f s).session k.parent).disposed = true := by
      rw [hself]
      exact id
    cases holder with
    | queue ahead code =>
      obtain ⟨hcode, hcalls, hlate, htask⟩ := hfits
      rw [htasks] at htask
      cases ahead with
      | zero =>
        exact at_of_step hinv (.taken rfl) (size_modifySession f) hdisposed
          ⟨by rwa [hsame], hcalls, hlate⟩ (.inr ⟨code, rfl, htask⟩)
      | succ ahead =>
        exact at_of_step hinv .ahead (size_modifySession f) hdisposed
          ⟨by rwa [hsame], hcalls, hlate, by rw [hself]; exact htask⟩ (.inl nofun)
    | child | ender | server | called | dropped =>
      exact at_of_step hinv (.same _) (size_modifySession f) hdisposed
        (hfits.of_same (by rw [hsame]) hdisposed fun _ _ h => Holder.noConfusion h) (.inl hfree)

theorem upholds_serve (task : Task) : Upholds (k.Rely i) (k.Guarantee i) me
    (k.At (k.Took i (some task))) (record (Passage.serve i))
    (Fate.Returns fun _ => k.At (Free i)) := by
  refine upholds_step (stable_at (lasting_took _)) (fun _ => stable_at lasting_free) ?_
  rintro ⟨s, ⟨holder, late, calls⟩⟩ ⟨hinv, hfree | ⟨code, rfl, -⟩⟩
  · have hsame : Passage.serve i ⟨holder, late, calls⟩ = ⟨holder, late, calls⟩ := by
      cases holder with
      | server who code => exact if_neg fun h => hfree (congrArg some h)
      | child | ender | queue | called | dropped => rfl
    dsimp only
    rw [hsame]
    exact ⟨Change.refl _, hinv, hfree⟩
  · obtain ⟨hcode, rfl, -⟩ := hinv.fits
    have hcalled : Passage.serve i ⟨.server i code, late, []⟩ = ⟨.called code, late, [code]⟩ :=
      if_pos rfl
    dsimp only
    rw [hcalled]
    exact at_of_step hinv (.served rfl) rfl id ⟨hcode, rfl⟩ nofun

theorem aside_runHookTask (id : SessionId) (code : Int) (hook : ExitHook) :
    Within k.Aside (runTask id (.runHook hook code)) := by
  have hperform : Within k.Aside (Shell.perform id (.runHook hook code)).run :=
    Within.run_bind (Within.lift (aside_runHook code hook)) fun _ => within_pure _
  have hreport : ∀ fault, Within k.Aside (do
      if ← isLive id then reportError fault
      return (none : Option (Option String))) := fun fault =>
    Within.bind (aside_of_plain (chore_read _)) fun live => by
      cases live with
      | true => exact Within.bind (aside_of_plain (chore_reportError fault)) fun _ => within_pure _
      | false => exact within_pure _
  refine Within.bind (Within.bind hperform.attempt fun r => ?_) fun result =>
    aside_of_plain (chore_sayResult result)
  rcases r with _ | _ | _
  · exact hreport _
  · exact hreport _
  · exact within_pure _

theorem upholds_serveTold : Upholds (k.Rely i) (k.Guarantee i) me (k.At (Free i)) (k.serveTold i)
    fun _ => k.At (Free i) := by
  refine Upholds.bind upholds_takeTask Change.refl fun task? => ?_
  split
  · next hook code =>
    exact Upholds.bind (upholds_serve _) Change.refl fun _ =>
      (upholds_aside lasting_free (aside_runHookTask k.parent code hook)).andThen Change.refl
        (fun _ => upholds_done lasting_free _) fun _ h => h
  · next hother =>
    refine upholds_pure _ (stable_at (lasting_took task?)) ?_
    rintro γ ⟨hinv, hfree | ⟨code, -, htask⟩⟩
    · exact ⟨hinv, hfree⟩
    · exact absurd htask (hother _ _)

/-! ## Scripts -/

theorem Deed.upholds_told (d : k.Deed) : Upholds (k.Rely i) (k.Guarantee i) me (k.At (Free i))
    (d.told i) fun _ => k.At (Free i) := by
  cases d with
  | endChild code handsOn => exact upholds_endChildTold code handsOn
  | endParent code removes handsOn => exact upholds_endParentTold code removes handsOn
  | serve => exact upholds_serveTold
  | aside act h => exact upholds_aside lasting_free h

/-- Between two deeds a thread has nothing in hand, and so it is at the end, however that comes. -/
theorem upholds_script (p : k.Script) : Upholds (k.Rely i) (k.Guarantee i) me (k.At (Free i))
    (p.expand (Deed.told i)) fun _ => k.At (Free i) := by
  induction p with
  | done a => exact upholds_done lasting_free a
  | crash => exact fun γ hγ γ' hr => stable_at lasting_free γ γ' hγ hr
  | ask d next ih => exact d.upholds_told.andThen Change.refl ih fun _ h => h

end ParentHook

end SessionShell
