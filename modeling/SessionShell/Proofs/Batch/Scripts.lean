import SessionShell.Proofs.Batch.Leaving

/-!
What a child of a batch does from the time when it has its thread, whatever its scripts ask for.

It goes on as it is until it ends itself, and then it is gone. It cannot make a session, nor end
another one.
-/

namespace SessionShell

open Action Shell Batch

namespace BatchSite

variable {b : BatchSite} {c : Child} {γ γ' : Shell × BatchRecord} {s s' : Shell} {r : BatchRecord}
  {stage : Departure} {α β ε : Type}

def Settled (b : BatchSite) (c : Child) (γ : Shell × BatchRecord) : Prop :=
  b.Aboard c .running γ ∨ ∃ code, b.Aboard c (.gone code) γ

theorem stable_settled : Stable (b.ChildRely c) (b.Settled c) := by
  rintro γ γ' (h | ⟨code, h⟩) hr
  · exact .inl (stable_aboard γ γ' h hr)
  · exact .inr ⟨code, stable_aboard γ γ' h hr⟩

theorem Settled.aboard (h : b.Settled c γ) : ∃ stage, b.Aboard c stage γ := by
  rcases h with h | ⟨code, h⟩
  · exact ⟨_, h⟩
  · exact ⟨_, h⟩

abbrev Stays (b : BatchSite) (c : Child) (p : Action Shell α) (Q : α → Prop) : Prop :=
  Lasts b.observer (b.ChildRely c) (b.ChildGuar c) c.thread (b.Settled c) p Q

section Combinators

variable {Q : α → Prop} {R : β → Prop}

theorem stays_pure {a : α} (h : Q a) : b.Stays c (pure a) Q :=
  lasts_pure stable_settled h

theorem stays_crash : b.Stays c .crash Q :=
  lasts_crash stable_settled

theorem Stays.bind {p : Action Shell α} {f : α → Action Shell β} (hp : b.Stays c p Q)
    (hf : ∀ a, Q a → b.Stays c (f a) R) : b.Stays c (p >>= f) R :=
  Lasts.bind (.refl c) hp hf

theorem Stays.discard {p : Action Shell α} (hp : b.Stays c p Q) :
    b.Stays c (Functor.discard p) fun _ => True :=
  Lasts.discard stable_settled (.refl c) hp

theorem Stays.run_bind {p : ExceptT ε (Action Shell) α} {f : α → ExceptT ε (Action Shell) β}
    {Q : Except ε α → Prop} (hp : b.Stays c p.run Q)
    (hf : ∀ a, Q (.ok a) → b.Stays c (f a).run fun _ => True) :
    b.Stays c (p >>= f).run fun _ => True :=
  Lasts.run_bind stable_settled (.refl c) hp hf fun _ _ => trivial

theorem Stays.lift_bind {p : Action Shell α} {f : α → ExceptT ε (Action Shell) β}
    (hp : b.Stays c p Q) (hf : ∀ a, Q a → b.Stays c (f a).run fun _ => True) :
    b.Stays c ((liftM p : ExceptT ε (Action Shell) α) >>= f).run fun _ => True :=
  Lasts.lift_bind (.refl c) hp hf

theorem stays_of_still {p : Action Shell α} (hp : Within Still p) : b.Stays c p fun _ => True := by
  refine lasts_of_within stable_settled (fun s r s' h hstill => ?_) hp
  rcases h with h | ⟨code, h⟩
  · obtain ⟨hguar, h'⟩ := h.still c.thread hstill
    exact ⟨hguar, .inl h'⟩
  · obtain ⟨hguar, h'⟩ := h.still c.thread hstill
    exact ⟨hguar, .inr ⟨code, h'⟩⟩

theorem stays_learning {f : Shell → α × Shell} (hstill : ∀ s, Still s (f s).2)
    (h : ∀ s r, b.Settled c (s, r) → Q (f s).1) : b.Stays c (step f) Q := by
  refine lasts_step stable_settled fun s r hs => ?_
  have hQ := h s r hs
  rcases hs with hs | ⟨code, hs⟩
  · obtain ⟨hguar, hs'⟩ := hs.still c.thread (hstill s)
    exact ⟨hguar, .inl hs', hQ⟩
  · obtain ⟨hguar, hs'⟩ := hs.still c.thread (hstill s)
    exact ⟨hguar, .inr ⟨code, hs'⟩, hQ⟩

end Combinators

/-! ## Ends of sessions -/

theorem upholds_recordCode_gone {code : Int} (code' : Int) :
    Upholds (b.ChildRely c) (b.ChildGuar c) c.thread (b.Aboard c (.gone code))
      (b.observe (recordCode c.session code').run)
      (Fate.Returns fun hook? γ => (∃ e, hook? = .error e) ∧ b.Aboard c (.gone code) γ) := by
  refine upholds_observe_step stable_aboard (fun _ => stable_aboard_and) fun s r h _ => ?_
  obtain ⟨-, hdisposed, -, -⟩ := Session.Ties.mk.inj h.ties
  have hover : (s.session c.session).disposed = true ∨
      (s.session c.session).exitCode.isSome = true :=
    .inl hdisposed
  dsimp only
  rw [if_pos hover]
  obtain ⟨hguar, h'⟩ := h.still c.thread (Still.refl s)
  exact ⟨hguar, ⟨_, rfl⟩, h'⟩

theorem stays_finish (code : Int) (handsOn : Bool) :
    b.Stays c (finish c.session code true handsOn).run fun _ => True := by
  refine ⟨?_⟩
  rintro γ (h | ⟨code', h⟩)
  · refine (upholds_finish code handsOn γ h).mono fun fate γ' hfate => ?_
    cases fate with
    | returned result => exact ⟨.inr ⟨code, hfate.2⟩, fun _ _ => trivial⟩
    | crashed => exact hfate.elim
    | halted => exact hfate.elim
  · refine Upholds.observe_run_bind (upholds_recordCode_gone code) (.refl c) (fun hook? γ h => ?_)
      (fun e => ?_) γ h
    · obtain ⟨⟨e, he⟩, -⟩ := h
      cases he
    · exact upholds_observe_pure _ stable_aboard_and fun _ h =>
        ⟨.inr ⟨code', h.2⟩, fun _ _ => trivial⟩

theorem stays_exitWith (code : ReservedCode) :
    b.Stays c (exitWith c.session code).run fun _ => True :=
  stays_finish _ true

theorem stays_exit (code : Int) : b.Stays c (exit c.session code).run fun _ => True := by
  refine Stays.run_bind (stays_of_still chore_ensureLive) fun _ _ => ?_
  cases ExitCode.remapWarning? code with
  | none => exact stays_finish _ true
  | some message =>
    exact Stays.lift_bind (stays_of_still (chore_warning message)) fun _ _ => stays_finish _ true

def Others (c : Child) (ids : List SessionId) (γ : Shell × BatchRecord) : Prop :=
  ∀ id ∈ ids, id < γ.1.sessions.size ∧ id ≠ c.session

theorem stable_others_rely (ids : List SessionId) : Stable (b.ChildRely c) (Others c ids) :=
  fun _ _ h hr id hid => ⟨Nat.lt_of_lt_of_le (h id hid).1 hr.size, (h id hid).2⟩

theorem stable_others_guar (ids : List SessionId) : Stable (b.ChildGuar c) (Others c ids) :=
  fun _ _ h hg id hid => ⟨hg.size.symm ▸ (h id hid).1, (h id hid).2⟩

abbrev StaysWith (b : BatchSite) (c : Child) (ids : List SessionId) (p : Action Shell α)
    (Q : α → Prop) : Prop :=
  Lasts b.observer (b.ChildRely c) (b.ChildGuar c) c.thread
    (fun γ => b.Settled c γ ∧ Others c ids γ) p Q

theorem stable_settled_others (ids : List SessionId) :
    Stable (b.ChildRely c) fun γ => b.Settled c γ ∧ Others c ids γ :=
  fun γ γ' h hr => ⟨stable_settled γ γ' h.1 hr, stable_others_rely ids γ γ' h.2 hr⟩

theorem staysWith_finish {ids : List SessionId} {id : SessionId} (hid : id ∈ ids) (code : Int)
    (removes handsOn : Bool) :
    b.StaysWith c ids (finish id code removes handsOn).run fun _ => True := by
  have hrecord : Upholds (b.ChildRely c) (b.ChildGuar c) c.thread
      (fun γ => b.Settled c γ ∧ Others c ids γ) (b.observe (recordCode id code).run)
      (Fate.Returns fun hook? γ => (∃ e, hook? = .error e) ∧ b.Settled c γ ∧ Others c ids γ) := by
    refine upholds_observe_step (stable_settled_others ids)
      (fun hook? γ γ' h hr => ⟨h.1, stable_settled_others ids γ γ' h.2 hr⟩) fun s r h hallowed => ?_
    obtain ⟨hsettled, hothers⟩ := h
    obtain ⟨hlt, hne⟩ := hothers id hid
    dsimp only at hallowed ⊢
    split at hallowed
    · next hover =>
      rw [if_pos hover]
      obtain ⟨stage, haboard⟩ := hsettled.aboard
      have hguar := (haboard.still c.thread (Still.refl s)).1
      have hnotes : b.observer.notes c.thread s s r = r := notes_of_still (Still.refl s)
      exact ⟨hguar, ⟨_, rfl⟩, hnotes.symm ▸ hsettled, hnotes.symm ▸ hothers⟩
    -- Whoever records a code on a thread of its own is the session itself.
    · next hopen =>
      exfalso
      have hpeaceful := of_decide_eq_true hallowed
      obtain ⟨stage, haboard⟩ := hsettled.aboard
      rcases hpeaceful.codes id hlt with hsame | howner
      · rw [session_modifySession_self _ hlt] at hsame
        exact hopen (.inr (hsame ▸ rfl))
      · exact hne (haboard.owned id howner)
  refine ⟨Upholds.observe_run_bind hrecord (.refl c) (fun hook? γ h => ?_) fun e => ?_⟩
  · obtain ⟨⟨e, he⟩, -⟩ := h
    cases he
  · exact upholds_observe_pure _
      (fun γ γ' h hr => ⟨h.1, stable_settled_others ids γ γ' h.2 hr⟩)
      fun γ h => ⟨h.2, fun _ _ => trivial⟩

/-! ## What scripts ask for -/

theorem upholds_othersOf : Upholds (b.ChildRely c) (b.ChildGuar c) c.thread (b.Settled c)
    (b.observe (othersOf c.session))
    (Fate.Returns fun others γ => b.Settled c γ ∧ Others c others γ) := by
  refine upholds_observe_step stable_settled (fun others => stable_settled_others others)
    fun s r h _ => ?_
  obtain ⟨stage, haboard⟩ := h.aboard
  have hguar := (haboard.still c.thread (Still.refl s)).1
  have hnotes : b.observer.notes c.thread s s r = r := notes_of_still (Still.refl s)
  refine ⟨hguar, hnotes.symm ▸ h, fun id hid => ?_⟩
  obtain ⟨hin, hne⟩ := List.mem_filter.mp hid
  exact ⟨haboard.sound.known id (List.mem_reverse.mp hin), of_decide_eq_true hne⟩

theorem staysWith_killOthers {ids others : List SessionId} (h : ∀ id ∈ others, id ∈ ids)
    (code : Int) :
    b.StaysWith c ids
      (others.forM fun other => discard (caught (finish other code true false)) : Checked Unit).run
      fun _ => True := by
  induction others with
  | nil => exact lasts_pure (stable_settled_others ids) trivial
  | cons other others ih =>
    refine Lasts.run_bind (stable_settled_others ids) (.refl c) (Q := fun _ => True) ?_
      (fun _ _ => ih fun id hid => h id (List.mem_cons_of_mem other hid)) fun _ _ => trivial
    have hfinish : b.StaysWith c ids (finish other code true false).run fun _ => True :=
      staysWith_finish (h other List.mem_cons_self) code true false
    refine Lasts.bind (.refl c) (Q := fun _ => True) ?_ fun result _ => ?_
    · exact hfinish.bind (.refl c) fun _ _ => lasts_pure (stable_settled_others ids) trivial
    · cases result <;> exact lasts_pure (stable_settled_others ids) trivial

theorem stays_killAll (code? : Option Int) :
    b.Stays c (killAll c.session code?).run fun _ => True := by
  refine Stays.run_bind (stays_of_still chore_ensureLive) fun _ _ => ?_
  refine ⟨Upholds.observe_lift_bind upholds_othersOf (.refl c) fun others γ hγ => ?_⟩
  have hfinish := (stays_finish (b := b) (c := c) (code?.getD ReservedCode.killed.code) true).and
    (stable_others_rely others) (stable_others_guar others)
  have hall := Lasts.run_bind (stable_settled_others others) (.refl c)
    (staysWith_killOthers (fun _ hid => hid) (code?.getD ReservedCode.killed.code))
    (fun _ _ => hfinish) fun _ _ => trivial
  exact (hall.upholds γ hγ).mono fun _ _ h => ⟨h.1.1, h.2⟩

/-! ## Waiting -/

def Taken (b : BatchSite) (id : SessionId) (γ : Shell × BatchRecord) : Prop :=
  id = b.host ∨ (γ.1.session id).IsHooked

theorem stable_taken_rely (id : SessionId) : Stable (b.ChildRely c) (b.Taken id) :=
  fun _ _ h hr => h.imp_right (hr.hooked id)

theorem stable_taken_guar (id : SessionId) : Stable (b.ChildGuar c) (b.Taken id) :=
  fun _ _ h hg => h.imp_right (hg.hooked id)

theorem stable_settled_taken (id : SessionId) :
    Stable (b.ChildRely c) fun γ => b.Settled c γ ∧ b.Taken id γ :=
  fun γ γ' h hr => ⟨stable_settled γ γ' h.1 hr, stable_taken_rely id γ γ' h.2 hr⟩

theorem upholds_sessionAt (index : Nat) :
    Upholds (b.ChildRely c) (b.ChildGuar c) c.thread (b.Settled c) (b.observe (sessionAt index))
      (Fate.Returns fun target? γ => b.Settled c γ ∧ ∀ id, target? = some id → b.Taken id γ) := by
  refine upholds_observe_step stable_settled (fun target? γ γ' h hr => ?_) fun s r h _ => ?_
  · exact ⟨stable_settled γ γ' h.1 hr, fun id hid => stable_taken_rely id γ γ' (h.2 id hid) hr⟩
  · obtain ⟨stage, haboard⟩ := h.aboard
    have hguar := (haboard.still c.thread (Still.refl s)).1
    have hnotes : b.observer.notes c.thread s s r = r := notes_of_still (Still.refl s)
    refine ⟨hguar, hnotes.symm ▸ h, fun id hid => ?_⟩
    have hin : id ∈ s.registry := List.mem_of_getElem? hid
    by_cases hhost : id = b.host
    · exact .inl hhost
    · exact .inr (haboard.sound.hooked id hin hhost)

theorem guar_of_hook {hook : ExitHook} (hsound : b.Sound (s, r)) (hc : c ∈ r.launched)
    (hquiet : hook.IsQuiet) :
    let s' := modifySession b.host (fun _ => { s.session b.host with exitHook := some hook }) s
    b.ChildGuar c (s, r) (s', r) ∧ b.ChildRely c (s, r) (s', r) := by
  intro s'
  have hothers : ∀ id, id ≠ b.host → s'.session id = s.session id := fun id hid =>
    session_modifySession_of_ne _ hid
  have hhost : s'.session b.host = s.session b.host ∨
      s'.session b.host = { s.session b.host with exitHook := some hook } := by
    rcases Nat.lt_or_ge b.host s.sessions.size with hlt | hge
    · exact .inr (session_modifySession_self _ hlt)
    · exact .inl ((session_of_size_le (by rwa [size_modifySession])).trans
        (session_of_size_le hge).symm)
  have hduty : ∀ id, (s'.session id).duty = (s.session id).duty := fun id => by
    by_cases hid : id = b.host
    · subst hid
      rcases hhost with h | h
      · rw [h]
      · rw [h]
        rfl
    · rw [hothers id hid]
  have howner : ∀ id, (s'.session id).owner = (s.session id).owner := fun id => by
    by_cases hid : id = b.host
    · subst hid
      rcases hhost with h | h <;> rw [h]
    · rw [hothers id hid]
  have hhooked : ∀ id, (s.session id).IsHooked → (s'.session id).IsHooked := fun id h => by
    by_cases hid : id = b.host
    · subst hid
      rcases hhost with h' | h'
      · exact h' ▸ h
      · exact .inl (by rw [h']; rfl)
    · rwa [hothers id hid]
  have hchild : c.session ≠ b.host := (hsound.children c hc).2.2.1
  have hregistry : s'.registry = s.registry := rfl
  have hview : Batch.view c (s', r) = Batch.view c (s, r) := by
    simp only [Batch.view, hothers _ hchild, hregistry]
  have hkeeps : b.Sound (s, r) → b.Sound (s', r) := fun h =>
    { h with
      known := fun id hid => (size_modifySession _).symm ▸ h.known id hid
      hooked := fun id hid hne => hhooked id (h.hooked id hid hne)
      owners := fun id t ho => h.owners id t (howner id ▸ ho)
      quiet := fun hook' h' => by
        rcases hhost with heq | heq
        · exact h.quiet hook' (heq ▸ h')
        · rw [heq] at h'
          exact Option.some.inj h' ▸ hquiet
      children := fun child hin => (size_modifySession (s := s) _).symm ▸ h.children child hin }
  constructor
  · constructor
    case child => exact hc
    case sound => exact hkeeps
    case size => exact size_modifySession _
    case settings => rfl
    case endsProcess => rfl
    case ended => rfl
    case threads => exact Nat.le_refl _
    case joined => exact ⟨[], by simp [s', modifySession], by simp⟩
    case ties => exact fun id _ hid => by rw [hothers id hid]
    case host => rcases hhost with h | h <;> rw [h] <;> exact ⟨rfl, rfl⟩
    case tame => exact fun id ht => by rwa [hduty]
    case hooked => exact hhooked
    case owners => exact fun id t ho => .inl (howner id ▸ ho)
    case registry => exact .refl _
    case registered => exact fun _ hin _ => hin
    case sends => exact ⟨[], by simp, by simp [codesAt, s', modifySession]⟩
    case drops => exact ⟨[], by simp, by simp, by simp [sendersAt, s', modifySession]⟩
    case launched => rfl
    case books => rfl
    case stands =>
      rintro ⟨stage, owner, h⟩
      exact ⟨stage, owner, hview.trans h⟩
    case disposed => exact fun hd => by rwa [hothers _ hchild]
  · constructor
    case sound => exact hkeeps
    case child => exact fun _ h => h
    case view => exact fun _ _ => hview
    case tame => exact fun _ _ ht => by rwa [hduty]
    case size => exact Nat.le_of_eq (size_modifySession _).symm
    case hooked => exact hhooked
    case owners => exact fun _ _ id ho => howner id ▸ ho
    case host => exact fun _ _ _ h => h

abbrev StaysTaken (b : BatchSite) (c : Child) (id : SessionId) (p : Action Shell α) (Q : α → Prop) :
    Prop :=
  Lasts b.observer (b.ChildRely c) (b.ChildGuar c) c.thread
    (fun γ => b.Settled c γ ∧ b.Taken id γ) p Q

theorem staysTaken_of_still {id : SessionId} {p : Action Shell α} (hp : Within Still p) :
    b.StaysTaken c id p fun _ => True :=
  (stays_of_still hp).and (stable_taken_rely id) (stable_taken_guar id)

theorem staysTaken_putExitHook {id : SessionId} {hook : ExitHook} (hquiet : hook.IsQuiet) :
    b.StaysTaken c id (putExitHook id hook).run fun _ => True := by
  refine Upholds.lasts (S := fun _ γ => b.Settled c γ ∧ b.Taken id γ) (upholds_observe_step
    (stable_settled_taken id) (fun _ => stable_settled_taken id) fun s r h _ => ?_)
    fun _ _ h => ⟨h, trivial⟩
  obtain ⟨hsettled, htaken⟩ := h
  obtain ⟨stage, haboard⟩ := hsettled.aboard
  have hnotes : b.observer.notes c.thread s s r = r := notes_of_still (Still.refl s)
  have hnothing : b.ChildGuar c (s, r) (s, b.observer.notes c.thread s s r) ∧
      b.Settled c (s, b.observer.notes c.thread s s r) ∧
      b.Taken id (s, b.observer.notes c.thread s s r) :=
    ⟨(haboard.still c.thread (Still.refl s)).1, hnotes.symm ▸ hsettled, htaken⟩
  dsimp only
  by_cases hover : (s.session id).disposed = true ∨ (s.session id).exitCode.isSome = true
  · rw [if_pos hover]
    exact hnothing
  · rw [if_neg hover]
    by_cases hhook : (s.session id).exitHook.isSome = true
    · rw [if_pos hhook]
      exact hnothing
    · rw [if_neg hhook]
      rcases htaken with rfl | hooked
      · obtain ⟨hguar, hrely⟩ := guar_of_hook haboard.sound haboard.child hquiet
        have hnotes' : b.observer.notes c.thread s (modifySession b.host
            (fun _ => { s.session b.host with exitHook := some hook }) s) r = r := notes_of_rim rfl
        dsimp only
        rw [hnotes']
        exact ⟨hguar, stable_settled _ _ hsettled hrely, .inl rfl⟩
      · rcases hooked with h | h | h
        · exact absurd h hhook
        · exact absurd (.inr h) hover
        · exact absurd (.inl h) hover

theorem staysTaken_setExitHook {id : SessionId} {hook : ExitHook} (hquiet : hook.IsQuiet)
    (hdrop : ∀ s, Still s (dropHook hook s)) :
    b.StaysTaken c id (setExitHook id hook).run fun _ => True := by
  refine Lasts.bind (.refl c) (staysTaken_putExitHook hquiet) fun result _ => ?_
  cases result with
  | ok u => exact lasts_pure (stable_settled_taken id) trivial
  | error e =>
    exact staysTaken_of_still (Within.run_bind (Within.lift (within_update hdrop)) fun _ =>
      within_pure _)

theorem staysTaken_awaitExit (target : SessionId) :
    b.StaysTaken c target (awaitExit target .nothing).run fun _ => True := by
  have hpure : ∀ r : Except ShellError Int, b.StaysTaken c target (pure r) fun _ => True :=
    fun _ => lasts_pure (stable_settled_taken target) trivial
  have hcode : ∀ latch, b.StaysTaken c target (liftM (codeAt latch target) : Checked Int).run
      fun _ => True := fun latch => staysTaken_of_still (Within.lift (chore_read _))
  refine Lasts.lift_bind (.refl c) (staysTaken_of_still chore_self) fun me _ =>
    Lasts.lift_bind (.refl c) (staysTaken_of_still (chore_read _)) fun session _ => ?_
  split
  · exact hpure _
  · refine Lasts.lift_bind (.refl c) (staysTaken_of_still chore_isUiThread) fun ui _ => ?_
    split
    · exact hpure _
    · refine Lasts.lift_bind (.refl c) (staysTaken_of_still (chore_step fun _ => rfl))
        fun latch _ =>
        Lasts.lift_bind (.refl c) (staysTaken_setExitHook trivial fun _ => .of_frame rfl)
          fun result _ => ?_
      split
      · exact Lasts.lift_bind (.refl c) (staysTaken_of_still (chore_awaitLatch latch)) fun _ _ =>
          hcode latch
      · exact hcode latch
      · exact hpure _

theorem stays_waitAt (index : Nat) : b.Stays c (waitAt index).run fun _ => True := by
  refine ⟨Upholds.observe_lift_bind (upholds_sessionAt index) (.refl c) fun target? => ?_⟩
  cases target? with
  | none =>
    rintro γ ⟨hγ, -⟩
    have hthrow :
      b.Stays c (do throw (ShellError.indexOutOfRange index (← sessionCount)) : Checked Int).run
        fun _ => True :=
      Stays.lift_bind (stays_of_still (chore_read _)) fun _ _ => stays_pure trivial
    exact hthrow.upholds γ hγ
  | some target =>
    rintro γ ⟨hγ, htaken⟩
    exact ((staysTaken_awaitExit target).upholds γ ⟨hγ, htaken target rfl⟩).mono
      fun _ _ h => ⟨h.1.1, h.2⟩

/-! ## Scripts -/

theorem stays_newSession (name : String) (script : Option String) :
    b.Stays c (newSession name script) fun _ => False := by
  refine Upholds.lasts (S := fun _ _ => False) (upholds_observe_step stable_settled
    (fun _ _ _ h => h.elim) fun s r h hallowed => ?_) fun _ _ h => h.elim
  -- Only the thread of the batch may make a session.
  obtain ⟨stage, haboard⟩ := h.aboard
  have hpeaceful := of_decide_eq_true hallowed
  rcases hpeaceful.sessions with hme | hsize
  · exact absurd hme (haboard.sound.children c haboard.child).2.2.2
  · simp at hsize

theorem stays_forkWith (options : ForkOptions) (main : MainTask) :
    b.Stays c (forkWith c.session options main).run fun _ => True :=
  Stays.lift_bind (stays_of_still (chore_read _)) fun _ _ =>
    Stays.lift_bind (stays_of_still (chore_read _)) fun _ _ =>
      Stays.lift_bind (stays_newSession _ _) fun _ h => h.elim

theorem still_childMain (options : ForkOptions) : Within Still (childMain options) := by
  unfold childMain
  split
  · exact within_pure _
  · refine Within.bind (chore_read _) fun file? => ?_
    cases file? <;> exact within_pure _

theorem stays_fork (options : ForkOptions) (h : options.hook = none) :
    b.Stays c (fork c.session options).run fun _ => True := by
  obtain ⟨script, language, hook, inParent, after⟩ := options
  cases h
  refine Stays.lift_bind (stays_of_still (chore_read _)) fun session _ => ?_
  cases session.disposed with
  | true =>
    exact stays_of_still (Within.run_bind (Within.lift (within_pure _)) fun _ => within_pure _)
  | false =>
    refine Stays.lift_bind (stays_of_still (still_childMain _)) fun main? _ => ?_
    cases main? with
    | some main => exact Stays.run_bind (stays_forkWith _ main) fun _ _ => stays_pure trivial
    | none =>
      exact stays_of_still (Within.run_bind (Within.lift (chore_reportError _)) fun _ =>
        Within.run_bind (Within.lift (within_pure _)) fun _ => within_pure _)

theorem stays_forkScript (script : String) :
    b.Stays c (forkScript c.session script).run fun _ => True := by
  refine Stays.run_bind (stays_fork _ rfl) fun child? _ => ?_
  cases child? with
  | some child => exact stays_of_still (Within.lift (chore_read _))
  | none => exact stays_pure trivial

theorem asFault_still {p : Checked α} (hp : b.Stays c p.run fun _ => True) :
    b.Stays c (asFault p) fun _ => True :=
  hp.bind fun result _ => by
    cases result <;> exact stays_pure trivial

theorem stays_answerHost (r : HostRequest SessionId) (h : r.host = c.session) :
    b.Stays c (answerHost r) fun _ => True := by
  obtain ⟨id, call⟩ := r
  cases h
  cases call with
  | name => exact Stays.bind (stays_of_still (chore_read _)) fun _ _ => stays_pure trivial
  | out text => exact asFault_still (stays_of_still (chore_out text))
  | exit code => exact asFault_still (stays_exit code)
  | jump index => exact asFault_still (stays_of_still (chore_jumpTo index))
  | fork script => exact asFault_still (stays_forkScript script)
  | link path => exact Stays.bind (stays_of_still (chore_link path)) fun _ _ => stays_pure trivial
  | kill code? => exact asFault_still (stays_killAll code?)
  | list => exact Stays.bind (stays_of_still (chore_read _)) fun _ _ => stays_pure trivial
  | wait index => exact asFault_still (stays_waitAt index)
  | compile source output => exact stays_of_still (chore_compile ..)
  | cancel index => exact asFault_still (stays_of_still (chore_cancelAt index))
  | join index => exact asFault_still (stays_of_still (chore_join index))
  | jobs => exact Stays.bind (stays_of_still (chore_read _)) fun _ _ => stays_pure trivial

end BatchSite

end SessionShell
