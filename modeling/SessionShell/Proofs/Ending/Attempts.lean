import SessionShell.Proofs.Ending.Ledger

/-!
What each attempt to end a session guarantees, whatever the others do.
-/

namespace SessionShell

open Action Shell

namespace Stakes

variable {k : Stakes} {id other : SessionId} {i : Nat} {γ γ' : Shell × Ledger}

theorem inv_of_eq (hstates : γ'.1.exitStates = γ.1.exitStates) (hledger : γ'.2 = γ.2)
    (h : k.Inv γ) : k.Inv γ' := by
  simpa only [Inv, hstates, hledger] using h

theorem waiting_of_eq (h : k.Waiting i id γ) (hstates : γ'.1.exitStates = γ.1.exitStates)
    (hledger : γ'.2 = γ.2) : k.Waiting i id γ' :=
  ⟨inv_of_eq hstates hledger h.1, by rw [hledger]; exact h.2⟩

theorem running_of_eq {w : Win} {stage : Stage} (h : k.Running w id stage γ)
    (hstates : γ'.1.exitStates = γ.1.exitStates) (hledger : γ'.2 = γ.2) :
    k.Running w id stage γ' :=
  ⟨inv_of_eq hstates hledger h.1, by rw [hledger]; exact h.2⟩

variable {me : ThreadId} {α : Type}

theorem upholds_silent {P : Shell × Ledger → Prop} {p : Action Shell α}
    (hp : Keeps Shell.exitStates p) (hcrash : NeverCrashes p) (hP : Stable (k.Rely i) P)
    (hsame : ∀ γ γ', P γ → γ'.1.exitStates = γ.1.exitStates → γ'.2 = γ.2 → P γ') :
    Upholds (k.Rely i) (k.Guarantee i) me P (silent p) (Fate.Returns fun _ => P) := by
  refine upholds_of_keeps (keeps_silent hp) (neverCrashes_silent hcrash) hP ?_
  intro γ γ' hγ hview
  have hstates : γ'.1.exitStates = γ.1.exitStates := (Prod.mk.inj hview).1
  have hledger : γ'.2 = γ.2 := (Prod.mk.inj hview).2
  exact ⟨Change.of_eq hstates hledger, hsame γ γ' hγ hstates hledger⟩

theorem upholds_silent_running {w : Win} {stage : Stage} {p : Action Shell α} (hi : w.who = i)
    (hp : Keeps Shell.exitStates p) (hcrash : NeverCrashes p) :
    Upholds (k.Rely i) (k.Guarantee i) me (k.Running w id stage) (silent p)
      (Fate.Returns fun _ => k.Running w id stage) :=
  upholds_silent hp hcrash (stable_running hi) fun _ _ => running_of_eq

/-! ## The steps of an attempt -/

theorem Fits.won {e : ExitState} {offers : List Offer} {c : Course} (h : k.Fits id e offers c)
    (hended : e.disposed = true ∨ e.exitCode.isSome = true) : c.wins ≠ [] := by
  rcases h.state with ⟨rfl, -⟩ | ⟨w, stage, -, -, -, -, rfl⟩
  · simp at hended
  · simp

theorem beaten_of_ended {e : ExitState} (hcontested : k.Contested id) (h : k.Waiting i id γ)
    (he : γ.1.exitStates id = some e) (hended : e.disposed = true ∨ e.exitCode.isSome = true) :
    k.Beaten i id γ := by
  obtain ⟨e', he', hfits⟩ := h.1 id hcontested
  cases he.symm.trans he'
  exact ⟨h, hfits.won hended⟩

theorem upholds_recordCode {code : Int} (hcontested : k.Contested id)
    (hof : ∀ hook?, k.IsOf id ⟨i, code, hook?⟩) :
    Upholds (k.Rely i) (k.Guarantee i) me (k.Waiting i id)
      (noted (Ledger.noteWin i id code) (recordCode id code).run)
      (Fate.Returns fun r γ =>
        match r with
        | .ok hook? => k.Running ⟨i, code, hook?⟩ id .won γ
        | .error e => (∃ name, e = .hasExited name) ∧ k.Beaten i id γ) := by
  refine upholds_step stable_waiting ?_ ?_
  · intro r γ γ' hγ hr
    cases r with
    | ok hook? => exact stable_running rfl γ γ' hγ hr
    | error e => exact ⟨hγ.1, stable_beaten γ γ' hγ.2 hr⟩
  · intro γ hγ
    obtain ⟨e, he, hfits⟩ := hγ.1 id hcontested
    have hstate := exitState_session he
    -- The code is looked up and recorded in one step, so nobody else comes in between.
    by_cases hended : (γ.1.session id).disposed = true ∨ (γ.1.session id).exitCode.isSome = true
    · have hbeaten := beaten_of_ended hcontested hγ he (by rw [← hstate]; exact hended)
      simp only [hended, if_true]
      exact ⟨Change.refl γ, ⟨_, rfl⟩, hbeaten⟩
    · simp only [hended, if_false]
      rcases hfits.state with ⟨rfl, hcourse⟩ | ⟨w, stage, -, -, hcode, -, -⟩
      · have hhook : (γ.1.session id).exitHook = (hooksOf (k.hook? id) (γ.2.offers id)).head? :=
          congrArg ExitState.exitHook hstate
        have hwon : ∀ w : Win, Course.win w (γ.2.course id) = w.course id .won := by
          intro w
          rw [hcourse]
          rfl
        let w : Win := ⟨i, code, (γ.1.session id).exitHook⟩
        have hnew : (Ledger.modify id (.win w) γ.2).course id = w.course id .won := by
          rw [Ledger.course_modify_self, hwon]
        have hguarantee : k.Guarantee i γ
            (modifySession id
              (fun session => { session with exitCode := some code, exitHook := none })
              γ.1, γ.2.modify id (.win w)) := by
          refine guarantee_of_mine id (fun other ho => exitStates_modifySession_of_ne ho)
            (fun other ho => Ledger.course_modify_of_ne ho) rfl ?_ ?_ ?_
          · intro e he hfit
            refine ⟨_, exitStates_modifySession_self he, hfit.late, hfit.early, hfit.one, .inr ?_⟩
            exact ⟨w, .won, hof _, hhook, rfl, rfl, hnew⟩
          · simp only [hnew, Win.wins_course, List.mem_singleton]
            rintro _ rfl
            rfl
          · simp [hcourse, Course.empty]
        exact ⟨hguarantee, hguarantee.inv hγ.1, hnew⟩
      · rw [← hstate] at hcode
        exact absurd (.inr (by rw [show (γ.1.session id).exitCode = some w.code from hcode]; rfl))
          hended

theorem running_advance {w : Win} {stage stage' : Stage} (hi : w.who = i)
    (h : k.Running w id stage γ)
    (hstates : ∀ other, other ≠ id → γ'.1.exitStates other = γ.1.exitStates other)
    (hself : ∀ e, γ.1.exitStates id = some e → e.exitHook = none →
      ∃ e', γ'.1.exitStates id = some e' ∧ e'.exitCode = e.exitCode ∧ e'.exitHook = none)
    (hothers : ∀ other, other ≠ id → γ'.2.course other = γ.2.course other)
    (hoffers : γ'.2.offers = γ.2.offers) (hcourse : γ'.2.course id = w.course id stage') :
    k.Guarantee i γ γ' ∧ k.Running w id stage' γ' := by
  have hguarantee : k.Guarantee i γ γ' := by
    refine guarantee_of_mine id hstates hothers hoffers ?_ ?_ ?_
    · intro e he hfit
      rcases hfit.state with ⟨-, hnone⟩ | ⟨w', stage'', hof, hhook, hcode, hgone, hsame⟩
      · have := congrArg Course.wins (hnone.symm.trans h.2)
        simp [Course.empty] at this
      · have hw : w' = w := by
          have := congrArg Course.wins (hsame.symm.trans h.2)
          simpa using this
        subst hw
        obtain ⟨e', he', hcode', hgone'⟩ := hself e he hgone
        exact ⟨e', he', hfit.late, hfit.early, hfit.one,
          .inr ⟨w', stage', hof, hhook, hcode'.trans hcode, hgone', hcourse⟩⟩
    · simp [hcourse, hi]
    · simp [hcourse, h.2]
  exact ⟨hguarantee, hguarantee.inv h.1, hcourse⟩

theorem upholds_record {w : Win} {stage stage' : Stage} {f : Course → Course} (hi : w.who = i)
    (hf : f (w.course id stage) = w.course id stage') :
    Upholds (k.Rely i) (k.Guarantee i) me (k.Running w id stage) (record (Ledger.modify id f))
      (Fate.Returns fun _ => k.Running w id stage') := by
  refine upholds_step (stable_running hi) (fun _ => stable_running hi) fun γ hγ => ?_
  refine running_advance hi hγ (fun _ _ => rfl) (fun e he hgone => ⟨e, he, rfl, hgone⟩)
    (fun other ho => Ledger.course_modify_of_ne ho) rfl ?_
  rw [← hf, ← hγ.2]
  exact Ledger.course_modify_self

theorem noteRemoval_of_ne {s : Shell} {removal : Removal} {l : Ledger} (ho : other ≠ id) :
    (l.noteRemoval id s removal).course other = l.course other := by
  cases removal with
  | absent => rfl
  | last => exact Ledger.course_modify_of_ne ho
  | removed => exact Ledger.course_modify_of_ne ho

theorem exists_noteRemoval {w : Win} {s : Shell} {l : Ledger}
    (hcourse : l.course id = w.course id .called) :
    ∃ before?, (l.noteRemoval id s (s.registry.remove id).1).course id =
        w.course id (.removed before?) ∧
      ((s.registry.remove id).1 = .last ↔ emptied id before? = true) := by
  have hnoted : (l.modify id (.remove s.registry)).course id =
      w.course id (.removed (some s.registry)) := by
    rw [Ledger.course_modify_self, hcourse]
    rfl
  cases hremoval : (s.registry.remove id).1 with
  | absent => exact ⟨none, hcourse, by simp [emptied]⟩
  | last => exact ⟨some s.registry, hnoted, by simp [emptied, hremoval]⟩
  | removed => exact ⟨some s.registry, hnoted, by simp [emptied, hremoval]⟩

theorem upholds_leaveRegistry {w : Win} (hi : w.who = i) :
    Upholds (k.Rely i) (k.Guarantee i) me (k.Running w id .called)
      (noted (Ledger.noteRemoval id) (leaveRegistry id))
      (Fate.Returns fun removal γ => ∃ before?, k.Running w id (.removed before?) γ ∧
        (removal = .last ↔ emptied id before? = true)) := by
  refine upholds_step (stable_running hi) ?_ fun γ hγ => ?_
  · rintro removal γ γ' ⟨before?, hrunning, hlast⟩ hr
    exact ⟨before?, stable_running hi γ γ' hrunning hr, hlast⟩
  · obtain ⟨before?, hcourse, hlast⟩ := exists_noteRemoval (s := γ.1) hγ.2
    have hoffers : (γ.2.noteRemoval id γ.1 (γ.1.registry.remove id).1).offers = γ.2.offers := by
      cases (γ.1.registry.remove id).1 <;> rfl
    let γ' : Shell × Ledger := ({ γ.1 with registry := (γ.1.registry.remove id).2 },
      γ.2.noteRemoval id γ.1 (γ.1.registry.remove id).1)
    have hadvance : k.Guarantee i γ γ' ∧ k.Running w id (.removed before?) γ' :=
      running_advance hi hγ (fun _ _ => rfl) (fun e he hgone => ⟨e, he, rfl, hgone⟩)
        (fun _ ho => noteRemoval_of_ne ho) hoffers hcourse
    exact ⟨hadvance.1, before?, hadvance.2, hlast⟩

theorem upholds_markDisposed {w : Win} {stage : Stage} (hi : w.who = i) :
    Upholds (k.Rely i) (k.Guarantee i) me (k.Running w id stage) (silent (markDisposed id))
      (Fate.Returns fun _ => k.Running w id stage) := by
  refine upholds_step (stable_running hi) (fun _ => stable_running hi) fun γ hγ => ?_
  have hcancel : ∀ job? : Option JobId,
      (job?.elim γ.1 fun job => cancelJob job γ.1).exitStates = γ.1.exitStates := by
    intro job?
    cases job? <;> rfl
  refine running_advance hi hγ (fun other ho => ?_) (fun e he hgone => ?_) (fun _ _ => rfl) rfl hγ.2
  · exact (exitStates_modifySession_of_ne ho).trans (congrFun (hcancel _) other)
  · have he' := (congrFun (hcancel (γ.1.session id).compiling) id).trans he
    refine ⟨_, exitStates_modifySession_self he', ?_, rfl⟩
    rw [← exitState_session he']
    rfl

theorem upholds_dispose {w : Win} {stage : Stage} (hi : w.who = i) :
    Upholds (k.Rely i) (k.Guarantee i) me (k.Running w id stage) (silent (dispose id))
      (Fate.Returns fun _ => k.Running w id stage) := by
  rw [dispose, silent_bind]
  refine Upholds.bind (upholds_markDisposed hi) Change.refl fun hook? =>
    upholds_silent_running hi ?_ ?_
  · refine Keeps.bind (keeps_exitStates_of_quiet (quiet_dropHook? hook?)) fun _ =>
      Keeps.bind (keeps_exitStates_of_quiet quiet_cancelJobs) fun _ =>
      Keeps.bind (keeps_exitStates_of_quiet quiet_dropTasks) fun _ =>
      Keeps.bind (keeps_exitStates_updateSession fun _ => rfl) fun _ =>
      keeps_exitStates_updateSession fun _ => rfl
  · refine NeverCrashes.bind ?_ fun _ => fun _ => fun _ => fun _ => fun _ => trivial
    cases hook? with
    | none => trivial
    | some hook => exact fun _ => trivial

/-! ## Attempts -/

theorem upholds_leaveNoted_none {w : Win} (hi : w.who = i) (code : Int) (handsOn : Bool) :
    Upholds (k.Rely i) (k.Guarantee i) me (k.Running w id .called)
      (leaveNoted id code none handsOn)
      (Fate.Returns fun wasLast γ => ∃ before?, k.Running w id (.removed before?) γ ∧
        (wasLast = true ↔ emptied id before? = true)) := by
  refine Upholds.bind (upholds_silent_running hi keeps_exitStates_loseFocus fun _ => trivial)
    Change.refl fun wasCurrent =>
    Upholds.bind (upholds_leaveRegistry hi) Change.refl fun removal => ?_
  rintro γ ⟨before?, hrunning, hlast⟩
  have hreturn : ∀ wasLast : Bool, (wasLast = true ↔ emptied id before? = true) →
      Upholds (k.Rely i) (k.Guarantee i) me (k.Running w id (.removed before?)) (pure wasLast)
        (Fate.Returns fun wasLast γ => ∃ before?, k.Running w id (.removed before?) γ ∧
          (wasLast = true ↔ emptied id before? = true)) := fun wasLast hw =>
    upholds_pure wasLast (stable_running hi) fun γ hγ => ⟨before?, hγ, hw⟩
  cases removal with
  | last => exact hreturn true (by simpa using hlast) γ hrunning
  | absent => exact hreturn false (by simpa using hlast) γ hrunning
  | removed index remaining =>
    have hfalse : false = true ↔ emptied id before? = true := by simpa using hlast
    cases handsOn && wasCurrent with
    | false => exact hreturn false hfalse γ hrunning
    | true =>
      have hhand : NeverCrashes (handOn index remaining) := fun heir? => by
        cases heir? with
        | none => trivial
        | some heir => exact fun _ => fun _ => trivial
      exact Upholds.bind (upholds_silent_running hi (keeps_exitStates_handOn index remaining) hhand)
        Change.refl (fun _ => hreturn false hfalse) γ hrunning

theorem upholds_leaveNoted (code : Int) (hook? : Option ExitHook) (handsOn : Bool) :
    Upholds (k.Rely i) (k.Guarantee i) me (k.Running ⟨i, code, hook?⟩ id .won)
      (leaveNoted id code hook? handsOn)
      (Fate.Returns fun wasLast γ => ∃ before?,
        k.Running ⟨i, code, hook?⟩ id (.removed before?) γ ∧
          (wasLast = true ↔ emptied id before? = true)) := by
  cases hook? with
  | none => exact upholds_leaveNoted_none rfl code handsOn
  | some hook =>
    refine Upholds.bind (upholds_record rfl rfl) Change.refl fun _ => Upholds.bind
      (upholds_silent_running rfl ?_ ?_) Change.refl fun _ =>
      upholds_leaveNoted_none rfl code handsOn
    · exact keeps_exitStates_of_quiet (Keeps.bind (quiet_runHook code hook).attempt fun _ =>
        keeps_pure _)
    · exact NeverCrashes.bind (neverCrashes_attempt _) fun _ => trivial

def Outcome (k : Stakes) (i : Nat) (id : SessionId) : Fate (Except ShellError Unit) →
    Shell × Ledger → Prop :=
  Fate.Returns fun r γ =>
    match r with
    | .ok () => ∃ w before?, w.who = i ∧ k.Running w id (.over before?) γ
    | .error e => (∃ name, e = .hasExited name) ∧ k.Beaten i id γ

theorem neverCrashes_terminate (code : Int) : NeverCrashes (terminate code) := by
  refine NeverCrashes.bind (fun _ => fun _ => fun _ => fun _ => fun _ => fun _ => trivial)
    fun _ => fun ends => ?_
  cases ends with
  | false => exact fun _ => trivial
  | true => exact fun _ => fun _ => trivial

theorem upholds_finishNoted {code : Int} (hcontested : k.Contested id)
    (hof : ∀ hook?, k.IsOf id ⟨i, code, hook?⟩) (handsOn : Bool) :
    Upholds (k.Rely i) (k.Guarantee i) me (k.Waiting i id) (finishNoted i id code handsOn).run
      (k.Outcome i id) := by
  refine Upholds.run_bind (upholds_recordCode hcontested hof) Change.refl (fun hook? => ?_) fun e =>
    ?_
  · refine Upholds.lift_bind (upholds_leaveNoted code hook? handsOn) Change.refl fun wasLast => ?_
    rintro γ ⟨before?, hrunning, hlast⟩
    refine Upholds.lift_bind (upholds_dispose rfl) Change.refl (fun _ => ?_) γ hrunning
    let w : Win := ⟨i, code, hook?⟩
    cases wasLast with
    | false =>
      refine upholds_pure _ (stable_running rfl) fun γ hγ => ⟨w, before?, rfl, hγ.1, ?_⟩
      have hnot : emptied id before? = false := by simpa using hlast
      rw [hγ.2]
      simp [w, Win.course, hnot]
    | true =>
      have hterminate : (w.course id (.removed before?)).terminate code =
          w.course id (.over before?) := by
        have hemptied : emptied id before? = true := by simpa using hlast
        simp [w, Win.course, Course.terminate, hemptied]
      have hquiet := keeps_exitStates_of_quiet (quiet_terminate code)
      refine Upholds.lift_bind (upholds_record rfl hterminate) Change.refl fun _ =>
        Upholds.bind (upholds_silent_running rfl hquiet (neverCrashes_terminate code))
          Change.refl fun _ => ?_
      exact upholds_pure _ (stable_running rfl) fun γ hγ => ⟨w, before?, rfl, hγ⟩
  · exact upholds_pure _ (fun γ γ' hγ hr => ⟨hγ.1, stable_beaten γ γ' hγ.2 hr⟩) fun γ hγ => hγ

theorem upholds_ensureLive (hcontested : k.Contested id) :
    Upholds (k.Rely i) (k.Guarantee i) me (k.Waiting i id) (silent (ensureLive id).run)
      (Fate.Returns fun r γ =>
        match r with
        | .ok () => k.Waiting i id γ
        | .error e => (∃ name, e = .hasExited name) ∧ k.Beaten i id γ) := by
  intro γ hγ γ' session γ'' hr hact
  cases hact
  have hγ' := stable_waiting γ γ' hγ hr
  refine ⟨Change.refl γ', ?_⟩
  obtain ⟨e, he, -⟩ := hγ'.1 id hcontested
  have hdisposed : (γ'.1.session id).disposed = e.disposed :=
    congrArg ExitState.disposed (exitState_session he)
  change Safe _ _ _ _ (silent (ExceptT.run (if (γ'.1.session id).isLive then pure ()
    else throw (ShellError.hasExited (γ'.1.session id).name) : Checked Unit))) γ'
  cases hd : (γ'.1.session id).disposed with
  | false =>
    simp only [Session.isLive, hd, Bool.not_false, if_true]
    exact fun γ'' hr => stable_waiting γ' γ'' hγ' hr
  | true =>
    simp only [Session.isLive, hd, Bool.not_true, Bool.false_eq_true, if_false]
    have hbeaten := beaten_of_ended hcontested hγ' he (.inl (hdisposed.symm.trans hd))
    exact fun γ'' hr => ⟨⟨_, rfl⟩, stable_beaten γ' γ'' hbeaten hr⟩

theorem upholds_exitNoted {code : Int} (hcontested : k.Contested id)
    (hof : ∀ hook?, k.IsOf id ⟨i, ExitCode.sanitize code, hook?⟩) :
    Upholds (k.Rely i) (k.Guarantee i) me (k.Waiting i id) (exitNoted i id code).run
      (k.Outcome i id) := by
  refine Upholds.run_bind (upholds_ensureLive hcontested) Change.refl (fun _ => ?_) fun e => ?_
  · cases ExitCode.remapWarning? code with
    | some message =>
      refine Upholds.lift_bind (upholds_silent (keeps_exitStates_of_quiet (quiet_warning message))
        (fun _ => fun _ => trivial) stable_waiting fun _ _ => waiting_of_eq) Change.refl fun _ => ?_
      exact upholds_finishNoted hcontested hof true
    | none => exact upholds_finishNoted hcontested hof true
  · exact upholds_pure _ (fun γ γ' hγ hr => ⟨hγ.1, stable_beaten γ γ' hγ.2 hr⟩) fun γ hγ => hγ

/-! ## Offers -/

theorem hooksOf_append (hook? : Option ExitHook) (offers : List Offer) (o : Offer) :
    hooksOf hook? (offers ++ [o]) =
      hooksOf hook? offers ++ if o.answer.isOk then [o.hook] else [] := by
  cases ho : o.answer.isOk <;> simp [hooksOf, List.filter_append, ho]

theorem Fits.refuse {e : ExitState} {offers : List Offer} {c : Course} {o : Offer}
    (h : k.Fits id e offers c) (hanswer : o.answer.isOk = false)
    (hlate : o.late = true → ∃ name, o.answer = .error (.hasExited name))
    (hearly : o.late = false → ∃ name, o.answer = .error (.callbackAlreadySet name)) :
    k.Fits id e (offers ++ [o]) c := by
  have hsame : hooksOf (k.hook? id) (offers ++ [o]) = hooksOf (k.hook? id) offers := by
    rw [hooksOf_append, hanswer]
    simp
  constructor
  · intro o' ho' hl
    rcases List.mem_append.mp ho' with hin | hin
    · exact h.late o' hin hl
    · cases List.mem_singleton.mp hin
      exact hlate hl
  · intro o' ho' hl
    rcases List.mem_append.mp ho' with hin | hin
    · exact h.early o' hin hl
    · cases List.mem_singleton.mp hin
      exact .inr (hearly hl)
  · rw [hsame]
    exact h.one
  · rw [hsame]
    exact h.state

theorem Fits.accept {offers : List Offer} {o : Offer}
    (h : k.Fits id ⟨none, none, false⟩ offers .empty)
    (hanswer : o.answer = .ok ()) (hlate : o.late = false) :
    k.Fits id ⟨none, some o.hook, false⟩ (offers ++ [o]) .empty := by
  have hnone : hooksOf (k.hook? id) offers = [] := by
    rcases h.state with ⟨he, -⟩ | ⟨w, stage, -, -, hcode, -, -⟩
    · exact List.head?_eq_none_iff.mp (congrArg ExitState.exitHook he).symm
    · cases hcode
  have hhooks : hooksOf (k.hook? id) (offers ++ [o]) = [o.hook] := by
    rw [hooksOf_append, hnone, hanswer]
    rfl
  constructor
  · intro o' ho' hl
    rcases List.mem_append.mp ho' with hin | hin
    · exact h.late o' hin hl
    · cases List.mem_singleton.mp hin
      simp [hlate] at hl
  · intro o' ho' hl
    rcases List.mem_append.mp ho' with hin | hin
    · exact h.early o' hin hl
    · cases List.mem_singleton.mp hin
      exact .inl hanswer
  · rw [hhooks]
    exact Nat.le_refl 1
  · rw [hhooks]
    exact .inl ⟨rfl, rfl⟩

theorem guarantee_of_offer {o : Offer}
    (hstates : ∀ other, other ≠ id → γ'.1.exitStates other = γ.1.exitStates other)
    (hledger : γ'.2 = γ.2.offer id o)
    (hfits : ∀ e, γ.1.exitStates id = some e → k.Fits id e (γ.2.offers id) (γ.2.course id) →
      ∃ e', γ'.1.exitStates id = some e' ∧
        k.Fits id e' (γ.2.offers id ++ [o]) (γ.2.course id)) : k.Guarantee i γ γ' := by
  have hcourse : γ'.2.course = γ.2.course := by rw [hledger]; rfl
  have hoffers : γ'.2.offers id = γ.2.offers id ++ [o] := by rw [hledger, Ledger.offers_offer_self]
  refine Change.of_session hstates ?_ (fun other _ => by rw [hcourse]) ?_ ?_ ?_ ?_ ?_
  · intro other ho
    rw [hledger, Ledger.offers_offer_of_ne ho]
  · rw [hoffers, hcourse]
    exact hfits
  · exact fun _ _ _ => by rw [hcourse]
  · rw [hcourse]
    exact fun _ hw _ => hw
  · rw [hoffers]
    exact List.subset_append_left _ _
  · rw [hcourse]
    exact List.Subset.refl _

theorem upholds_setExitHookNoted (hcontested : k.Contested id) (hook : ExitHook) :
    Upholds (k.Rely i) (k.Guarantee i) me k.Inv (setExitHookNoted i id hook).run
      (Fate.Returns fun r γ => ∃ late, ⟨i, hook, late, r⟩ ∈ γ.2.offers id) := by
  have hoffered : ∀ r, Stable (k.Rely i)
      fun γ : Shell × Ledger => k.Inv γ ∧ ∃ late, ⟨i, hook, late, r⟩ ∈ γ.2.offers id :=
    fun r γ γ' ⟨hinv, late, hin⟩ hr => ⟨hr.inv hinv, late, hr.offers id hin⟩
  refine Upholds.bind (R := fun r γ => k.Inv γ ∧ ∃ late, ⟨i, hook, late, r⟩ ∈ γ.2.offers id)
    (upholds_step (fun γ γ' hγ hr => hr.inv hγ) hoffered fun γ hγ => ?_) Change.refl fun r => ?_
  · obtain ⟨e, he, hfits⟩ := hγ id hcontested
    have hstate := exitState_session he
    have hnoted : ∀ s' r, k.Guarantee i γ (s', Ledger.noteOffer i id hook γ.1 r γ.2) →
        k.Guarantee i γ (s', Ledger.noteOffer i id hook γ.1 r γ.2) ∧
          k.Inv (s', Ledger.noteOffer i id hook γ.1 r γ.2) ∧
          ∃ late, ⟨i, hook, late, r⟩ ∈ (Ledger.noteOffer i id hook γ.1 r γ.2).offers id :=
      fun s' r hg => ⟨hg, hg.inv hγ, !(γ.2.course id).wins.isEmpty, by
        rw [Ledger.noteOffer, Ledger.offers_offer_self]
        exact List.mem_append_right _ (List.mem_singleton_self _)⟩
    by_cases hended : (γ.1.session id).disposed = true ∨ (γ.1.session id).exitCode.isSome = true
    · simp only [hended, if_true]
      have hwon := hfits.won (by rw [← hstate]; exact hended)
      refine hnoted _ _ (guarantee_of_offer (fun _ _ => rfl) rfl fun e he hfit => ⟨e, he, ?_⟩)
      exact hfit.refuse rfl (fun _ => ⟨_, rfl⟩) fun hearly => by simp [hwon] at hearly
    · simp only [hended, if_false]
      rcases hfits.state with ⟨hfresh, hcourse⟩ | ⟨w, -, -, -, hcode, -, -⟩
      · cases hhook : (γ.1.session id).exitHook with
        | some hook' =>
          simp only [Option.isSome_some, if_true]
          refine hnoted _ _ (guarantee_of_offer (fun _ _ => rfl) rfl fun e he hfit => ⟨e, he, ?_⟩)
          refine hfit.refuse rfl (fun hlate => ?_) fun _ => ⟨_, rfl⟩
          simp [hcourse, Course.empty] at hlate
        | none =>
          simp only [Option.isSome_none, Bool.false_eq_true, if_false]
          have hhead : (hooksOf (k.hook? id) (γ.2.offers id)).head? = none := by
            rw [← hhook]
            exact (congrArg ExitState.exitHook (hstate.trans hfresh)).symm
          rw [hhead] at hfresh
          have hsession : (γ.1.session id).exitState = ⟨none, none, false⟩ := hstate.trans hfresh
          rw [hfresh, hcourse] at hfits
          refine hnoted _ _ (guarantee_of_offer
            (fun other ho => exitStates_modifySession_of_ne ho) rfl fun e' he' hfit =>
              ⟨_, exitStates_modifySession_self he', ?_⟩)
          have hset : ({ γ.1.session id with exitHook := some hook } : Session).exitState =
              ⟨none, some hook, false⟩ :=
            congrArg (fun e : ExitState => { e with exitHook := some hook }) hsession
          rw [hset, hcourse]
          exact hfits.accept (o := ⟨i, hook, !Course.empty.wins.isEmpty, .ok ()⟩) rfl rfl
      · rw [← hstate] at hcode
        exact absurd (.inr (by rw [show (γ.1.session id).exitCode = some w.code from hcode]; rfl))
          hended
  · cases r with
    | ok => exact upholds_pure _ (hoffered _) fun γ hγ => hγ.2
    | error e =>
      have hquiet : Quiet (update (dropHook hook)) := keeps_update (outline_dropHook hook)
      refine Upholds.lift_bind (upholds_silent (keeps_exitStates_of_quiet hquiet) (fun _ => trivial)
        (hoffered _) fun γ γ' hγ hstates hledger => ?_) Change.refl fun _ => ?_
      · exact ⟨inv_of_eq hstates hledger hγ.1, by rw [hledger]; exact hγ.2⟩
      · exact upholds_pure _ (hoffered _) fun γ hγ => hγ.2

end Stakes

end SessionShell
