import SessionShell.Proofs.Batch.Scripts

/-!
The threads of children of a batch, and those of the services, from one role to the next.
-/

namespace SessionShell

open Action Shell Batch

namespace BatchSite

variable {b : BatchSite} {c : Child} {γ γ' : Shell × BatchRecord} {s s' : Shell} {r : BatchRecord}
  {α : Type}

/-! ## Evaluation -/

abbrev Own (c : Child) (i : SessionInterpreter) : Prop :=
  i.BindsOnly (· = c.session)

theorem stays_evalWith {i : SessionInterpreter} (h : Own c i) (text : String)
    (source : Option String) :
    b.Stays c (evalWith i text source) fun x => Own c x.2 := by
  have hrun : b.Stays c ((i.eval text source).expand answerHost) fun x => Own c x.2 :=
    lasts_expand stable_settled (.refl c) (Interpreter.asks_eval h text source) fun r hr =>
      stays_answerHost r hr
  refine Stays.bind (Lasts.attempt hrun) fun x? hx => ?_
  cases x? with
  | some x => exact stays_pure (hx x rfl)
  | none => exact stays_pure h

theorem stays_takeInterpreter :
    b.Stays c (takeInterpreter c.session) fun i? => ∀ i, i? = some i → Own c i :=
  stays_learning (fun _ => still_loseInterpreter) fun s r h => by
    obtain ⟨stage, haboard⟩ := h.aboard
    exact haboard.tame.hosts

theorem stays_claimInterpreter :
    b.Stays c (claimInterpreter c.session).run fun r => ∀ i, r = .ok i → Own c i := by
  refine Lasts.run_bind stable_settled (.refl c) (stays_of_still chore_checkOwner) (fun _ _ => ?_)
    fun _ _ _ h => nomatch h
  refine Lasts.lift_bind (.refl c) stays_takeInterpreter fun i? hi => ?_
  cases i? with
  | some i => exact stays_pure fun _ h => by cases h; exact hi i rfl
  | none =>
    refine Lasts.run_bind stable_settled (.refl c) (stays_of_still chore_ensureLive) (fun _ _ => ?_)
      fun _ _ _ h => nomatch h
    exact Lasts.lift_bind (.refl c) (stays_of_still (chore_read _)) fun _ _ =>
      stays_pure fun _ h => nomatch h

theorem stays_evaluate (text : String) (source : Option String) :
    b.Stays c (evaluate c.session text source).run fun _ => True := by
  have hclaim : b.Stays c (asFault (claimInterpreter c.session)) fun r => ∀ i, r = .ok i →
      Own c i :=
    stays_claimInterpreter.bind fun result hresult => by
      cases result with
      | ok i => exact stays_pure fun _ h => by cases h; exact hresult i rfl
      | error e => exact stays_pure fun _ h => nomatch h
  refine hclaim.bind fun result hresult => ?_
  cases result with
  | error fault => exact stays_pure trivial
  | ok i =>
    refine (stays_evalWith (hresult i rfl) text source).bind fun x hx => ?_
    exact (stays_of_still (still_putInterpreter hx)).bind fun _ _ => stays_pure trivial

theorem stays_preloadWith (path : String) {i : SessionInterpreter} (h : Own c i) :
    b.Stays c (preloadWith path i) (Own c) := by
  refine Stays.bind (stays_of_still (chore_read _)) fun text _ => ?_
  cases text with
  | error e => exact (stays_of_still (chore_reportError _)).bind fun _ _ => stays_pure h
  | ok text =>
    refine (stays_evalWith h text (some path)).bind fun x hx => ?_
    obtain ⟨result, i'⟩ := x
    cases result with
    | error fault => exact (stays_of_still (chore_reportError fault)).bind fun _ _ => stays_pure hx
    | ok => exact stays_pure hx

theorem stays_boot (language : Language) : b.Stays c (boot c.session language) fun _ => True := by
  refine Stays.bind (stays_of_still (chore_read _)) fun session _ => ?_
  refine Stays.bind (stays_of_still (chore_read _)) fun script? _ => ?_
  have hfirst : Own c ((Interpreter.ofKind language.kind).bindHost session.name c.session) :=
    (Interpreter.bindsOnly_ofKind language.kind).bindHost rfl
  have hlast : ∀ i, Own c i → b.Stays c (do
      let interactive ← install c.session i
      let endIsFinal ← Action.read (·.console.endIsFinal)
      if interactive && !endIsFinal then sayLine c.session (greeting session.name language))
      fun _ => True := fun i hi => by
    refine Stays.bind (stays_of_still (still_install hi)) fun interactive _ =>
      Stays.bind (stays_of_still (chore_read _)) fun endIsFinal _ => ?_
    split
    · exact stays_of_still (chore_sayLine _)
    · exact stays_pure trivial
  cases script? with
  | none => exact (stays_pure hfirst).bind hlast
  | some path => exact (stays_preloadWith path hfirst).bind hlast

/-! ## Tasks and turns -/

theorem stays_guarded {p : ExceptT Fault (Action Shell) α} (hp : b.Stays c p.run fun _ => True) :
    b.Stays c (guarded c.session p) fun _ => True := by
  have hreport : ∀ fault, b.Stays c (do
      if ← isLive c.session then reportError fault
      return (none : Option α)) fun _ => True := fun fault => by
    refine stays_of_still (Within.bind (chore_read _) fun live => ?_)
    cases live with
    | true => exact Within.bind (chore_reportError fault) fun _ => within_pure _
    | false => exact within_pure _
  refine Stays.bind (Lasts.attempt hp) fun result? _ => ?_
  cases result? with
  | none => exact hreport _
  | some result =>
    cases result with
    | ok a => exact stays_pure trivial
    | error fault => exact hreport fault

theorem stays_runScript_outcome {t : TaskScript} (hnote : t.note = none) (hexit : t.exit = none) :
    b.Stays c (runScript c.session t).run fun _ => True := by
  obtain ⟨note, exit, eval, fail, crashes, print⟩ := t
  cases hnote
  cases hexit
  cases eval with
  | some text => exact stays_evaluate text none
  | none =>
    cases fail with
    | some fault => exact stays_pure trivial
    | none =>
      cases crashes with
      | true => exact stays_crash
      | false => exact stays_pure trivial

theorem stays_runScript_exit {t : TaskScript} (hnote : t.note = none) :
    b.Stays c (runScript c.session t).run fun _ => True := by
  obtain ⟨note, code?, eval, fail, crashes, print⟩ := t
  cases hnote
  cases code? with
  | none => exact stays_runScript_outcome rfl rfl
  | some code =>
    exact Stays.run_bind (asFault_still (stays_exit code)) fun _ _ =>
      stays_runScript_outcome (t := ⟨none, none, eval, fail, crashes, print⟩) rfl rfl

theorem stays_runScript (t : TaskScript) : b.Stays c (runScript c.session t).run fun _ => True := by
  obtain ⟨note, exit, eval, fail, crashes, print⟩ := t
  cases note with
  | none => exact stays_runScript_exit rfl
  | some tag =>
    exact Stays.lift_bind (stays_of_still chore_currentThread) fun _ _ =>
      Stays.lift_bind (stays_of_still (chore_note rfl)) fun _ _ =>
        stays_runScript_exit (t := ⟨none, exit, eval, fail, crashes, print⟩) rfl

theorem stays_runTask {task : Task} (h : ∀ hook code, task ≠ .runHook hook code) :
    b.Stays c (runTask c.session task) fun _ => True := by
  have hperform : b.Stays c (perform c.session task).run fun _ => True := by
    cases task with
    | boot language => exact Stays.lift_bind (stays_boot language) fun _ _ => stays_pure trivial
    | runHook hook code => exact absurd rfl (h hook code)
    | script t => exact stays_runScript t
  exact (stays_guarded hperform).bind fun result _ => stays_of_still (chore_sayResult result)

theorem stays_onEndOfInput : b.Stays c (onEndOfInput c.session) fun _ => True := by
  have hend : ∀ handedOn : Bool, b.Stays c (do
      unless handedOn do discard (exitWith c.session .noInput).run) fun _ =>
        True := fun handedOn => by
    cases handedOn with
    | true => exact stays_pure trivial
    | false => exact (stays_exitWith .noInput).discard
  refine Stays.bind (stays_of_still (chore_read _)) fun count _ =>
    Stays.bind (stays_of_still (chore_read _)) fun endIsFinal _ => ?_
  split
  · refine Stays.bind (stays_of_still (chore_read _)) fun index? _ => ?_
    cases index? with
    | none => exact hend false
    | some index =>
      refine Stays.bind (stays_of_still (chore_jumpTo _)) fun result _ => ?_
      cases result with
      | ok => exact hend true
      | error => exact hend false
  · exact hend false

theorem stays_evaluateStatement (statement : String) :
    b.Stays c (evaluateStatement c.session statement) fun _ => True := by
  unfold evaluateStatement
  split
  · exact stays_pure trivial
  · exact (stays_guarded (stays_evaluate statement none)).bind fun result _ =>
      stays_of_still (chore_sayResult result)

def PhaseIsPlain : Phase → Prop
  | .idle => True
  | .reading _ => True
  | _ => False

theorem stays_rest : b.Stays c (rest c.session) PhaseIsPlain :=
  (stays_of_still still_becomeInteractive).bind fun _ _ => stays_pure trivial

theorem stays_readStatement (before : Option String) :
    b.Stays c (readStatement c.session before) PhaseIsPlain := by
  refine Stays.bind (stays_of_still (chore_renderPrompt _)) fun text _ =>
    Stays.bind (stays_of_still (chore_prompt text)) fun outcome _ => ?_
  cases outcome with
  | error e =>
    refine Stays.bind (stays_of_still (chore_read _)) fun live _ => ?_
    cases live with
    | true => exact (stays_of_still (chore_reportError e)).bind fun _ _ => stays_rest
    | false => exact stays_rest
  | ok outcome =>
    cases outcome with
    | endOfInput =>
      cases before with
      | none =>
        exact Stays.bind stays_onEndOfInput fun _ _ => stays_rest
      | some statement =>
        exact Stays.bind (stays_evaluateStatement statement) fun _ _ => stays_rest
    | line line =>
      refine Stays.bind (stays_of_still (chore_read _)) fun settings _ => ?_
      split
      · exact stays_pure trivial
      · exact Stays.bind (stays_evaluateStatement _) fun _ _ => stays_rest

theorem stays_afterScript (after : AfterScript) :
    b.Stays c (afterScript c.session after) fun _ => True := by
  cases after with
  | exit => exact (stays_exitWith .success).discard
  | interactive =>
    refine stays_of_still (Within.bind (chore_read _) fun count =>
      Within.bind (chore_read _) fun session => ?_)
    split
    · refine Within.bind (chore_read _) fun index? => ?_
      cases index? with
      | some index => exact Within.discard (chore_jumpTo _)
      | none => exact within_pure _
    · exact within_pure _

theorem stays_runScriptMain (source : ScriptSource) (name : String) (after : AfterScript) :
    b.Stays c (runScriptMain c.session source name after) fun _ => True := by
  have hinterpret : b.Stays c (interpret c.session source name).run fun _ => True := by
    have hread : b.Stays c (ExceptT.lift (readScript source) : ExceptT Fault (Action Shell) _).run
        fun _ => True := (stays_of_still (chore_read _)).bind fun _ _ => stays_pure trivial
    refine Stays.run_bind hread fun text _ => ?_
    cases text with
    | error e => exact stays_pure trivial
    | ok text => exact stays_evaluate text (some name)
  refine (stays_guarded hinterpret).bind fun result _ =>
    (stays_of_still (chore_sayResult result)).bind fun _ _ =>
    Stays.bind (stays_of_still (chore_read _)) fun session _ => ?_
  split
  · exact stays_afterScript after
  · exact stays_pure trivial

theorem stays_takeTask :
    b.Stays c (takeTask c.session) fun task? => ∀ task, task? = some task →
      ∀ hook code, task ≠ .runHook hook code := by
  refine stays_learning (fun s => still_takenTask) fun s r h task htask hook code heq => ?_
  obtain ⟨stage, haboard⟩ := h.aboard
  split at htask
  · cases htask
  · next head rest htasks =>
    cases htask
    refine haboard.tame.tasks hook code ?_
    rw [show (s.session c.session).duty.tasks = _ :: rest from htasks, ← heq]
    exact List.mem_cons_self

theorem stays_takeMain : b.Stays c (takeMain c.session) MainTask.IsPlain := by
  refine stays_learning (fun s => still_modifySession (by exact fun _ => rfl) fun hx =>
    ⟨fun _ h => (nomatch h), hx.tasks, hx.hosts⟩) fun s r h => ?_
  obtain ⟨stage, haboard⟩ := h.aboard
  cases hmain : (s.session c.session).main with
  | none => trivial
  | some main => exact haboard.tame.main main hmain

theorem stays_runMain : b.Stays c (runMain c.session) PhaseIsPlain := by
  refine stays_takeMain.bind fun main hmain => ?_
  cases main with
  | interactive => exact stays_readStatement none
  | script source name after =>
    exact (stays_runScriptMain source name after).bind fun _ _ => stays_rest
  | compile => exact hmain.elim
  | batch => exact hmain.elim

theorem stays_advance {phase : Phase} (h : PhaseIsPlain phase) :
    b.Stays c (advance c.session phase) fun phase? =>
      ∀ phase, phase? = some phase → PhaseIsPlain phase := by
  cases phase with
  | idle =>
    refine Stays.bind (stays_of_still (chore_read _)) fun live _ => ?_
    cases live with
    | false => exact stays_pure fun _ h => nomatch h
    | true =>
      refine stays_takeTask.bind fun task? htask => ?_
      cases task? with
      | some task =>
        exact (stays_runTask (htask task rfl)).bind fun _ _ => stays_pure fun _ h => by
          cases h; trivial
      | none =>
        refine Stays.bind (stays_of_still (chore_read _)) fun live _ => ?_
        cases live with
        | false => exact stays_pure fun _ h => nomatch h
        | true =>
          exact stays_runMain.bind fun phase h => stays_pure fun _ heq => by cases heq; exact h
  | reading statement =>
    exact (stays_readStatement (some statement)).bind fun phase h => stays_pure fun _ heq => by
      cases heq; exact h
  | _ => exact h.elim

/-! ## Entering -/

theorem Boards.still (h : b.Boards c (s, r)) (me : ThreadId) (hstill : Still s s') :
    b.ChildGuar c (s, r) (s', b.observer.notes me s s' r) ∧
      b.Boards c (s', b.observer.notes me s s' r) := by
  have hcalm : Calm (s, r) (s', b.observer.notes me s s' r) := calm_of_still hstill
  exact ⟨childGuar_of_calm h.child hcalm, stable_boards _ _ h (childRely_of_calm hcalm)⟩

theorem Boards.enter (h : b.Boards c (s, r)) :
    let s' := modifySession c.session (fun session => { session with owner := some c.thread }) s
    b.ChildGuar c (s, r) (s', r) ∧ b.Aboard c .running (s', r) := by
  intro s'
  have hlt : c.session < s.sessions.size := (h.sound.children c h.child).1
  have hself : s'.session c.session = { s.session c.session with owner := some c.thread } :=
    session_modifySession_self _ hlt
  have hothers : ∀ id, id ≠ c.session → s'.session id = s.session id := fun id hid =>
    session_modifySession_of_ne _ hid
  have hduty : (s'.session c.session).duty = (s.session c.session).duty := by
    rw [hself]
    rfl
  have hties : (s.session c.session).ties =
      ⟨none, false, some (.report b.channel c.label), none⟩ := congrArg View.ties h.view
  have hview : Batch.view c (s', r) = Departure.view b.channel c (some c.thread) .running := by
    obtain ⟨hcode, hdisposed, hhook, -⟩ := Session.Ties.mk.inj hties
    refine View.mk.injEq .. ▸ ⟨?_, congrArg View.registered h.view, congrArg View.sent h.view,
      congrArg View.drops h.view⟩
    simp only [hself, Session.ties, hcode, hdisposed, hhook]
  have hdisposed : (s.session c.session).disposed = true →
      (s'.session c.session).disposed = true := by
    rw [hself]
    exact id
  have hguar : b.ChildGuar c (s, r) (s', r) :=
    guar_of_session h.sound h.child rfl id (size_modifySession _) hothers
      (fun ht => by rwa [hduty]) (.inl rfl) hdisposed hview
  refine ⟨hguar, hguar.sound h.sound, h.child, by rw [hduty]; exact h.tame, fun id ho => ?_,
    fun _ => h.host, hview⟩
  by_contra hid
  rw [hothers id hid] at ho
  exact h.owned id ho

theorem upholds_entering :
    Upholds (b.ChildRely c) (b.ChildGuar c) c.thread (b.Boards c)
      (b.observe (advance c.session .entering))
      (Fate.Returns fun phase? γ => phase? = some .idle ∧ b.Aboard c .running γ) := by
  refine Upholds.observe_bind (R := fun me γ => me = c.thread ∧ b.Boards c γ)
    (upholds_observe_self stable_boards (fun γ γ' h hr => ⟨h.1, stable_boards γ γ' h.2 hr⟩)
      fun s r h => ?_) (.refl c) fun me => ?_
  · obtain ⟨hguar, h'⟩ := h.still c.thread (Still.refl s)
    exact ⟨hguar, rfl, h'⟩
  · rintro γ ⟨rfl, hγ⟩
    refine Upholds.observe_bind (R := fun _ => b.Aboard c .running)
      (upholds_observe_step stable_boards (fun _ => stable_aboard) fun s r h _ => ?_) (.refl c)
      (fun _ => upholds_observe_pure _ stable_aboard fun _ h => ⟨rfl, h⟩) γ hγ
    have hnotes : b.observer.notes c.thread s (modifySession c.session
        (fun session => { session with owner := some c.thread }) s) r = r := notes_of_rim rfl
    dsimp only
    rw [hnotes]
    exact h.enter

/-! ## Roles -/

def ChildReady (b : BatchSite) (c : Child) (id : ThreadId) (role : Role) (γ : Shell × BatchRecord) :
    Prop :=
  id = c.thread ∧ ((role = .session c.session .entering ∧ b.Boards c γ) ∨
    ∃ phase, role = .session c.session phase ∧ PhaseIsPlain phase ∧ b.Settled c γ)

theorem safe_child {id : ThreadId} {role : Role} (hsound : b.Sound γ) (hc : c ∈ γ.2.launched)
    (h : b.ChildReady c id role γ) :
    Safe (b.ChildRely c) (b.ChildGuar c) id
      (fun fate γ => ∀ role, fate = .returned (some role) → b.ChildReady c id role γ)
      (b.recorded.program role) γ := by
  have hne : c.session ≠ b.host := (hsound.children c hc).2.2.1
  obtain ⟨rfl, ⟨rfl, h⟩ | ⟨phase, rfl, hphase, h⟩⟩ := h
  · simp only [recorded, if_neg hne, program]
    refine Upholds.observe_bind upholds_entering (.refl c) (fun phase? γ h => ?_) γ h
    obtain ⟨rfl, h⟩ := h
    refine upholds_observe_pure _ stable_aboard (fun γ h role hrole => ?_) γ h
    cases hrole
    exact ⟨rfl, .inr ⟨.idle, rfl, trivial, .inl h⟩⟩
  · simp only [recorded, if_neg hne, program]
    have hnext := Stays.bind (stays_advance (b := b) (c := c) hphase)
      (f := fun phase? => pure (phase?.map (Role.session c.session)))
      (R := fun role? => ∀ role, role? = some role →
        ∃ phase, role = .session c.session phase ∧ PhaseIsPlain phase)
      fun phase? hphase? => stays_pure fun role hrole => by
        obtain ⟨phase', rfl, rfl⟩ := Option.map_eq_some_iff.mp hrole
        exact ⟨phase', rfl, hphase? phase' rfl⟩
    refine (hnext.upholds γ h).mono fun fate γ' hfate role hrole => ?_
    obtain ⟨phase', rfl, hphase'⟩ := hfate.2 _ hrole role rfl
    exact ⟨rfl, .inr ⟨phase', rfl, hphase', hfate.1⟩⟩

end BatchSite

end SessionShell
