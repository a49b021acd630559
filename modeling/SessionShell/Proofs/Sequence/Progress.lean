import SessionShell.Proofs.Sequence.Conducting

/-!
How a sequential batch gets on: from one phase of its host to the next, and when its children are
gone, always closer to the end.
-/

namespace SessionShell.Sequence

open Action Shell

variable {o : Backdrop} {tr : Dialogue.Transcript} {me : ThreadId} {g g' : Stage} {name : String}
  {targets : List String} {all done rest : List Turn} {turn : Turn} {run : BatchRun}
  {outs errs : List String}
  {shares? : Option Nat} {n : Nat} {phase : Phase}

theorem Stage.InSession.of_host {x : Session} (h : g.InSession name outs errs shares?)
    (hx : Presides name x) :
    { g with host := x }.InSession name outs errs shares? :=
  { h with host := hx }

/-- The code and the children of a batch when so many turns have been counted in. -/
structure Tallied (o : Backdrop) (done : List Turn) (run : BatchRun) (g : Stage) : Prop where
  channel : run.channel = channel
  code : run.code = foldCodes o.settings.batch.lastCode 0 done
  children : run.children.map BatchChild.session = List.range' 1 g.count
  readers : ∀ child ∈ run.children, child.interactive = false

def outsOf (o : Backdrop) (turns : List Turn) : List String :=
  turns.flatMap (Turn.outs o.settings.batch.messages)

def errsOf (turns : List Turn) : List String :=
  turns.flatMap Turn.errs

structure Between (o : Backdrop) (name : String) (all done rest : List Turn) (run : BatchRun)
    (g : Stage) :
    Prop where
  session : g.InSession name (outsOf o done) (errsOf done) (some 1)
  tallied : Tallied o done run g
  codes : g.codes = []
  pending : run.pending = 0
  turns : turns? o.settings o.files name (g.count + 1) run.targets = some rest
  all : all = done ++ rest

structure Within (o : Backdrop) (name : String) (all done : List Turn) (turn : Turn)
    (rest : List Turn) (run : BatchRun) (g : Stage) : Prop where
  session : g.InSession name (outsOf o done ++ turn.sayings.filterMap Saying.out?)
    (errsOf done ++ turn.errs)
    (some 1)
  tallied : Tallied o done run g
  codes : g.codes = [(turn.target, turn.code)]
  pending : run.pending = 1
  turns : turns? o.settings o.files name (g.count + 1) run.targets = some rest
  all : all = done ++ turn :: rest

structure Over (o : Backdrop) (name : String) (all : List Turn) (run : BatchRun) (g : Stage) :
    Prop where
  targets : run.targets = []
  session : g.InSession name (outsOf o all) (errsOf all) (some 0)
  tallied : Tallied o all run g
  codes : g.codes = []
  pending : run.pending = 0

structure Ahead (o : Backdrop) (name : String) (targets : List String) (all : List Turn)
    (g : Stage) :
    Prop where
  session : { g with host := { g.host with tasks := [] } }.InSession name [] [] none
  codes : g.codes = []
  count : g.count = 0
  main : g.host.main = some (.batch targets)
  turns : turns? o.settings o.files name 1 targets = some all

/-- Where a batch stands, and how far it is at most from its end when all its children are gone. -/
inductive Stands (o : Backdrop) (name : String) (targets : List String) (all : List Turn) :
    Nat → Phase → Stage → Prop where
  | entering {g : Stage} (h : Ahead o name targets all g)
      (htasks : g.host.tasks = [.boot .calculator]) :
    Stands o name targets all (3 * targets.length + 7) .entering g
  | booting {g : Stage} (h : Ahead o name targets all g)
      (htasks : g.host.tasks = [.boot .calculator]) :
    Stands o name targets all (3 * targets.length + 6) .idle g
  | ready {g : Stage} (h : Ahead o name targets all g) (htasks : g.host.tasks = []) :
    Stands o name targets all (3 * targets.length + 5) .idle g
  | between {g : Stage} {run : BatchRun} {done rest : List Turn}
      (h : Between o name all done rest run g) :
    Stands o name targets all (3 * run.targets.length + 4) (.batch run) g
  | within {g : Stage} {run : BatchRun} {done rest : List Turn} {turn : Turn}
      (h : Within o name all done turn rest run g) :
    Stands o name targets all (3 * run.targets.length + 6) (.collecting run false) g
  | counted {g : Stage} {run : BatchRun} {done rest : List Turn}
      (h : Between o name all done rest run g) :
    Stands o name targets all (3 * run.targets.length + 5) (.collecting run false) g
  | finished {g : Stage} {run : BatchRun} (h : Over o name all run g) :
    Stands o name targets all 3 (.collecting run true) g
  | lingering {g : Stage} {run : BatchRun} (h : Over o name all run g) :
    Stands o name targets all 2 (.lingering run) g

def Goes (o : Backdrop) (name : String) (targets : List String) (all : List Turn)
    (nearer : Nat → Prop) (phase : Phase) (g : Stage) : Prop :=
  ∃ n, Stands o name targets all n phase g ∧ nearer n

/-! ## Before the batch -/

theorem goes_entering (h : Ahead o name targets all g)
    (htasks : g.host.tasks = [.boot .calculator]) :
    (conductor o tr me).Does
      (Fate.Returns fun phase? g' => phase? = some .idle ∧ Ahead o name targets all g' ∧
        g'.host.tasks = [.boot .calculator])
      (advance 0 .entering) g :=
  (conducts_host tells_entering).does
    ⟨rfl, { h with session := h.session.of_host { h.session.host with } }, htasks⟩

theorem goes_booting (ho : Plain o) (h : Ahead o name targets all g)
    (htasks : g.host.tasks = [.boot .calculator]) :
    (conductor o tr me).Does
      (Fate.Returns fun phase? g' => phase? = some .idle ∧ Ahead o name targets all g' ∧
        g'.host.tasks = [])
      (advance 0 .idle) g := by
  have hlive : g.host.disposed = false := h.session.host.disposed
  refine (conducts_host (tells_idle_boot ho.scriptFor? hlive htasks (by rw [h.main]; rfl))).does
    ⟨rfl, ?_, rfl⟩
  exact { h with session := h.session.of_host { h.session.host with } }

theorem goes_ready (h : Ahead o name targets all g) (htasks : g.host.tasks = []) :
    (conductor o tr me).Does
      (Fate.Returns fun phase? g' => ∃ run, phase? = some (.batch run) ∧ run.targets = targets ∧
        Between o name all [] all run g')
      (advance 0 .idle) g := by
  have hlive : g.host.disposed = false := h.session.host.disposed
  have htake : Conducts o tr me (takeTask 0) g none g :=
    conducts_host
      (tells_own (fun s hs _ => by rw [hs, htasks, ← hs, modifySession_same]) (.inl rfl))
  have hmain : Conducts o tr me (takeMain 0) g (.batch targets)
      { g with host := { g.host with main := none } } :=
    conducts_host (tells_own (fun s hs _ => by rw [modifySession_eq, hs, h.main]; rfl) (.inl rfl))
  have hchannel : Conducts o tr me addChannel { g with host := { g.host with main := none } }
    channel
      { g with host := { g.host with main := none }, shares? := some 1 } :=
    conducts_addChannel h.session.shares h.codes
  have hawake : g.host.isLive = true := by simp [Session.isLive, hlive]
  refine conducts_isLive.bind ?_
  rw [if_pos hawake]
  have hbegun : Conducts o tr me (runMain 0) g (.batch ⟨targets, channel, 0, 0, []⟩)
      { g with host := { g.host with main := none }, shares? := some 1 } :=
    hmain.bind (hchannel.bind (Vantage.comes_pure _))
  refine htake.bind (conducts_isLive.bind ?_)
  rw [if_pos hawake]
  refine hbegun.bind (Vantage.does_pure ⟨_, rfl, rfl, ?_⟩)
  have hhost : Presides name { g.host with main := none } := { h.session.host with tasks := htasks }
  exact {
    session := { h.session with host := hhost, shares := rfl }
    tallied := {
      channel := rfl
      code := rfl
      children := by
        rw [show g.count = 0 from h.count]
        rfl
      readers := fun _ hchild => absurd hchild List.not_mem_nil }
    codes := h.codes
    pending := rfl
    turns := by
      rw [show g.count = 0 from h.count]
      exact h.turns
    all := rfl }

/-! ## From turn to turn -/

theorem Stage.InSession.withShares (h : g.InSession name outs errs shares?) (shares : Nat) :
    { g with shares? := some shares }.InSession name outs errs (some shares) :=
  { h with shares := rfl }

theorem Between.within_missing {target : String} {targets' : List String}
    (h : Between o name all done
    (missingTurn o.settings target :: rest) run g)
    (hrest : turns? o.settings o.files name (g.count + 1) targets' = some rest) :
    Within o name all done (missingTurn o.settings target) rest
      { run with targets := targets', channel, pending := run.pending + 1 }
      { g with
        shares? := some 1
        codes := [(target, ReservedCode.noFile.code)]
        err := g.err.print [faultText o.settings (invalidScript target)] } where
  session := {
    host := h.session.host
    newcomer := h.session.newcomer
    enrolled := h.session.enrolled
    shares := rfl
    present := h.session.present
    out := h.session.out.trans (by
      rw [show (missingTurn o.settings target).sayings.filterMap Saying.out? = [] from rfl,
        List.append_nil])
    err := (congrArg (Sheet.print _) h.session.err).trans Sheet.print_page }
  tallied := { h.tallied with channel := rfl }
  codes := rfl
  pending := congrArg (· + 1) h.pending
  turns := hrest
  all := h.all

theorem Between.within_launched {targets' : List String}
    (h : Between o name all done (turn :: rest) run g)
    (hrest : turns? o.settings o.files name (g.count + 2) targets' = some rest) :
    Within o name all done turn rest
      { run with
        targets := targets'
        channel
        pending := run.pending + 1
        children := run.children ++ [⟨g.count + 1, false⟩] }
      (g.launch turn 1) where
  session := {
    host := h.session.host
    newcomer := rfl
    enrolled := rfl
    shares := rfl
    present := h.session.present
    out := (congrArg (Sheet.print _) h.session.out).trans Sheet.print_page
    err := (congrArg (Sheet.print _) h.session.err).trans Sheet.print_page }
  tallied := {
    channel := rfl
    code := h.tallied.code
    children := by
      rw [List.map_append, h.tallied.children]
      change List.range' 1 g.count ++ [g.count + 1] = List.range' 1 (g.count + 1)
      rw [List.range'_1_concat, Nat.add_comm 1]
    readers := List.forall_mem_append.mpr ⟨h.tallied.readers, List.forall_mem_singleton.mpr rfl⟩ }
  codes := rfl
  pending := congrArg (· + 1) h.pending
  turns := hrest
  all := h.all

theorem does_startTarget {target : String} {targets' : List String} (ho : Plain o)
    (h : Between o name all done rest run g) (htargets : run.targets = target :: targets') :
    (conductor o tr me).Does
      (Fate.Returns fun run' g' => ∃ turn rest', run'.targets = targets' ∧
        Within o name all done turn rest' run' g')
      (startTarget 0 { run with targets := targets' } target) g := by
  have hchannel : run.channel = channel := h.tallied.channel
  have hturns := h.turns
  rw [htargets, turns?] at hturns
  split at hturns
  case isFalse => cases hturns
  case isTrue hscript =>
    have hsession := h.session.withShares 2
    have hsender : Conducts o tr me (addSender channel) g () { g with shares? := some 2 } :=
      conducts_addSender h.session.shares
    have hisScript : Conducts o tr me (isScriptTarget target) { g with shares? := some 2 } true
        { g with shares? := some 2 } := hscript ▸ conducts_isScriptTarget ho
    unfold startTarget
    rw [show ({ run with targets := targets' } : BatchRun).channel = channel from hchannel]
    refine hsender.bind (hisScript.bind ?_)
    cases hfile : scriptAt? o.files target with
    | none =>
      rw [hfile] at hturns
      obtain ⟨rest', hrest, rfl⟩ := Option.map_eq_some_iff.mp hturns
      exact (conducts_forkMissing hsession h.codes hfile).bind (Vantage.does_pure
        ⟨missingTurn o.settings target, rest', rfl, h.within_missing hrest⟩)
    | some file =>
      rw [hfile] at hturns
      obtain ⟨turn, hturn, hturns⟩ := Option.bind_eq_some_iff.mp hturns
      obtain ⟨rest', hrest, rfl⟩ := Option.map_eq_some_iff.mp hturns
      obtain rfl : turn.target = target := target_of_scriptTurn? hturn
      exact (conducts_fork ho hsession h.codes hfile hturn).bind
        (Vantage.does_pure ⟨turn, rest', rfl, h.within_launched hrest⟩)

theorem goes_between_cons {target : String} {targets' : List String} (ho : Plain o)
    (h : Between o name all done rest run g) (htargets : run.targets = target :: targets') :
    (conductor o tr me).Does
      (Fate.Returns fun phase g' => ∃ run' turn rest', phase = .collecting run' false ∧
        run'.targets = targets' ∧ Within o name all done turn rest' run' g')
      (nextTarget 0 run) g := by
  unfold nextTarget
  rw [htargets]
  refine conducts_isLive.bind ?_
  rw [if_pos (show g.host.isLive = true by simp [Session.isLive, h.session.host.disposed])]
  refine (does_startTarget ho h htargets).bind ?_
  rintro run' g' ⟨turn, rest', htargets', hwithin⟩
  refine conducts_getSettings.bind ?_
  rw [if_pos ho.sequential]
  exact Vantage.does_pure ⟨run', turn, rest', rfl, htargets', hwithin⟩

theorem goes_between_nil (h : Between o name all done rest run g) (htargets : run.targets = []) :
    (conductor o tr me).Does
      (Fate.Returns fun phase g' => phase = .collecting run true ∧ Over o name all run g')
      (nextTarget 0 run) g := by
  have hturns := h.turns
  rw [htargets] at hturns
  have hrest : rest = [] := (Option.some.inj hturns).symm
  have hall : all = done := by rw [h.all, hrest, List.append_nil]
  subst hall
  have hdrop : Conducts o tr me (Action.update (dropSender run.channel)) g
      () { g with shares? := some 0 } :=
    h.tallied.channel ▸ conducts_dropSender h.session.shares
  unfold nextTarget
  rw [htargets]
  refine hdrop.bind
    (Vantage.does_pure ⟨rfl, htargets, h.session.withShares 0, ?_, h.codes, h.pending⟩)
  exact { h.tallied with }

theorem outsOf_snoc :
    outsOf o (done ++ [turn]) = outsOf o done ++ turn.sayings.filterMap Saying.out? ++
    statusLines o.settings.batch.messages turn.target turn.code := by
  rw [outsOf, List.flatMap_append, List.flatMap_singleton, List.append_assoc]
  rfl

theorem errsOf_snoc : errsOf (done ++ [turn]) = errsOf done ++ turn.errs := by
  rw [errsOf, List.flatMap_append, List.flatMap_singleton]
  rfl

theorem Within.count (h : Within o name all done turn rest run g) (alarm : Nat) (gone : Bool) :
    Between o name all (done ++ [turn]) rest
      { run with
        pending := 0
        code := Batch.fold o.settings.batch.lastCode run.code turn.code }
      { g with
        codes := []
        alarm := alarm
        gone := gone
        out := g.out.print (statusLines o.settings.batch.messages turn.target turn.code) } where
  session := {
    h.session with
    out := by
      change g.out.print _ = _
      rw [h.session.out, Sheet.print_page, outsOf_snoc]
    err := by
      change g.err = _
      rw [h.session.err, errsOf_snoc] }
  tallied := {
    h.tallied with
    code := by
      change Batch.fold _ run.code turn.code = _
      rw [h.tallied.code, foldCodes, foldCodes, List.foldl_append]
      rfl }
  codes := rfl
  pending := rfl
  turns := h.turns
  all := by rw [h.all, List.append_assoc, List.singleton_append]

theorem conducts_refocus (hreaders : ∀ child ∈ run.children, child.interactive = false) :
    Conducts o tr me (refocus 0 run) g () g := by
  have hnone : Conducts o tr me (Action.read fun s : Shell => run.children.find? fun child =>
      child.interactive && (s.session child.session).isLive) g none g :=
    conducts_look fun _ _ _ s _ => List.find?_eq_none.mpr fun child hchild => by
      simp [hreaders child hchild]
  refine conducts_getSession.bind ?_
  split
  · exact hnone.bind (Vantage.comes_pure ())
  · exact Vantage.comes_pure ()

theorem Within.alarm (h : Within o name all done turn rest run g) (alarm : Nat) :
    Within o name all done turn rest run { g with alarm } :=
  { h with
    session := { h.session with }
    tallied := { h.tallied with } }

theorem Over.alarm (h : Over o name all run g) (alarm : Nat) :
    Over o name all run { g with alarm } :=
  { h with
    session := { h.session with }
    tallied := { h.tallied with } }

theorem goes_within (h : Within o name all done turn rest run g) :
    (conductor o tr me).Does
      (Fate.Returns fun phase g' =>
        phase = .collecting run false ∧ Within o name all done turn rest run g' ∧ g.gone = false ∨
        ∃ run', run'.targets = run.targets ∧ Between o name all (done ++ [turn]) rest run' g' ∧
          (phase = .collecting run' false ∨ phase = .batch run'))
      (collect 0 run false) g := by
  have hlive : g.host.disposed = false := h.session.host.disposed
  obtain ⟨targets', channel', pending, code, children⟩ := run
  obtain rfl : channel' = channel := h.tallied.channel
  obtain rfl : pending = 1 := h.pending
  unfold collect
  rw [if_neg Nat.one_ne_zero]
  refine (does_receive h.session.shares h.codes).bind ?_
  rintro received g' ⟨alarm, ⟨rfl, rfl⟩ | ⟨rfl, rfl⟩⟩
  · refine Vantage.Comes.bind (conducts_record _ _ _ ?_ ?_) (Vantage.does_pure ?_)
    · exact hlive
    · rfl
    · exact .inr ⟨_, by rfl, h.count alarm g.gone, .inl rfl⟩
  · have halarm := h.alarm alarm
    refine conducts_isLive.bind ?_
    refine (does_anyChildLive halarm.tallied.children).bind ?_
    rintro live g' (⟨rfl, hgone, rfl⟩ | ⟨rfl, rfl⟩)
    · rw [if_pos (by simp [Session.isLive, hlive])]
      exact (conducts_refocus h.tallied.readers).bind
        (Vantage.does_pure (.inl ⟨rfl, halarm, hgone⟩))
    · rw [if_neg (by simp)]
      refine Vantage.Comes.bind (does_takeCodes h.session.shares rfl) ?_
      have hcodes : ∀ run, recordAll 0 run [(turn.target, turn.code)] =
          record 0 run turn.target turn.code >>= pure := fun _ => rfl
      dsimp only
      rw [h.codes, hcodes, bind_pure]
      refine Vantage.Comes.bind (conducts_record _ _ _ ?_ ?_) (Vantage.does_pure ?_)
      · exact hlive
      · rfl
      · exact .inr ⟨_, by rfl, h.count alarm true, .inr rfl⟩

theorem goes_counted (h : Between o name all done rest run g) :
    Conducts o tr me (collect 0 run false) g (.batch run) g := by
  unfold collect
  rw [if_pos h.pending]
  exact Vantage.comes_pure _

theorem goes_over (h : Over o name all run g) :
    Conducts o tr me (collect 0 run true) g (.lingering run) g := by
  unfold collect
  rw [if_pos h.pending]
  exact Vantage.comes_pure _

theorem goes_lingering (ho : Plain o) (h : Over o name all run g)
    (htr : tr = transcript o.settings all) :
    (conductor o tr me).Does
      (Fate.Returns fun phase g' => phase = .lingering run ∧ Over o name all run g' ∧
        g.gone = false)
      (linger 0 run) g := by
  have hlive : g.host.disposed = false := h.session.host.disposed
  refine conducts_isLive.bind ?_
  refine (does_anyChildLive h.tallied.children).bind ?_
  rintro live g' (⟨rfl, hgone, rfl⟩ | ⟨rfl, rfl⟩)
  · rw [if_pos (by simp [Session.isLive, hlive])]
    refine (does_sleep _).bind ?_
    rintro - g' ⟨alarm, rfl⟩
    exact Vantage.does_pure ⟨rfl, h.alarm alarm, hgone⟩
  · rw [if_neg (by simp)]
    have hgone : Over o name all run { g with gone := true } :=
      { h with session := { h.session with }, tallied := { h.tallied with } }
    refine conducts_isLive.bind ?_
    rw [if_pos (by simp [Session.isLive, hlive])]
    refine Vantage.Does.bind (R := fun _ _ => False) ?_ fun _ _ hfalse => hfalse.elim
    refine Vantage.Does.bind (R := fun _ _ => False) ?_ fun _ _ hfalse => hfalse.elim
    exact does_finish ho hgone.session hgone.codes rfl (by rw [htr]; rfl) (by rw [htr]; rfl)
      (by rw [htr, hgone.tallied.code]; rfl)

/-! ## From phase to phase -/

theorem Stands.known (h : Stands o name targets all n phase g) :
    Stands o name targets all n phase { g with gone := true } := by
  cases h with
  | entering h htasks => exact .entering { h with session := { h.session with } } htasks
  | booting h htasks => exact .booting { h with session := { h.session with } } htasks
  | ready h htasks => exact .ready { h with session := { h.session with } } htasks
  | between h =>
    exact .between { h with session := { h.session with }, tallied := { h.tallied with } }
  | within h =>
    exact .within { h with session := { h.session with }, tallied := { h.tallied with } }
  | counted h =>
    exact .counted { h with session := { h.session with }, tallied := { h.tallied with } }
  | finished h =>
    exact .finished { h with session := { h.session with }, tallied := { h.tallied with } }
  | lingering h =>
    exact .lingering { h with session := { h.session with }, tallied := { h.tallied with } }

/-- The host goes on from phase to phase. When its children are known to be gone, the end comes
closer. -/
theorem Stands.goes (ho : Plain o) (htr : tr = transcript o.settings all)
    (h : Stands o name targets all n phase g) :
    (conductor o tr me).Does
      (Fate.Returns fun phase? g' => ∃ phase', phase? = some phase' ∧
        Goes o name targets all (fun n' => g.gone = true → n' < n) phase' g')
      (advance 0 phase) g := by
  cases h with
  | entering h htasks =>
    refine (goes_entering h htasks).imp ?_
    rintro _ g' ⟨rfl, h', htasks'⟩
    exact ⟨_, rfl, _, .booting h' htasks', fun _ => by omega⟩
  | booting h htasks =>
    refine (goes_booting ho h htasks).imp ?_
    rintro _ g' ⟨rfl, h', htasks'⟩
    exact ⟨_, rfl, _, .ready h' htasks', fun _ => by omega⟩
  | ready h htasks =>
    refine (goes_ready h htasks).imp ?_
    rintro _ g' ⟨run, rfl, htargets, h'⟩
    exact ⟨_, rfl, _, .between h', fun _ => by rw [htargets]; omega⟩
  | @between _ run done rest h =>
    cases htargets : run.targets with
    | nil =>
      refine (goes_between_nil h htargets).bind ?_
      rintro _ g' ⟨rfl, h'⟩
      exact Vantage.does_pure ⟨_, rfl, _, .finished h', fun _ => by simp⟩
    | cons target targets' =>
      refine (goes_between_cons ho h htargets).bind ?_
      rintro _ g' ⟨run', turn, rest', rfl, htargets', h'⟩
      refine Vantage.does_pure ⟨_, rfl, _, .within h', fun _ => ?_⟩
      rw [htargets', List.length_cons]
      omega
  | within h =>
    refine (goes_within h).bind ?_
    rintro _ g' (⟨rfl, h', hgone⟩ | ⟨run', htargets, h', rfl | rfl⟩)
    · exact Vantage.does_pure ⟨_, rfl, _, .within h', fun hknown => nomatch hgone.symm.trans hknown⟩
    · exact Vantage.does_pure ⟨_, rfl, _, .counted h', fun _ => by rw [htargets]; omega⟩
    · exact Vantage.does_pure ⟨_, rfl, _, .between h', fun _ => by rw [htargets]; omega⟩
  | counted h =>
    exact (goes_counted h).bind (Vantage.does_pure ⟨_, rfl, _, .between h, fun _ => by omega⟩)
  | finished h =>
    exact (goes_over h).bind (Vantage.does_pure ⟨_, rfl, _, .lingering h, fun _ => by omega⟩)
  | lingering h =>
    refine (goes_lingering ho h htr).bind ?_
    rintro _ g' ⟨rfl, h', hgone⟩
    exact Vantage.does_pure
      ⟨_, rfl, _, .lingering h', fun hknown => nomatch hgone.symm.trans hknown⟩

end SessionShell.Sequence
