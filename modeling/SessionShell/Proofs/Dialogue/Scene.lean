import SessionShell.Proofs.Calc.Asking
import SessionShell.Proofs.Dialogue.Transcript
import SessionShell.Proofs.Turns.Printing

/-!
A shell with one session, scene by scene.

All that changes in the course of a dialogue, but for what is printed, is the session itself, the
registry, its mailbox and what is left of the input.
-/

namespace SessionShell

open Action Shell

structure Scene where
  session : Session
  registry : Registry
  mailbox : Mailbox
  reader : Reader

def Scene.on (σ : Scene) (o : Shell) : Shell :=
  { o with
    sessions := #[σ.session]
    registry := σ.registry
    console := { o.console with
      input := { o.console.input with queue := [] }
      reader := σ.reader
      mailboxes := #[σ.mailbox] }
    ended := none }

namespace Scene

variable {o : Shell} {part : Part} {σ : Scene} {w : Writing} {d : Drafts} {α β : Type}

def Open (part : Part) (o : Shell) : Prop :=
  ∀ σ : Scene, part.mayGo (σ.on o)

section

variable (hopen : Open part o)

include hopen

theorem plays_getSession : Plays part (getSession 0) (σ.on o) w (.returned σ.session) (σ.on o) w :=
  plays_read (hopen σ) fun _ => rfl

theorem plays_updateSession (f : Session → Session) :
    Plays part (updateSession 0 f) (σ.on o) w (.returned ())
      ({ σ with session := f σ.session }.on o) w :=
  plays_update (hopen σ) fun _ => rfl

theorem plays_updateSession_eq {f : Session → Session} {session : Session}
    (h : f σ.session = session) :
    Plays part (updateSession 0 f) (σ.on o) w (.returned ()) ({ σ with session }.on o) w := by
  rw [← h]
  exact plays_updateSession hopen f

theorem plays_isLive : Plays part (isLive 0) (σ.on o) w (.returned σ.session.isLive) (σ.on o) w :=
  plays_read (hopen σ) fun _ => rfl

theorem plays_sessionCount :
    Plays part sessionCount (σ.on o) w (.returned σ.registry.length) (σ.on o) w :=
  plays_read (hopen σ) fun _ => rfl

theorem plays_getSettings : Plays part getSettings (σ.on o) w (.returned o.settings) (σ.on o) w :=
  plays_read (hopen σ) fun _ => rfl

theorem plays_ensureLive (hlive : σ.session.disposed = false) :
    Plays part (ensureLive 0).run (σ.on o) w (.returned (.ok ())) (σ.on o) w := by
  refine Plays.lift_bind (plays_getSession hopen) ?_
  simp only [Session.isLive, hlive, Bool.not_false, if_true]
  exact plays_pure _

/-! ## What is printed -/

theorem plays_out (text : String) (hlive : σ.session.disposed = false) :
    Plays part (out 0 text).run (σ.on o) d.writing (.returned (.ok ())) (σ.on o)
      (d.print [text]).writing :=
  Plays.run_bind (plays_ensureLive hopen hlive)
    (Plays.lift_bind (Drafts.plays_print text (hopen σ)) (plays_pure _))

theorem plays_sayLine (text : String) (hlive : σ.session.disposed = false) :
    Plays part (sayLine 0 text) (σ.on o) d.writing (.returned ()) (σ.on o)
      (d.print [text ++ "\n"]).writing :=
  (plays_out hopen (text ++ "\n") hlive).discard

theorem plays_reportError (fault : Fault) :
    Plays part (reportError fault) (σ.on o) d.writing (.returned ()) (σ.on o)
      (d.printError [faultText o.settings fault]).writing :=
  (plays_getSettings hopen).bind (Drafts.plays_printError _ (hopen σ))

theorem plays_warning (message : String) :
    Plays part (warning message) (σ.on o) d.writing (.returned ()) (σ.on o)
      (d.printError [Dialogue.warningText o.settings message]).writing :=
  (plays_getSettings hopen).bind (Drafts.plays_printError _ (hopen σ))

end

/-!
## How the only session leaves

When all that was printed is written, everything ends, once and for all.
-/

structure Sole (σ : Scene) : Prop where
  disposed : σ.session.disposed = false
  exitCode : σ.session.exitCode = none
  exitHook : σ.session.exitHook = none
  compiling : σ.session.compiling = none
  jobs : σ.session.jobs = []
  tasks : σ.session.tasks = []
  registry : σ.registry = [0]

section

variable (hopen : Open part o)

include hopen

theorem plays_recordCode (code : Int) (h : σ.Sole) :
    Plays part (recordCode 0 code).run (σ.on o) d.writing (.returned (.ok none))
      ({ σ with session := { σ.session with exitCode := some code, exitHook := none } }.on o)
        d.writing := by
  have hopen' : ¬(σ.session.disposed ∨ σ.session.exitCode.isSome) := by
    simp [h.disposed, h.exitCode]
  refine plays_step (hopen σ) fun x => (if_neg hopen').trans ?_
  change (Except.ok σ.session.exitHook, _) = _
  rw [h.exitHook]
  rfl

theorem plays_leave (code : Int) (hregistry : σ.registry = [0]) :
    Plays part (leave 0 code none true) (σ.on o) d.writing (.returned true)
      ({ σ with session := { σ.session with current := false }, registry := [] }.on o)
        d.writing := by
  obtain ⟨session, registry, mailbox, reader⟩ := σ
  cases hregistry
  let unseated : Session := { session with current := false }
  have hlose : Plays part (loseFocus 0) (Scene.on ⟨session, [0], mailbox, reader⟩ o) d.writing
      (.returned session.current) (Scene.on ⟨unseated, [0], mailbox, reader⟩ o) d.writing :=
    plays_step (hopen _) fun _ => rfl
  have hleave : Plays part (leaveRegistry 0) (Scene.on ⟨unseated, [0], mailbox, reader⟩ o) d.writing
      (.returned .last) (Scene.on ⟨unseated, [], mailbox, reader⟩ o) d.writing :=
    plays_step (hopen _) fun _ => rfl
  exact hlose.bind (hleave.bind (plays_pure true))

theorem plays_dispose (hcompiling : σ.session.compiling = none) (hhook : σ.session.exitHook = none)
    (hjobs : σ.session.jobs = []) (htasks : σ.session.tasks = []) :
    ∃ session, Plays part (dispose 0) (σ.on o) d.writing (.returned ()) ({ σ with session }.on o)
      d.writing := by
  obtain ⟨session, registry, mailbox, reader⟩ := σ
  let marked : Session := { session with
    disposed := true, compiling := none, interpreter := none, main := none, exitHook := none }
  have hmark : Plays part (markDisposed 0)
    (Scene.on ⟨session, registry, mailbox, reader⟩ o) d.writing
      (.returned none) (Scene.on ⟨marked, registry, mailbox, reader⟩ o) d.writing := by
    refine plays_step (hopen _) fun x => ?_
    change (session.exitHook, modifySession 0 _ (session.compiling.elim _ _)) = _
    rw [hcompiling, hhook]
    rfl
  have hcancel : Plays part (cancelJobs 0)
    (Scene.on ⟨marked, registry, mailbox, reader⟩ o) d.writing
      (.returned ())
      (Scene.on ⟨{ marked with jobs := [] }, registry, mailbox, reader⟩ o) d.writing := by
    refine plays_update (hopen _) fun x => ?_
    change modifySession 0 _ ((session.jobs.filter _).foldl _ _) = _
    rw [hjobs]
    rfl
  have hdrop : Plays part (dropTasks 0)
    (Scene.on ⟨{ marked with jobs := [] }, registry, mailbox, reader⟩ o)
      d.writing (.returned ())
      (Scene.on ⟨{ marked with jobs := [], tasks := [] }, registry, mailbox, reader⟩ o)
        d.writing := by
    refine plays_update (hopen _) fun x => ?_
    change modifySession 0 _ (session.tasks.foldl _ _) = _
    rw [htasks]
    rfl
  exact ⟨_, hmark.bind ((plays_pure ()).bind (hcancel.bind (hdrop.bind
    ((plays_updateSession hopen _).bind (plays_updateSession hopen _)))))⟩

theorem plays_terminate (code : Int) (hends : o.endsProcess = true) :
    Plays part (terminate code) (σ.on o) d.writing .halted { σ.on o with ended := some code }
      d.sync.writing := by
  refine Plays.bind (Drafts.plays_sync (hopen σ)) ?_
  refine Plays.bind (plays_read (hopen σ) fun x => hends) ?_
  exact Plays.bind (plays_update (hopen σ) fun _ => rfl) plays_halt

theorem plays_finish (code : Int) (h : σ.Sole) (hends : o.endsProcess = true) :
    ∃ σ' : Scene, Plays part (finish 0 code true true).run (σ.on o) d.writing .halted
      { σ'.on o with ended := some code } d.sync.writing := by
  let coded : Session :=
    { σ.session with exitCode := some code, exitHook := none, current := false }
  obtain ⟨session, hdispose⟩ :=
    plays_dispose (d := d) hopen (σ := { σ with session := coded, registry := [] })
    h.compiling rfl h.jobs h.tasks
  refine ⟨⟨session, [], σ.mailbox, σ.reader⟩, (plays_recordCode hopen code h).run_bind ?_⟩
  refine Plays.lift_bind (plays_leave hopen code h.registry) (Plays.lift_bind hdispose ?_)
  exact Plays.bind_halted (plays_terminate hopen code hends)

theorem plays_exit (code : Int) (h : σ.Sole) (hends : o.endsProcess = true) :
    ∃ σ' : Scene, Plays part (exit 0 code).run (σ.on o) d.writing .halted
      { σ'.on o with ended := some (ExitCode.sanitize code) }
      (d.printError
        ((ExitCode.remapWarning? code).map
        (Dialogue.warningText o.settings)).toList).sync.writing := by
  obtain ⟨σ', hfinish⟩ := plays_finish (d := d.printError
    ((ExitCode.remapWarning? code).map (Dialogue.warningText o.settings)).toList) hopen
    (ExitCode.sanitize code) h hends
  refine ⟨σ', (plays_ensureLive hopen h.disposed).run_bind ?_⟩
  cases hwarning : ExitCode.remapWarning? code with
  | none =>
    rw [hwarning, Option.map_none, Option.toList_none, Drafts.printError_nil] at hfinish
    rw [Option.map_none, Option.toList_none, Drafts.printError_nil]
    exact hfinish
  | some message =>
    rw [hwarning] at hfinish
    exact Plays.lift_bind (plays_warning hopen message) hfinish

end

end Scene

end SessionShell

/-!
How the only session evaluates a statement: what it prints, what it reports, and what it leaves for
the next statement, if it does not exit.
-/

namespace SessionShell.Scene

open Action Shell Dialogue

variable {o : Shell} {part : Part} {σ : Scene} {d : Drafts} {α : Type}

def warnings (o : Shell) (code : Int) : List String :=
  ((ExitCode.remapWarning? code).map (warningText o.settings)).toList

def Says (part : Part) (o : Shell) (σ : Scene) (d : Drafts) (Q : α → Prop) (p : Action Shell α)
    (texts : List String) : TextEnd α → Prop
  | .returned a =>
    Q a ∧ Plays part p (σ.on o) d.writing (.returned a) (σ.on o) (d.print texts).writing
  | .crashed => Plays part p (σ.on o) d.writing .crashed (σ.on o) (d.print texts).writing
  | .exited code => ∃ σ' : Scene, Plays part p (σ.on o) d.writing .halted
      { σ'.on o with ended := some (ExitCode.sanitize code) }
      ((d.print texts).printError (warnings o code)).sync.writing

theorem Says.bind {β : Type} {Q : α → Prop} {q : Action Shell β} {f : β → Action Shell α} {b : β}
    {first texts : List String} {ending : TextEnd α}
    (hq : Plays part q (σ.on o) d.writing (.returned b) (σ.on o) (d.print first).writing)
    (hf : Says part o σ (d.print first) Q (f b) texts ending) :
    Says part o σ d Q (q >>= f) (first ++ texts) ending := by
  cases ending with
  | returned a =>
    rw [Says, ← Drafts.print_print]
    exact ⟨hf.1, hq.bind hf.2⟩
  | crashed =>
    rw [Says, ← Drafts.print_print]
    exact hq.bind hf
  | exited code =>
    obtain ⟨σ', hplays⟩ := hf
    rw [Says, ← Drafts.print_print]
    exact ⟨σ', hq.bind hplays⟩

structure Evaluated (part : Part) (o : Shell) (σ : Scene) (d : Drafts)
    (interpreter : Interpreter SessionId)
    (statement : String) (texts : List String) (result : Except Fault (Option String))
    (left : Interpreter SessionId) : Prop where
  binds : left.BindsOnly (· = 0)
  plays : Plays part (evalWith interpreter statement none) (σ.on o) d.writing
    (.returned (result, left))
    (σ.on o) (d.print texts).writing

theorem exists_evaluated {statement : String} {interpreter : Interpreter SessionId}
    {texts : List String} {ending : TextEnd (Except Fault (Option String) × Interpreter SessionId)}
    (hbinds : interpreter.BindsOnly (· = 0)) (hexit : ∀ code, ending ≠ .exited code)
    (h : Says part o σ d (fun x => x.2.BindsOnly (· = 0))
      ((interpreter.eval statement none).expand answerHost) texts ending) :
    ∃ result left, Evaluated part o σ d interpreter statement texts result left ∧
      respond o.settings interpreter texts ending =
        respond o.settings interpreter texts (.returned (result, left)) := by
  cases ending with
  | returned x => exact ⟨x.1, x.2, ⟨h.1, h.2.attempt.bind (plays_pure _)⟩, rfl⟩
  | crashed => exact ⟨_, interpreter, ⟨hbinds, Plays.bind (Plays.attempt h) (plays_pure _)⟩, rfl⟩
  | exited code => exact absurd rfl (hexit code)

section

variable (hopen : Open part o)

include hopen

theorem says_expand {Q : α → Prop} {name : String} {p : Hosted SessionId α} {texts : List String}
    {ending : TextEnd α} (h : σ.Sole) (hname : σ.session.name = name) (hends : o.endsProcess = true)
    (hasks : p.Asks (fun r => r.host = 0) Q) (hspoken : p.spoken? name = some (texts, ending)) :
    Says part o σ d Q (p.expand answerHost) texts ending := by
  induction p generalizing texts d with
  | done a =>
    cases hspoken
    exact ⟨hasks, by rw [Drafts.print_nil]; exact plays_pure a⟩
  | crash =>
    cases hspoken
    rw [Says, Drafts.print_nil]
    exact .crash _ _
  | ask r next ih =>
    obtain ⟨host, call⟩ := r
    obtain ⟨rfl, hnext⟩ := hasks
    cases call with
    | name =>
      have hanswer : Plays part (answerHost ⟨0, .name⟩) (σ.on o) d.writing (.returned name) (σ.on o)
          (d.print []).writing := by
        rw [Drafts.print_nil, ← hname]
        exact (plays_getSession hopen).bind (plays_pure _)
      exact Says.bind hanswer (ih name (hnext name) hspoken)
    | out text =>
      obtain ⟨⟨rest, ending'⟩, hrest, heq⟩ := Option.map_eq_some_iff.mp hspoken
      cases heq
      have hanswer : Plays part (answerHost ⟨0, .out text⟩) (σ.on o) d.writing (.returned (.ok ()))
          (σ.on o) (d.print [text]).writing :=
        (plays_out hopen text h.disposed).bind (plays_pure _)
      exact Says.bind hanswer (ih (.ok ()) (hnext _) hrest)
    | exit code =>
      cases hspoken
      obtain ⟨σ', hexit⟩ := plays_exit (d := d) hopen code h hends
      refine ⟨σ', ?_⟩
      rw [Drafts.print_nil]
      exact Plays.bind_halted hexit.bind_halted
    | _ => cases hspoken

/-! ## Statements -/

theorem plays_claimInterpreter {interpreter : Interpreter SessionId}
    (howner : σ.session.owner = some part.me)
    (hinterpreter : σ.session.interpreter = some interpreter) :
    Plays part (claimInterpreter 0).run (σ.on o) d.writing (.returned (.ok interpreter))
      ({ σ with session := { σ.session with interpreter := none } }.on o) d.writing := by
  have hcheck : Plays part (checkOwner 0).run (σ.on o) d.writing (.returned (.ok ()))
      (σ.on o) d.writing := by
    refine Plays.lift_bind (plays_self (hopen σ)) (Plays.lift_bind (plays_getSession hopen) ?_)
    rw [howner]
    dsimp only
    rw [if_neg (not_not.mpr rfl)]
    exact plays_pure _
  have htake : Plays part (takeInterpreter 0) (σ.on o) d.writing (.returned (some interpreter))
      ({ σ with session := { σ.session with interpreter := none } }.on o) d.writing := by
    refine plays_step (hopen σ) fun x => ?_
    change (σ.session.interpreter, _) = _
    rw [hinterpreter]
    rfl
  exact hcheck.run_bind (htake.lift_bind (plays_pure _))

theorem plays_putInterpreter (interpreter : Interpreter SessionId)
    (hlive : σ.session.disposed = false) (hnone : σ.session.interpreter = none) :
    Plays part (putInterpreter 0 interpreter) (σ.on o) d.writing (.returned ())
      ({ σ with session := { σ.session with interpreter := some interpreter } }.on o)
        d.writing := by
  have hput : ¬(σ.session.disposed ∨ σ.session.interpreter.isSome) := by simp [hlive, hnone]
  exact plays_updateSession_eq hopen (if_neg hput)

/-- A statement that was evaluated, with what was reported and what is left for the next one. -/
def Responds (part : Part) (o : Shell) (σ : Scene) (d : Drafts) (p : Action Shell Unit)
    (r : Response) :
    Prop :=
  match r.next with
  | .ok interpreter => interpreter.BindsOnly (· = 0) ∧
    Plays part p (σ.on o) d.writing (.returned ())
      ({ σ with session := { σ.session with interpreter := some interpreter } }.on o)
      ((d.print r.out).printError r.err).writing
  | .error code => ∃ σ' : Scene, Plays part p (σ.on o) d.writing .halted
      { σ'.on o with ended := some (ExitCode.sanitize code) }
      ((d.print r.out).printError r.err).sync.writing

theorem responds_evaluateStatement {name statement : String} {interpreter : Interpreter SessionId}
    {r : Response} (h : σ.Sole) (hname : σ.session.name = name) (hends : o.endsProcess = true)
    (howner : σ.session.owner = some part.me)
    (hinterpreter : σ.session.interpreter = some interpreter)
    (hbinds : interpreter.BindsOnly (· = 0))
    (hr : response? o.settings name interpreter statement = some r) :
    Responds part o σ d (evaluateStatement 0 statement) r := by
  rw [response?] at hr
  by_cases hblank : (Text.trim statement).isEmpty
  · rw [if_pos hblank] at hr
    cases hr
    refine ⟨hbinds, ?_⟩
    have hsame : { σ.session with interpreter := some interpreter } = σ.session := by
      rw [← hinterpreter]
    rw [hsame, Drafts.print_nil, Drafts.printError_nil, evaluateStatement, if_pos hblank]
    exact plays_pure ()
  · rw [if_neg hblank] at hr
    obtain ⟨⟨texts, ending⟩, hspoken, rfl⟩ := Option.map_eq_some_iff.mp hr
    rw [evaluateStatement, if_neg hblank]
    dsimp only
    let busy : Scene := { σ with session := { σ.session with interpreter := none } }
    have hbusy : busy.Sole :=
      ⟨h.disposed, h.exitCode, h.exitHook, h.compiling, h.jobs, h.tasks, h.registry⟩
    have hclaim : Plays part (asFault (claimInterpreter 0)) (σ.on o) d.writing
      (.returned (.ok interpreter))
        (busy.on o) d.writing :=
      (plays_claimInterpreter hopen howner hinterpreter).bind (plays_pure _)
    have hsays : Says part o busy d (fun x => x.2.BindsOnly (· = 0))
        ((interpreter.eval statement none).expand answerHost) texts ending :=
      says_expand hopen hbusy hname hends (Interpreter.asks_eval hbinds statement none) hspoken
    by_cases hexit : ∃ code, ending = .exited code
    · obtain ⟨code, rfl⟩ := hexit
      obtain ⟨σ', hplays⟩ := hsays
      have hevaluate : Plays part (evaluate 0 statement none).run (σ.on o) d.writing .halted
          { σ'.on o with ended := some (ExitCode.sanitize code) }
          ((d.print texts).printError (warnings o code)).sync.writing :=
        hclaim.bind (Plays.bind_halted (Plays.bind_halted hplays.attempt))
      exact ⟨σ', Plays.bind_halted (Plays.bind_halted hevaluate.attempt)⟩
    · obtain ⟨result, left, ⟨hleft, hplays⟩, hrespond⟩ :=
        exists_evaluated hbinds (fun code hcode => hexit ⟨code, hcode⟩) hsays
      rw [hrespond]
      let after : Scene := { σ with session := { σ.session with interpreter := some left } }
      have hevaluate : Plays part (evaluate 0 statement none).run (σ.on o) d.writing
        (.returned result)
          (after.on o) (d.print texts).writing :=
        hclaim.bind (hplays.bind
          ((plays_putInterpreter (σ := busy) hopen left h.disposed rfl).bind (plays_pure _)))
      cases result with
      | ok value =>
        have hguarded : Plays part (guarded 0 (evaluate 0 statement none)) (σ.on o) d.writing
            (.returned (some value)) (after.on o) (d.print texts).writing :=
          hevaluate.attempt.bind (plays_pure _)
        refine ⟨hleft, hguarded.bind ?_⟩
        cases value with
        | none =>
          rw [respond, Option.map_none, Option.toList_none, List.append_nil, Drafts.printError_nil]
          exact plays_pure ()
        | some text =>
          rw [respond, Option.map_some, Option.toList_some, ← Drafts.print_print,
            Drafts.printError_nil]
          exact plays_sayLine hopen text h.disposed
      | error fault =>
        have hlive : after.session.isLive = true := by simp [after, Session.isLive, h.disposed]
        have hguarded : Plays part (guarded 0 (evaluate 0 statement none)) (σ.on o) d.writing
            (.returned none) (after.on o)
            ((d.print texts).printError [faultText o.settings fault]).writing := by
          refine hevaluate.attempt.bind (Plays.bind (plays_pure fault) ?_)
          refine Plays.bind (plays_isLive (σ := after) hopen) ?_
          rw [hlive]
          exact (plays_reportError hopen fault).bind (plays_pure none)
        exact ⟨hleft, hguarded.bind (plays_pure ())⟩

end

end SessionShell.Scene
