import SessionShell.Proofs.Dialogue.Scene
import SessionShell.Proofs.Prompt.Formatter

/-!
How the only session asks for a line, and how the thread that reads the input answers it: behind all
that was printed before, and behind the prompt.
-/

namespace SessionShell

open Action Shell Dialogue

def readerThread : ThreadId := 3

def firstThread : ThreadId := 4

/-- A session that has the console to itself, between two of its lines. -/
structure Talk where
  name : String
  turns : Nat
  main : Option MainTask
  prompt : PromptFormatter
  interpreter : Interpreter SessionId
  reader : Reader

namespace Talk

def session (t : Talk) : Session where
  name := t.name
  script := none
  current := true
  focus := ⟨1, t.turns, t.turns⟩
  tasks := []
  mailbox := 0
  asking := false
  jobs := []
  language := some .calculator
  owner := some firstThread
  disposed := false
  exitCode := none
  interpreter := some t.interpreter
  main := t.main
  exitHook := none
  compiling := none
  prompt := t.prompt

def scene (t : Talk) : Scene :=
  ⟨t.session, [0], .new, t.reader⟩

theorem sole (t : Talk) : t.scene.Sole :=
  ⟨rfl, rfl, rfl, rfl, rfl, rfl, rfl⟩

end Talk

/-- The part of the thread that reads, as long as the session waits for its line. -/
def listening : Part where
  me := readerThread
  mayGo b := b.ended = none ∧ (b.console.mailbox 0).held = none
  aside _ _ _ _ _ := False

/-- The part of the session's thread. Its line is read while it waits. -/
def speaking : Part where
  me := firstThread
  mayGo b := b.ended = none ∧ b.console.input.queue = []
  aside act b w b' w' :=
    (∀ b, listening.mayGo b → ∀ x, act.run firstThread (b.writing x) = none) ∧
      Plays listening (program (.stream .input)) b w (.returned (some (.stream .input))) b' w'

variable {o : Shell} {σ : Scene} {d : Drafts} {w : Writing} {t : Talk}
  {outcome : ReadOutcome} {r : Reader}

theorem open_speaking : Scene.Open speaking o :=
  fun _ => ⟨rfl, rfl⟩

namespace Scene

theorem enqueue_empty {ρ : Type} (s : StreamService ρ) (q : Queued ρ) :
    ({ s with queue := [] } : StreamService ρ).enqueue q = { s with queue := [q] } := by
  rw [StreamService.enqueue]
  split <;> rfl

def asking (σ : Scene) (o : Shell) (text : String) : Shell :=
  { σ.on o with console := { (σ.on o).console with
      input := { o.console.input with queue := [.request ⟨text, 0⟩] } } }

theorem plays_serveLine (text : String) (hmailbox : σ.mailbox = .new)
    (hr : σ.reader.takeLine? = some (outcome, r)) :
    Plays listening (program (.stream .input)) (σ.asking o text) d.writing
      (.returned (some (.stream .input)))
      ({ σ with mailbox := ⟨some outcome, false⟩, reader := r }.on o)
      (d.sync.write text).writing := by
  obtain ⟨session, registry, mailbox, reader⟩ := σ
  cases hmailbox
  let before : Scene := ⟨session, registry, .new, reader⟩
  let read : Scene := ⟨session, registry, .new, r⟩
  have htake : Plays listening
    (await fun s => (consolePlace.input.get s).take?.map fun (q, service) =>
      (q, consolePlace.input.set service s)) (before.asking o text) d.writing
      (.returned (.request ⟨text, 0⟩)) (before.on o) d.writing :=
    plays_await ⟨rfl, rfl⟩ fun _ => rfl
  have hsync : Plays listening consolePlace.sync (before.on o) d.writing (.returned ())
    (before.on o)
      d.sync.writing :=
    Drafts.plays_sync ⟨rfl, rfl⟩
  have hwrite : Plays listening (consolePlace.writeOut text) (before.on o) d.sync.writing
    (.returned ())
      (before.on o) (d.sync.write text).writing :=
    Drafts.plays_write text ⟨rfl, rfl⟩ rfl
  have hread : Plays listening consolePlace.readLine (before.on o) (d.sync.write text).writing
      (.returned outcome) (read.on o) (d.sync.write text).writing := by
    refine plays_await ⟨rfl, rfl⟩ fun x => ?_
    change reader.takeLine?.map _ = _
    rw [hr]
    rfl
  have hpost : Plays listening
    (consolePlace.modify fun c => c.setMailbox 0 ((c.mailbox 0).post outcome))
      (read.on o) (d.sync.write text).writing (.returned ())
      (Scene.on ⟨session, registry, ⟨some outcome, false⟩, r⟩ o) (d.sync.write text).writing :=
    plays_update ⟨rfl, rfl⟩ fun _ => rfl
  have hserve : Plays listening (consolePlace.serveLine ⟨text, 0⟩) (before.on o) d.writing
    (.returned ())
      (Scene.on ⟨session, registry, ⟨some outcome, false⟩, r⟩ o) (d.sync.write text).writing :=
    hsync.bind (hwrite.bind (hread.bind hpost))
  have hnext : Plays listening (consolePlace.work .input) (before.asking o text) d.writing
    (.returned ())
      (Scene.on ⟨session, registry, ⟨some outcome, false⟩, r⟩ o) (d.sync.write text).writing :=
    htake.bind hserve.attempt.discard
  exact hnext.bind (plays_pure _)

theorem plays_askLine (text : String) (hmailbox : σ.mailbox = .new)
    (hsession : σ.session.mailbox = 0)
    (hlive : σ.session.disposed = false) (hasking : σ.session.asking = false)
    (hr : σ.reader.takeLine? = some (outcome, r)) :
    Plays speaking (askLine 0 text).run (σ.on o) d.writing (.returned (.ok outcome))
      ({ σ with reader := r }.on o) (d.sync.write text).writing := by
  have hopen := open_speaking (o := o)
  obtain ⟨session, registry, mailbox, reader⟩ := σ
  cases hmailbox
  let asks : Scene := ⟨{ session with asking := true }, registry, .new, reader⟩
  let answered : Scene := ⟨{ session with asking := true }, registry, ⟨some outcome, false⟩, r⟩
  let read : Scene := ⟨{ session with asking := true }, registry, .new, r⟩
  have hbegin : Plays speaking (beginAsking 0)
    (Scene.on ⟨session, registry, .new, reader⟩ o) d.writing
      (.returned ()) (asks.on o) d.writing := by
    refine plays_await (hopen _) fun x => ?_
    change session.asking = false at hasking
    change (if session.asking then none else _) = _
    rw [hasking]
    rfl
  have hempty : Plays speaking (consolePlace.takeReply 0) (asks.on o) d.writing
    (.returned ()) (asks.on o)
      d.writing :=
    plays_update (hopen asks) fun _ => rfl
  have hrequest : Plays speaking (consolePlace.requestLine text 0) (asks.on o) d.writing
    (.returned ())
      (asks.asking o text) d.writing :=
    plays_update (hopen asks) fun x =>
      congrArg (fun service => consolePlace.input.set service ((asks.on o).writing x))
        (enqueue_empty o.console.input (.request ⟨text, 0⟩))
  have hreply : Plays speaking (consolePlace.awaitReply 0) (asks.asking o text) d.writing
      (.returned outcome) (read.on o) (d.sync.write text).writing := by
    refine .aside ⟨fun b hb x => ?_, plays_serveLine (σ := asks) text rfl hr⟩
      (plays_await (b := answered.on o) (hopen answered) fun _ => rfl)
    have htake : (consolePlace.get (b.writing x)).takeReply 0 =
        (none, ((consolePlace.get (b.writing x)).takeReply 0).2) :=
      congrArg (·, _) hb.2
    dsimp only
    rw [htake]
  have hend : Plays speaking (endAsking 0) (read.on o) (d.sync.write text).writing (.returned ())
      (Scene.on ⟨session, registry, .new, r⟩ o) (d.sync.write text).writing := by
    refine plays_updateSession_eq (σ := read) hopen ?_
    change session.asking = false at hasking
    simp only [read, ← hasking]
  refine (plays_ensureLive hopen hlive).run_bind
    (hbegin.lift_bind (Plays.lift_bind (plays_getSession hopen) ?_))
  change session.mailbox = 0 at hsession
  dsimp only
  rw [hsession]
  exact hempty.lift_bind (hrequest.lift_bind (hreply.lift_bind (hend.lift_bind (plays_pure _))))

end Scene

namespace Talk

def focused (t : Talk) : Scene :=
  { t.scene with session := { t.session with focus := ⟨0, t.turns + 1, t.turns + 1⟩ } }

theorem plays_acquire (t : Talk) (w : Writing) :
    Plays speaking (acquire 0) (t.scene.on o) w (.returned ()) (t.focused.on o) w := by
  let arrived : Scene :=
    { t.scene with session := { t.session with focus := ⟨1, t.turns + 1, t.turns⟩ } }
  have hgrant : (⟨1, t.turns + 1, t.turns⟩ : FairSemaphore).grant? t.turns =
      some ⟨0, t.turns + 1, t.turns + 1⟩ := by
    simp [FairSemaphore.grant?]
  refine Plays.bind (plays_step (open_speaking _) fun x =>
    show _ = (t.turns, (arrived.on o).writing x) from rfl) ?_
  refine plays_await (open_speaking _) fun x => ?_
  change Option.map _ (FairSemaphore.grant? ⟨1, t.turns + 1, t.turns⟩ t.turns) = _
  rw [hgrant]
  rfl

theorem plays_prompt (text : String) (hr : t.reader.takeLine? = some (outcome, r)) :
    Plays speaking (Shell.prompt 0 text).run (t.scene.on o) d.writing (.returned (.ok outcome))
      (({ t with turns := t.turns + 1, reader := r } : Talk).scene.on o)
      (d.sync.write text).writing := by
  have hask : Plays speaking (askLine 0 text).run (t.focused.on o) d.writing
    (.returned (.ok outcome))
      ({ t.focused with reader := r }.on o) (d.sync.write text).writing :=
    Scene.plays_askLine text rfl rfl rfl rfl hr
  have hrelease : Plays speaking (release 0) ({ t.focused with reader := r }.on o)
      (d.sync.write text).writing (.returned ())
      (({ t with turns := t.turns + 1, reader := r } : Talk).scene.on o)
      (d.sync.write text).writing :=
    Scene.plays_updateSession (σ := { t.focused with reader := r }) open_speaking _
  refine (Scene.plays_ensureLive open_speaking rfl).run_bind ?_
  refine (t.plays_acquire _).lift_bind (hask.lift_bind (hrelease.lift_bind (plays_pure _)))

theorem plays_promptContext (t : Talk) (w : Writing) :
    Plays speaking (promptContext 0) (t.scene.on o) w (.returned (contextFor t.name))
      (t.scene.on o) w :=
  plays_read (open_speaking _) fun _ => rfl

theorem plays_renderPrimary (hmode : t.prompt.mode = o.settings.escapeMode) :
    Plays speaking (renderPrompt 0 false) (t.scene.on o) w
      (.returned (promptsFor o.settings t.name).primary)
      (({ t with prompt := formatterFor o.settings t.name } : Talk).scene.on o) w := by
  obtain ⟨name, turns, main, ⟨mode, expecting, style, width⟩, interpreter, reader⟩ := t
  cases hmode
  exact (plays_promptContext _ w).bind (plays_step (open_speaking _) fun x => rfl)

theorem plays_renderSecondary (hprompt : t.prompt = formatterFor o.settings t.name) :
    Plays speaking (renderPrompt 0 true) (t.scene.on o) w
      (.returned (promptsFor o.settings t.name).secondary) (t.scene.on o) w := by
  obtain ⟨name, turns, main, prompt, interpreter, reader⟩ := t
  change prompt = formatterFor o.settings name at hprompt
  subst hprompt
  have hrests : ((formatterFor o.settings name).continuation o.settings.prompt.secondary
      (contextFor name)).2 = formatterFor o.settings name := by
    rw [PromptFormatter.continuation_eq]
    exact PromptFormatter.reset_primary ..
  refine (plays_promptContext _ w).bind (plays_step (open_speaking _) fun x => ?_)
  refine Prod.ext rfl ?_
  change modifySession 0
    (fun session => { session with prompt := ((formatterFor o.settings name).continuation
    o.settings.prompt.secondary (contextFor name)).2 }) _ = _
  rw [hrests]
  rfl

theorem plays_renderPrompt {before : Option String} (hmode : t.prompt.mode = o.settings.escapeMode)
    (hprompt : before.isSome → t.prompt = formatterFor o.settings t.name) :
    Plays speaking (renderPrompt 0 before.isSome) (t.scene.on o) w
      (.returned ((promptsFor o.settings t.name).shown before))
      (({ t with prompt := formatterFor o.settings t.name } : Talk).scene.on o) w := by
  cases before with
  | none => exact plays_renderPrimary hmode
  | some statement =>
    have hsame : ({ t with prompt := formatterFor o.settings t.name } : Talk) = t := by
      rw [← hprompt rfl]
    rw [hsame]
    exact plays_renderSecondary (hprompt rfl)

end Talk

end SessionShell
