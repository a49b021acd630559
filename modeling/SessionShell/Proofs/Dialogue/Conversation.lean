import SessionShell.Proofs.Dialogue.Lines
import SessionShell.Proofs.Dialogue.Prompting

/-!
The dialogue of the only session, line by line, up to the end of its input or to an exit.

The thread that reads and the thread of the session take turns, so the dialogue is one path, and
what it has written in the end is its transcript.
-/

namespace SessionShell

open Action Shell Dialogue

variable {o : Shell} {d : Drafts} {t : Talk} {outcome : ReadOutcome} {r : Reader}
  {before : Option String} {b b' : Shell} {w w' : Writing} {phase phase' : Phase}

/-! ## Turns of the session -/

def received (before : Option String) : ReadOutcome → Action Shell Phase
  | .endOfInput => do
    match before with
    | none => onEndOfInput 0
    | some statement => evaluateStatement 0 statement
    rest 0
  | .line line => do
    let statement := before.elim line fun s => s ++ "\n" ++ line
    let settings ← getSettings
    match continued? settings.prompt.continueChar statement with
    | some statement => return .reading statement
    | none =>
      evaluateStatement 0 statement
      rest 0

namespace Talk

def having (t : Talk) (settings : Settings) (r : Reader) : Talk :=
  { t with turns := t.turns + 1, prompt := formatterFor settings t.name, reader := r }

theorem plays_readStatement {fate : Fate Phase} (hmode : t.prompt.mode = o.settings.escapeMode)
    (hprompt : before.isSome → t.prompt = formatterFor o.settings t.name)
    (hr : t.reader.takeLine? = some (outcome, r))
    (hrest : Plays speaking (received before outcome) ((t.having o.settings r).scene.on o)
      (d.sync.write ((promptsFor o.settings t.name).shown before)).writing fate b' w') :
    Plays speaking (readStatement 0 before) (t.scene.on o) d.writing fate b' w' := by
  refine (plays_renderPrompt hmode hprompt).bind
    ((plays_prompt (t := { t with prompt := formatterFor o.settings t.name }) _ hr).bind ?_)
  cases outcome with
  | endOfInput => exact hrest
  | line line => exact hrest

structure Fits (t : Talk) (o : Shell) : Prop where
  mode : t.prompt.mode = o.settings.escapeMode
  main : t.main.getD .interactive = .interactive
  binds : t.interpreter.BindsOnly (· = 0)

theorem Fits.having (h : t.Fits o) (r : Reader) : (t.having o.settings r).Fits o :=
  ⟨rfl, h.main, h.binds⟩

def rested (t : Talk) : Talk :=
  { t with main := some (t.main.getD .interactive) }

theorem Fits.after (h : t.Fits o) {interpreter : Interpreter SessionId}
    (hbinds : interpreter.BindsOnly (· = 0)) : ({ t with interpreter }.rested).Fits o :=
  ⟨h.mode, h.main, hbinds⟩

theorem plays_rest (t : Talk) (w : Writing) :
    Plays speaking (rest 0) (t.scene.on o) w (.returned .idle) (t.rested.scene.on o) w := by
  obtain ⟨name, turns, main, prompt, interpreter, reader⟩ := t
  refine Plays.bind (Scene.plays_updateSession open_speaking _) ?_
  cases main <;> exact plays_pure _

theorem responds_evaluate {statement : String} {response : Response} (h : t.Fits o)
    (hends : o.endsProcess = true)
    (hr : response? o.settings t.name t.interpreter statement = some response) :
    Scene.Responds speaking o t.scene d (evaluateStatement 0 statement) response :=
  Scene.responds_evaluateStatement open_speaking t.sole rfl hends rfl rfl h.binds hr

theorem plays_onEndOfInput (t : Talk) (hends : o.endsProcess = true) :
    ∃ σ : Scene, Plays speaking (onEndOfInput 0) (t.scene.on o) d.writing .halted
      { σ.on o with ended := some ReservedCode.noInput.code } d.sync.writing := by
  obtain ⟨σ, hfinish⟩ := Scene.plays_finish (d := d) (σ := t.scene) open_speaking
    ReservedCode.noInput.code t.sole hends
  refine ⟨σ, ?_⟩
  refine Plays.bind (Scene.plays_sessionCount open_speaking) ?_
  refine Plays.bind (plays_read (a := o.console.endIsFinal) (open_speaking _) fun _ => rfl) ?_
  exact Plays.bind (plays_pure false) hfinish.discard_halted

end Talk

/-! ## Turns of both threads -/

def pair (p q : Action Shell (Option Role)) : List (Thread Shell Role) :=
  [⟨readerThread, p⟩, ⟨firstThread, q⟩]

theorem blocked_reader (hqueue : b.console.input.queue = []) :
    Blocked b ⟨readerThread, program (.stream .input)⟩ := by
  refine ⟨_, _, rfl, fun x => ?_⟩
  change Option.map _ (StreamService.take? b.console.input) = none
  rw [StreamService.take?, hqueue]
  rfl

theorem path_aside {act : Act Shell} {next : act.Answer → Action Shell (Option Role)}
    (h : speaking.aside act b w b' w') :
    Path ⟨b, w, pair (program (.stream .input)) (.ask act next)⟩
      ⟨b', w', pair (program (.stream .input)) (.ask act next)⟩ := by
  obtain ⟨hblocked, hplays⟩ := h
  have hothers : ∀ b, listening.mayGo b →
      ∀ t ∈ ([] : List (Thread Shell Role)) ++ [⟨firstThread, .ask act next⟩], Blocked b t := by
    intro b hb t ht
    rw [List.nil_append, List.mem_singleton] at ht
    exact ⟨act, next, by rw [ht], fun x => by rw [ht]; exact hblocked b hb x⟩
  obtain ⟨q, hq, hpath⟩ := hplays.exists_path (fun b hb => hb.1) hothers
    fun act next b w b' w' haside => haside.elim
  cases hq
  exact hpath

theorem exists_path_session {p : Action Shell (Option Role)} {fate : Fate (Option Role)}
    (h : Plays speaking p b w fate b' w') : ∃ q, Ends firstThread fate q ∧
      Path ⟨b, w, pair (program (.stream .input)) (onward p)⟩
        ⟨b', w', pair (program (.stream .input)) q⟩ := by
  have hothers : ∀ b, speaking.mayGo b →
      ∀ t ∈ [⟨readerThread, program (.stream .input)⟩] ++ ([] : List (Thread Shell Role)),
        Blocked b t := by
    intro b hb t ht
    rw [List.append_nil, List.mem_singleton] at ht
    rw [ht]
    exact blocked_reader hb.2
  exact h.exists_path (fun b hb => hb.1) hothers
    fun act next b w b' w' haside => path_aside haside

def plotAt (b : Shell) (w : Writing) (phase : Phase) : Plot :=
  ⟨b, w, pair (program (.stream .input)) (program (.session 0 phase))⟩

def Phase.isTalk : Phase → Bool
  | .entering | .idle | .reading _ => true
  | _ => false

theorem onward_session (h : phase.isTalk) :
    onward (program (.session 0 phase)) = program (.session 0 phase) := by
  cases phase <;> first | rfl | cases h

theorem path_phase (hphase : phase.isTalk)
    (h : Plays speaking (advance 0 phase) b w (.returned (some phase')) b' w') :
    Path (plotAt b w phase) (plotAt b' w' phase') := by
  have hprogram : Plays speaking (program (.session 0 phase)) b w
    (.returned (some (.session 0 phase')))
      b' w' :=
    Plays.bind h (plays_pure _)
  obtain ⟨q, hq, hpath⟩ := exists_path_session hprogram
  rw [onward_session hphase] at hpath
  cases hq
  exact hpath

theorem exists_last (hphase : phase.isTalk) (h : Plays speaking (advance 0 phase) b w .halted b' w')
    (hqueue : b'.console.input.queue = []) : ∃ last :
      Plot, Path (plotAt b w phase) last ∧ last.IsLast ∧
      last.shell = b' ∧ last.writing = w' := by
  have hprogram : Plays speaking (program (.session 0 phase)) b w .halted b' w' :=
    Plays.bind_halted h
  obtain ⟨q, hq, hpath⟩ := exists_path_session hprogram
  rw [onward_session hphase] at hpath
  cases hq with
  | @halted act next hhalts =>
    refine ⟨_, hpath, fun t ht => ?_, rfl, rfl⟩
    rcases List.mem_pair.mp ht with rfl | rfl
    · exact blocked_reader hqueue
    · exact ⟨act, next, rfl, fun x => hhalts _⟩

/-! ## From line to line -/

def phaseOf : Option String → Phase
  | none => .idle
  | some statement => .reading statement

theorem isTalk_phaseOf (before : Option String) : (phaseOf before).isTalk := by
  cases before <;> rfl

namespace Talk

def opened (before : Option String) (t : Talk) : Talk :=
  { t with main := before.bind fun _ => t.main }

theorem Fits.opened (h : t.Fits o) (before : Option String) : (t.opened before).Fits o := by
  refine ⟨h.mode, ?_, h.binds⟩
  cases before with
  | none => rfl
  | some statement => exact h.main

theorem plays_advance {fate : Fate (Option Phase)} (h : t.Fits o)
    (hread : Plays speaking (readStatement 0 before >>= fun phase => pure (some phase))
      ((t.opened before).scene.on o) w fate b' w') :
    Plays speaking (advance 0 (phaseOf before)) (t.scene.on o) w fate b' w' := by
  cases before with
  | some statement => exact hread
  | none =>
    have htake : Plays speaking (takeTask 0) (t.scene.on o) w (.returned none) (t.scene.on o) w :=
      plays_step (open_speaking _) fun _ => rfl
    have hmain : Plays speaking (takeMain 0) (t.scene.on o) w (.returned .interactive)
        ((t.opened none).scene.on o) w := by
      refine plays_step (open_speaking _) fun x => ?_
      change (t.main.getD .interactive, _) = _
      rw [h.main]
      rfl
    refine Plays.bind (Scene.plays_isLive open_speaking) (htake.bind ?_)
    refine Plays.bind (Scene.plays_isLive open_speaking) ?_
    exact Plays.assoc (hmain.bind hread)

end Talk

namespace Drafts

/-- What is printed for a line: its prompt, and then the answer to the statement it ends. -/
def said (prompt : String) (out err : List String) (d : Drafts) : Drafts :=
  ((d.sync.write prompt).print out).printError err

variable {prompt : String} {out err : List String}

theorem out_said : (d.said prompt out err).out.texts = d.out.texts ++ prompt :: out := by
  have hwrite := Draft.texts_write prompt (Draft.waiting_sync d.out)
  simp [said, print, printError, write, sync, hwrite]

theorem err_said : (d.said prompt out err).err.texts = d.err.texts ++ err := by
  simp [said, print, printError, write, sync]

end Drafts

/-- A plot at which the dialogue is over: what is written in the end is the transcript. -/
structure Plot.Concludes (last : Plot) (d : Drafts) (tr : Transcript) : Prop where
  isLast : last.IsLast
  ended : last.shell.ended = some tr.code
  drafts : ∃ d' : Drafts, last.writing = d'.sync.writing ∧ d'.out.texts = d.out.texts ++ tr.out ∧
    d'.err.texts = d.err.texts ++ tr.err

theorem Plot.Concludes.after {last : Plot} {prompt : String} {out err : List String}
    {tr : Transcript} (h : last.Concludes (d.said prompt out err) tr) :
      last.Concludes d (tr.after (prompt :: out) err) := by
  obtain ⟨hlast, hended, d', hwriting, hout, herr⟩ := h
  refine ⟨hlast, hended, d', hwriting, ?_, ?_⟩
  · simp [hout, Drafts.out_said, Transcript.after]
  · simp [herr, Drafts.err_said, Transcript.after]

theorem exists_concluded {code : Int} {out err : List String} (before : Option String)
    (h : t.Fits o) (hprompt : before.isSome → t.prompt = formatterFor o.settings t.name)
    (hr : t.reader.takeLine? = some (outcome, r))
    (hreceived : ∃ σ : Scene, Plays speaking (received before outcome)
      (((t.opened before).having o.settings r).scene.on o)
      (d.sync.write ((promptsFor o.settings t.name).shown before)).writing .halted
      { σ.on o with ended := some code }
      (d.said ((promptsFor o.settings t.name).shown before) out err).sync.writing) :
    ∃ last, Path (plotAt (t.scene.on o) d.writing (phaseOf before)) last ∧
      last.Concludes d ⟨(promptsFor o.settings t.name).shown before :: out, err, code⟩ := by
  obtain ⟨σ, hplays⟩ := hreceived
  have hread := Talk.plays_readStatement (t := t.opened before) h.mode hprompt hr hplays
  obtain ⟨last, hpath, hlast, hshell, hwriting⟩ := exists_last (isTalk_phaseOf before)
    (Talk.plays_advance h hread.bind_halted) rfl
  exact ⟨last, hpath, hlast, by rw [hshell], _, hwriting, Drafts.out_said, Drafts.err_said⟩

theorem path_received {w' : Writing} (t' : Talk) (h : t.Fits o)
    (hprompt : before.isSome → t.prompt = formatterFor o.settings t.name)
    (hr : t.reader.takeLine? = some (outcome, r))
    (hreceived : Plays speaking (received before outcome)
      (((t.opened before).having o.settings r).scene.on o)
      (d.sync.write ((promptsFor o.settings t.name).shown before)).writing (.returned phase)
      (t'.scene.on o) w') :
    Path (plotAt (t.scene.on o) d.writing (phaseOf before)) (plotAt (t'.scene.on o) w' phase) := by
  have hread := Talk.plays_readStatement (t := t.opened before) h.mode hprompt hr hreceived
  exact path_phase (isTalk_phaseOf before) (Talk.plays_advance h (hread.bind (plays_pure _)))

theorem exists_path_end (h : t.Fits o) (hends : o.endsProcess = true) (hholds : t.reader.Holds []) :
    ∃ last, Path (plotAt (t.scene.on o) d.writing .idle) last ∧
      last.Concludes d (promptsFor o.settings t.name).atEnd := by
  refine exists_concluded none h (fun hsome => by cases hsome) hholds.takeLine?_nil ?_
  obtain ⟨σ, hplays⟩ := ((t.opened none).having o.settings t.reader).plays_onEndOfInput (o := o)
    (d := d.sync.write (promptsFor o.settings t.name).primary) hends
  exact ⟨σ, hplays.bind_halted⟩

theorem exists_path_answered {statement : String} {response : Response} {tr : Transcript}
    {next? : Interpreter SessionId → Option Transcript} (h : t.Fits o)
    (hends : o.endsProcess = true)
    (hprompt : before.isSome → t.prompt = formatterFor o.settings t.name)
    (hr : t.reader.takeLine? = some (outcome, r))
    (hreceived : ∀ (t : Talk) (w w' : Writing) (fate : Fate Phase) (b' : Shell),
      Plays speaking (do evaluateStatement 0 statement; rest 0) (t.scene.on o) w fate b' w' →
        Plays speaking (received before outcome) (t.scene.on o) w fate b' w')
    (hresponse : response? o.settings t.name t.interpreter statement = some response)
    (htr : response.followed? ((promptsFor o.settings t.name).shown before) next? = some tr)
    (hnext : ∀ (t' : Talk) (d : Drafts) (tr : Transcript), t'.Fits o → t'.name = t.name →
      t'.reader = r →
      next? t'.interpreter = some tr →
        ∃ last, Path (plotAt (t'.scene.on o) d.writing .idle) last ∧ last.Concludes d tr) :
    ∃ last, Path (plotAt (t.scene.on o) d.writing (phaseOf before)) last ∧ last.Concludes d tr := by
  let heard : Talk := (t.opened before).having o.settings r
  have hheard : heard.Fits o := (h.opened before).having r
  have hresponds := Talk.responds_evaluate
    (d := d.sync.write ((promptsFor o.settings t.name).shown before)) hheard hends hresponse
  rw [Scene.Responds] at hresponds
  rw [Response.followed?] at htr
  cases hcase : response.next with
  | error code =>
    rw [hcase] at hresponds htr
    cases htr
    obtain ⟨σ, hplays⟩ := hresponds
    exact exists_concluded before h hprompt hr ⟨σ, hreceived _ _ _ _ _ hplays.bind_halted⟩
  | ok interpreter =>
    rw [hcase] at hresponds htr
    obtain ⟨hbinds, hplays⟩ := hresponds
    obtain ⟨tr', htr', rfl⟩ := Option.map_eq_some_iff.mp htr
    let answered : Talk := { heard with interpreter }
    have hpath := path_received answered.rested h hprompt hr
      (hreceived _ _ _ _ _ (hplays.bind (answered.plays_rest _)))
    obtain ⟨last, hpath', hconcludes⟩ :=
      hnext answered.rested _ tr' (hheard.after hbinds) rfl rfl htr'
    exact ⟨last, hpath.trans hpath', hconcludes.after⟩

theorem exists_path_dialogue {lines : List String} {tr : Transcript} (h : t.Fits o)
    (hends : o.endsProcess = true)
    (hprompt : before.isSome → t.prompt = formatterFor o.settings t.name)
    (hholds : t.reader.Holds lines)
    (htr : transcriptFrom? o.settings t.name (promptsFor o.settings t.name) before
      t.interpreter lines =
      some tr) :
    ∃ last, Path (plotAt (t.scene.on o) d.writing (phaseOf before)) last ∧ last.Concludes d tr := by
  induction lines generalizing t d before tr with
  | nil =>
    cases before with
    | none =>
      cases htr
      exact exists_path_end h hends hholds
    | some statement =>
      obtain ⟨response, hresponse, htr⟩ := Option.bind_eq_some_iff.mp htr
      refine exists_path_answered h hends hprompt hholds.takeLine?_nil
        (fun _ _ _ _ _ hplays => hplays)
        hresponse htr fun t' d tr hfits hname hreader htr => ?_
      cases htr
      rw [← hname]
      exact exists_path_end hfits hends (hreader ▸ hholds)
  | cons line lines ih =>
    obtain ⟨r, hr, hholds⟩ := hholds
    rw [transcriptFrom?] at htr
    cases hcontinued : continued? o.settings.prompt.continueChar
        (before.elim line fun s => s ++ "\n" ++ line) with
    | some text =>
      rw [hcontinued] at htr
      obtain ⟨tr', htr', rfl⟩ := Option.map_eq_some_iff.mp htr
      let heard : Talk := (t.opened before).having o.settings r
      have hreceived : Plays speaking (received before (.line line)) (heard.scene.on o)
          (d.sync.write ((promptsFor o.settings t.name).shown before)).writing
          (.returned (.reading text))
          (heard.scene.on o)
          (d.said ((promptsFor o.settings t.name).shown before) [] []).writing := by
        refine (Scene.plays_getSettings open_speaking).bind ?_
        rw [hcontinued, Drafts.said, Drafts.print_nil, Drafts.printError_nil]
        exact plays_pure _
      have hpath := path_received heard h hprompt hr hreceived
      obtain ⟨last, hpath', hconcludes⟩ := @ih _ heard (some text) _ ((h.opened before).having r)
        (fun _ => rfl) hholds htr'
      exact ⟨last, hpath.trans hpath', hconcludes.after⟩
    | none =>
      rw [hcontinued] at htr
      obtain ⟨response, hresponse, htr⟩ := Option.bind_eq_some_iff.mp htr
      refine exists_path_answered h hends hprompt hr (fun t w w' fate b' hplays => ?_) hresponse htr
        fun t' d tr hfits hname hreader htr => ?_
      · refine (Scene.plays_getSettings open_speaking).bind ?_
        rw [hcontinued]
        exact hplays
      · exact @ih d t' none tr hfits (fun hsome => by cases hsome) (hreader ▸ hholds) (hname ▸ htr)

end SessionShell
