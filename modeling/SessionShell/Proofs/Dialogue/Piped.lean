import SessionShell.CommandLine.Invocation
import SessionShell.Proofs.Action.Run
import SessionShell.Proofs.Dialogue.Conversation

/-!
A session over input that is all there from the start.

Behind the call that starts it, the threads can take their steps in any order. All of them together
write the transcript of the input, and nothing else; then everything ends, with the code of the
transcript, and no thread takes a step any more.
-/

namespace SessionShell

open Action Shell Dialogue

variable {settings : Settings} {preload : Preload} {files : FileSystem} {input : Reader}
  {name query : String} {watched : Bool}

/-! ## The start -/

def openingScene (settings : Settings) (name : String) (input : Reader) (tasks : List Task)
    (owner : Option ThreadId) : Scene where
  session := { Session.new name none 0 settings.escapeMode with
    current := true
    tasks := tasks
    language := some .calculator
    owner := owner
    main := some .interactive }
  registry := [0]
  mailbox := .new
  reader := input

def blankDrafts : Drafts where
  out := ⟨[], [], 0⟩
  err := ⟨[], [], 0⟩
  started := [(1, .stream .out), (2, .stream .err), (readerThread, .stream .input),
    (firstThread, .session 0 .entering)]

def streamingShell (settings : Settings) (preload : Preload) (files : FileSystem) (input : Reader)
    (name : String) : Shell :=
  let new := Shell.new settings preload files input true true
  { new with
    console := { new.console with input := ⟨.lifo, [], true, 0, []⟩ }
    threads := #[.main, .service, .service, .service, .session name] }

def startedShell (settings : Settings) (preload : Preload) (files : FileSystem) (input : Reader)
    (name : String) : Shell :=
  ((openingScene settings name input [.boot .calculator] none).on
    (streamingShell settings preload files input name)).writing
    blankDrafts.writing

theorem runAlone?_startFirst (input : Reader)
    (hquery : LanguageRegistry.builtins.lookup? (preload.resolveAlias query) = some .calculator) :
    (startFirst name query .interactive watched).run.runAlone? mainThread
        (Shell.new settings preload files input true true) =
      some (.ok (), startedShell settings preload files input name) := by
  have hlanguage : ∀ s : Shell, s.languages = .builtins → s.preload = preload →
      (languageFor query).runAlone? mainThread s = some (some .calculator, s) := by
    rintro s hlanguages rfl
    rw [← hquery, ← hlanguages]
    rfl
  refine (runAlone?_bind (a := .ok 0) rfl).trans ?_
  refine (runAlone?_bind (a := .ok ()) rfl).trans ?_
  refine (runAlone?_bind (a := .ok ()) rfl).trans ?_
  refine (runAlone?_bind (a := .ok (some .calculator)) (runAlone?_bind (hlanguage _ rfl rfl))).trans
    ?_
  rfl

def bootedTalk (settings : Settings) (name : String) (input : Reader) : Talk where
  name := name
  turns := 0
  main := some .interactive
  prompt := .new settings.escapeMode
  interpreter := (Interpreter.ofKind .calculator).bindHost name 0
  reader := input

section

variable {o : Shell} {w : Writing} {tasks : List Task} {owner : Option ThreadId}

theorem path_entering :
    Path (plotAt ((openingScene settings name input tasks owner).on o) w .entering)
    (plotAt ((openingScene settings name input tasks (some firstThread)).on o) w .idle) := by
  have hself : Plays speaking currentId ((openingScene settings name input tasks owner).on o) w
      (.returned firstThread) ((openingScene settings name input tasks owner).on o) w :=
    plays_self (open_speaking _)
  exact path_phase rfl
    (hself.bind ((Scene.plays_updateSession open_speaking _).bind (plays_pure _)))

theorem plays_boot (hpreload : o.preload.scriptFor? Language.calculator.name = none)
    (hfinal : o.console.endIsFinal = true) :
    Plays speaking (boot 0 .calculator)
      ((openingScene settings name input [] (some firstThread)).on o) w
      (.returned ()) ((bootedTalk settings name input).scene.on o) w := by
  have hscript : Plays speaking (Action.read fun s => s.preload.scriptFor? Language.calculator.name)
      ((openingScene settings name input [] (some firstThread)).on o) w (.returned none)
      ((openingScene settings name input [] (some firstThread)).on o) w :=
    plays_read (open_speaking _) fun _ => hpreload
  have hinstall : Plays speaking (install 0 ((Interpreter.ofKind .calculator).bindHost name 0))
      ((openingScene settings name input [] (some firstThread)).on o) w (.returned true)
      ((bootedTalk settings name input).scene.on o) w :=
    plays_step (open_speaking _) fun _ => rfl
  refine (Scene.plays_getSession open_speaking).bind
    (hscript.bind ((plays_pure _).bind (hinstall.bind ?_)))
  exact (plays_read (a := true) (open_speaking _) fun _ => hfinal).bind (plays_pure ())

theorem path_boot (hpreload : o.preload.scriptFor? Language.calculator.name = none)
    (hfinal : o.console.endIsFinal = true) :
    Path (plotAt ((openingScene settings name input [.boot .calculator] (some firstThread)).on o) w
      .idle)
      (plotAt ((bootedTalk settings name input).scene.on o) w .idle) := by
  have htake : Plays speaking (takeTask 0)
      ((openingScene settings name input [.boot .calculator] (some firstThread)).on o) w
      (.returned (some (.boot .calculator)))
      ((openingScene settings name input [] (some firstThread)).on o) w :=
    plays_step (open_speaking _) fun _ => rfl
  have hperform : Plays speaking (perform 0 (.boot .calculator)).run
      ((openingScene settings name input [] (some firstThread)).on o) w (.returned (.ok none))
      ((bootedTalk settings name input).scene.on o) w :=
    (plays_boot hpreload hfinal).lift_bind (plays_pure _)
  have hguarded : Plays speaking (guarded 0 (perform 0 (.boot .calculator)))
      ((openingScene settings name input [] (some firstThread)).on o) w (.returned (some none))
      ((bootedTalk settings name input).scene.on o) w :=
    hperform.attempt.bind (plays_pure _)
  have hrun : Plays speaking (runTask 0 (.boot .calculator))
      ((openingScene settings name input [] (some firstThread)).on o) w (.returned ())
      ((bootedTalk settings name input).scene.on o) w :=
    hguarded.bind (plays_pure ())
  exact path_phase rfl
    ((Scene.plays_isLive open_speaking).bind (htake.bind (hrun.bind (plays_pure _))))

theorem fits_bootedTalk (o : Shell) : (bootedTalk o.settings name input).Fits o where
  mode := rfl
  main := rfl
  binds := by
    have hnew : (Interpreter.ofKind .calculator : SessionInterpreter).BindsOnly (· = 0) :=
      Interpreter.bindsOnly_ofKind _
    exact hnew.bindHost rfl

end

theorem exists_path_started {o : Shell} {d : Drafts} {lines : List String} {tr : Transcript}
    (hpreload : o.preload.scriptFor? Language.calculator.name = none)
    (hfinal : o.console.endIsFinal = true) (hends : o.endsProcess = true)
    (hholds : input.Holds lines) (htr : transcript? o.settings name lines = some tr) :
    ∃ last, Path
      (plotAt ((openingScene o.settings name input [.boot .calculator] none).on o) d.writing
      .entering) last ∧ last.Concludes d tr := by
  have hdialogue : ∃ last, Path (plotAt ((bootedTalk o.settings name input).scene.on o) d.writing
      (phaseOf none)) last ∧ last.Concludes d tr :=
    exists_path_dialogue (fits_bootedTalk o) hends (fun hsome => by cases hsome) hholds htr
  obtain ⟨last, hpath, hlast⟩ := hdialogue
  exact ⟨last, path_entering.trans ((path_boot hpreload hfinal).trans hpath), hlast⟩

/-! ## The end -/

/-- All of a transcript is written, everything has ended with its code, and no thread goes on. -/
structure Dialogue.Transcript.IsOver (tr : Transcript) (m : Machine Shell Role) : Prop where
  out : m.shared.console.outWritten.toList = tr.out
  err : m.shared.console.errWritten.toList = tr.err
  ended : m.shared.ended = some tr.code
  still : ∀ t ∈ m.threads, ∀ act next, t.rest = .ask act next → act.run t.id m.shared = none

namespace Standpoint

variable {v : Standpoint} {c last : Plot} {m m' : Machine Shell Role} {tr : Transcript}

/-- Where a machine has come to the end of the dialogue, and all is written, its transcript
is over. -/
theorem isOver_of_shows (h : v.Shows last m) (hlast : last.Concludes blankDrafts tr)
    (hout : v.out.held = none ∧ v.writing.out = last.writing.out)
    (herr : v.err.held = none ∧ v.writing.err = last.writing.err) : tr.IsOver m := by
  obtain ⟨d, hwriting, houtTexts, herrTexts⟩ := hlast.drafts
  rw [hwriting] at hout herr
  constructor
  case out =>
    rw [h.shared]
    change v.writing.out.written.toList = _
    rw [hout.2]
    exact houtTexts
  case err =>
    rw [h.shared]
    change v.writing.err.written.toList = _
    rw [herr.2]
    exact herrTexts
  case ended =>
    rw [h.shared]
    exact hlast.ended
  case still =>
    intro t ht act next hrest
    exact run_eq_none_of_isLast h hlast.isLast ⟨hout.1, by rw [hout.2]; rfl⟩
      ⟨herr.1, by rw [herr.2]; rfl⟩ ht
      hrest

/-- A shell that has ended has come to the end of the dialogue, and nothing waits to be written. -/
theorem isOver_of_ended (hpath : Path c last) (h : v.Shows c m)
    (hlast : last.Concludes blankDrafts tr) (hended : m.shared.ended.isSome) : tr.IsOver m := by
  rw [h.shared] at hended
  obtain rfl := hpath.eq_of_ended hended
  obtain ⟨d, hwriting, -, -⟩ := hlast.drafts
  exact isOver_of_shows h hlast (h.trails.out.eq_of_queue_eq_nil (by rw [hwriting]; rfl))
    (h.trails.err.eq_of_queue_eq_nil (by rw [hwriting]; rfl))

theorem isOver_of_stuck (hpath : Path c last) (h : v.Shows c m)
    (hlast : last.Concludes blankDrafts tr) (hstuck : ∀ m', ¬life.Advances m m') : tr.IsOver m := by
  obtain ⟨c'?, hnext, hnone, -⟩ := exists_next hpath hlast.isLast
  obtain ⟨hc', -, -⟩ := isLast_of_stuck h hnext hstuck
  obtain rfl := hnone hc'
  refine isOver_of_ended (.refl c) h hlast ?_
  rw [h.shared]
  exact Option.isSome_of_eq_some hlast.ended

end Standpoint

theorem exists_shows_started (settings : Settings) (preload : Preload) (files : FileSystem)
    (input : Reader) (name : String) : ∃ v : Standpoint, v.Shows
      (plotAt ((openingScene settings name input [.boot .calculator] none).on
        (streamingShell settings preload files input name)) blankDrafts.writing .entering)
      ⟨startedShell settings preload files input name, []⟩ := by
  refine ⟨⟨blankDrafts.writing, ⟨1, none, 0, program (.stream .out)⟩,
    ⟨2, none, 0, program (.stream .err)⟩,
    pair (program (.stream .input)) (program (.session 0 .entering))⟩, rfl,
    ⟨Sheet.trails_refl, Sheet.trails_refl⟩, .idle, .idle, rfl, ?_⟩
  exact .cons ⟨rfl, .here _⟩ (.cons ⟨rfl, .here _⟩ .nil)

/-- The call that starts a session over input that is all there returns. Behind it, however the
steps of the threads fall, everything comes to rest, and has then written the transcript of the
input, and nothing else, and ended with its code. It does not end before all is written; and once it
has ended, no thread takes a step any more, so that it ends once. -/
theorem transcript_of_piped (text : String) {chunks : List Bytes} {tr : Transcript}
    (hquery : LanguageRegistry.builtins.lookup? (preload.resolveAlias query) = some .calculator)
    (hpreload : preload.scriptFor? Language.calculator.name = none)
    (hchunks : ∀ chunk ∈ chunks, chunk ≠ []) (htext : Bytes.text? chunks.flatten = some text)
    (htr : transcript? settings name (Text.lines text.toList) = some tr) :
    ∃ s, (startFirst name query .interactive watched).run.runAlone? mainThread
        (Shell.new settings preload files ⟨chunks, true⟩ true true) = some (.ok (), s) ∧
      ∀ m, life.Reaches ⟨s, []⟩ m →
        Acc (fun m' m => life.Advances m m') m ∧
        ((∀ m', ¬life.Advances m m') → tr.IsOver m) ∧
        (m.shared.ended.isSome → ∀ m', life.Reaches m m' → tr.IsOver m') := by
  refine ⟨_, runAlone?_startFirst ⟨chunks, true⟩ hquery, fun m hreaches => ?_⟩
  have hholds : Reader.Holds ⟨chunks, true⟩ (Text.lines text.toList) :=
    Reader.holds_lines hchunks (Bytes.eq_ofChars_of_text? htext)
  obtain ⟨last, hpath, hlast⟩ := exists_path_started (d := blankDrafts)
    (o := streamingShell settings preload files ⟨chunks, true⟩ name) hpreload rfl rfl hholds htr
  obtain ⟨v, hv⟩ := exists_shows_started settings preload files ⟨chunks, true⟩ name
  obtain ⟨c, u, -, hrest, hu⟩ := Standpoint.exists_shows hpath hlast.isLast hv hreaches
  refine ⟨Standpoint.acc_of_path hrest hlast.isLast hu, Standpoint.isOver_of_stuck hrest hu hlast,
    fun hended m' hreaches' => ?_⟩
  rw [hu.shared] at hended
  obtain rfl := hrest.eq_of_ended hended
  obtain ⟨c', u', hto, -, hu'⟩ := Standpoint.exists_shows (.refl c) hlast.isLast hu hreaches'
  obtain rfl := hto.eq_of_ended hended
  refine Standpoint.isOver_of_ended (.refl c) hu' hlast ?_
  rw [hu'.shared]
  exact hended

/-- The transcript of `transcript_of_four_statements`. -/
def fourStatements : Transcript where
  out := ["sh[0]> ", "     > ", "a1\n", "sh[0]> ", "sh[0]> ", "sh[0]> ", "a\n", "sh[0]> "]
  err := ["error: division by zero\n",
    "warning: exit code 0x5f is reserved; exiting with 0x2f (illegal exit code)\n"]
  code := 47

/-- Four statements, of which the first goes on over two lines and the third fails; a line between
them is blank. The last one exits, with a code that is not used as it is. -/
theorem transcript_of_four_statements :
    ∃ s, (startFirst "sh" "calc" .interactive false).run.runAlone? mainThread
        (Shell.new { Settings.default 1 with escapeMode := .none } (.empty "") .empty
          ⟨[Bytes.ofChars "let x = \"a\" \\\nx + ".toList,
            Bytes.ofChars "1\n\n1 / 0\nprint(x)\nsh.exit(95)\n3".toList], true⟩ true true) =
          some (.ok (), s) ∧
      ∀ m, life.Reaches ⟨s, []⟩ m →
        Acc (fun m' m => life.Advances m m') m ∧
        ((∀ m', ¬life.Advances m m') → fourStatements.IsOver m) ∧
        (m.shared.ended.isSome → ∀ m', life.Reaches m m' → fourStatements.IsOver m') := by
  have hbytes : [Bytes.ofChars "let x = \"a\" \\\nx + ".toList,
      Bytes.ofChars "1\n\n1 / 0\nprint(x)\nsh.exit(95)\n3".toList].flatten =
        Bytes.ofChars "let x = \"a\" \\\nx + 1\n\n1 / 0\nprint(x)\nsh.exit(95)\n3".toList := by
    decide
  refine transcript_of_piped "let x = \"a\" \\\nx + 1\n\n1 / 0\nprint(x)\nsh.exit(95)\n3"
    rfl rfl (by decide) ?_ (by decide +kernel)
  rw [hbytes, Bytes.text?_ofChars, String.ofList_toList]

end SessionShell
