import SessionShell.CommandLine.Invocation
import SessionShell.Proofs.Action.Run
import SessionShell.Proofs.Dialogue.Lines
import SessionShell.Proofs.Shell.Reading

/-!
Which languages the program can be started in.

A query is looked at twice. The check ahead of the first session looks it up as it is; the start of
a session looks up what its other names lead to. So the two agree as long as the query has no other
name. One that has is refused by the check if it names nothing itself, whatever it stands for, and
may pass the check only for the start to fail.
-/

namespace SessionShell

open SessionShell.Action Shell

/-! ## One thread alone -/

namespace Life

variable {σ ρ : Type} {life : Life σ ρ} {id : ThreadId} {act : Action σ Unit} {s s' : σ}

theorem runThread_alone (h : act.runAlone? id s = some ((), s')) (fuel : Nat) :
    life.runThread (fuel + 1) ⟨id, act.bind fun _ => .done none⟩ s = (true, none, s') := by
  have hbind : (act >>= fun _ => (.done none : Action σ (Option ρ))).runAlone? id s =
      some (none, s') := runAlone?_bind h
  change life.runThread (fuel + 1) ⟨id, act >>= fun _ => .done none⟩ s = _
  rw [runAlone?] at hbind
  rw [runThread]
  rcases hadvance : (act >>= fun _ => (.done none : Action σ (Option ρ))).advance id s with
    ⟨moved, standing, last⟩
  rw [hadvance] at hbind
  cases standing with
  | done role? =>
    obtain ⟨rfl, rfl⟩ := Prod.mk.inj (Option.some.inj hbind)
    rfl
  | crashed => cases hbind
  | waiting rest => cases hbind

/-- A thread that comes from outside, never has to wait and starts nobody leaves an empty
machine. -/
theorem settle_alone (h : act.runAlone? id s = some ((), s')) (hs : life.takeStarted s = ([], s))
    (hs' : life.takeStarted s' = ([], s')) (hover : life.isOver s = false)
    (hover' : life.isOver s' = false) (fuel : Nat) :
    life.settle (fuel + 2) (life.spawn id act ⟨s, []⟩) = ⟨s', []⟩ := by
  have hspawn : life.spawn id act ⟨s, []⟩ = ⟨s, [⟨id, act.bind fun _ => .done none⟩]⟩ := by
    simp [spawn, adopt, hs]
  have hpass : life.pass (fuel + 2) [⟨id, act.bind fun _ => .done none⟩] s = (true, [], s') := by
    simp [pass, hover, runThread_alone h]
  have hrest : life.settle (fuel + 1) ⟨s', []⟩ = ⟨s', []⟩ := by
    simp [settle, adopt, hs', pass]
  rw [hspawn, settle]
  simp [adopt, hs, hpass, hover', hrest]

end Life

namespace Shell

variable {ω : Type} {s s' : Shell} {id : SessionId} {query : String} {takesFocus : Bool}
  {me : ThreadId}

/-- The language that a start finds: the one that the query stands for. -/
def found? (query : String) (s : Shell) : Option Language :=
  s.languages.lookup? (s.preload.resolveAlias query)

/-- What the start of a session looks at before it changes anything. -/
def outlook (query : String) (id : SessionId) (s : Shell) : Option Language × Bool :=
  (s.found? query, (s.session id).isLive)

def LacksLanguage {α : Type} (fate : Fate (Except ShellError α)) : Prop :=
  ∃ query, fate = .returned (.error (.unknownLanguage query))

theorem always_lift_bind_not_lacksLanguage {α β : Type} {view : Shell → ω} {x : ω}
    {p : Action Shell α}
    {f : α → Checked β} (hf : ∀ a y, Always view me (f a).run y fun fate _ => ¬LacksLanguage fate) :
    Always view me ((liftM p : Checked α) >>= f).run x fun fate _ => ¬LacksLanguage fate := by
  refine Always.lift_bind (R := fun _ _ => True) (fun _ _ _ _ _ => trivial)
    (fun a y _ => hf a y) ?_ ?_
  · rintro _ _ ⟨_, hfate⟩
    cases hfate
  · rintro _ _ ⟨_, hfate⟩
    cases hfate

theorem always_pure_not_lacksLanguage {α : Type} {view : Shell → ω} {x : ω}
    {r : Except ShellError α} (h : ∀ query, r ≠ .error (.unknownLanguage query)) :
    Always view me (pure r) x fun fate _ => ¬LacksLanguage fate := by
  refine always_pure r ?_
  rintro ⟨query, hfate⟩
  exact h query (Fate.returned.inj hfate)

theorem yields_ensureLive_outlook {language? : Option Language} {live : Bool} :
    Yields (outlook query id) me (ensureLive id).run (language?, live) fun r y =>
      y = (language?, live) ∧ (r = .ok () → live = true) ∧ (live = true → r = .ok ()) ∧
        ∀ query, r ≠ .error (.unknownLanguage query) := by
  refine Yields.lift_bind (P := fun session y => y = (language?, live) ∧ session.isLive = live)
    (yields_read fun s hs => ⟨rfl, congrArg Prod.snd hs⟩) ?_
  rintro session _ ⟨rfl, hlive⟩
  cases live with
  | true =>
    simp only [hlive, if_true]
    exact always_pure _ ⟨rfl, by simp, by simp, by simp⟩
  | false =>
    simp only [hlive]
    exact always_pure _ ⟨rfl, by simp, by simp, by simp⟩

theorem yields_languageFor {x : Option Language × Bool} :
    Yields (outlook query id) me (languageFor query) x fun language? y => language? = x.1 ∧ y = x :=
  yields_read fun _ hs => ⟨congrArg Prod.fst hs, rfl⟩

theorem always_setLanguage {language : Language} {view : Shell → ω} {x : ω} :
    Always view me (setLanguage id language).run x fun fate _ => ¬LacksLanguage fate := by
  refine Yields.always (yields_step (P := fun r _ => ∀ query, r ≠ .error (.unknownLanguage query))
    fun s _ => ?_) ?_
  · dsimp only
    split
    · simp
    · next hset =>
      split at hset
      · cases hset
        simp
      · cases hset
  · rintro r y hr ⟨query, hfate⟩
    exact hr query (Fate.returned.inj hfate)

theorem always_launchThread {view : Shell → ω} {x : ω} :
    Always view me
      (do
        consolePlace.start
        let started ← startThread id
        unless started do
          discard (leaveRegistry id)
          dispose id
          throw threadRefused : Checked Unit).run x fun fate _ => ¬LacksLanguage fate := by
  refine always_lift_bind_not_lacksLanguage fun _ _ => ?_
  refine always_lift_bind_not_lacksLanguage fun started _ => ?_
  cases started with
  | true => exact always_pure_not_lacksLanguage (by simp)
  | false =>
    refine Always.run_bind (R := fun fate _ => fate = .returned (.ok ()) ∨ fate = .crashed ∨
      fate = .halted) ?_ ?_ ?_ ?_ ?_
    · exact Always.discard_lift (R := fun _ _ => True) (fun _ _ _ _ _ => trivial)
        (fun _ _ _ => .inl rfl) (fun _ _ => .inr (.inl rfl)) fun _ _ => .inr (.inr rfl)
    · rintro _ _ -
      refine always_lift_bind_not_lacksLanguage fun _ _ => ?_
      exact always_pure_not_lacksLanguage (by simp [threadRefused])
    · rintro e _ (h | h | h) <;> cases h
    · rintro _ _ ⟨_, hfate⟩
      cases hfate
    · rintro _ _ ⟨_, hfate⟩
      cases hfate

/-- A query that stands for a known language never lacks one, whatever becomes of the session. -/
theorem always_startWith_of_found {language : Language} {live : Bool} :
    Always (outlook query id) me (startWith id query takesFocus).run (some language, live)
      fun fate _ => ¬LacksLanguage fate := by
  refine Yields.run_bind yields_ensureLive_outlook ?_ ?_
  · rintro _ _ ⟨rfl, -, -⟩
    refine Yields.lift_bind yields_languageFor ?_
    rintro _ _ ⟨rfl, rfl⟩
    refine Always.run_bind always_setLanguage ?_ (fun _ _ h => ?_) (fun _ h => ?_) fun _ h => ?_
    · rintro _ _ -
      refine always_lift_bind_not_lacksLanguage fun _ _ => ?_
      refine always_lift_bind_not_lacksLanguage fun _ _ => ?_
      cases takesFocus with
      | true => exact always_lift_bind_not_lacksLanguage fun _ _ => always_launchThread
      | false => exact always_lift_bind_not_lacksLanguage fun _ _ => always_launchThread
    · rintro ⟨q, hfate⟩
      cases hfate
      exact h ⟨q, rfl⟩
    · rintro ⟨_, hfate⟩
      cases hfate
    · rintro ⟨_, hfate⟩
      cases hfate
  · rintro e _ ⟨-, -, -, he⟩ ⟨q, hfate⟩
    cases hfate
    exact he q rfl

theorem yields_startWith_of_not_found :
    Yields (outlook query id) me (startWith id query takesFocus).run (none, true) fun r y =>
      r = .error (.unknownLanguage query) ∧ y = (none, true) := by
  refine Yields.run_bind yields_ensureLive_outlook ?_ ?_
  · rintro _ _ ⟨rfl, -, -⟩
    refine Yields.lift_bind yields_languageFor ?_
    rintro _ _ ⟨rfl, rfl⟩
    exact always_pure _ ⟨rfl, rfl⟩
  · rintro e _ ⟨-, -, hlive, -⟩
    cases hlive rfl

theorem lacksLanguage_iff_of_runs {fate : Fate (Except ShellError Unit)}
    (hlive : (s.session id).isLive)
    (hrun : Runs (outlook query id) me (startWith id query takesFocus).run s fate s') :
    LacksLanguage fate ↔ s.found? query = none := by
  cases hfound : s.found? query with
  | none =>
    have hview : outlook query id s = (none, true) := Prod.ext hfound hlive
    have hreturns := yields_startWith_of_not_found s fate s' hview hrun
    cases fate with
    | returned r => exact iff_of_true ⟨query, congrArg Fate.returned hreturns.1⟩ rfl
    | crashed => exact hreturns.elim
    | halted => exact hreturns.elim
  | some language =>
    have hview : outlook query id s = (some language, true) := Prod.ext hfound hlive
    exact iff_of_false (always_startWith_of_found s fate s' hview hrun) (by simp)

theorem found?_of_no_alias (h : s.preload.aliases.get? (Text.toLowercase query) = none) :
    s.found? query = s.languages.lookup? query := by
  simp [found?, Preload.resolveAlias, Preload.follow, h]

/-! ## The first session -/

/-- Nothing is under way: nobody was started, nothing has ended, nobody waits for a time. -/
structure Idle (s : Shell) : Prop where
  started : s.started = []
  ended : s.ended = none
  alarms : s.world.alarms = []

theorem takeStarted_of_idle (h : s.Idle) : life.takeStarted s = ([], s) := by
  change (s.started, { s with started := [] }) = ([], s)
  rw [h.started, ← h.started]

theorem runAlone?_attempt {σ α : Type} {p : Action σ α} {a : α} {s s' : σ}
    (h : p.runAlone? me s = some (a, s')) :
    runAlone? me (Program.attempt p) s = some (some a, s') := by
  induction p generalizing s with
  | done b =>
    obtain ⟨rfl, rfl⟩ := Prod.mk.inj (Option.some.inj h)
    rfl
  | crash => cases h
  | ask act next ih =>
    cases hact : act.run me s with
    | none => simp [runAlone?, Action.advance, hact] at h
    | some r =>
      obtain ⟨answer, s₁⟩ := r
      rw [runAlone?_ask hact] at h
      exact (runAlone?_ask hact).trans (ih answer h)

theorem settle_of_no_alarm {m m' : Machine Shell Role} (h : life.settle Life.patience m = m')
    (halarms : m'.shared.world.alarms = []) : settle m = m' := by
  have hstep : ∀ fuel, (Watched.settle (fuel + 1) (.ofMachine m)).machine = m' := by
    intro fuel
    have hlook : ∀ w : Watched, w.look.machine = w.machine := fun w => by
      rw [Watched.look]
      split <;> rfl
    have hquiet : (Watched.look ⟨m', m.shared.pulse, m.shared.world.now⟩).passTime? = none := by
      simp [Watched.passTime?, hlook, World.nextAlarm?, halarms]
    rw [Watched.settle]
    simp only [Watched.ofMachine, h, hquiet]
    split <;> exact hlook _
  exact hstep 99999

/-- A call that never has to wait, in a shell in which nothing is under way before and after it. -/
theorem call_of_runAlone? {act : Action Shell Answer} {answer : Answer}
    (h : act.runAlone? mainThread s = some (answer, s')) (hs : s.Idle) (hs' : s'.Idle) :
    call act ⟨s, []⟩ = ⟨{ s' with answers := s'.answers.push (mainThread, answer) }, []⟩ := by
  have hanswering : (answering act).runAlone? mainThread s =
      some ((), { s' with answers := s'.answers.push (mainThread, answer) }) := by
    refine (runAlone?_bind (a := mainThread) rfl).trans ?_
    exact runAlone?_bind (runAlone?_attempt h)
  have hlast : Idle { s' with answers := s'.answers.push (mainThread, answer) } :=
    ⟨hs'.started, hs'.ended, hs'.alarms⟩
  have hsettle := Life.settle_alone hanswering (takeStarted_of_idle hs) (takeStarted_of_idle hlast)
    (by simp [life, hs.ended]) (by simp [life, hs'.ended]) 99998
  exact settle_of_no_alarm hsettle hs'.alarms

theorem runAlone?_start_of_not_found (hlive : (s.session id).isLive) (h : s.found? query = none) :
    (start id query).run.runAlone? me s = some (.error (.unknownLanguage query), s) := by
  have hlanguage : (languageFor query).runAlone? me s = some (none, s) := by
    rw [← h]
    rfl
  refine (runAlone?_bind (runAlone?_ensureLive hlive me)).trans ?_
  exact runAlone?_bind (a := Except.ok none) (runAlone?_bind hlanguage)

def makeFirst (name : String) (task : FirstTask) (watched : Bool) : Checked SessionId := do
  let id ← newSession name none
  setFirstTask id watched task
  return id

theorem startFirst_eq (name language : String) (task : FirstTask) (watched : Bool) :
    startFirst name language task watched =
      makeFirst name task watched >>= fun id => start id language := by
  simp [startFirst, makeFirst]

theorem exists_runAlone?_makeFirst (name : String) (task : FirstTask) (watched : Bool)
    (i : Invocation) (settings : Settings) (files : FileSystem) :
    ∃ s, (makeFirst name task watched).run.runAlone? mainThread (ofInvocation i settings files) =
        some (.ok 0, s) ∧
      s.Idle ∧ s.answers = #[] ∧ (s.session 0).isLive ∧
        ∀ query, s.found? query = (ofInvocation i settings files).found? query := by
  cases task with
  | interactive => exact ⟨_, rfl, ⟨rfl, rfl, rfl⟩, rfl, rfl, fun _ => rfl⟩
  | batch targets => exact ⟨_, rfl, ⟨rfl, rfl, rfl⟩, rfl, rfl, fun _ => rfl⟩
  | compile target source output options =>
    exact ⟨_, rfl, ⟨rfl, rfl, rfl⟩, rfl, rfl, fun _ => rfl⟩

theorem startFailure?_of_not_found (name : String) (task : FirstTask) (watched : Bool)
    (i : Invocation) (settings : Settings) (files : FileSystem)
    (h : (ofInvocation i settings files).found? query = none) :
    (call (answerDone (startFirst name query task watched))
      ⟨ofInvocation i settings files, []⟩).shared.startFailure? =
        some (ShellError.unknownLanguage query : Fault) := by
  obtain ⟨s, hmade, hidle, hanswers, hlive, hfound⟩ :=
    exists_runAlone?_makeFirst name task watched i settings files
  have hstart : (startFirst name query task watched).run.runAlone? mainThread
      (ofInvocation i settings files) = some (.error (.unknownLanguage query), s) := by
    rw [startFirst_eq]
    refine (runAlone?_bind hmade).trans ?_
    exact runAlone?_start_of_not_found hlive ((hfound query).trans h)
  have hanswer : (answerDone (startFirst name query task watched)).runAlone? mainThread
      (ofInvocation i settings files) =
        some (.failed (ShellError.unknownLanguage query : Fault), s) :=
    (runAlone?_bind (a := .error (ShellError.unknownLanguage query : Fault))
      ((runAlone?_bind hstart).trans rfl)).trans rfl
  rw [call_of_runAlone? hanswer ⟨rfl, rfl, rfl⟩ hidle]
  simp [startFailure?, hanswers]

end Shell

namespace Invocation

variable {i : Invocation} {line : CommandLine} {task : FirstTask}

def settingsFor (i : Invocation) (line : CommandLine) : Settings :=
  (line.apply (Settings.load i.processors i.files i.env)).withColourWish i.env

def filesFor (i : Invocation) (line : CommandLine) : FileSystem :=
  let settings := i.settingsFor line
  if settings.log then i.files.withLog (settings.preloadDirectory i.env) else i.files

def shellFor (i : Invocation) (line : CommandLine) : Shell :=
  .ofInvocation i (i.settingsFor line) (i.filesFor line)

/-- How a run ends whose first session cannot be started. -/
def refused (i : Invocation) (line : CommandLine) (fault : Fault) : Launch :=
  failedWith (fault.context ("cannot start session '" ++ (i.settingsFor line).shellName ++ "'"))
    (i.filesFor line)

/-- How a run ends whose query names no language. -/
def unknown (i : Invocation) (line : CommandLine) : Launch :=
  failedWith (i.shellFor line).unknownLanguage (i.filesFor line)

theorem launch_of_lookup?_eq_none (hread : CommandLine.read i.arguments = .ok (.run line))
    (htask : line.firstTask = .ok task)
    (h : (i.shellFor line).languages.lookup? (i.settingsFor line).language = none) :
    i.launch = i.unknown line := by
  simp only [launch, hread, launchShell, htask]
  split
  · rfl
  · next hsome => cases h.symm.trans hsome

def opened (i : Invocation) (line : CommandLine) (task : FirstTask) : Machine Shell Role :=
  call (answerDone (startFirst (i.settingsFor line).shellName (i.settingsFor line).language task
    i.watched)) ⟨i.shellFor line, []⟩

theorem launch_of_lookup?_eq_some {language : Language}
    (hread : CommandLine.read i.arguments = .ok (.run line)) (htask : line.firstTask = .ok task)
    (h : (i.shellFor line).languages.lookup? (i.settingsFor line).language = some language) :
    (∃ fault, (i.opened line task).shared.startFailure? = some fault ∧
        i.launch = i.refused line fault) ∨
      (i.opened line task).shared.startFailure? = none ∧ i.launch = .running
      (i.opened line task) := by
  simp only [launch, hread, launchShell, htask]
  split
  · next hnone => cases h.symm.trans hnone
  · split
    · next fault hfault => exact .inl ⟨fault, hfault, rfl⟩
    · next hnone => exact .inr ⟨hnone, rfl⟩

theorem refused_ne_unknown (fault : Fault) : i.refused line fault ≠ i.unknown line := by
  intro h
  have hreport : (fault.context ("cannot start session '" ++ (i.settingsFor line).shellName ++
      "'")).report = (i.shellFor line).unknownLanguage.report := by
    injection h with h
    exact congrArg Completion.err h
  have hchars := congrArg (fun s : String => s.toList[7]?) hreport
  simp [Fault.report, Fault.message, Fault.messages, Fault.context, Shell.unknownLanguage,
    Fault.plain, Fault.of, Cause.messages] at hchars

/-- The check turns a run away if the query itself names no language; the start fails if what the
query stands for names none. So a query with another name can be turned away by the check, though a
session would start in it, and can pass the check for the start to fail. -/
theorem unknown_language_iff (hread : CommandLine.read i.arguments = .ok (.run line))
    (htask : line.firstTask = .ok task) :
    (i.launch = i.unknown line ↔
      (i.shellFor line).languages.lookup? (i.settingsFor line).language = none) ∧
    ((i.shellFor line).languages.lookup? (i.settingsFor line).language ≠ none →
      (i.shellFor line).found? (i.settingsFor line).language = none →
      i.launch = i.refused line
        (ShellError.unknownLanguage (i.settingsFor line).language : Fault)) ∧
    (∀ (s s' : Shell) (id : SessionId) (query : String) (takesFocus : Bool) (me : ThreadId)
      (fate : Fate (Except ShellError Unit)), (s.session id).isLive →
      Runs (outlook query id) me (startWith id query takesFocus).run s fate s' →
      (LacksLanguage fate ↔ s.found? query = none)) ∧
    ∀ (s : Shell) (query : String), s.preload.aliases.get? (Text.toLowercase query) = none →
      s.found? query = s.languages.lookup? query := by
  refine ⟨⟨fun hlaunch => ?_, launch_of_lookup?_eq_none hread htask⟩, fun hsome hnone => ?_,
    fun s s' id query takesFocus me fate hlive hrun => lacksLanguage_iff_of_runs hlive hrun,
    fun s query h => found?_of_no_alias h⟩
  · cases hlookup : (i.shellFor line).languages.lookup? (i.settingsFor line).language with
    | none => rfl
    | some language =>
      obtain ⟨fault, -, hrefused⟩ | ⟨-, hrunning⟩ :=
        launch_of_lookup?_eq_some hread htask hlookup
      · exact absurd (hrefused.symm.trans hlaunch) (refused_ne_unknown fault)
      · cases hrunning.symm.trans hlaunch
  · obtain ⟨language, hlookup⟩ := Option.ne_none_iff_exists'.mp hsome
    have hfailure := startFailure?_of_not_found (i.settingsFor line).shellName task i.watched i
      (i.settingsFor line) (i.filesFor line) hnone
    obtain ⟨fault, hfault, hrefused⟩ | ⟨hrunning, -⟩ :=
      launch_of_lookup?_eq_some hread htask hlookup
    · obtain rfl := Option.some.inj (hfault.symm.trans hfailure)
      exact hrefused
    · cases hrunning.symm.trans hfailure

/-- A preload configuration that gives two names another meaning: one stands for the calculator, and
the calculator's own stands for nothing. -/
def aliases : String :=
  "Preload.alias.math=calculator\nPreload.alias.calc=python"

def aliased (query : String) : Invocation where
  arguments := ["-l", query]
  env := fun name => if name = "CUF_PRELOAD_DIR" then some "" else none
  files := ⟨#[.directory [("preload.conf", 1), ("cuf.log", 2)],
    .file (Bytes.ofChars aliases.toList), .file []], []⟩
  input := ⟨[], true⟩
  endIsFinal := true
  processors := 1
  watched := false

def aliasedLine (query : String) : CommandLine :=
  { language := some query }

theorem parse_aliases : Preload.parse "" aliases =
    ⟨"", [("calc", "python"), ("math", "calculator")], [], []⟩ := by
  decide +kernel

theorem readText_aliases (query : String) :
    (aliased query).files.readText Preload.fileName = .ok aliases := by
  have hbytes : (aliased query).files.readBytes Preload.fileName =
      .ok (Bytes.ofChars aliases.toList) := rfl
  have htext : FileSystem.textOf (Bytes.ofChars aliases.toList) = .ok aliases := by
    rw [FileSystem.textOf, Bytes.text?_ofChars]
    simp
  rw [FileSystem.readText, hbytes]
  exact htext

theorem withLog_aliased (query : String) :
    (aliased query).files.withLog "" = (aliased query).files := by
  have hparent : FileSystem.parentPath? logName = some "" := rfl
  have hexists : (aliased query).files.pathExists logName = true := rfl
  have hmade : (aliased query).files.makeDirectories "" = (.ok (), (aliased query).files) := rfl
  rw [FileSystem.withLog, show Path.join "" logName = logName from rfl, hparent]
  simp [hmade, hexists]

def aliasedShell (query : String) : Shell :=
  { Shell.new ((aliased query).settingsFor (aliasedLine query))
      ⟨"", [("calc", "python"), ("math", "calculator")], [], []⟩ (aliased query).files
        ⟨[], true⟩ true true with
    uiThread := some mainThread }

theorem shellFor_aliased (query : String) :
    (aliased query).shellFor (aliasedLine query) = aliasedShell query := by
  have hdir : ((aliased query).settingsFor (aliasedLine query)).preloadDirectory
      (aliased query).env = "" :=
    rfl
  have hload : Preload.load (aliased query).files "" = Preload.parse "" aliases := by
    rw [Preload.load, show Path.join "" Preload.fileName = Preload.fileName from rfl,
      readText_aliases]
  have hfiles : (aliased query).filesFor (aliasedLine query) = (aliased query).files := by
    rw [filesFor, hdir, withLog_aliased]
    exact ite_self _
  rw [shellFor, ofInvocation, hfiles, hdir, hload, parse_aliases]
  rfl

/-- The calculator's own name passes the check, and no session starts in it. -/
theorem calc_refused_of_alias :
    CommandLine.read (aliased "calc").arguments = .ok (.run (aliasedLine "calc")) ∧
    (aliasedLine "calc").firstTask = .ok .interactive ∧
    (aliased "calc").launch =
      (aliased "calc").refused (aliasedLine "calc")
      (ShellError.unknownLanguage "calc" : Fault) := by
  have hread : CommandLine.read (aliased "calc").arguments = .ok (.run (aliasedLine "calc")) := rfl
  refine ⟨hread, rfl, (unknown_language_iff hread rfl).2.1 ?_ ?_⟩
  · rw [shellFor_aliased]
    decide +kernel
  · rw [shellFor_aliased]
    decide +kernel

/-- The check turns down a name that stands for the calculator, in which the first session would
have started. -/
theorem math_unknown_of_alias :
    (aliased "math").launch = (aliased "math").unknown (aliasedLine "math") ∧
    ((aliased "math").shellFor (aliasedLine "math")).found? "math" = some Language.calculator ∧
    ∃ s, (startFirst "sh" "math" .interactive false).run.runAlone? mainThread
      ((aliased "math").shellFor (aliasedLine "math")) = some (.ok (), s) := by
  have hread : CommandLine.read (aliased "math").arguments = .ok (.run (aliasedLine "math")) := rfl
  refine ⟨launch_of_lookup?_eq_none hread rfl ?_, ?_, _, runAlone?_eq_aloneOr ?_⟩
  · rw [shellFor_aliased]
    decide +kernel
  · rw [shellFor_aliased]
    decide +kernel
  · rw [shellFor_aliased]
    decide +kernel

end Invocation

end SessionShell
