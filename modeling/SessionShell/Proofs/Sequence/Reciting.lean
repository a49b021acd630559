import SessionShell.Proofs.Action.Vantage
import SessionShell.Proofs.Calc.Asking
import SessionShell.Proofs.Focus.Seating
import SessionShell.Proofs.Sequence.Telling
import SessionShell.Proofs.Shell.Reading
import SessionShell.Shell.Life

/-!
What the session of a script does, from the start of its thread to its end.

It changes nothing but itself, except that it writes, sends its code, drops its sender and leaves
the registry, in this order. None of this has to wait, and all of it is known beforehand.
-/

namespace SessionShell

open Action Shell

structure Backdrop where
  settings : Settings
  languages : LanguageRegistry
  preload : Preload
  files : FileSystem
  input : StreamService LineRequest
  endsProcess : Bool
  refusesThreads : Bool

def Shell.backdrop (s : Shell) : Backdrop :=
  ⟨s.settings, s.languages, s.preload, s.world.files, s.console.input, s.endsProcess,
    s.refusesThreads⟩

namespace Sequence

inductive Deed where
  | say (w : Saying)
  | send (label : String) (code : Int)
  | drop
  | leave
  deriving DecidableEq, Repr

def channel : Nat := 0

def Deed.perform (id : SessionId) : Deed → Shell → Shell
  | .say (.out text), s => consolePlace.out.set ((consolePlace.out.get s).submit text) s
  | .say (.err text), s => consolePlace.err.set ((consolePlace.err.get s).submit text) s
  | .send label code, s =>
    modifyChannel channel (fun c => { c with queue := c.queue ++ [(label, code)] }) s
  | .drop, s => dropSender channel s
  | .leave, s => { s with registry := (s.registry.remove id).2 }

structure Recital where
  own : Session
  deeds : List Deed

structure Recital.Holds (o : Backdrop) (id : SessionId) (a : Recital) (s : Shell) : Prop where
  session : s.session id = a.own
  known : id < s.sessions.size
  backdrop : s.backdrop = o
  leaves : .leave ∈ a.deeds → 0 ∈ s.registry ∧ id ≠ 0
  disposed : a.own.disposed = true → a.deeds = []

structure Recital.Moves (id : SessionId) (a : Recital) (s : Shell) (a' : Recital) (s' : Shell) :
    Prop where
  deed : ∃ deed? : Option Deed, a.deeds = deed?.toList ++ a'.deeds ∧
    s' = modifySession id (fun _ => a'.own) (deed?.elim s (·.perform id s))
  disposed : a'.own.disposed = true → a'.deeds = []
  lasting : a.own.disposed = true → a'.own.disposed = true

def recital (o : Backdrop) (id : SessionId) (me : ThreadId) : Vantage Unit Shell Recital where
  me := me
  holds a _ := a.Holds o id
  moves a _ := a.Moves id
  ready _ _ _ := True

variable {o : Backdrop} {id : SessionId} {me : ThreadId} {a a' : Recital} {x : Session}
  {deeds : List Deed}
  {s : Shell} {α : Type}

theorem modifySession_eq (f : Session → Session) (s : Shell) :
    modifySession id f s = modifySession id (fun _ => f (s.session id)) s := by
  have hsessions : s.sessions.modify id f = s.sessions.modify id fun _ => f (s.session id) := by
    apply Array.ext_getElem?
    intro i
    by_cases hi : id = i
    · subst hi
      cases hs : s.sessions[id]? <;> simp [Array.getElem?_modify, hs, session]
    · simp [Array.getElem?_modify, hi]
  simp only [modifySession, hsessions]

theorem modifySession_same (s : Shell) : modifySession id (fun _ => s.session id) s = s := by
  rw [← modifySession_eq (fun x => x) s]
  have hsessions : s.sessions.modify id (fun x => x) = s.sessions := by
    apply Array.ext_getElem?
    intro i
    by_cases hi : id = i
    · subst hi
      cases hs : s.sessions[id]? <;> simp [Array.getElem?_modify, hs]
    · simp [Array.getElem?_modify, hi]
  simp only [modifySession, hsessions]

/-! ## Steps -/

abbrev Tells (o : Backdrop) (id : SessionId) (me : ThreadId) (p : Action Shell α)
    (a : Recital) (v : α) (a' : Recital) : Prop :=
  (recital o id me).Comes p a v a'

theorem Recital.Holds.change {x' : Session} (h : a.Holds o id s)
    (hx : x'.disposed = a.own.disposed ∨ x'.disposed = true ∧ a.deeds = []) :
    a.Moves id s ⟨x', a.deeds⟩ (modifySession id (fun _ => x') s) where
  deed := ⟨none, rfl, rfl⟩
  disposed hdead := hx.elim (fun hsame => h.disposed (hsame.symm.trans hdead)) And.right
  lasting hdead := hx.elim (fun hsame => hsame.trans hdead) And.left

theorem Recital.Holds.stay (h : a.Holds o id s) : a.Moves id s a s := by
  refine ⟨⟨none, rfl, ?_⟩, h.disposed, fun hx => hx⟩
  rw [← h.session]
  exact (modifySession_same s).symm

theorem Recital.Holds.next {deed : Deed} (h : Holds o id ⟨x, deed :: deeds⟩ s)
    (hsession : (deed.perform id s).session id = s.session id) :
    Moves id ⟨x, deed :: deeds⟩ s ⟨x, deeds⟩ (deed.perform id s) := by
  refine ⟨⟨some deed, rfl, ?_⟩, fun hx => (nomatch h.disposed hx), fun hx => hx⟩
  rw [show x = (deed.perform id s).session id from (hsession.trans h.session).symm]
  exact (modifySession_same _).symm

theorem tells_own {f : Shell → α × Shell} {x' : Session} {v : α}
    (hf : ∀ s, s.session id = x → s.backdrop = o → f s = (v, modifySession id (fun _ => x') s))
    (hdisposed : x'.disposed = x.disposed ∨ x'.disposed = true ∧ deeds = []) :
    Tells o id me (step f) ⟨x, deeds⟩ v ⟨x', deeds⟩ :=
  Vantage.comes_step fun _ s hs => by
    have hs : Recital.Holds o id ⟨x, deeds⟩ s := hs
    rw [hf s hs.session hs.backdrop]
    exact ⟨hs.change hdisposed, rfl⟩

theorem tells_look {f : Shell → α} {v : α}
    (hf : ∀ s, s.session id = a.own → s.backdrop = o → f s = v) :
    Tells o id me (Action.read f) a v a :=
  Vantage.comes_read fun _ s hs => by
    have hs : a.Holds o id s := hs
    exact ⟨hs.stay, hf s hs.session hs.backdrop⟩

theorem tells_self : Tells o id me (self : Action Shell ThreadId) a me a := by
  refine fun _ s hs => ⟨fun _ => rfl, fun answer s' hact => ?_⟩
  cases hact
  exact ⟨a, Recital.Holds.stay hs, rfl, rfl⟩

theorem tells_updateSession {f : Session → Session}
    (hdisposed : (f x).disposed = x.disposed ∨ (f x).disposed = true ∧ deeds = []) :
    Tells o id me (updateSession id f) ⟨x, deeds⟩ () ⟨f x, deeds⟩ :=
  tells_own (fun s hs _ => by rw [← hs, ← modifySession_eq]) hdisposed

theorem tells_tryUpdate {f : Session → Except ShellError Session} {x' : Session} (hf : f x = .ok x')
    (hdisposed : x'.disposed = x.disposed ∨ x'.disposed = true ∧ deeds = []) :
    Tells o id me (tryUpdate id f).run ⟨x, deeds⟩ (.ok ()) ⟨x', deeds⟩ :=
  tells_own (fun s hs _ => by simp only [hs, hf]) hdisposed

theorem tells_deed (deed : Deed) {f : Shell → Shell} (hf : ∀ s, f s = deed.perform id s)
    (hsession : ∀ s, (deed.perform id s).session id = s.session id) :
    Tells o id me (Action.update f) ⟨x, deed :: deeds⟩ () ⟨x, deeds⟩ :=
  Vantage.comes_update fun _ s hs => by
    rw [hf s]
    exact Recital.Holds.next hs (hsession s)

theorem tells_getSession : Tells o id me (getSession id) a a.own a :=
  tells_look fun _ hs _ => hs

theorem tells_isLive : Tells o id me (isLive id) a a.own.isLive a :=
  tells_look fun _ hs _ => congrArg Session.isLive hs

theorem tells_getSettings : Tells o id me getSettings a o.settings a :=
  tells_look fun _ _ ho => congrArg Backdrop.settings ho

/-! ## What it writes -/

theorem tells_ensureLive (hlive : a.own.disposed = false) :
    Tells o id me (ensureLive id).run a (.ok ()) a := by
  refine tells_getSession.lift_bind ?_
  simp only [Session.isLive, hlive, Bool.not_false, if_true]
  exact Vantage.comes_pure _

theorem tells_ensureLive_disposed (hdead : a.own.disposed = true) :
    Tells o id me (ensureLive id).run a (.error (.hasExited a.own.name)) a := by
  refine tells_getSession.lift_bind ?_
  simp only [Session.isLive, hdead, Bool.not_true, Bool.false_eq_true, if_false]
  exact Vantage.comes_pure _

theorem tells_print (text : String) :
    Tells o id me (consolePlace.print text) ⟨x, .say (.out text) :: deeds⟩ () ⟨x, deeds⟩ :=
  tells_deed _ (fun _ => rfl) fun _ => rfl

theorem tells_printError (text : String) :
    Tells o id me (consolePlace.printError text) ⟨x, .say (.err text) :: deeds⟩ () ⟨x, deeds⟩ :=
  tells_deed _ (fun _ => rfl) fun _ => rfl

theorem tells_reportError (fault : Fault) : Tells o id me (reportError fault)
    ⟨x, .say (.err (faultText o.settings fault)) :: deeds⟩ () ⟨x, deeds⟩ :=
  tells_getSettings.bind (tells_printError _)

theorem tells_warning (message : String) : Tells o id me (warning message)
    ⟨x, .say (.err (Dialogue.warningText o.settings message)) :: deeds⟩ () ⟨x, deeds⟩ :=
  tells_getSettings.bind (tells_printError _)

theorem tells_out (text : String) (hlive : x.disposed = false) :
    Tells o id me (out id text).run ⟨x, .say (.out text) :: deeds⟩ (.ok ()) ⟨x, deeds⟩ :=
  (tells_ensureLive hlive).run_bind ((tells_print text).lift_bind (Vantage.comes_pure _))

theorem tells_out_disposed (text : String) (hdead : a.own.disposed = true) :
    Tells o id me (out id text).run a (.error (.hasExited a.own.name)) a :=
  (tells_ensureLive_disposed hdead).run_bind_error

theorem tells_sayLine (text : String) (hlive : x.disposed = false) :
    Tells o id me (sayLine id text) ⟨x, .say (.out (text ++ "\n")) :: deeds⟩ () ⟨x, deeds⟩ :=
  (tells_out _ hlive).discard

/-! ## Its end -/

structure Ordinary (label : String) (x : Session) : Prop where
  disposed : x.disposed = false
  exitCode : x.exitCode = none
  exitHook : x.exitHook = some (.report channel label)
  compiling : x.compiling = none
  jobs : x.jobs = []
  tasks : x.tasks = []
  current : x.current = false

def parted (code : Int) (x : Session) : Session :=
  { x with
    exitCode := some code
    exitHook := none
    current := false
    disposed := true
    compiling := none
    interpreter := none
    main := none
    jobs := []
    tasks := []
    focus := x.focus.release }

theorem tells_recordCode (code : Int) (hlive : x.disposed = false) (hopen : x.exitCode = none) :
    Tells o id me (recordCode id code).run ⟨x, deeds⟩ (.ok x.exitHook)
      ⟨{ x with exitCode := some code, exitHook := none }, deeds⟩ := by
  refine tells_own (fun s hs _ => ?_) (.inl rfl)
  have hnot : ¬((s.session id).disposed ∨ (s.session id).exitCode.isSome) := by
    simp [hs, hlive, hopen]
  dsimp only
  rw [if_neg hnot, modifySession_eq, hs]

theorem tells_runHook (label : String) (code : Int) :
    Tells o id me (discard (runHook code (.report channel label)).attempt)
      ⟨x, .send label code :: .drop :: deeds⟩ () ⟨x, deeds⟩ := by
  refine Vantage.Comes.discard (v := some ()) (Vantage.Comes.attempt ?_)
  exact (tells_deed (.send label code) (fun _ => rfl) fun _ => rfl).bind
    (tells_deed .drop (fun _ => rfl) fun _ => rfl)

theorem tells_loseFocus : Tells o id me (loseFocus id) ⟨x, deeds⟩ x.current
    ⟨{ x with current := false }, deeds⟩ :=
  tells_own (fun s hs _ => by rw [modifySession_eq, hs]) (.inl rfl)

theorem does_leaveRegistry : (recital o id me).Does
    (Fate.Returns fun removal a => removal ≠ .last ∧ a = ⟨x, deeds⟩) (leaveRegistry id)
    ⟨x, .leave :: deeds⟩ := by
  refine Vantage.does_step fun _ s hs => ?_
  have hs : Recital.Holds o id ⟨x, .leave :: deeds⟩ s := hs
  refine ⟨⟨x, deeds⟩, hs.next rfl, ?_, rfl⟩
  intro hlast
  obtain ⟨hhost, hne⟩ := Recital.Holds.leaves hs List.mem_cons_self
  have hin : 0 ∈ List.erase s.registry id := (List.mem_erase_of_ne (Ne.symm hne)).mpr hhost
  rw [Registry.erase_of_last hlast] at hin
  exact List.not_mem_nil hin

theorem tells_leave {label : String} (code : Int) (hcurrent : x.current = false) :
    Tells o id me (leave id code (some (.report channel label)) true)
      ⟨x, .send label code :: .drop :: .leave :: deeds⟩ false ⟨x, deeds⟩ := by
  have hsame : { x with current := false } = x := by rw [← hcurrent]
  refine (tells_runHook label code).bind (tells_loseFocus.bind ?_)
  rw [hsame, hcurrent]
  refine does_leaveRegistry.bind fun removal a h => ?_
  obtain ⟨hne, rfl⟩ := h
  cases removal with
  | last => exact absurd rfl hne
  | removed index remaining => exact Vantage.comes_pure false
  | absent => exact Vantage.comes_pure false

theorem tells_markDisposed (hcompiling : x.compiling = none) (hhook : x.exitHook = none) :
    Tells o id me (markDisposed id) ⟨x, []⟩ none
      ⟨{ x with
          disposed := true
          compiling := none
          interpreter := none
          main := none
          exitHook := none }, []⟩ := by
  refine tells_own (fun s hs _ => ?_) (.inr ⟨rfl, rfl⟩)
  dsimp only
  rw [hs, hcompiling, hhook, Option.elim_none, modifySession_eq, hs]

theorem tells_cancelJobs (hjobs : x.jobs = []) :
    Tells o id me (cancelJobs id) ⟨x, []⟩ () ⟨{ x with jobs := [] }, []⟩ := by
  refine tells_own (fun s hs _ => ?_) (.inl rfl)
  dsimp only
  rw [hs, hjobs, List.filter_nil, List.foldl_nil, modifySession_eq, hs]

theorem tells_dropTasks (htasks : x.tasks = []) :
    Tells o id me (dropTasks id) ⟨x, []⟩ () ⟨{ x with tasks := [] }, []⟩ := by
  refine tells_own (fun s hs _ => ?_) (.inl rfl)
  dsimp only
  rw [hs, htasks, List.foldl_nil, modifySession_eq, hs]

theorem tells_dispose (hcompiling : x.compiling = none) (hhook : x.exitHook = none)
    (hjobs : x.jobs = []) (htasks : x.tasks = []) : Tells o id me (dispose id) ⟨x, []⟩ ()
      ⟨{ x with
          current := false
          disposed := true
          compiling := none
          interpreter := none
          main := none
          exitHook := none
          jobs := []
          tasks := []
          focus := x.focus.release }, []⟩ := by
  refine (tells_markDisposed hcompiling hhook).bind ((Vantage.comes_pure ()).bind ?_)
  refine Vantage.Comes.bind (tells_cancelJobs ?_) (Vantage.Comes.bind (tells_dropTasks ?_) ?_)
  · exact hjobs
  · exact htasks
  · exact (tells_updateSession (.inl rfl)).bind (tells_updateSession (.inl rfl))

theorem tells_finish {label : String} (code : Int) (h : Ordinary label x) :
    Tells o id me (finish id code true true).run ⟨x, [.send label code, .drop, .leave]⟩ (.ok ())
      ⟨parted code x, []⟩ := by
  have hrecord : Tells o id me (recordCode id code).run ⟨x, [.send label code, .drop, .leave]⟩
      (.ok x.exitHook) ⟨{ x with exitCode := some code, exitHook := none }, _⟩ :=
    tells_recordCode code h.disposed h.exitCode
  rw [h.exitHook] at hrecord
  refine hrecord.run_bind ?_
  rw [if_pos rfl]
  refine Vantage.Comes.lift_bind (tells_leave code ?_) ?_
  · exact h.current
  refine Vantage.Comes.lift_bind (tells_dispose ?_ rfl ?_ ?_) (Vantage.comes_pure _)
  · exact h.compiling
  · exact h.jobs
  · exact h.tasks

theorem tells_exit_disposed (code : Int) (hdead : a.own.disposed = true) :
    Tells o id me (exit id code).run a (.error (.hasExited a.own.name)) a :=
  (tells_ensureLive_disposed hdead).run_bind_error

def warnings (o : Backdrop) (code : Int) : List Deed :=
  (closing o.settings (some code) none).map .say

theorem tells_exit {label : String} (code : Int) (h : Ordinary label x) :
    Tells o id me (exit id code).run
      ⟨x, warnings o code ++ [.send label (ExitCode.sanitize code), .drop, .leave]⟩ (.ok ())
      ⟨parted (ExitCode.sanitize code) x, []⟩ := by
  refine (tells_ensureLive h.disposed).run_bind ?_
  cases hwarning : ExitCode.remapWarning? code with
  | none =>
    simp only [warnings, closing, hwarning, Option.map_none, Option.toList_none, List.map_nil,
      List.nil_append]
    exact tells_finish _ h
  | some message =>
    simp only [warnings, closing, hwarning, Option.map_some, Option.toList_some, List.map_cons,
      List.map_nil, List.cons_append, List.nil_append]
    exact (tells_warning message).lift_bind (tells_finish _ h)

/-! ## Its script -/

/-- What is left to do behind a script that has printed its texts, and has exited or not. -/
def behind (o : Backdrop) (label : String) (deeds : List Deed) : Option Int → List Deed
  | none => deeds
  | some code => warnings o code ++ [.send label (ExitCode.sanitize code), .drop, .leave]

def after (x : Session) (deeds : List Deed) : Option Int → Recital
  | none => ⟨x, deeds⟩
  | some code => ⟨parted (ExitCode.sanitize code) x, []⟩

def fateOf {β : Type} : Option β → Fate β
  | some v => .returned v
  | none => .crashed

variable {β : Type} {name label : String} {t : Telling β} {p : Hosted SessionId β} {Q : β → Prop}

theorem does_expand_parted {code : Int} (hname : x.name = name) (hdead : x.disposed = true)
    (hasks : p.Asks (fun r => r.host = id) Q) (htold : p.told? name (some code) = some t) :
    (recital o id me).Does (fun fate a => fate = fateOf t.ending ∧ a = ⟨x, []⟩)
    (p.expand answerHost)
      ⟨x, []⟩ := by
  induction p with
  | done v =>
    cases htold
    exact ⟨rfl, rfl⟩
  | crash =>
    cases htold
    exact ⟨rfl, rfl⟩
  | ask r next ih =>
    obtain ⟨host, call⟩ := r
    obtain ⟨rfl, hnext⟩ := hasks
    cases call with
    | name =>
      have hanswer : Tells o host me (answerHost ⟨host, .name⟩) ⟨x, []⟩ name ⟨x, []⟩ := by
        rw [← hname]
        exact tells_getSession.bind (Vantage.comes_pure _)
      exact hanswer.bind (ih _ (hnext _) htold)
    | out text =>
      have hanswer : Tells o host me (answerHost ⟨host, .out text⟩) ⟨x, []⟩ (Program.refusal name)
          ⟨x, []⟩ := by
        rw [← hname]
        exact (tells_out_disposed text hdead).bind (Vantage.comes_pure _)
      exact hanswer.bind (ih _ (hnext _) htold)
    | exit code =>
      have hanswer : Tells o host me (answerHost ⟨host, .exit code⟩) ⟨x, []⟩ (Program.refusal name)
          ⟨x, []⟩ := by
        rw [← hname]
        exact (tells_exit_disposed code hdead).bind (Vantage.comes_pure _)
      exact hanswer.bind (ih _ (hnext _) htold)
    | _ => cases htold

/-- What a script asks of its session is answered at once, and so the session does what was told. -/
theorem does_expand (hname : x.name = name) (h : Ordinary label x)
    (hasks : p.Asks (fun r => r.host = id) Q) (htold : p.told? name none = some t) :
    (recital o id me).Does (fun fate a => fate = fateOf t.ending ∧ a = after x deeds t.exit?)
      (p.expand answerHost)
      ⟨x, t.texts.map (fun text => .say (.out text)) ++ behind o label deeds t.exit?⟩ := by
  induction p generalizing t with
  | done v =>
    cases htold
    exact ⟨rfl, rfl⟩
  | crash =>
    cases htold
    exact ⟨rfl, rfl⟩
  | ask r next ih =>
    obtain ⟨host, call⟩ := r
    obtain ⟨rfl, hnext⟩ := hasks
    cases call with
    | name =>
      refine Vantage.Comes.bind ?_ (ih _ (hnext name) htold)
      rw [← hname]
      exact tells_getSession.bind (Vantage.comes_pure _)
    | out text =>
      obtain ⟨t, ht, rfl⟩ := Option.map_eq_some_iff.mp htold
      have hanswer : ∀ deeds, Tells o host me (answerHost ⟨host, .out text⟩)
        ⟨x, .say (.out text) :: deeds⟩
          (.ok ()) ⟨x, deeds⟩ :=
        fun deeds => (tells_out text h.disposed).bind (Vantage.comes_pure _)
      exact (hanswer _).bind (ih _ (hnext _) ht)
    | exit code =>
      have hrest : t.texts = [] ∧ t.exit? = some code := Program.told?_exited htold
      rw [hrest.1, hrest.2]
      have hanswer : Tells o host me (answerHost ⟨host, .exit code⟩)
        ⟨x, behind o label deeds (some code)⟩
          (.ok ()) (after x deeds (some code)) :=
        (tells_exit code h).bind (Vantage.comes_pure _)
      exact hanswer.bind (does_expand_parted hname rfl (hnext _) htold)
    | _ => cases htold

structure Primed (name label : String) (id : SessionId) (me : ThreadId) (x : Session) : Prop where
  ordinary : Ordinary label x
  named : x.name = name
  owner : x.owner = some me
  interpreter : x.interpreter = some (freshInterpreter name id)

theorem tells_claimInterpreter (h : Primed name label id me x) :
    Tells o id me (asFault (claimInterpreter id)) ⟨x, deeds⟩ (.ok (freshInterpreter name id))
      ⟨{ x with interpreter := none }, deeds⟩ := by
  have hcheck : Tells o id me (checkOwner id).run ⟨x, deeds⟩ (.ok ()) ⟨x, deeds⟩ := by
    refine tells_self.lift_bind (tells_getSession.lift_bind ?_)
    rw [h.owner]
    dsimp only
    rw [if_neg (not_not.mpr rfl)]
    exact Vantage.comes_pure _
  have htake : Tells o id me (takeInterpreter id) ⟨x, deeds⟩ (some (freshInterpreter name id))
      ⟨{ x with interpreter := none }, deeds⟩ :=
    tells_own (fun s hs _ => by rw [modifySession_eq, hs, h.interpreter]) (.inl rfl)
  have hclaim : Tells o id me (claimInterpreter id).run ⟨x, deeds⟩ (.ok (freshInterpreter name id))
      ⟨{ x with interpreter := none }, deeds⟩ :=
    hcheck.run_bind (htake.lift_bind (Vantage.comes_pure _))
  exact hclaim.bind (Vantage.comes_pure _)

theorem tells_putInterpreter_parted (i : Interpreter SessionId) (hdead : x.disposed = true) :
    Tells o id me (putInterpreter id i) ⟨x, []⟩ () ⟨x, []⟩ := by
  have hsame : (if x.disposed ∨ x.interpreter.isSome then x else { x with interpreter := some i }) =
      x :=
    if_pos (.inl hdead)
  have hput : Tells o id me (putInterpreter id i) ⟨x, []⟩ ()
      ⟨if x.disposed ∨ x.interpreter.isSome then x else { x with interpreter := some i }, []⟩ :=
    tells_updateSession (.inl (congrArg Session.disposed hsame))
  rwa [hsame] at hput

theorem tells_putInterpreter (i : Interpreter SessionId) (hlive : x.disposed = false)
    (hnone : x.interpreter = none) :
    Tells o id me (putInterpreter id i) ⟨x, deeds⟩ ()
      ⟨{ x with interpreter := some i }, deeds⟩ := by
  have hopen : (if x.disposed ∨ x.interpreter.isSome then x else { x with interpreter := some i }) =
      { x with interpreter := some i } :=
    if_neg (by simp [hlive, hnone])
  have hput : Tells o id me (putInterpreter id i) ⟨x, deeds⟩ ()
      ⟨if x.disposed ∨ x.interpreter.isSome then x else { x with interpreter := some i }, deeds⟩ :=
    tells_updateSession (.inl (by rw [hopen]))
  rwa [hopen] at hput

/-- What the evaluation of a script comes to when its program comes to this. -/
def outcome {β : Type} : Option (Except Fault (Option String) × β) → Except Fault (Option String)
  | some (result, _) => result
  | none => .error (Fault.plain "interpreter panicked")

/-- The session is through with its script, but for what is said about its end. -/
def HasRun (label : String) (deeds : List Deed) (a : Recital) : Option Int → Prop
  | none => Ordinary label a.own ∧ a.deeds = deeds
  | some _ => a.own.disposed = true ∧ a.deeds = []

theorem does_evaluate {t : Telling (Except Fault (Option String) × Interpreter SessionId)}
    {text : String} (deeds : List Deed) (h : Primed name label id me x)
    (htold : ((freshInterpreter name id).eval text (some label)).told? name none = some t) :
    (recital o id me).Does
      (Fate.Returns fun result a => result = outcome t.ending ∧ HasRun label deeds a t.exit?)
      (evaluate id text (some label)).run
      ⟨x, t.texts.map (fun text => .say (.out text)) ++ behind o label deeds t.exit?⟩ := by
  let y : Session := { x with interpreter := none }
  have hy : Ordinary label y := { h.ordinary with }
  have hbinds : (freshInterpreter name id).BindsOnly (· = id) :=
    (Interpreter.bindsOnly_ofKind _).bindHost rfl
  have hexpand : (recital o id me).Does (fun fate a => fate = fateOf t.ending ∧
    a = after y deeds t.exit?) _
      ⟨y, t.texts.map (fun text => .say (.out text)) ++ behind o label deeds t.exit?⟩ :=
    does_expand h.named hy (Interpreter.asks_eval hbinds text (some label)) htold
  have heval : (recital o id me).Does
      (Fate.Returns fun r a => r.1 = outcome t.ending ∧ a = after y deeds t.exit?)
      (evalWith (freshInterpreter name id) text (some label))
      ⟨y, t.texts.map (fun text => .say (.out text)) ++ behind o label deeds t.exit?⟩ := by
    refine Vantage.Does.bind (R := fun r a => r = t.ending ∧ a = after y deeds t.exit?)
      (Vantage.Does.attempt hexpand (fun v a hv => ?_) fun a hv => ?_) ?_
    · cases hending : t.ending with
      | none => simp [hending, fateOf] at hv
      | some w =>
        simp only [hending, fateOf, Fate.returned.injEq] at hv
        exact ⟨congrArg some hv.1, hv.2⟩
    · cases hending : t.ending with
      | none => exact ⟨rfl, hv.2⟩
      | some w => simp [hending, fateOf] at hv
    · rintro r a ⟨rfl, rfl⟩
      cases hending : t.ending with
      | none => exact ⟨rfl, rfl⟩
      | some w => exact ⟨rfl, rfl⟩
  refine (tells_claimInterpreter h).bind (heval.bind ?_)
  rintro ⟨result, i⟩ a ⟨hresult, rfl⟩
  dsimp only at hresult
  subst hresult
  cases hexit : t.exit? with
  | none =>
    refine Vantage.Comes.bind (tells_putInterpreter i h.ordinary.disposed rfl)
      (Vantage.does_pure ?_)
    exact ⟨rfl, { hy with }, rfl⟩
  | some code =>
    exact Vantage.Comes.bind (tells_putInterpreter_parted i rfl) (Vantage.does_pure ⟨rfl, rfl, rfl⟩)

def farewell (label : String) : List Deed :=
  [.send label ReservedCode.success.code, .drop, .leave]

def remarks (settings : Settings) : Except Fault (Option String) → List Saying
  | .ok result => (result.map fun text => .out (text ++ "\n")).toList
  | .error fault => [.err (faultText settings fault)]

theorem closing_none (settings : Settings)
    (ending : Option (Except Fault (Option String) × Interpreter SessionId)) :
    closing settings none ending = remarks settings (outcome ending) := by
  cases ending with
  | none => rfl
  | some r =>
    obtain ⟨result, i⟩ := r
    cases result <;> rfl

theorem tells_sayResult_parted (result : Option (Option String)) (hdead : a.own.disposed = true) :
    Tells o id me (sayResult id result) a () a := by
  match result with
  | none => exact Vantage.comes_pure ()
  | some none => exact Vantage.comes_pure ()
  | some (some text) => exact (tells_out_disposed _ hdead).discard

theorem does_sayScript {p : ExceptT Fault (Action Shell) (Option String)} {exit? : Option Int}
    (result : Except Fault (Option String))
    (hp : (recital o id me).Does (Fate.Returns fun r a => r = result ∧
      HasRun label ((remarks o.settings result).map .say ++ farewell label) a exit?) p.run a) :
    (recital o id me).Does (Fate.Returns fun _ a => HasRun label (farewell label) a exit?)
      (guarded id p >>= sayResult id) a := by
  have hguarded : (recital o id me).Does (Fate.Returns fun r a =>
      (∃ value, r = some value ∧ result = .ok value ∧
        HasRun label ((remarks o.settings result).map .say ++ farewell label) a exit?) ∨
      (r = none ∧ HasRun label (farewell label) a exit?)) (guarded id p) a := by
    refine Vantage.Does.bind (R := fun r a => r = some result ∧
      HasRun label ((remarks o.settings result).map .say ++ farewell label) a exit?)
      (Vantage.Does.attempt hp (fun v a hv => ⟨congrArg some hv.1, hv.2⟩) fun _ hv => hv.elim) ?_
    rintro _ ⟨y, deeds⟩ ⟨rfl, hrun⟩
    cases result with
    | ok value => exact Vantage.does_pure (.inl ⟨value, rfl, rfl, hrun⟩)
    | error fault =>
      refine Vantage.Comes.bind (Vantage.comes_pure fault) (tells_isLive.bind ?_)
      cases exit? with
      | none =>
        obtain ⟨hy, rfl⟩ := hrun
        have hlive : y.disposed = false := hy.disposed
        rw [if_pos (by simp [Session.isLive, hlive])]
        exact (tells_reportError fault).bind (Vantage.does_pure (.inr ⟨rfl, hy, rfl⟩))
      | some code =>
        obtain ⟨hdead, rfl⟩ := hrun
        rw [if_neg (by simpa [Session.isLive] using hdead)]
        exact Vantage.Comes.bind (Vantage.comes_pure _) (Vantage.does_pure (.inr ⟨rfl, hdead, rfl⟩))
  refine hguarded.bind ?_
  rintro r ⟨y, deeds⟩ (⟨value, rfl, rfl, hrun⟩ | ⟨rfl, hrun⟩)
  · cases exit? with
    | some code => exact (tells_sayResult_parted _ hrun.1).does hrun
    | none =>
      obtain ⟨hy, rfl⟩ := hrun
      cases value with
      | none => exact Vantage.does_pure ⟨hy, rfl⟩
      | some text => exact (tells_sayLine text hy.disposed).does ⟨hy, rfl⟩
  · exact Vantage.does_pure hrun

theorem tells_readScript (file : Nat) : Tells o id me
    (ExceptT.lift (readScript (.file file)) : ExceptT Fault (Action Shell) _).run a
    (.ok (scriptText o.files file)) a :=
  (tells_look fun _ _ ho => by rw [← ho]; rfl).bind (Vantage.comes_pure _)

theorem does_runScriptMain {turn : Turn} {file : Nat} (h : Primed name label id me x)
    (hturn : scriptTurn? o.settings o.files name id label file = some turn) :
    (recital o id me).Does (Fate.Returns fun _ a => a.own.disposed = true ∧ a.deeds = [])
      (runScriptMain id (.file file) label .exit)
      ⟨x, turn.sayings.map .say ++ [.send label turn.code, .drop, .leave]⟩ := by
  have hscript : ∃ exit?,
    (recital o id me).Does (Fate.Returns fun _ a => HasRun label (farewell label) a exit?)
      (guarded id (interpret id (.file file) label) >>= sayResult id)
      ⟨x, turn.sayings.map .say ++ [.send label turn.code, .drop, .leave]⟩ := by
    rw [scriptTurn?] at hturn
    cases htext : scriptText o.files file with
    | error e =>
      rw [htext] at hturn
      cases hturn
      refine ⟨none, does_sayScript (.error ((e : Fault).context ("cannot read " ++ label))) ?_⟩
      refine (tells_readScript file).run_bind ?_
      rw [htext]
      exact Vantage.does_pure ⟨rfl, h.ordinary, rfl⟩
    | ok text =>
      rw [htext] at hturn
      obtain ⟨t, ht, rfl⟩ := Option.map_eq_some_iff.mp hturn
      refine ⟨t.exit?, does_sayScript (outcome t.ending) ?_⟩
      refine (tells_readScript file).run_bind ?_
      rw [htext]
      have heval := does_evaluate (o := o)
        ((remarks o.settings (outcome t.ending)).map .say ++ farewell label) h ht
      cases hexit : t.exit? with
      | none =>
        rw [hexit] at heval
        simpa [closing_none, behind, farewell, codeOf, Function.comp_def] using heval
      | some code =>
        rw [hexit] at heval
        simpa [behind, warnings, closing, codeOf, Function.comp_def] using heval
  obtain ⟨exit?, hscript⟩ := hscript
  have hsplit : runScriptMain id (.file file) label .exit =
      ((guarded id (interpret id (.file file) label) >>= sayResult id) >>=
        fun _ => getSession id >>=
        fun session => if session.isLive ∧
          session.exitCode.isNone then afterScript id .exit else pure ()) :=
    (Program.bind_assoc _ _ _).symm
  rw [hsplit]
  refine hscript.bind fun _ a ha => tells_getSession.bind ?_
  obtain ⟨y, deeds⟩ := a
  cases exit? with
  | none =>
    obtain ⟨hy, rfl⟩ := ha
    have hopen : y.disposed = false ∧ y.exitCode = none := ⟨hy.disposed, hy.exitCode⟩
    rw [if_pos (by simp [Session.isLive, hopen])]
    exact (Vantage.Comes.discard (tells_finish _ hy)).does ⟨rfl, rfl⟩
  | some code =>
    rw [if_neg (by simp [Session.isLive, show y.disposed = true from ha.1])]
    exact Vantage.does_pure ha

/-! ## From the start of its thread -/

structure Started (name label : String) (file : Nat) (x : Session) : Prop where
  ordinary : Ordinary label { x with tasks := [] }
  named : x.name = name
  tasks : x.tasks = [.boot .calculator]
  main : x.main = some (.script (.file file) label .exit)

theorem tells_entering : Tells o id me (advance id .entering) ⟨x, deeds⟩
    (some .idle) ⟨{ x with owner := some me }, deeds⟩ := by
  exact tells_self.bind (Vantage.Comes.bind (tells_updateSession (.inl rfl)) (Vantage.comes_pure _))

theorem tells_boot (hpreload : o.preload.scriptFor? Language.calculator.name = none)
    (hlive : x.disposed = false) (hmain : x.main.all MainTask.isInteractive = false) :
    Tells o id me (boot id .calculator) ⟨x, deeds⟩ ()
      ⟨{ x with interpreter := some (freshInterpreter x.name id) }, deeds⟩ := by
  let y : Session := { x with interpreter := some (freshInterpreter x.name id) }
  have hscript : Tells o id me (Action.read fun s => s.preload.scriptFor? Language.calculator.name)
      ⟨x, deeds⟩ none ⟨x, deeds⟩ :=
    tells_look fun _ _ ho => by rw [← hpreload, ← ho]; rfl
  have hinstall : Tells o id me (install id (freshInterpreter x.name id)) ⟨x, deeds⟩ false
      ⟨y, deeds⟩ := by
    refine tells_own (fun s hs _ => ?_) (.inl rfl)
    rw [if_neg (by simp [hs, hlive]), modifySession_eq, hs, hmain]
  have hfinal : (recital o id me).Does (Fate.Returns fun _ b => b = ⟨y, deeds⟩)
      (Action.read fun s : Shell => s.console.endIsFinal) ⟨y, deeds⟩ :=
    Vantage.does_step fun _ s hs => ⟨_, Recital.Holds.stay hs, rfl⟩
  refine tells_getSession.bind
    (hscript.bind (Vantage.Comes.bind (Vantage.comes_pure _) (hinstall.bind ?_)))
  refine hfinal.bind ?_
  rintro endIsFinal _ rfl
  exact Vantage.comes_pure ()

theorem tells_idle_boot (hpreload : o.preload.scriptFor? Language.calculator.name = none)
    (hlive : x.disposed = false) (htasks : x.tasks = [.boot .calculator])
    (hmain : x.main.all MainTask.isInteractive = false) :
    Tells o id me (advance id .idle) ⟨x, deeds⟩ (some .idle)
      ⟨{ x with tasks := [], interpreter := some (freshInterpreter x.name id) }, deeds⟩ := by
  have htake : Tells o id me (takeTask id) ⟨x, deeds⟩ (some (.boot .calculator))
      ⟨{ x with tasks := [] }, deeds⟩ := by
    refine tells_own (fun s hs _ => ?_) (.inl rfl)
    rw [hs, htasks]
    dsimp only
    rw [modifySession_eq, hs]
  have hperform : Tells o id me (perform id (.boot .calculator)).run ⟨{ x with tasks := [] }, deeds⟩
      (.ok none) ⟨{ x with tasks := [], interpreter := some (freshInterpreter x.name id) },
        deeds⟩ :=
    Vantage.Comes.lift_bind (tells_boot hpreload hlive hmain) (Vantage.comes_pure _)
  have hguarded : Tells o id me (guarded id (perform id (.boot .calculator)))
    ⟨{ x with tasks := [] }, deeds⟩
      (some none)
      ⟨{ x with tasks := [], interpreter := some (freshInterpreter x.name id) }, deeds⟩ :=
    hperform.attempt.bind (Vantage.comes_pure _)
  have hrun : Tells o id me (runTask id (.boot .calculator)) ⟨{ x with tasks := [] }, deeds⟩ ()
      ⟨{ x with tasks := [], interpreter := some (freshInterpreter x.name id) }, deeds⟩ :=
    hguarded.bind (Vantage.comes_pure ())
  refine tells_isLive.bind ?_
  rw [if_pos (show x.isLive = true by simp [Session.isLive, hlive])]
  exact htake.bind (hrun.bind (Vantage.comes_pure _))

theorem does_idle_main {turn : Turn} {file : Nat} (h : Primed name label id me x)
    (hmain : x.main = some (.script (.file file) label .exit))
    (hturn : scriptTurn? o.settings o.files name id label file = some turn) :
    (recital o id me).Does
      (Fate.Returns fun phase? a => phase? = some .idle ∧ a.own.disposed = true ∧ a.deeds = [])
      (advance id .idle) ⟨x, turn.sayings.map .say ++ [.send label turn.code, .drop, .leave]⟩ := by
  have hlive : x.disposed = false := h.ordinary.disposed
  have htasks : ∀ deeds, Tells o id me (takeTask id) ⟨x, deeds⟩ none ⟨x, deeds⟩ := fun deeds => by
    refine tells_own (fun s hs _ => ?_) (.inl rfl)
    rw [hs, h.ordinary.tasks, ← hs, modifySession_same]
  have htake : ∀ deeds, Tells o id me (takeMain id) ⟨x, deeds⟩ (.script (.file file) label .exit)
      ⟨{ x with main := none }, deeds⟩ := fun deeds => by
    refine tells_own (fun s hs _ => ?_) (.inl rfl)
    rw [modifySession_eq, hs, hmain]
    rfl
  have hprimed : Primed name label id me { x with main := none } :=
    ⟨{ h.ordinary with }, h.named, h.owner, h.interpreter⟩
  have hawake : x.isLive = true := by simp [Session.isLive, hlive]
  refine tells_isLive.bind ?_
  rw [if_pos hawake]
  refine (htasks _).bind (tells_isLive.bind ?_)
  rw [if_pos hawake]
  refine Vantage.Does.bind (R := fun phase a => phase = .idle ∧ a.own.disposed = true ∧
    a.deeds = []) ((htake _).bind ((does_runScriptMain hprimed hturn).bind ?_)) ?_
  · rintro - ⟨y, deeds⟩ ⟨hdead, rfl⟩
    have hsame : (if y.disposed ∨ y.main.isSome then y else { y with main := some .interactive }) =
        y :=
      if_pos (.inl hdead)
    have hrest : Tells o id me (updateSession id fun session => if session.disposed ∨
      session.main.isSome
        then session else { session with main := some .interactive }) ⟨y, []⟩ ()
        ⟨if y.disposed ∨ y.main.isSome then y else { y with main := some .interactive }, []⟩ :=
      tells_updateSession (.inl (congrArg Session.disposed hsame))
    rw [hsame] at hrest
    exact hrest.bind (Vantage.does_pure ⟨rfl, hdead, rfl⟩)
  · rintro phase a ⟨rfl, ha⟩
    exact Vantage.does_pure ⟨rfl, ha⟩

theorem tells_idle_disposed (hdead : a.own.disposed = true) :
    Tells o id me (advance id .idle) a none a := by
  refine tells_isLive.bind ?_
  rw [if_neg (by simp [Session.isLive, hdead])]
  exact Vantage.comes_pure _

def Recites (o : Backdrop) (id : SessionId) (me : ThreadId) : Nat → Action Shell (Option Role) →
    Recital → Prop
  | 0, p, a => (recital o id me).Does
      (Fate.Returns fun role? a => role? = none ∧ a.own.disposed = true ∧ a.deeds = []) p a
  | n + 1, p, a => (recital o id me).Does
      (Fate.Returns fun role? a => ∃ phase, role? = some (.session id phase) ∧
        Recites o id me n (program (.session id phase)) a) p a

theorem recites_phase {n : Nat} {phase : Phase} {R : Option Phase → Recital → Prop}
    (h : (recital o id me).Does (Fate.Returns R) (advance id phase) a)
    (hnext : ∀ phase? a, R phase? a →
      ∃ phase, phase? = some phase ∧ Recites o id me n (Shell.program (.session id phase)) a) :
    Recites o id me (n + 1) (program (.session id phase)) a :=
  h.bind fun phase? a hR => by
    obtain ⟨phase, rfl, hphase⟩ := hnext phase? a hR
    exact Vantage.does_pure ⟨phase, rfl, hphase⟩

/-- From the start of its thread to its end, the session of a script does what was told of it. -/
theorem recites_started {turn : Turn} {file : Nat} (h : Started name label file x)
    (hpreload : o.preload.scriptFor? Language.calculator.name = none)
    (hturn : scriptTurn? o.settings o.files name id label file = some turn) :
    Recites o id me 3 (program (.session id .entering))
      ⟨x, turn.sayings.map .say ++ [.send label turn.code, .drop, .leave]⟩ := by
  have hlive : x.disposed = false := h.ordinary.disposed
  have hmain : x.main.all MainTask.isInteractive = false := by rw [h.main]; rfl
  have hprimed : Primed name label id me { x with
      owner := some me, tasks := [], interpreter := some (freshInterpreter x.name id) } :=
    ⟨{ h.ordinary with }, h.named, rfl, by rw [h.named]⟩
  refine recites_phase tells_entering ?_
  rintro _ _ ⟨rfl, rfl⟩
  refine ⟨_, rfl, recites_phase (tells_idle_boot hpreload hlive h.tasks hmain) ?_⟩
  rintro _ _ ⟨rfl, rfl⟩
  refine ⟨_, rfl, recites_phase (does_idle_main hprimed h.main hturn) ?_⟩
  rintro _ a ⟨rfl, hdead, hdeeds⟩
  exact ⟨_, rfl, (tells_idle_disposed hdead).bind (Vantage.does_pure ⟨rfl, hdead, hdeeds⟩)⟩

end Sequence

end SessionShell
