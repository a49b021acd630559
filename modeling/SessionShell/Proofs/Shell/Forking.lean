import Mathlib.Logic.Function.Basic
import SessionShell.Proofs.CommandLine.Languages
import SessionShell.Proofs.Ending.Estate

/-!
The language of a child.

A child for which no language was asked is to speak the language of its script, or else that of
its parent. But its start is handed only the name of that language, and looks it up as it does
with any query: it follows other names first, and takes the first language that answers then. So a
child speaks the language it is to speak where the name of that language leads back to it, and
nowhere else.
-/

namespace SessionShell

open SessionShell.Action

structure Kin where
  language : Option Language
  disposed : Bool
  exitCode : Option Int
  exitHook : Option ExitHook
  tasks : List Task
  deriving DecidableEq, Repr

def Session.kin (s : Session) : Kin :=
  ⟨s.language, s.disposed, s.exitCode, s.exitHook, s.tasks⟩

namespace Kin

def newborn : Kin :=
  ⟨none, false, none, none, []⟩

def hooked (hook? : Option ExitHook) (k : Kin) : Kin :=
  { k with exitHook := hook?.or k.exitHook }

def speaking (language : Language) (k : Kin) : Kin :=
  { k with language := some language, tasks := .boot language :: k.tasks }

end Kin

namespace Shell

/-- The file of a script, if it is one that can be read. -/
def script? (s : Shell) (path : String) : Option Nat :=
  match s.world.files.openForReading path with
  | .ok file => if s.world.files.isFile path then some file else none
  | .error _ => none

end Shell

structure Lineage where
  languages : LanguageRegistry
  preload : Preload
  script? : String → Option Nat
  refusesThreads : Bool
  registry : Registry
  count : Nat
  kin : SessionId → Kin

namespace Lineage

variable {v : Lineage} {id : SessionId}

def modify (v : Lineage) (id : SessionId) (f : Kin → Kin) : Lineage :=
  { v with kin := Function.update v.kin id (f (v.kin id)) }

@[simp] theorem kin_modify_self {f : Kin → Kin} : (v.modify id f).kin id = f (v.kin id) := by
  simp [modify]

@[simp] theorem modify_modify {f g : Kin → Kin} :
    (v.modify id f).modify id g = v.modify id fun k => g (f k) := by
  simp [modify]

@[simp] theorem modify_id : v.modify id (fun k => k) = v := by
  simp [modify]

def bear (v : Lineage) : Lineage :=
  { v with count := v.count + 1, kin := Function.update v.kin v.count .newborn }

def settle (v : Lineage) (id : SessionId) (language : Language) : Lineage :=
  { v.modify id (.speaking language) with registry := (v.registry.add id).2 }

def found? (v : Lineage) (query : String) : Option Language :=
  v.languages.lookup? (v.preload.resolveAlias query)

def started (v : Lineage) (query : String) : Except ShellError Language :=
  match v.found? query with
  | none => .error (.unknownLanguage query)
  | some language => if v.refusesThreads then .error Shell.threadRefused else .ok language

theorem started_eq_ok_iff {query : String} {language : Language} :
    v.started query = .ok language ↔ v.found? query = some language ∧ v.refusesThreads = false := by
  unfold started
  split
  · next hnone => simp [hnone]
  · next found hfound => cases v.refusesThreads <;> simp [hfound]

def due? (v : Lineage) (parent : SessionId) (options : Shell.ForkOptions) : Option Language :=
  (options.script.bind v.languages.forScript?).or (v.kin parent).language

end Lineage

namespace Shell

variable {α : Type} {s : Shell} {v : Lineage} {me : ThreadId} {id child : SessionId}

def lineage (s : Shell) : Lineage :=
  ⟨s.languages, s.preload, s.script?, s.refusesThreads, s.registry, s.sessions.size,
    fun id => (s.session id).kin⟩

theorem lineage_modifySession {f : Session → Session} {g : Kin → Kin} (hid : id < s.sessions.size)
    (h : (f (s.session id)).kin = g (s.session id).kin) :
    (modifySession id f s).lineage = s.lineage.modify id g := by
  have hkin : (modifySession id f s).lineage.kin = (s.lineage.modify id g).kin := by
    funext other
    by_cases ho : other = id
    · subst ho
      simpa [lineage, session_modifySession_self f hid] using h
    · simp [lineage, session_modifySession_of_ne f ho, Lineage.modify, ho]
  have hcount : (modifySession id f s).sessions.size = s.sessions.size := by
    simp [modifySession]
  calc (modifySession id f s).lineage
      = ⟨s.languages, s.preload, s.script?, s.refusesThreads, s.registry,
          (modifySession id f s).sessions.size, (modifySession id f s).lineage.kin⟩ := rfl
    _ = s.lineage.modify id g := by rw [hkin, hcount]; rfl

theorem lineage_push {session : Session} {console : Console} (h : session.kin = .newborn) :
    lineage { s with console, sessions := s.sessions.push session } = s.lineage.bear := by
  have hkin : (lineage { s with console, sessions := s.sessions.push session }).kin =
      s.lineage.bear.kin := by
    funext other
    by_cases ho : other = s.sessions.size
    · subst ho
      simp [lineage, Shell.session, Lineage.bear, h]
    · simp [lineage, Shell.session, Lineage.bear, Array.getElem?_push, ho]
  calc lineage { s with console, sessions := s.sessions.push session }
      = ⟨s.languages, s.preload, s.script?, s.refusesThreads, s.registry,
        (s.sessions.push session).size,
          (lineage { s with console, sessions := s.sessions.push session }).kin⟩ := rfl
    _ = s.lineage.bear := by rw [hkin, Array.size_push]; rfl

/-! ## The steps of a fork -/

theorem yields_updateSession_kin {f : Session → Session} {g : Kin → Kin} (hid : id < v.count)
    (h : ∀ session, (f session).kin = g session.kin) :
    Yields lineage me (updateSession id f) v fun _ w => w = v.modify id g :=
  yields_update fun s hs => by
    subst hs
    exact lineage_modifySession hid (h _)

theorem yields_tryUpdate_kin {f : Session → Except ShellError Session} {g : Kin → Kin}
    (hid : id < v.count) (h : ∀ session, session.kin = v.kin id →
      ∃ session', f session = .ok session' ∧ session'.kin = g session.kin) :
    Yields lineage me (tryUpdate id f).run v fun r w => r = .ok () ∧ w = v.modify id g := by
  refine yields_step fun s hs => ?_
  subst hs
  obtain ⟨session', hf, hkin⟩ := h (s.session id) rfl
  rw [hf]
  exact ⟨rfl, lineage_modifySession (f := fun _ => session') hid hkin⟩

theorem yields_getSession_kin :
    Yields lineage me (getSession id) v fun session w => session.kin = v.kin id ∧ w = v :=
  yields_read fun s hs => by
    subst hs
    exact ⟨rfl, rfl⟩

theorem yields_newSession_kin (name : String) (script : Option String) :
    Yields lineage me (newSession name script) v fun child w => child = v.count ∧ w = v.bear :=
  yields_step fun s hs => by
    subst hs
    exact ⟨rfl, lineage_push rfl⟩

theorem yields_setMain_kin (main : MainTask) (hid : id < v.count)
    (hlive : (v.kin id).disposed = false) :
    Yields lineage me (setMain id main).run v fun r w => r = .ok () ∧ w = v := by
  refine Yields.mono (yields_tryUpdate_kin (g := fun k => k) hid fun session hs => ?_) ?_
  · have hdisposed : session.disposed = false := (congrArg Kin.disposed hs).trans hlive
    simp [hdisposed, Session.kin]
  · rintro r w ⟨rfl, rfl⟩
    simp

theorem yields_setExitHook_kin (hook : ExitHook) (hid : id < v.count) (hkin : v.kin id = .newborn) :
    Yields lineage me (setExitHook id hook).run v fun r w =>
      r = .ok () ∧ w = v.modify id (.hooked (some hook)) := by
  refine Yields.bind (yields_tryUpdate_kin (g := .hooked (some hook)) hid fun session hs => ?_) ?_
  · have hnew : session.kin = .newborn := hs.trans hkin
    have hdisposed : session.disposed = false := congrArg Kin.disposed hnew
    have hcode : session.exitCode = none := congrArg Kin.exitCode hnew
    have hhook : session.exitHook = none := congrArg Kin.exitHook hnew
    simp [hdisposed, hcode, hhook, Session.kin, Kin.hooked]
  · rintro r w ⟨rfl, rfl⟩
    exact always_pure _ ⟨rfl, rfl⟩

theorem yields_ensureLive_kin (hlive : (v.kin id).disposed = false) :
    Yields lineage me (ensureLive id).run v fun r w => r = .ok () ∧ w = v := by
  refine yields_ensureLive_of_live ?_
  rintro s rfl
  exact hlive

theorem yields_setLanguage_kin (language : Language) (hid : id < v.count)
    (hnone : (v.kin id).language = none) :
    Yields lineage me (setLanguage id language).run v fun r w =>
      r = .ok () ∧ w = v.modify id fun k => { k with language := some language } := by
  refine yields_tryUpdate_kin hid fun session hs => ?_
  have hlanguage : session.language = none := (congrArg Kin.language hs).trans hnone
  simp [Session.languageName?, hlanguage, Session.kin]

theorem yields_consoleStart_kin : Yields lineage me consolePlace.start v fun _ w => w = v := by
  have hstart : ∀ {ρ : Type} {slot : StreamAt Shell ρ},
      (∀ service s, (slot.set service s).lineage = s.lineage) →
      (∀ s, (slot.launch s).lineage = s.lineage) →
      ∀ {w : Lineage}, Yields lineage me slot.start w fun _ y => y = w := by
    intro ρ slot hset hlaunch w
    refine yields_update fun s hs => ?_
    dsimp only
    split
    · exact hs
    · rw [hlaunch, hset, hs]
  refine Yields.bind (hstart (fun _ _ => rfl) fun _ => rfl) ?_
  rintro _ _ rfl
  refine Yields.bind (hstart (fun _ _ => rfl) fun _ => rfl) ?_
  rintro _ _ rfl
  exact hstart (fun _ _ => rfl) fun _ => rfl

theorem yields_startThread_kin :
    Yields lineage me (startThread id) v fun started w => started = !v.refusesThreads ∧ w = v :=
  yields_step fun s hs => by
    subst hs
    split
    · next hrefuses => exact ⟨by simp [lineage, hrefuses], rfl⟩
    · next hrefuses => exact ⟨by simp [lineage, hrefuses], rfl⟩

theorem returns_dispose {ω : Type} {view : Shell → ω} {x : ω} :
    Yields view me (dispose id) x fun _ _ => True := by
  have hupdate : ∀ (f : Shell → Shell) {y : ω}, Yields view me (update f) y fun _ _ => True :=
    fun _ => yields_update fun _ _ => trivial
  refine Yields.bind (P := fun _ _ => True) (yields_step fun _ _ => trivial) fun hook? _ _ => ?_
  refine Yields.bind (P := fun _ _ => True) ?_ fun _ _ _ => Yields.bind (hupdate _) fun _ _ _ =>
    Yields.bind (hupdate _) fun _ _ _ => Yields.bind (hupdate _) fun _ _ _ => hupdate _
  cases hook? with
  | none => exact always_pure _ trivial
  | some hook => exact hupdate _

/-! ## The start of a child -/

theorem yields_startWith_child (query : String) (hid : id < v.count)
    (hlive : (v.kin id).disposed = false) (hnone : (v.kin id).language = none) :
    Yields lineage me (startWith id query false).run v fun r w =>
      r = (v.started query).map (fun _ => ()) ∧
        ∀ language, v.started query = .ok language → w = v.settle id language := by
  refine Yields.run_bind (yields_ensureLive_kin hlive) ?_ fun e y h => nomatch h.1
  rintro _ w ⟨-, rfl⟩
  refine Yields.lift_bind (P := fun found y => found = w.found? query ∧ y = w)
    (yields_read fun s hs => ?_) ?_
  · subst hs
    exact ⟨rfl, rfl⟩
  rintro found v ⟨hfound, rfl⟩
  cases found with
  | none =>
    rw [Lineage.started, ← hfound]
    exact always_pure _ ⟨rfl, fun _ h => nomatch h⟩
  | some language =>
    refine Yields.run_bind (yields_setLanguage_kin language hid hnone) ?_ fun e y h => nomatch h.1
    rintro _ _ ⟨-, rfl⟩
    refine Yields.lift_bind (yields_updateSession_kin
      (g := fun k => { k with tasks := .boot language :: k.tasks }) hid fun _ => rfl) ?_
    rintro _ _ rfl
    refine Yields.lift_bind (P := fun _ y => y = v.settle id language)
      (yields_update fun s hs => ?_) ?_
    · calc lineage { s with registry := (s.registry.add id).2 }
          = { s.lineage with registry := (s.lineage.registry.add id).2 } := rfl
        _ = v.settle id language := by rw [hs, Lineage.modify_modify]; rfl
    rintro _ _ rfl
    refine Yields.lift_bind (P := fun _ y => y = v.settle id language)
      (Yields.mono (yields_updateSession_kin (g := fun k => k) hid fun _ => rfl) ?_) ?_
    · rintro _ _ rfl
      exact Lineage.modify_id
    rintro _ _ rfl
    refine Yields.lift_bind yields_consoleStart_kin ?_
    rintro _ _ rfl
    refine Yields.lift_bind yields_startThread_kin ?_
    rintro threaded _ ⟨hthreaded, rfl⟩
    rw [Lineage.started, ← hfound]
    change threaded = !v.refusesThreads at hthreaded
    cases hrefuses : v.refusesThreads with
    | false =>
      obtain rfl : threaded = true := by rw [hthreaded, hrefuses]; rfl
      refine always_pure _ ⟨rfl, ?_⟩
      rintro _ ⟨rfl⟩
      rfl
    | true =>
      obtain rfl : threaded = false := by rw [hthreaded, hrefuses]; rfl
      refine Always.run_bind (R := Fate.Returns fun r _ => r = .ok ()) ?_ ?_ ?_ (fun _ h => h.elim)
        fun _ h => h.elim
      · exact Always.discard_lift (yields_step (P := fun _ _ => True) fun _ _ => trivial)
          (fun _ _ _ => rfl) (fun _ h => h.elim) fun _ h => h.elim
      · rintro _ _ -
        refine Yields.lift_bind returns_dispose fun _ _ _ => ?_
        exact always_pure _ ⟨rfl, fun _ h => nomatch h⟩
      · rintro _ _ ⟨⟩

/-! ## A fork -/

theorem yields_childLanguage_kin {options : ForkOptions} {due : Language}
    (hasked : options.language = none) (hdue : v.due? id options = some due) :
    Yields lineage me (childLanguage id options) v fun query w => query = due.name ∧ w = v := by
  refine yields_read fun s hs => ?_
  subst hs
  have hname : ((options.script.bind s.languages.forScript?).map (·.name)).or
    (s.session id).languageName? =
      some due.name := by
    rw [Session.languageName?, ← Option.map_or]
    exact congrArg (Option.map (·.name)) hdue
  simp only [hasked, Option.none_or, hname, Option.getD_some, and_self]

theorem yields_forkWith_started (query : String) (hchild : child < v.count)
    (hlive : (v.kin child).disposed = false) (hnone : (v.kin child).language = none) :
    Yields lineage me (do
      match ← caught (startWith child query false) with
      | .ok () => return child
      | .error e =>
        dispose child
        throw e : Checked SessionId).run v fun r w =>
      r = (v.started query).map (fun _ => child) ∧
        ∀ language, v.started query = .ok language → w = v.settle child language := by
  refine Yields.lift_bind (yields_startWith_child query hchild hlive hnone) ?_
  rintro _ w ⟨rfl, hw⟩
  cases hstarted : v.started query with
  | ok language => exact always_pure _ ⟨rfl, fun found hfound => hw found (hstarted.trans hfound)⟩
  | error e =>
    refine Yields.lift_bind returns_dispose fun _ _ _ => ?_
    exact always_pure _ ⟨rfl, fun _ h => nomatch h⟩

theorem yields_forkWith_kin {options : ForkOptions} {due : Language} (main : MainTask)
    (hasked : options.language = none) (hdue : v.due? id options = some due) :
    Yields lineage me (forkWith id options main).run v fun r w =>
      r = (v.started due.name).map (fun _ => v.count) ∧
        ∀ language, v.started due.name = .ok language →
          w = (v.bear.modify v.count (.hooked (childHook id options))).settle v.count language := by
  refine Yields.lift_bind (yields_childLanguage_kin hasked hdue) ?_
  rintro _ v ⟨rfl, rfl⟩
  refine Yields.lift_bind yields_getSession_kin ?_
  rintro parent v ⟨-, rfl⟩
  refine Yields.lift_bind (yields_newSession_kin _ _) ?_
  rintro _ _ ⟨rfl, rfl⟩
  have hborn : v.bear.kin v.count = .newborn := by simp [Lineage.bear]
  have hknown : v.count < v.bear.count := Nat.lt_succ_self _
  refine Yields.run_bind (yields_setMain_kin main hknown (by rw [hborn]; rfl)) ?_ fun e y h =>
    nomatch h.1
  rintro _ _ ⟨-, rfl⟩
  cases childHook id options with
  | none =>
    rw [show Kin.hooked none = fun k => k from rfl, Lineage.modify_id]
    exact yields_forkWith_started due.name hknown (by rw [hborn]; rfl) (by rw [hborn]; rfl)
  | some hook =>
    refine Yields.run_bind (yields_setExitHook_kin hook hknown hborn) ?_ fun e y h => nomatch h.1
    rintro _ _ ⟨-, rfl⟩
    exact yields_forkWith_started due.name hknown (by simp [hborn]; rfl) (by simp [hborn]; rfl)

theorem yields_childMain_kin {options : ForkOptions}
    (hscript : ∀ path, options.script = some path → v.script? path ≠ none) :
    Yields lineage me (childMain options) v fun main? w => main? ≠ none ∧ w = v := by
  cases hpath : options.script with
  | none =>
    simp only [childMain, hpath]
    exact always_pure _ ⟨nofun, rfl⟩
  | some path =>
    simp only [childMain, hpath]
    refine Yields.bind (P := fun file? w => file? = v.script? path ∧ w = v)
      (yields_read fun s hs => ?_) ?_
    · subst hs
      exact ⟨rfl, rfl⟩
    rintro file? v ⟨rfl, rfl⟩
    cases hfile : v.script? path with
    | none => exact absurd hfile (hscript path hpath)
    | some file => exact always_pure _ ⟨nofun, rfl⟩

theorem yields_fork_kin {options : ForkOptions} {due : Language}
    (hlive : (v.kin id).disposed = false)
    (hasked : options.language = none) (hdue : v.due? id options = some due)
    (hscript : ∀ path, options.script = some path → v.script? path ≠ none) :
    Yields lineage me (fork id options).run v fun r w =>
      r = (v.started due.name).map (fun _ => some v.count) ∧
        ∀ language, v.started due.name = .ok language →
          w = (v.bear.modify v.count (.hooked (childHook id options))).settle v.count language := by
  refine Yields.lift_bind yields_getSession_kin ?_
  rintro session v ⟨hsession, rfl⟩
  have hdisposed : session.disposed = false := (congrArg Kin.disposed hsession).trans hlive
  simp only [hdisposed, Bool.false_eq_true, if_false]
  refine Yields.lift_bind (yields_childMain_kin hscript) ?_
  rintro main? v ⟨hmain, rfl⟩
  obtain ⟨main, rfl⟩ := Option.ne_none_iff_exists'.mp hmain
  refine Yields.run_bind (yields_forkWith_kin main hasked hdue) ?_ ?_
  · rintro child w ⟨hr, hw⟩
    refine always_pure _ ⟨?_, hw⟩
    cases hstarted : v.started due.name with
    | error e => cases hr.trans (congrArg (Except.map _) hstarted)
    | ok language =>
      obtain rfl := Except.ok.inj (hr.trans (congrArg (Except.map _) hstarted))
      rfl
  · rintro e w ⟨hr, hw⟩
    refine ⟨?_, hw⟩
    cases hstarted : v.started due.name with
    | error e' =>
      obtain rfl := Except.error.inj (hr.trans (congrArg (Except.map _) hstarted))
      rfl
    | ok language => cases hr.trans (congrArg (Except.map _) hstarted)

section Feasible

variable {ω : Type} {view : Shell → ω} {stops : Prop}

theorem feasible_startWith (query : String) :
    Feasible view stops (startWith id query false).run := by
  have hconsole : Feasible view stops consolePlace.start :=
    (feasible_update _).bind fun _ => (feasible_update _).bind fun _ => feasible_update _
  refine Feasible.run_bind feasible_ensureLive fun _ => Feasible.run_bind
    (Feasible.lift (feasible_read _)) fun found => ?_
  cases found with
  | none => exact feasible_pure _
  | some language =>
    refine Feasible.run_bind (feasible_step _) fun _ => Feasible.run_bind
      (Feasible.lift (feasible_update _))
      fun _ => Feasible.run_bind (Feasible.lift (feasible_update _)) fun _ =>
      Feasible.run_bind (Feasible.lift (feasible_update _)) fun _ =>
      Feasible.run_bind (Feasible.lift hconsole) fun _ =>
      Feasible.run_bind (Feasible.lift (feasible_step _)) fun started => ?_
    cases started with
    | true => exact feasible_pure _
    | false =>
      refine Feasible.run_bind (Feasible.bind (Feasible.lift (feasible_step _)) fun r => ?_)
        fun _ =>
        Feasible.run_bind (Feasible.lift feasible_dispose) fun _ => feasible_pure _
      cases r with
      | ok => exact feasible_pure _
      | error e => exact feasible_pure _

theorem feasible_forkWith (options : ForkOptions) (main : MainTask) :
    Feasible view stops (forkWith id options main).run := by
  have hstarted : ∀ (child : SessionId) (query : String), Feasible view stops (do
      match ← caught (startWith child query false) with
      | .ok () => return child
      | .error e =>
        dispose child
        throw e : Checked SessionId).run := by
    intro child query
    refine Feasible.run_bind (Feasible.lift (feasible_startWith query)) fun r => ?_
    cases r with
    | ok => exact feasible_pure _
    | error e => exact Feasible.run_bind (Feasible.lift feasible_dispose) fun _ => feasible_pure _
  refine Feasible.run_bind (Feasible.lift (feasible_read _)) fun query =>
    Feasible.run_bind (Feasible.lift (feasible_read _)) fun parent =>
    Feasible.run_bind (Feasible.lift (feasible_step _)) fun child =>
    Feasible.run_bind (feasible_step _) fun _ => ?_
  cases childHook id options with
  | none => exact hstarted child query
  | some hook =>
    refine Feasible.run_bind (Feasible.bind (feasible_step _) fun r => ?_) fun _ =>
      hstarted child query
    cases r with
    | ok => exact feasible_pure _
    | error e =>
      exact Feasible.run_bind (Feasible.lift (feasible_update _)) fun _ => feasible_pure _

theorem feasible_fork (options : ForkOptions) : Feasible view stops (fork id options).run := by
  have hdrop : ∀ hook? : Option ExitHook, Feasible view stops (dropHook? hook?) := by
    intro hook?
    cases hook? with
    | none => exact feasible_pure _
    | some hook => exact feasible_update _
  have hreport : ∀ fault : Fault, Feasible view stops (reportError fault) := fun _ =>
    (feasible_read _).bind fun _ => feasible_update _
  have hmain : Feasible view stops (childMain options) := by
    unfold childMain
    split
    · exact feasible_pure _
    · refine (feasible_read _).bind fun file? => ?_
      cases file? <;> exact feasible_pure _
  refine Feasible.run_bind (Feasible.lift (feasible_read _)) fun session => ?_
  cases session.disposed with
  | true => exact Feasible.run_bind (Feasible.lift (hdrop _)) fun _ => feasible_pure _
  | false =>
    refine Feasible.run_bind (Feasible.lift hmain) fun main? => ?_
    cases main? with
    | some main => exact Feasible.run_bind (feasible_forkWith options main) fun _ => feasible_pure _
    | none =>
      refine Feasible.run_bind (Feasible.lift (hreport _)) fun _ => ?_
      cases options.hook with
      | none => exact feasible_pure _
      | some hook =>
        exact Feasible.run_bind (Feasible.lift (feasible_runHook _ hook)) fun _ => feasible_pure _

end Feasible

/-- A child was started in a language, and makes the interpreter of that. -/
def Raised (s : Shell) (child : SessionId) (language : Language) : Prop :=
  (s.session child).language = some language ∧ .boot language ∈ (s.session child).tasks ∧
    child ∈ s.registry

theorem raised_of_settle {language : Language} (h : s.lineage = v.settle child language) :
    s.Raised child language := by
  have hkin : (s.session child).kin = (v.kin child).speaking language := by
    calc (s.session child).kin = s.lineage.kin child := rfl
      _ = (v.kin child).speaking language := by simp [h, Lineage.settle]
  have hregistry : s.registry = v.registry ++ [child] := congrArg Lineage.registry h
  refine ⟨congrArg Kin.language hkin, ?_, by simp [hregistry]⟩
  have htasks : (s.session child).tasks = .boot language :: (v.kin child).tasks :=
    congrArg Kin.tasks hkin
  simp [htasks]

/-- The language of a child for which none was asked. It is to speak that of its script, or else
that of its parent, and what it is started in is the language that the name of that one stands for.
So it is started in the language it is to speak if the name leads back to it, which is so if there
is no other name for it and no language before it that answers; and it is started in another one, or
not at all, if not. -/
theorem raised_iff_of_fork {parent due : Language} {options : ForkOptions}
    (hlive : (s.session id).disposed = false) (hparent : (s.session id).language = some parent)
    (hasked : options.language = none)
    (hscript : ∀ path, options.script = some path → s.script? path ≠ none)
    (hdue : due = (options.script.bind s.languages.forScript?).getD parent) :
    (∃ fate s', Runs lineage me (fork id options).run s fate s') ∧
    (∀ fate s', Runs lineage me (fork id options).run s fate s' →
      (s.found? due.name = none → fate = .returned (.error (.unknownLanguage due.name))) ∧
      (∀ language, s.found? due.name = some language → s.refusesThreads = true →
        fate = .returned (.error threadRefused)) ∧
      (∀ language, s.found? due.name = some language → s.refusesThreads = false →
        fate = .returned (.ok (some s.sessions.size)) ∧ s'.Raised s.sessions.size language) ∧
      ((∃ child, fate = .returned (.ok (some child)) ∧ s'.Raised child due) ↔
        s.found? due.name = some due ∧ s.refusesThreads = false)) ∧
    (s.preload.aliases.get? (Text.toLowercase due.name) = none →
      s.languages.lookup? due.name = some due →
      s.found? due.name = some due) := by
  have hdue? : s.lineage.due? id options = some due := by
    rw [hdue, Lineage.due?]
    change (options.script.bind s.languages.forScript?).or (s.session id).language = _
    rw [hparent]
    cases options.script.bind s.languages.forScript? <;> rfl
  have hfeasible : Feasible lineage False (fork id options).run := feasible_fork options
  refine ⟨hfeasible.exists_runs me s, fun fate s' hr => ?_, fun halias hlookup =>
    (found?_of_no_alias halias).trans hlookup⟩
  have hyield := yields_fork_kin hlive hasked hdue? hscript s fate s' rfl hr
  cases fate with
  | crashed => exact hyield.elim
  | halted => exact hyield.elim
  | returned r =>
    obtain ⟨rfl, hstate⟩ := hyield
    have hstarted : s.lineage.started due.name =
        match s.found? due.name with
        | none => .error (.unknownLanguage due.name)
        | some language => if s.refusesThreads then .error threadRefused else .ok language := rfl
    have hok_iff : ∀ language, s.lineage.started due.name = .ok language ↔
        s.found? due.name = some language ∧ s.refusesThreads = false :=
      fun _ => Lineage.started_eq_ok_iff (v := s.lineage)
    have hraised : ∀ language, s.lineage.started due.name = .ok language →
        s'.Raised s.sessions.size language :=
          fun language hok => raised_of_settle (hstate language hok)
    refine ⟨fun hfound => ?_, fun language hfound hthreads => ?_,
      fun language hfound hthreads => ?_, ?_, ?_⟩
    · rw [hstarted, hfound]
      rfl
    · rw [hstarted, hfound, hthreads]
      rfl
    · have hok : s.lineage.started due.name = .ok language :=
        (hok_iff language).mpr ⟨hfound, hthreads⟩
      rw [hok]
      exact ⟨rfl, hraised language hok⟩
    · rintro ⟨child, hreturned, hlanguage, -⟩
      cases hok : s.lineage.started due.name with
      | error e =>
        rw [hok] at hreturned
        cases hreturned
      | ok language =>
        rw [hok] at hreturned
        cases hreturned
        have hsame : language = due :=
          Option.some.inj ((hraised language hok).1.symm.trans hlanguage)
        rw [hsame] at hok
        exact (hok_iff due).mp hok
    · intro hfound
      have hok : s.lineage.started due.name = .ok due := (hok_iff due).mpr hfound
      rw [hok]
      exact ⟨_, rfl, hraised due hok⟩

/-- The shell of a program with one session, which was started with a query. -/
def firstOf (query : String) (languages : LanguageRegistry) (preload : Preload) : Shell :=
  let s := Shell.new (.default 1) preload .empty ⟨[], true⟩ true true
  aloneOr 0 (start 0 query).run (aloneOr 0 (newSession "a" none) { s with languages })

theorem raised_iff_of_fork_calc :
    ((firstOf "calc" .builtins (.empty "")).session 0).disposed = false ∧
    ((firstOf "calc" .builtins (.empty "")).session 0).language = some .calculator ∧
    ∃ fate s', Runs lineage 0 (fork 0 {}).run (firstOf "calc" .builtins (.empty "")) fate s' ∧
      ∃ child, fate = .returned (.ok (some child)) ∧ s'.Raised child .calculator := by
  have hlive : ((firstOf "calc" .builtins (.empty "")).session 0).disposed = false := rfl
  have hlanguage : ((firstOf "calc" .builtins (.empty "")).session 0).language =
      some .calculator := rfl
  obtain ⟨⟨fate, s', hr⟩, hall, -⟩ :=
    @raised_iff_of_fork _ 0 0 .calculator .calculator {} hlive hlanguage rfl
    nofun rfl
  obtain ⟨-, -, -, hiff⟩ := hall fate s' hr
  exact ⟨hlive, hlanguage, fate, s', hr, hiff.mpr (by decide)⟩

/-- A language that answers to the name of another one. -/
def impostor : Language :=
  ⟨"alpha", "1", "bare", ["beta"], [], [], .bare⟩

def impersonated : Language :=
  ⟨"beta", "1", "bare", [], ["b"], [], .bare⟩

/-- A session was started as calculator. The name of that language is another name of one that is
not there, and no child can be forked. Another session was started in a language by its extension,
and its child is started in the language ahead of that, which answers to its name. -/
theorem fork_of_renamed_and_impersonated :
    (((firstOf "calculator" .builtins ⟨"", [("calc", "python")], [], []⟩).session 0).language =
        some .calculator ∧
      ∃ s', Runs lineage 0 (fork 0 {}).run
        (firstOf "calculator" .builtins ⟨"", [("calc", "python")], [], []⟩)
        (.returned (.error (.unknownLanguage "calc"))) s') ∧
    ((firstOf "b" [impostor, impersonated] (.empty "")).session 0).language = some impersonated ∧
    ∃ s', Runs lineage 0 (fork 0 {}).run (firstOf "b" [impostor, impersonated] (.empty ""))
        (.returned (.ok (some 1))) s' ∧
      s'.Raised 1 impostor := by
  refine ⟨⟨rfl, _, runs_of_runAlone? (runAlone?_eq_aloneOr_of_map ?_)⟩,
    rfl, _,
    runs_of_runAlone? (runAlone?_eq_aloneOr_of_map ?_), ?_⟩
  · decide +kernel
  · decide +kernel
  · unfold Raised
    decide +kernel

end Shell

end SessionShell
