import SessionShell.Proofs.Job.Hearing
import SessionShell.Shell.Jobs

/-!
The minutes of a job: what the session that runs it says on each event, and with which code it ends.

Whether the build has failed is remembered from one event to the next, and decides what the last
batch does. Over the whole course of a job this comes to the code of its outcome, behind everything
else there is to say.
-/

namespace SessionShell

/-- What is seen of a session from outside. -/
inductive Sign where
  | said (text : String)
  | complained (text : String)
  | ended (code : Int)
  deriving DecidableEq, Repr

namespace Sign

def said? : Sign → Option String
  | .said text => some text
  | _ => none

def complained? : Sign → Option String
  | .complained text => some text
  | _ => none

def ended? : Sign → Option Int
  | .ended code => some code
  | _ => none

end Sign

def Progress.lines (settings : Settings) (batch : List Progress) : List String :=
  (batch.filter (Shell.isShown settings)).map fun p => p.text ++ "\n"

theorem Progress.lines_append (settings : Settings) (batch batch' : List Progress) :
    lines settings (batch ++ batch') = lines settings batch ++ lines settings batch' := by
  simp [lines]

namespace JobCourse

def reports (c : JobCourse) (task : CompileTask) : List Progress :=
  c.built.filterMap (reportOf? task.title) ++ [c.lastReport task]

def fault? (c : JobCourse) : Option Fault :=
  match c.result with
  | .ok _ => none
  | .error fault => some fault

/-- All that was selected has been said, the fault was complained of, and then the session has
ended with the code of the outcome, once. -/
structure ToldAs (c : JobCourse) (settings : Settings) (task : CompileTask) (signs : List Sign) :
    Prop where
  said : signs.filterMap Sign.said? = Progress.lines settings (c.reports task)
  complained : signs.filterMap Sign.complained? = c.fault?.toList.map (Shell.faultText settings)
  ended : signs.filterMap Sign.ended? = [c.outcome.code.code]
  last : signs.getLast? = some (.ended c.outcome.code.code)

end JobCourse

structure Minutes where
  failed : Bool
  signs : List Sign
  code : Option Int

namespace Minutes

variable {settings : Settings} {task : CompileTask} {c : JobCourse} {heard : List JobEvent}

def new : Minutes :=
  ⟨false, [], none⟩

def say (lines : List String) (m : Minutes) : Minutes :=
  { m with signs := m.signs ++ lines.map .said }

def complain (settings : Settings) (fault : Fault) (m : Minutes) : Minutes :=
  { m with signs := m.signs ++ [.complained (Shell.faultText settings fault)] }

def close (outcome : Outcome) (m : Minutes) : Minutes :=
  { m with signs := m.signs ++ [.ended outcome.code.code], code := some outcome.code.code }

def hear (settings : Settings) (m : Minutes) : JobEvent → Minutes
  | .status batch =>
    let m := m.say (Progress.lines settings batch)
    if m.failed && batch.any (·.terminal) then m.close .failed else m
  | .fail fault => { m with failed := true }.complain settings fault
  | .abort fault => (m.complain settings fault).close .aborted
  | .succeed => m.close .succeeded

def of (settings : Settings) (heard : List JobEvent) : Minutes :=
  heard.foldl (hear settings) new

section

variable (m : Minutes) (lines : List String) (fault : Fault) (outcome : Outcome)

def said : List String :=
  m.signs.filterMap Sign.said?

def complained : List String :=
  m.signs.filterMap Sign.complained?

def ended : List Int :=
  m.signs.filterMap Sign.ended?

@[simp] theorem said_new : new.said = [] := rfl

@[simp] theorem complained_new : new.complained = [] := rfl

@[simp] theorem ended_new : new.ended = [] := rfl

@[simp] theorem said_say : (m.say lines).said = m.said ++ lines := by
  have hlines : (lines.map Sign.said).filterMap Sign.said? = lines := by
    rw [List.filterMap_map]
    exact List.filterMap_some
  exact List.filterMap_append.trans (congrArg (m.said ++ ·) hlines)

@[simp] theorem complained_say : (m.say lines).complained = m.complained := by
  simp [complained, say, Sign.complained?]

@[simp] theorem ended_say : (m.say lines).ended = m.ended := by
  simp [ended, say, Sign.ended?]

@[simp] theorem said_complain : (m.complain settings fault).said = m.said := by
  simp [said, complain, Sign.said?]

@[simp] theorem complained_complain : (m.complain settings fault).complained =
    m.complained ++ [Shell.faultText settings fault] := by
  simp [complained, complain, Sign.complained?]

@[simp] theorem ended_complain : (m.complain settings fault).ended = m.ended := by
  simp [ended, complain, Sign.ended?]

@[simp] theorem said_close : (m.close outcome).said = m.said := by
  simp [said, close, Sign.said?]

@[simp] theorem complained_close : (m.close outcome).complained = m.complained := by
  simp [complained, close, Sign.complained?]

@[simp] theorem ended_close : (m.close outcome).ended = m.ended ++ [outcome.code.code] := by
  simp [ended, close, Sign.ended?]

end

theorem of_append (settings : Settings) (heard heard' : List JobEvent) :
    of settings (heard ++ heard') = heard'.foldl (hear settings) (of settings heard) := by
  simp [of]

theorem say_nil (m : Minutes) : m.say [] = m := by
  simp [say]

theorem say_say (lines lines' : List String) (m : Minutes) :
    (m.say lines).say lines' = m.say (lines ++ lines') := by
  simp [say]

theorem foldl_status (batches : List (List Progress)) (m : Minutes) (hm : m.failed = false) :
    (batches.map JobEvent.status).foldl (hear settings) m =
      m.say (Progress.lines settings batches.flatten) := by
  induction batches generalizing m with
  | nil => simp [Progress.lines, say]
  | cons batch batches ih =>
    have hbatch : m.hear settings (.status batch) = m.say (Progress.lines settings batch) := by
      simp [hear, say, hm]
    rw [List.map_cons, List.foldl_cons, hbatch, ih (m.say _) hm, say_say, ← Progress.lines_append,
      List.flatten_cons]

theorem of_status (settings : Settings) (batches : List (List Progress)) :
    of settings (batches.map .status) = new.say (Progress.lines settings batches.flatten) :=
  foldl_status batches new rfl

structure Open (m : Minutes) : Prop where
  code : m.code = none
  signs : ∀ code, .ended code ∉ m.signs

theorem Open.say {m : Minutes} (h : m.Open) (lines : List String) : (m.say lines).Open :=
  ⟨h.code, by simp [Minutes.say, h.signs]⟩

theorem Open.complain {m : Minutes} (h : m.Open) (fault : Fault) :
    (m.complain settings fault).Open :=
  ⟨h.code, by simp [Minutes.complain, h.signs]⟩

theorem Open.fail {m : Minutes} (h : m.Open) : ({ m with failed := true } : Minutes).Open :=
  ⟨h.code, h.signs⟩

theorem open_new : new.Open :=
  ⟨rfl, by simp [new]⟩

theorem open_of_unended (h : JobEvent.Unended heard) : (of settings heard).Open := by
  obtain ⟨batches, rfl | ⟨fault, rfl⟩⟩ := h
  · rw [of_status]
    exact open_new.say _
  · rw [of_append, of_status]
    exact (open_new.say _).fail.complain fault

/-- A failed build and the last report, an abort, or a success: each way the session says what is
left to be said, and ends with the code of the outcome. -/
theorem foldl_ending (c : JobCourse) (task : CompileTask) (batch : List Progress) (m : Minutes)
    (hm : m.failed = false) :
    ∃ before : Minutes, (c.ending (batch ++ [c.lastReport task])).foldl (hear settings) m =
        before.close c.outcome ∧
      before.said = m.said ++ Progress.lines settings (batch ++ [c.lastReport task]) ∧
      before.complained = m.complained ++ c.fault?.toList.map (Shell.faultText settings) ∧
      before.ended = m.ended := by
  let lines := Progress.lines settings (batch ++ [c.lastReport task])
  cases hresult : c.result with
  | ok output =>
    have houtcome : c.outcome = .succeeded := by rw [JobCourse.outcome, hresult]
    have hcallback : c.callback = .succeed := by rw [JobCourse.callback, hresult]
    refine ⟨m.say lines, ?_, by simp [lines], ?_, by simp⟩
    · simp [JobCourse.ending, houtcome, hcallback, hear, say, hm, lines]
    · simp [JobCourse.fault?, hresult]
  | error fault =>
    by_cases hcut : (c.late || fault.isCancelled) = true
    · have houtcome : c.outcome = .aborted := by
        rw [JobCourse.outcome, hresult]
        exact if_pos hcut
      have hcallback : c.callback = .abort fault := by
        rw [JobCourse.callback, hresult]
        exact if_pos hcut
      refine ⟨(m.say lines).complain settings fault, ?_, by simp [lines], ?_, by simp⟩
      · simp [JobCourse.ending, houtcome, hcallback, hear, say, hm, lines]
      · simp [JobCourse.fault?, hresult]
    · have houtcome : c.outcome = .failed := by
        rw [JobCourse.outcome, hresult]
        exact if_neg hcut
      have hcallback : c.callback = .fail fault := by
        rw [JobCourse.callback, hresult]
        exact if_neg hcut
      let failed := { m with failed := true }.complain settings fault
      have hfailed : failed.said = m.said ∧ failed.ended = m.ended ∧
          failed.complained = m.complained ++ [Shell.faultText settings fault] :=
        ⟨said_complain _ _, ended_complain _ _, complained_complain _ _⟩
      refine ⟨failed.say lines, ?_, by simp [lines, hfailed], ?_, by simp [hfailed]⟩
      · simp [JobCourse.ending, houtcome, hcallback, hear, say, complain, lines, failed,
          JobCourse.lastReport]
      · simp [JobCourse.fault?, hresult, hfailed]

theorem of_heardAs (settings : Settings) (h : c.HeardAs task heard) :
    c.ToldAs settings task (of settings heard).signs ∧
      (of settings heard).code = some c.outcome.code.code := by
  obtain ⟨-, batches, batch, rfl, hflow⟩ := h
  let told := new.say (Progress.lines settings batches.flatten)
  obtain ⟨before, hend, hsaid, hcomplained, hended⟩ := foldl_ending c task batch told rfl
  rw [of_append, of_status, hend]
  refine ⟨⟨?_, ?_, ?_, by simp [close]⟩, rfl⟩
  · calc
      (before.close c.outcome).said =
          told.said ++ Progress.lines settings (batch ++ [c.lastReport task]) := by
        rw [said_close, hsaid]
      _ = Progress.lines settings (batches.flatten ++ batch ++ [c.lastReport task]) := by
        simp [told, ← Progress.lines_append]
      _ = Progress.lines settings (c.reports task) := by rw [hflow, JobCourse.reports]
  · exact (complained_close _ _).trans (hcomplained.trans (by simp [told]))
  · exact (ended_close _ _).trans (by rw [hended]; simp [told])

end Minutes

end SessionShell
