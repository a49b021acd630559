import Mathlib.Data.List.Infix
import SessionShell.Session.Basic

/-!
In which order a session does what it has to do.

A log is kept of all that happens to the tasks of a session. It is in order if everything in it was
due when it happened: the session's thread makes the interpreter first of all, takes the tasks as
they wait, one after the other, and comes to its main task only when none waits.
-/

namespace SessionShell

inductive TaskEvent where
  | scheduled (task : Task)
  | claimed (start : Nat)
  | booting (language : Language)
  | launched (thread : ThreadId)
  | took (task : Task)
  /-- The interpreter is made, and it has evaluated the preload script of its language. -/
  | preloaded
  | installed
  | finished (task : Task)
  | drained
  | turned
  | ended (byItself : Bool)
  deriving DecidableEq, Repr

namespace TaskEvent

/-- Is no step of the start or of the loop, and so can come between any two of them. -/
def IsBeside : TaskEvent → Bool
  | .scheduled _ => true
  | .ended _ => true
  | _ => false

def IsForeign : TaskEvent → Bool
  | .scheduled _ => true
  | .ended byItself => !byItself
  | _ => false

theorem isBeside_of_isForeign {e : TaskEvent} (h : e.IsForeign = true) : e.IsBeside = true := by
  cases e with
  | scheduled | ended => rfl
  | _ => cases h

def scheduled? : TaskEvent → Option Task
  | .scheduled task => some task
  | _ => none

def boot? : TaskEvent → Option Task
  | .booting language => some (.boot language)
  | _ => none

def took? : TaskEvent → Option Task
  | .took task => some task
  | _ => none

def finished? : TaskEvent → Option Task
  | .finished task => some task
  | _ => none

end TaskEvent

abbrev TaskLog := List TaskEvent

namespace TaskLog

open TaskEvent

def scheduled (log : TaskLog) : List Task :=
  log.filterMap scheduled?

def boots (log : TaskLog) : List Task :=
  log.filterMap boot?

def taken (log : TaskLog) : List Task :=
  log.filterMap took?

def done (log : TaskLog) : List Task :=
  log.filterMap finished?

def line (log : TaskLog) : List Task :=
  boots log ++ scheduled log

/-- The interpreter was made, by the task for it and in full. -/
def Ready (log : TaskLog) : Prop :=
  ∃ language, [.took (.boot language), .preloaded, .installed, .finished (.boot language)].Sublist
    log

def HasEnded (log : TaskLog) : Prop :=
  ∃ byItself, .ended byItself ∈ log

def IsOver (log : TaskLog) : Prop :=
  ∃ before task after, log = before ++ .finished task :: after ∧ HasEnded before

structure GoesOn (log : TaskLog) : Prop where
  notByItself : .ended true ∉ log
  notOver : ¬IsOver log

structure Clear (log : TaskLog) : Prop where
  done : done log = line log
  ready : Ready log

structure Takes (log : TaskLog) (task : Task) : Prop where
  done : TaskLog.done log = taken log
  line : (taken log ++ [task]).Sublist (line log)
  goesOn : GoesOn log
  next : ¬HasEnded log → taken log ++ [task] <+: TaskLog.line log
  ready : ¬HasEnded log →
    Ready log ∨ taken log = [] ∧ ∃ language, task = .boot language ∧ .booting language ∈ log

structure Drains (log : TaskLog) : Prop where
  done : TaskLog.done log = taken log
  goesOn : GoesOn log
  clear : ¬HasEnded log → Clear log

def Turns (log : TaskLog) : Prop :=
  ∃ before after, log = before ++ .drained :: after ∧ (∀ e ∈ after, e.IsBeside) ∧ Clear before

/-- This is where the start or the loop stands. -/
def Stands (e : TaskEvent) (log : TaskLog) : Prop :=
  ∃ before after, log = before ++ e :: after ∧ ∀ e' ∈ after, e'.IsBeside

def Due (log : TaskLog) : TaskEvent → Prop
  | .took task => Takes log task
  | .finished task => taken log = done log ++ [task]
  | .drained => Drains log
  | .turned => Turns log
  | _ => True

def InOrder (log : TaskLog) : Prop :=
  ∀ before e after, log = before ++ e :: after → Due before e

variable {log es : TaskLog} {e : TaskEvent} {task : Task}

/-! ## Further events -/

theorem inOrder_append_singleton (h : InOrder log) (he : Due log e) : InOrder (log ++ [e]) := by
  intro before e' after heq
  rcases List.eq_nil_or_concat after with rfl | ⟨after', last, rfl⟩
  · obtain ⟨rfl, hlast⟩ := List.append_inj' heq rfl
    cases hlast
    exact he
  · have heq' : log ++ [e] = (before ++ e' :: after') ++ [last] := by simpa using heq
    obtain ⟨rfl, -⟩ := List.append_inj' heq' rfl
    exact h before e' after' rfl

theorem filterMap_append_singleton (f : TaskEvent → Option Task) (log : TaskLog) (e : TaskEvent) :
    (log ++ [e]).filterMap f = log.filterMap f ++ (f e).toList := by
  rw [List.filterMap_append]
  cases h : f e <;> simp [h]

theorem taken_append_singleton (log : TaskLog) (e : TaskEvent) :
    taken (log ++ [e]) = taken log ++ (took? e).toList :=
  filterMap_append_singleton took? log e

theorem done_append_singleton (log : TaskLog) (e : TaskEvent) :
    done (log ++ [e]) = done log ++ (finished? e).toList :=
  filterMap_append_singleton finished? log e

theorem boots_append_singleton (log : TaskLog) (e : TaskEvent) :
    boots (log ++ [e]) = boots log ++ (boot? e).toList :=
  filterMap_append_singleton boot? log e

theorem scheduled_append_singleton (log : TaskLog) (e : TaskEvent) :
    scheduled (log ++ [e]) = scheduled log ++ (scheduled? e).toList :=
  filterMap_append_singleton scheduled? log e

theorem due_of_isBeside (log : TaskLog) (h : e.IsBeside = true) : Due log e := by
  cases e with
  | scheduled | ended => trivial
  | _ => cases h

theorem inOrder_append_beside (h : InOrder log) (hes : ∀ e ∈ es, e.IsBeside = true) :
    InOrder (log ++ es) := by
  induction es generalizing log with
  | nil => simpa using h
  | cons e es ih =>
    rw [List.append_cons]
    exact ih (inOrder_append_singleton h (due_of_isBeside log (hes e List.mem_cons_self)))
      fun e' he' => hes e' (List.mem_cons_of_mem e he')

theorem filterMap_beside {f : TaskEvent → Option Task} (hf : ∀ e, e.IsBeside = true → f e = none)
    (hes : ∀ e ∈ es, e.IsBeside = true) : (log ++ es).filterMap f = log.filterMap f := by
  rw [List.filterMap_append, List.filterMap_eq_nil_iff.mpr fun e he => hf e (hes e he),
    List.append_nil]

theorem taken_append_beside (hes : ∀ e ∈ es, e.IsBeside = true) : taken (log ++ es) = taken log :=
  filterMap_beside (fun e he => by cases e <;> first | rfl | cases he) hes

theorem done_append_beside (hes : ∀ e ∈ es, e.IsBeside = true) : done (log ++ es) = done log :=
  filterMap_beside (fun e he => by cases e <;> first | rfl | cases he) hes

theorem boots_append_beside (hes : ∀ e ∈ es, e.IsBeside = true) : boots (log ++ es) = boots log :=
  filterMap_beside (fun e he => by cases e <;> first | rfl | cases he) hes

theorem mem_append_beside (he : e.IsBeside = false) (hes : ∀ e ∈ es, e.IsBeside = true) :
    e ∈ log ++ es ↔ e ∈ log := by
  rw [List.mem_append, or_iff_left]
  intro hin
  rw [hes e hin] at he
  cases he

theorem Ready.append (h : Ready log) (es : TaskLog) : Ready (log ++ es) := by
  obtain ⟨language, hsub⟩ := h
  exact ⟨language, hsub.trans (List.sublist_append_left log es)⟩

theorem stands_append_singleton (log : TaskLog) (e : TaskEvent) : Stands e (log ++ [e]) :=
  ⟨log, [], rfl, by simp⟩

theorem HasEnded.append (h : HasEnded log) (es : TaskLog) : HasEnded (log ++ es) := by
  obtain ⟨byItself, hended⟩ := h
  exact ⟨byItself, List.mem_append_left es hended⟩

theorem Stands.append_beside (h : Stands e log) (hes : ∀ e ∈ es, e.IsBeside = true) :
    Stands e (log ++ es) := by
  obtain ⟨before, after, rfl, hafter⟩ := h
  refine ⟨before, after ++ es, by simp, fun e he => ?_⟩
  rcases List.mem_append.mp he with hin | hin
  · exact hafter e hin
  · exact hes e hin

theorem isOver_append_beside (hes : ∀ e ∈ es, e.IsBeside = true) :
    IsOver (log ++ es) ↔ IsOver log := by
  have hfinished : ∀ task, .finished task ∉ es := fun task hin => by cases hes _ hin
  constructor
  · rintro ⟨before, task, after, heq, hended⟩
    rcases List.append_eq_append_iff.mp heq with ⟨rest, rfl, hrest⟩ | ⟨rest, rfl, hrest⟩
    · exact absurd (hrest ▸ by simp) (hfinished task)
    · cases rest with
      | nil =>
        have hes' : es = .finished task :: after := hrest.symm
        exact absurd (hes' ▸ List.mem_cons_self) (hfinished task)
      | cons e rest =>
        obtain ⟨rfl, -⟩ := List.cons.inj hrest
        exact ⟨before, task, rest, rfl, hended⟩
  · rintro ⟨before, task, after, rfl, hended⟩
    exact ⟨before, task, after ++ es, by simp, hended⟩

theorem IsOver.hasEnded (h : IsOver log) : HasEnded log := by
  obtain ⟨before, task, after, rfl, byItself, hended⟩ := h
  exact ⟨byItself, List.mem_append_left _ hended⟩

theorem goesOn_of_not_hasEnded (h : ¬HasEnded log) : GoesOn log :=
  ⟨fun hended => h ⟨true, hended⟩, fun hover => h hover.hasEnded⟩

theorem GoesOn.append_foreign (h : GoesOn log) (hes : ∀ e ∈ es, e.IsForeign = true) :
    GoesOn (log ++ es) := by
  refine ⟨fun hended => ?_, fun hover => h.notOver ?_⟩
  · rcases List.mem_append.mp hended with hin | hin
    · exact h.notByItself hin
    · cases hes _ hin
  · exact (isOver_append_beside fun e he => isBeside_of_isForeign (hes e he)).mp hover

/-! ## What a log in order tells -/

theorem InOrder.of_append (h : InOrder (log ++ es)) : InOrder log := fun before e after heq =>
  h before e (after ++ es) (by simp [heq])

theorem InOrder.taken_sublist (h : InOrder log) : (taken log).Sublist (line log) := by
  induction log using List.reverseRecOn with
  | nil => exact List.Sublist.refl _
  | append_singleton log e ih =>
    have hline : (line log).Sublist (line (log ++ [e])) :=
      List.Sublist.append (List.Sublist.filterMap _ (List.sublist_append_left log [e]))
        (List.Sublist.filterMap _ (List.sublist_append_left log [e]))
    have hlast : Due log e := h log e [] rfl
    cases e with
    | took task =>
      have htaken : taken (log ++ [.took task]) = taken log ++ [task] := by simp [taken, took?]
      rw [htaken]
      exact hlast.line.trans hline
    | _ =>
      rw [taken, List.filterMap_append]
      exact (List.append_nil (taken log)).symm ▸ (ih h.of_append).trans hline

end TaskLog

end SessionShell
