import Mathlib.Data.List.Basic
import SessionShell.Interleaving
import SessionShell.Shell.Life

/-!
The two threads that write what was printed, and how far they have come.

All else that happens in a shell depends on how far they are in one way only: whoever waits for a
mark waits until they have come to it. So a shell is taken apart here into two sheets, one for each
output stream, and the rest. A sheet trails another if it is what the writing thread makes of that
other one by doing part of its work.
-/

namespace SessionShell

open Action Shell

/-- What the worker of a stream does with what it has taken out of the queue. -/
def StreamAt.serveTaken {σ ρ : Type} (slot : StreamAt σ ρ) (serve : ρ → Action σ Unit) :
    Queued ρ → Action σ Unit
  | .request r => discard (serve r).attempt
  | .mark id => Action.update fun s => slot.set ((slot.get s).reach id) s

structure Sheet where
  service : StreamService String
  written : Array String
  deriving DecidableEq, Repr

namespace Sheet

variable {x c : Sheet} {q : Queued String} {held : Option (Queued String)}
  {done : List (Queued String)}

def withQueue (queue : List (Queued String)) (x : Sheet) : Sheet :=
  { x with service := { x.service with queue } }

def enqueue (q : Queued String) (x : Sheet) : Sheet :=
  { x with service := x.service.enqueue q }

def finish : Queued String → Sheet → Sheet
  | .request text, x => { x with written := x.written.push text }
  | .mark mark, x => { x with service := x.service.reach mark }

def finishAll (done : List (Queued String)) (x : Sheet) : Sheet :=
  done.foldl (fun x q => x.finish q) x

def settled (x : Sheet) : Sheet :=
  (finishAll x.service.queue x).withQueue []

theorem finishAll_snoc : finishAll (done ++ [q]) x = (finishAll done x).finish q := by
  simp [finishAll]

theorem finish_withQueue (queue : List (Queued String)) :
    (x.withQueue queue).finish q = (x.finish q).withQueue queue := by
  cases q <;> rfl

theorem finishAll_comm {g : Sheet → Sheet} (h : ∀ q x, (g x).finish q = g (x.finish q)) :
    finishAll done (g x) = g (finishAll done x) := by
  induction done generalizing x with
  | nil => rfl
  | cons q done ih =>
    change finishAll done ((g x).finish q) = _
    rw [h, ih]
    rfl

theorem discipline_finishAll : (finishAll done x).service.discipline = x.service.discipline := by
  induction done generalizing x with
  | nil => rfl
  | cons q done ih => exact (ih (x := x.finish q)).trans (by cases q <;> rfl)

theorem marks_finishAll : (finishAll done x).service.marks = x.service.marks := by
  induction done generalizing x with
  | nil => rfl
  | cons q done ih => exact (ih (x := x.finish q)).trans (by cases q <;> rfl)

theorem started_finishAll : (finishAll done x).service.started = x.service.started := by
  induction done generalizing x with
  | nil => rfl
  | cons q done ih => exact (ih (x := x.finish q)).trans (by cases q <;> rfl)

theorem mem_reached_finishAll {mark : Nat} :
    mark ∈ (finishAll done x).service.reached ↔ mark ∈ x.service.reached ∨ .mark mark ∈ done := by
  induction done generalizing x with
  | nil => simp [finishAll]
  | cons q done ih =>
    refine (ih (x := x.finish q)).trans ?_
    cases q with
    | request text => simp [finish]
    | mark other => simp [finish, StreamService.reach, or_assoc, or_left_comm]

/-- What is left of `c` when part of the queue is done and one of it is in hand. -/
def Trails (held : Option (Queued String)) (x c : Sheet) : Prop :=
  ∃ done, c.service.queue = done ++ (held.toList ++ x.service.queue) ∧
    x = (finishAll done c).withQueue x.service.queue

theorem trails_refl : Trails none c c :=
  ⟨[], rfl, rfl⟩

theorem Trails.take {queue : List (Queued String)} (h : Trails none x c)
    (hqueue : x.service.queue = q :: queue) : Trails (some q) (x.withQueue queue) c := by
  obtain ⟨done, hc, hx⟩ := h
  refine ⟨done, by simpa [hqueue, withQueue] using hc, ?_⟩
  rw [hx]
  rfl

theorem Trails.finish (h : Trails (some q) x c) : Trails none (x.finish q) c := by
  obtain ⟨done, hc, hx⟩ := h
  have hsame : (x.finish q).service.queue = x.service.queue := by cases q <;> rfl
  refine ⟨done ++ [q], by simpa [hsame] using hc, ?_⟩
  rw [hsame, finishAll_snoc, ← finish_withQueue, ← hx]

theorem Trails.discipline (h : Trails held x c) : x.service.discipline = c.service.discipline := by
  obtain ⟨done, -, hx⟩ := h
  rw [hx]
  exact discipline_finishAll

theorem Trails.marks (h : Trails held x c) : x.service.marks = c.service.marks := by
  obtain ⟨done, -, hx⟩ := h
  rw [hx]
  exact marks_finishAll

theorem Trails.started (h : Trails held x c) : x.service.started = c.service.started := by
  obtain ⟨done, -, hx⟩ := h
  rw [hx]
  exact started_finishAll

theorem Trails.enqueue (h : Trails held x c) (hfifo : c.service.discipline = .fifo) :
    Trails held (x.enqueue q) (c.enqueue q) := by
  have hfifo' := h.discipline.trans hfifo
  obtain ⟨done, hc, hx⟩ := h
  have henqueue : ∀ y : Sheet, y.service.discipline = .fifo →
      y.enqueue q = y.withQueue (y.service.queue ++ [q]) := fun y hy => by
    simp [Sheet.enqueue, StreamService.enqueue, hy, withQueue]
  rw [henqueue c hfifo, henqueue x hfifo']
  refine ⟨done, ?_, ?_⟩
  · change c.service.queue ++ [q] = _
    rw [hc]
    simp [withQueue]
  · rw [finishAll_comm fun _ _ => finish_withQueue _]
    conv_lhs => rw [hx]
    rfl

theorem Trails.eq_settled (h : Trails none x c) (hx : x.service.queue = []) : x = c.settled := by
  obtain ⟨done, hc, heq⟩ := h
  rw [hx] at hc heq
  simp only [Option.toList_none, List.append_nil] at hc
  rw [heq, settled, hc]

theorem Trails.settled_of_reached {queue : List (Queued String)} {mark : Nat} (h : Trails held x c)
    (hqueue : c.service.queue = queue ++ [.mark mark]) (hnew : .mark mark ∉ queue)
    (hunreached : mark ∉ c.service.reached) (hmark : mark ∈ x.service.reached) :
    held = none ∧ x = c.settled := by
  obtain ⟨done, hc, hx⟩ := h
  have hdone : Queued.mark mark ∈ done := by
    rw [hx] at hmark
    exact (mem_reached_finishAll.mp hmark).resolve_left hunreached
  have hnone : held.toList ++ x.service.queue = [] := by
    rcases List.eq_nil_or_concat (held.toList ++ x.service.queue) with hnil | ⟨init, last, hlast⟩
    · exact hnil
    · rw [hqueue, hlast, List.concat_eq_append, ← List.append_assoc] at hc
      exact absurd (List.append_inj_left' hc rfl ▸ List.mem_append_left _ hdone) hnew
  obtain ⟨hheld, hempty⟩ := List.append_eq_nil_iff.mp hnone
  have hnone' : held = none := by
    cases held with
    | none => rfl
    | some q => cases hheld
  rw [hnone, List.append_nil] at hc
  exact ⟨hnone', by rw [hx, settled, hc, hempty]⟩

theorem Trails.eq_of_queue_eq_nil (h : x.Trails held c) (hqueue : c.service.queue = []) :
    held = none ∧ x = c := by
  obtain ⟨done, hc, hx⟩ := h
  rw [hqueue, eq_comm, List.append_eq_nil_iff, List.append_eq_nil_iff] at hc
  obtain ⟨rfl, hheld, hrest⟩ := hc
  refine ⟨Option.toList_eq_nil_iff.mp hheld, ?_⟩
  rw [hx, hrest]
  obtain ⟨⟨discipline, queue, started, marks, reached⟩, written⟩ := c
  cases hqueue
  rfl

end Sheet

/-- All that the two threads change, and with it the threads that were started. -/
structure Writing where
  out : Sheet
  err : Sheet
  started : List (ThreadId × Role)

def Shell.writing (s : Shell) (w : Writing) : Shell :=
  { s with
    console := { s.console with
      out := w.out.service
      err := w.err.service
      outWritten := w.out.written
      errWritten := w.err.written }
    started := w.started }

inductive Scribe where
  | out
  | err
  deriving DecidableEq, Repr

namespace Scribe

def stream : Scribe → StreamName
  | .out => .out
  | .err => .err

def sheet : Scribe → Writing → Sheet
  | .out, w => w.out
  | .err, w => w.err

def put (x : Sheet) : Scribe → Writing → Writing
  | .out, w => { w with out := x }
  | .err, w => { w with err := x }

def serving (k : Scribe) (q : Queued String) : Action Shell (Option Role) := do
  match k with
  | .out => consolePlace.out.serveTaken consolePlace.writeOut q
  | .err => consolePlace.err.serveTaken consolePlace.writeError q
  return some (.stream k.stream)

/-- Where the thread stands with what it has in hand, and how many steps it has to the next turn. -/
inductive Stands (k : Scribe) : Option (Queued String) → Nat → Action Shell
    (Option Role) → Prop where
  | idle : Stands k none 0 (program (.stream k.stream))
  | serving (q : Queued String) : Stands k (some q) 2 (k.serving q)
  | through : Stands k none 1 (.done (some (.stream k.stream)))

variable {k : Scribe} {held : Option (Queued String)} {n : Nat} {p : Action Shell (Option Role)}
  {b s' : Shell} {w : Writing} {id : ThreadId} {t? : Option (Thread Shell Role)}

theorem step_idle : life.stepThread? ⟨id, program (.stream k.stream)⟩ (b.writing w) =
    (k.sheet w).service.take?.map fun r =>
      (some ⟨id, k.serving r.1⟩, b.writing (k.put ⟨r.2, (k.sheet w).written⟩ w)) := by
  cases k with
  | out =>
    change Option.map _ (Option.map _ w.out.service.take?) = Option.map _ w.out.service.take?
    exact Option.map_map ..
  | err =>
    change Option.map _ (Option.map _ w.err.service.take?) = Option.map _ w.err.service.take?
    exact Option.map_map ..

theorem step_serving (q : Queued String) : life.stepThread? ⟨id, k.serving q⟩ (b.writing w) =
    some (some ⟨id, .done (some (.stream k.stream))⟩,
      b.writing (k.put ((k.sheet w).finish q) w)) := by
  cases k <;> cases q <;> rfl

theorem Stands.step (h : k.Stands held n p)
    (hstep : life.stepThread? ⟨id, p⟩ (b.writing w) = some (t?, s')) :
    ∃ held' n' p' x, t? = some ⟨id, p'⟩ ∧ k.Stands held' n' p' ∧ s' = b.writing (k.put x w) ∧
      (∀ c, (k.sheet w).Trails held c → x.Trails held' c) ∧
      3 * x.service.queue.length + n' < 3 * (k.sheet w).service.queue.length + n := by
  cases h with
  | idle =>
    rw [step_idle] at hstep
    obtain ⟨⟨q, service⟩, htake, heq⟩ := Option.map_eq_some_iff.mp hstep
    cases heq
    rw [StreamService.take?] at htake
    cases hqueue : (k.sheet w).service.queue with
    | nil => simp [hqueue] at htake
    | cons q' queue =>
      simp only [hqueue, Option.some.injEq, Prod.mk.injEq] at htake
      obtain ⟨rfl, rfl⟩ := htake
      exact ⟨some q', 2, _, (k.sheet w).withQueue queue, rfl, .serving q', rfl,
        fun c hc => hc.take hqueue, by simp [Sheet.withQueue]; omega⟩
  | serving q =>
    rw [step_serving] at hstep
    cases hstep
    refine ⟨none, 1, _, _, rfl, .through, rfl, fun c hc => hc.finish, ?_⟩
    cases q <;> simp [Sheet.finish, StreamService.reach]
  | through =>
    cases hstep
    refine ⟨none, 0, _, k.sheet w, rfl, .idle, ?_, fun c hc => hc, by simp⟩
    cases k <;> rfl

theorem Stands.resting (h : k.Stands held n p)
    (hstep : life.stepThread? ⟨id, p⟩ (b.writing w) = none) :
    held = none ∧ (k.sheet w).service.queue = [] := by
  cases h with
  | idle =>
    rw [step_idle, Option.map_eq_none_iff, StreamService.take?] at hstep
    cases hqueue : (k.sheet w).service.queue with
    | nil => exact ⟨rfl, rfl⟩
    | cons q queue => simp [hqueue] at hstep
  | serving q => simp [step_serving] at hstep
  | through => cases hstep

theorem Stands.run_eq_none {act : Act Shell} {next : act.Answer → Action Shell (Option Role)}
    (h : k.Stands held n (.ask act next)) (hheld : held = none)
    (hqueue : (k.sheet w).service.queue = []) :
    act.run id (b.writing w) = none := by
  generalize hp : Program.ask act next = p at h
  cases h with
  | idle =>
    have hstep : life.stepThread? ⟨id, .ask act next⟩ (b.writing w) = none := by
      rw [hp, step_idle, StreamService.take?, hqueue]
      rfl
    exact Option.map_eq_none_iff.mp hstep
  | serving => cases hheld
  | through => cases hp

end Scribe

end SessionShell
