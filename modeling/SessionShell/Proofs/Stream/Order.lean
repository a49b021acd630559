import Mathlib.Data.List.Forall2
import Mathlib.Data.List.Nodup
import Mathlib.Data.List.Range
import SessionShell.Stream.Basic

/-!
In which order the requests of a stream service are taken.

A record lists what was submitted, served and waited for, in the order in which it happened. Every
request gets a number when it is submitted, and a second line, in which the numbers take the same
places as their requests in the queue, tells which of the requests is taken.

A record is lawful when every event in it may follow those before it. The invariant ties the queue
to the record: what is in the queue is what was submitted and not taken yet, in the order in which
it will be taken.
-/

namespace SessionShell

/-! ## The record -/

inductive StreamEvent (ρ : Type) where
  | launched
  | submitted (r : ρ)
  | began (n : Nat) (r : ρ)
  | ended (n : Nat)
  | marked (mark : Nat)
  | returned (mark : Nat)
  deriving DecidableEq, Repr

namespace StreamEvent

variable {ρ : Type}

@[simp]
def submitted? : StreamEvent ρ → Option ρ
  | .submitted r => some r
  | _ => none

@[simp]
def begun? : StreamEvent ρ → Option Nat
  | .began n _ => some n
  | _ => none

@[simp]
def ended? : StreamEvent ρ → Option Nat
  | .ended n => some n
  | _ => none

end StreamEvent

structure StreamRecord (ρ : Type) where
  log : List (StreamEvent ρ)
  line : StreamService Nat

namespace StreamRecord

variable {ρ : Type}

def submitted (log : List (StreamEvent ρ)) : List ρ :=
  log.filterMap StreamEvent.submitted?

def begun (log : List (StreamEvent ρ)) : List Nat :=
  log.filterMap StreamEvent.begun?

/-- The numbers of the requests that were served, in order. -/
def ended (log : List (StreamEvent ρ)) : List Nat :=
  log.filterMap StreamEvent.ended?

def new (discipline : Discipline) : StreamRecord ρ :=
  ⟨[], .new discipline⟩

def note (event : StreamEvent ρ) (r : StreamRecord ρ) : StreamRecord ρ :=
  { r with log := r.log ++ [event] }

def submit (request : ρ) (r : StreamRecord ρ) : StreamRecord ρ :=
  { r with line := r.line.submit (submitted r.log).length }.note (.submitted request)

def mark (mark : Nat) (r : StreamRecord ρ) : StreamRecord ρ :=
  { r with line := r.line.submitMark.2 }.note (.marked mark)

def take (q : Queued ρ) (r : StreamRecord ρ) : StreamRecord ρ :=
  match r.line.take?, q with
  | some (.request n, line), .request request => { r with line }.note (.began n request)
  | some (_, line), _ => { r with line }
  | none, _ => r

def finish (r : StreamRecord ρ) : StreamRecord ρ :=
  match (begun r.log).getLast? with
  | some n => r.note (.ended n)
  | none => r

end StreamRecord

/-! ## What is lawful -/

variable {ρ : Type} {d : Discipline}

theorem split_snoc {α : Type} {xs before after : List α} {x y : α}
    (h : xs ++ [y] = before ++ x :: after) :
    (xs = before ∧ y = x) ∨ ∃ after', after = after' ++ [y] ∧ xs = before ++ x :: after' := by
  rcases List.eq_nil_or_concat after with rfl | ⟨after', z, rfl⟩
  · obtain ⟨hxs, hy⟩ := List.append_inj' h rfl
    exact .inl ⟨hxs, List.head_eq_of_cons_eq hy⟩
  · rw [List.concat_eq_append] at h ⊢
    have hsame : xs ++ [y] = (before ++ x :: after') ++ [z] := by simpa using h
    obtain ⟨hxs, hy⟩ := List.append_inj' hsame rfl
    cases hy
    exact .inr ⟨after', rfl, hxs⟩

namespace StreamRecord

variable {log : List (StreamEvent ρ)} {event : StreamEvent ρ}

def IsWaiting (log : List (StreamEvent ρ)) (n : Nat) : Prop :=
  n < (submitted log).length ∧ n ∉ begun log

/-- Which of two that wait goes first: the one that was submitted first, or the other. -/
def GoesFirst : Discipline → Nat → Nat → Prop
  | .fifo, n, k => n ≤ k
  | .lifo, n, k => k ≤ n

def IsNext (d : Discipline) (log : List (StreamEvent ρ)) (n : Nat) : Prop :=
  IsWaiting log n ∧ ∀ k, IsWaiting log k → GoesFirst d n k

def IsDone (log : List (StreamEvent ρ)) (mark : Nat) : Prop :=
  ∃ first last, log = first ++ .marked mark :: last ∧
    ∀ n < (submitted first).length, n ∈ ended log

def MayFollow (d : Discipline) (log : List (StreamEvent ρ)) : StreamEvent ρ → Prop
  | .launched => ∀ event ∈ log, event ≠ .launched
  | .submitted _ => True
  | .began n r => IsNext d log n ∧ (submitted log)[n]? = some r ∧ begun log = ended log
  | .ended n => begun log = ended log ++ [n]
  | .marked _ => True
  | .returned mark => d = .fifo → IsDone log mark

inductive Lawful (d : Discipline) : List (StreamEvent ρ) → Prop where
  | nil : Lawful d []
  | snoc {log : List (StreamEvent ρ)} {event : StreamEvent ρ} (h : Lawful d log)
      (hmay : MayFollow d log event) : Lawful d (log ++ [event])

@[simp] theorem submitted_append (log log' : List (StreamEvent ρ)) :
    submitted (log ++ log') = submitted log ++ submitted log' :=
  List.filterMap_append ..

@[simp] theorem begun_append (log log' : List (StreamEvent ρ)) :
    begun (log ++ log') = begun log ++ begun log' :=
  List.filterMap_append ..

@[simp] theorem ended_append (log log' : List (StreamEvent ρ)) :
    ended (log ++ log') = ended log ++ ended log' :=
  List.filterMap_append ..

@[simp] theorem submitted_singleton (event : StreamEvent ρ) :
    submitted [event] = event.submitted?.toList := by
  cases event <;> rfl

@[simp] theorem begun_singleton (event : StreamEvent ρ) : begun [event] = event.begun?.toList := by
  cases event <;> rfl

@[simp] theorem ended_singleton (event : StreamEvent ρ) : ended [event] = event.ended?.toList := by
  cases event <;> rfl

theorem Lawful.mayFollow (h : Lawful d log) {before after : List (StreamEvent ρ)}
    (hlog : log = before ++ event :: after) : MayFollow d before event := by
  induction h generalizing after with
  | nil => simp at hlog
  | @snoc log last _ hmay ih =>
    rcases split_snoc hlog with ⟨rfl, rfl⟩ | ⟨after', -, hlog'⟩
    · exact hmay
    · exact ih hlog'

theorem Lawful.nodup_begun (h : Lawful d log) : (begun log).Nodup := by
  induction h with
  | nil => exact List.nodup_nil
  | @snoc log event _ hmay ih =>
    rw [begun_append]
    cases event with
    | began n r =>
      have hnew : n ∉ begun log := hmay.1.1.2
      exact ih.append (List.nodup_singleton n) (by simpa using hnew)
    | _ => simpa using ih

theorem Lawful.ended_eq (h : Lawful d log) :
    begun log = ended log ∨ ∃ n, begun log = ended log ++ [n] := by
  induction h with
  | nil => exact .inl rfl
  | @snoc log event _ hmay ih =>
    rw [begun_append, ended_append]
    cases event with
    | began n r =>
      rw [hmay.2.2]
      exact .inr ⟨n, by simp⟩
    | ended n =>
      have hserved : begun log = ended log ++ [n] := hmay
      rw [hserved]
      exact .inl (by simp)
    | _ => simpa using ih

theorem Lawful.launched_once (h : Lawful d log) {before after : List (StreamEvent ρ)}
    (hlog : log = before ++ .launched :: after) : StreamEvent.launched ∉ after := by
  intro hin
  obtain ⟨middle, rest, rfl⟩ := List.append_of_mem hin
  have hsplit : log = (before ++ .launched :: middle) ++ .launched :: rest := by simpa using hlog
  exact h.mayFollow hsplit .launched (by simp) rfl

theorem isNext_of_perm {n : Nat} {rest : List Nat}
    (h : (begun log ++ n :: rest).Perm (List.range (submitted log).length))
    (hfirst : ∀ k ∈ rest, GoesFirst d n k) : IsNext d log n := by
  have hnodup : (begun log ++ n :: rest).Nodup := h.nodup_iff.mpr List.nodup_range
  have hin : ∀ k, k < (submitted log).length ↔ k ∈ begun log ++ n :: rest := fun k => by
    rw [h.mem_iff, List.mem_range]
  refine ⟨⟨(hin n).mpr (by simp), fun hn => ?_⟩, fun k hk => ?_⟩
  · exact (List.nodup_append.mp hnodup).2.2 n hn n List.mem_cons_self rfl
  · have hmem := (hin k).mp hk.1
    simp only [List.mem_append, List.mem_cons, hk.2, false_or] at hmem
    rcases hmem with rfl | hmem
    · cases d <;> exact Nat.le_refl k
    · exact hfirst k hmem

end StreamRecord

/-! ## What is in the queue -/

namespace StreamService

variable {α : Type}

def requests (queue : List (Queued α)) : List α :=
  queue.filterMap fun
    | .request r => some r
    | .mark _ => none

@[simp] theorem requests_nil : requests ([] : List (Queued α)) = [] := rfl

@[simp] theorem requests_request (r : α) (queue : List (Queued α)) :
    requests (.request r :: queue) = r :: requests queue := rfl

@[simp] theorem requests_mark (mark : Nat) (queue : List (Queued α)) :
    requests (.mark mark :: queue) = requests queue := rfl

@[simp] theorem requests_append (queue queue' : List (Queued α)) :
    requests (queue ++ queue') = requests queue ++ requests queue' :=
  List.filterMap_append ..

variable {s : StreamService α} {q : Queued α}

theorem queue_enqueue : (s.enqueue q).queue =
    match s.discipline with | .fifo => s.queue ++ [q] | .lifo => q :: s.queue := by
  cases h : s.discipline <;> simp [enqueue, h]

@[simp] theorem discipline_enqueue : (s.enqueue q).discipline = s.discipline := by
  cases h : s.discipline <;> simp [enqueue, h]

@[simp] theorem marks_enqueue : (s.enqueue q).marks = s.marks := by
  cases h : s.discipline <;> simp [enqueue, h]

@[simp] theorem started_enqueue : (s.enqueue q).started = s.started := by
  cases h : s.discipline <;> simp [enqueue, h]

@[simp] theorem reached_enqueue : (s.enqueue q).reached = s.reached := by
  cases h : s.discipline <;> simp [enqueue, h]

theorem nodup_enqueue (h : s.queue.Nodup) (hq : q ∉ s.queue) : (s.enqueue q).queue.Nodup := by
  rw [queue_enqueue]
  cases s.discipline with
  | fifo => exact h.append (List.nodup_singleton q) (by simpa using hq)
  | lifo => exact List.nodup_cons.mpr ⟨hq, h⟩

theorem mem_enqueue {q' : Queued α} : q' ∈ (s.enqueue q).queue ↔ q' = q ∨ q' ∈ s.queue := by
  rw [queue_enqueue]
  cases s.discipline <;> simp [or_comm]

end StreamService

open StreamRecord StreamService

inductive Twin (submitted : List ρ) : Queued ρ → Queued Nat → Prop where
  | request {r : ρ} {n : Nat} (h : submitted[n]? = some r) : Twin submitted
      (.request r) (.request n)
  | mark (mark : Nat) : Twin submitted (.mark mark) (.mark mark)

/-- The numbers that were taken, and those in line, of so many that were handed out. -/
def Lined : Discipline → List Nat → List Nat → Nat → Prop
  | .fifo, taken, line, count => taken ++ line = List.range count
  | .lifo, taken, line, count => (taken ++ line).Perm (List.range count) ∧ line.Pairwise (· > ·)

theorem Lined.perm {taken line : List Nat} {count : Nat} (h : Lined d taken line count) :
    (taken ++ line).Perm (List.range count) := by
  cases d with
  | fifo => exact List.Perm.of_eq h
  | lifo => exact h.1

theorem Lined.goesFirst {taken rest : List Nat} {count n : Nat}
    (h : Lined d taken (n :: rest) count) :
    ∀ k ∈ rest, GoesFirst d n k := by
  cases d with
  | fifo =>
    have hsorted : (taken ++ n :: rest).Pairwise (· < ·) := by
      rw [show taken ++ n :: rest = List.range count from h]
      exact List.pairwise_lt_range
    have hrest := (List.pairwise_append.mp hsorted).2.1
    exact fun k hk => Nat.le_of_lt (List.rel_of_pairwise_cons hrest hk)
  | lifo => exact fun k hk => Nat.le_of_lt (List.rel_of_pairwise_cons h.2 hk)

theorem Lined.take {taken rest : List Nat} {count n : Nat} (h : Lined d taken (n :: rest) count) :
    Lined d (taken ++ [n]) rest count := by
  cases d with
  | fifo => simpa [Lined] using h
  | lifo => exact ⟨by simpa using h.1, h.2.of_cons⟩

theorem Lined.submit {taken line : List Nat} {count : Nat} (h : Lined d taken line count) :
    Lined d taken (match d with | .fifo => line ++ [count] | .lifo => count :: line)
      (count + 1) := by
  have hlt : ∀ k ∈ taken ++ line, k < count := fun k hk => List.mem_range.mp (h.perm.mem_iff.mp hk)
  cases d with
  | fifo =>
    change taken ++ (line ++ [count]) = List.range (count + 1)
    rw [List.range_succ, ← show taken ++ line = List.range count from h, List.append_assoc]
  | lifo =>
    refine ⟨?_, List.pairwise_cons.mpr ⟨fun k hk => hlt k (List.mem_append_right _ hk), h.2⟩⟩
    rw [List.range_succ]
    exact List.perm_middle.trans ((h.1.cons count).trans (List.perm_append_singleton _ _).symm)

/-- In a line that is served from its head, what was submitted before a mark was queued stands ahead
of the mark, or was taken. When the mark is reached it is served. -/
structure MarksHold (log : List (StreamEvent ρ)) (line : List (Queued Nat)) : Prop where
  ahead : ∀ mark first last, log = first ++ .marked mark :: last → ∀ ahead behind,
    line = ahead ++ .mark mark :: behind →
      (submitted first).length ≤ (begun log).length + (requests ahead).length
  reached : ∀ mark first last, log = first ++ .marked mark :: last → .mark mark ∉ line →
    (submitted first).length ≤ (ended log).length

namespace MarksHold

variable {log : List (StreamEvent ρ)} {line : List (Queued Nat)}

theorem split_of_ne {event other : StreamEvent ρ} {first last : List (StreamEvent ρ)}
    (h : log ++ [other] = first ++ event :: last) (hne : other ≠ event) :
    ∃ last', log = first ++ event :: last' := by
  rcases split_snoc h with ⟨-, heq⟩ | ⟨last', -, hlog⟩
  · exact absurd heq hne
  · exact ⟨last', hlog⟩

theorem note {event : StreamEvent ρ} (h : MarksHold log line) (he : ∀ mark, event ≠ .marked mark) :
    MarksHold (log ++ [event]) line := by
  constructor
  · intro mark first last hlog ahead behind hline
    obtain ⟨last', hlog'⟩ := split_of_ne hlog (he mark)
    have := h.ahead mark first last' hlog' ahead behind hline
    simp only [begun_append, List.length_append]
    omega
  · intro mark first last hlog hout
    obtain ⟨last', hlog'⟩ := split_of_ne hlog (he mark)
    have := h.reached mark first last' hlog' hout
    simp only [ended_append, List.length_append]
    omega

theorem submit (h : MarksHold log line) (n : Nat) : MarksHold log (line ++ [.request n]) := by
  constructor
  · intro mark first last hlog ahead behind hline
    rcases split_snoc hline with ⟨-, heq⟩ | ⟨behind', -, hline'⟩
    · cases heq
    · exact h.ahead mark first last hlog ahead behind' hline'
  · intro mark first last hlog hout
    exact h.reached mark first last hlog fun hin => hout (List.mem_append_left _ hin)

theorem mark {mark : Nat} (h : MarksHold log line) (hlog : .marked mark ∉ log)
    (hline : .mark mark ∉ line)
    (hcount : (submitted log).length ≤ (begun log).length + (requests line).length) :
    MarksHold (log ++ [.marked mark]) (line ++ [.mark mark]) := by
  have hother : ∀ {mark' first last}, log ++ [.marked mark] = first ++ .marked mark' :: last →
      mark' = mark ∧ first = log ∨
        mark' ≠ mark ∧ ∃ last', log = first ++ .marked mark' :: last' := by
    intro mark' first last hsplit
    rcases split_snoc hsplit with ⟨rfl, heq⟩ | ⟨last', -, hlog'⟩
    · cases heq
      exact .inl ⟨rfl, rfl⟩
    · exact .inr ⟨fun heq => hlog (heq ▸ hlog' ▸ by simp), last', hlog'⟩
  constructor
  · intro mark' first last hsplit ahead behind hline'
    rcases split_snoc hline' with ⟨rfl, heq⟩ | ⟨behind', -, hold⟩
    · cases heq
      rcases hother hsplit with ⟨-, rfl⟩ | ⟨hne, -⟩
      · simpa using hcount
      · exact absurd rfl hne
    · rcases hother hsplit with ⟨rfl, -⟩ | ⟨-, last', hlog'⟩
      · exact absurd (hold ▸ by simp) hline
      · simpa using h.ahead mark' first last' hlog' ahead behind' hold
  · intro mark' first last hsplit hout
    simp only [List.mem_append, List.mem_singleton, not_or, Queued.mark.injEq] at hout
    rcases hother hsplit with ⟨rfl, -⟩ | ⟨-, last', hlog'⟩
    · exact absurd rfl hout.2
    · simpa using h.reached mark' first last' hlog' hout.1

theorem takeRequest {n : Nat} {r : ρ} (h : MarksHold log (.request n :: line)) :
    MarksHold (log ++ [.began n r]) line := by
  constructor
  · intro mark first last hlog ahead behind hline
    obtain ⟨last', hlog'⟩ := split_of_ne hlog (by simp)
    have := h.ahead mark first last' hlog' (.request n :: ahead) behind (by simp [hline])
    simp only [requests_request, List.length_cons, begun_append, List.length_append,
      begun_singleton, StreamEvent.begun?, Option.toList_some, List.length_nil] at this ⊢
    omega
  · intro mark first last hlog hout
    obtain ⟨last', hlog'⟩ := split_of_ne hlog (by simp)
    simpa using h.reached mark first last' hlog' (by simpa using hout)

theorem takeMark {mark : Nat} (h : MarksHold log (.mark mark :: line))
    (hidle : begun log = ended log) :
    MarksHold log line := by
  constructor
  · intro mark' first last hlog ahead behind hline
    simpa using h.ahead mark' first last hlog (.mark mark :: ahead) behind (by simp [hline])
  · intro mark' first last hlog hout
    by_cases heq : mark' = mark
    · subst heq
      have := h.ahead mark' first last hlog [] line rfl
      simpa [hidle] using this
    · exact h.reached mark' first last hlog (by simp [heq, hout])

end MarksHold

structure InOrder (d : Discipline) (v : StreamService ρ) (r : StreamRecord ρ) : Prop where
  lawful : Lawful d r.log
  discipline : v.discipline = d
  line : r.line.discipline = d
  marks : r.line.marks = v.marks
  twins : List.Forall₂ (Twin (submitted r.log)) v.queue r.line.queue
  lined : Lined d (begun r.log) (requests r.line.queue) (submitted r.log).length
  nodup : r.line.queue.Nodup
  queued : ∀ mark, .mark mark ∈ r.line.queue → mark < v.marks
  marked : ∀ mark, .marked mark ∈ r.log → mark < v.marks
  reached : ∀ mark ∈ v.reached, mark < v.marks ∧ .mark mark ∉ r.line.queue
  hold : d = .fifo → MarksHold r.log r.line.queue
  unstarted : v.started = false → (∀ event ∈ r.log, event ≠ .launched) ∧ begun r.log = []

namespace InOrder

variable {v : StreamService ρ} {r : StreamRecord ρ}

theorem new (d : Discipline) : InOrder d (.new d : StreamService ρ) (.new d) where
  lawful := .nil
  discipline := rfl
  line := rfl
  marks := rfl
  twins := .nil
  lined := by cases d <;> simp [Lined, StreamRecord.new, begun, submitted, StreamService.new]
  nodup := List.nodup_nil
  queued := by simp [StreamRecord.new, StreamService.new]
  marked := by simp [StreamRecord.new]
  reached := by simp [StreamService.new]
  hold := fun _ => ⟨by simp [StreamRecord.new], by simp [StreamRecord.new]⟩
  unstarted := fun _ => ⟨by simp [StreamRecord.new], rfl⟩

theorem twins_mono {rs rs' : List ρ} {queue : List (Queued ρ)} {line : List (Queued Nat)}
    (h : List.Forall₂ (Twin rs) queue line) : List.Forall₂ (Twin (rs ++ rs')) queue line := by
  refine h.imp fun q q' hq => ?_
  cases hq with
  | request hn =>
    exact .request (by rw [List.getElem?_append_left (List.getElem?_eq_some_iff.mp hn).1, hn])
  | mark => exact .mark _

theorem forall₂_enqueue {R : Queued ρ → Queued Nat → Prop} {line : StreamService Nat} {q : Queued ρ}
    {q' : Queued Nat} (hd : v.discipline = line.discipline) (h : List.Forall₂ R v.queue line.queue)
    (hq : R q q') : List.Forall₂ R (v.enqueue q).queue (line.enqueue q').queue := by
  rw [queue_enqueue, queue_enqueue, hd]
  cases line.discipline with
  | fifo => exact List.rel_append h (.cons hq .nil)
  | lifo => exact .cons hq h

theorem note {event : StreamEvent ρ} (h : InOrder d v r) (hmay : MayFollow d r.log event)
    (hsubmitted : event.submitted? = none) (hbegun : event.begun? = none)
    (hmarked : ∀ mark, event ≠ .marked mark) (hlaunched : v.started = false → event ≠ .launched) :
    InOrder d v (r.note event) where
  lawful := h.lawful.snoc hmay
  discipline := h.discipline
  line := h.line
  marks := h.marks
  twins := by
    change List.Forall₂ (Twin (submitted (r.log ++ [event]))) v.queue r.line.queue
    rw [submitted_append, submitted_singleton, hsubmitted]
    simpa using h.twins
  lined := by
    change Lined d (begun (r.log ++ [event])) (requests r.line.queue)
      (submitted (r.log ++ [event])).length
    rw [submitted_append, submitted_singleton, hsubmitted, begun_append, begun_singleton, hbegun]
    simpa using h.lined
  nodup := h.nodup
  queued := h.queued
  marked := fun mark hin =>
    h.marked mark (by simpa [StreamRecord.note, (hmarked mark).symm] using hin)
  reached := h.reached
  hold := fun hd => (h.hold hd).note hmarked
  unstarted := fun hs => by
    obtain ⟨hnone, hbegun'⟩ := h.unstarted hs
    constructor
    · intro e he
      rcases List.mem_append.mp he with hin | hin
      · exact hnone e hin
      · rw [List.mem_singleton.mp hin]
        exact hlaunched hs
    · change begun (r.log ++ [event]) = []
      rw [begun_append, begun_singleton, hbegun, hbegun']
      rfl

theorem submit (h : InOrder d v r) (request : ρ) : InOrder d (v.submit request)
    (r.submit request) where
  lawful := h.lawful.snoc trivial
  discipline := by simpa [StreamService.submit] using h.discipline
  line := by simpa [StreamRecord.submit, StreamRecord.note, StreamService.submit] using h.line
  marks := by simpa [StreamRecord.submit, StreamRecord.note, StreamService.submit] using h.marks
  twins := by
    have hnew : Twin (submitted r.log ++ [request]) (.request request)
        (.request (submitted r.log).length) := .request (by simp)
    have htwins := forall₂_enqueue (h.discipline.trans h.line.symm) (twins_mono h.twins) hnew
    simpa [StreamRecord.submit, StreamRecord.note, StreamService.submit] using htwins
  lined := by
    have hlined := h.lined.submit
    have hline := h.line
    cases d <;>
      simpa [StreamRecord.submit, StreamRecord.note, StreamService.submit, queue_enqueue, hline]
        using hlined
  nodup := nodup_enqueue h.nodup fun hin => by
    have hwaits : (submitted r.log).length ∈ requests r.line.queue :=
      List.mem_filterMap.mpr ⟨_, hin, rfl⟩
    have := h.lined.perm.mem_iff.mp (List.mem_append_right _ hwaits)
    simp at this
  queued := fun mark hin => by
    simp only [StreamRecord.submit, StreamRecord.note, StreamService.submit, mem_enqueue] at hin
    simpa [StreamService.submit] using h.queued mark (by simpa using hin)
  marked := fun mark hin => by
    simpa [StreamService.submit] using
      h.marked mark (by simpa [StreamRecord.submit, StreamRecord.note] using hin)
  reached := fun mark hin => by
    simp only [StreamService.submit, reached_enqueue] at hin
    simpa [StreamRecord.submit, StreamRecord.note, StreamService.submit, mem_enqueue] using
      h.reached mark hin
  hold := fun hd => by
    subst hd
    have hline : (r.line.submit (submitted r.log).length).queue =
        r.line.queue ++ [.request (submitted r.log).length] := by
      rw [StreamService.submit, queue_enqueue, h.line]
    change MarksHold (r.log ++ [.submitted request]) (r.line.submit _).queue
    rw [hline]
    exact ((h.hold rfl).submit _).note (by simp)
  unstarted := fun hs => by
    have := h.unstarted (by simpa [StreamService.submit] using hs)
    simpa [StreamRecord.submit, StreamRecord.note, or_imp, forall_and] using this

theorem mark (h : InOrder d v r) : InOrder d v.submitMark.2 (r.mark v.marks) := by
  have hfresh : .marked v.marks ∉ r.log := fun hin => Nat.lt_irrefl _ (h.marked _ hin)
  have hout : .mark v.marks ∉ r.line.queue := fun hin => Nat.lt_irrefl _ (h.queued _ hin)
  have hqueue : ∀ mark, .mark mark ∈ (r.mark v.marks).line.queue ↔
      mark = v.marks ∨ .mark mark ∈ r.line.queue := fun mark => by
    simp [StreamRecord.mark, StreamRecord.note, StreamService.submitMark, mem_enqueue, h.marks]
  constructor
  case lawful => exact h.lawful.snoc trivial
  case discipline => simpa [StreamService.submitMark] using h.discipline
  case line => simpa [StreamRecord.mark, StreamRecord.note, StreamService.submitMark] using h.line
  case marks => simpa [StreamRecord.mark, StreamRecord.note, StreamService.submitMark] using h.marks
  case twins =>
    have htwins := forall₂_enqueue (h.discipline.trans h.line.symm) h.twins (.mark v.marks)
    simpa [StreamRecord.mark, StreamRecord.note, StreamService.submitMark, h.marks] using htwins
  case lined =>
    have hlined := h.lined
    have hline := h.line
    cases d <;>
      simpa [StreamRecord.mark, StreamRecord.note, StreamService.submitMark, queue_enqueue, hline]
        using hlined
  case nodup => exact nodup_enqueue h.nodup (by rwa [h.marks])
  case queued =>
    intro mark hin
    rcases (hqueue mark).mp hin with rfl | hin
    · exact Nat.lt_succ_self _
    · exact Nat.lt_succ_of_lt (h.queued mark hin)
  case marked =>
    intro mark hin
    rcases List.mem_append.mp hin with hin | hin
    · exact Nat.lt_succ_of_lt (h.marked mark hin)
    · cases List.mem_singleton.mp hin
      exact Nat.lt_succ_self _
  case reached =>
    intro mark hin
    obtain ⟨hlt, hgone⟩ := h.reached mark (by simpa [StreamService.submitMark] using hin)
    refine ⟨Nat.lt_succ_of_lt hlt, fun hin' => ?_⟩
    rcases (hqueue mark).mp hin' with rfl | hin'
    · exact Nat.lt_irrefl _ hlt
    · exact hgone hin'
  case hold =>
    rintro rfl
    have hcount : (submitted r.log).length = (begun r.log ++ requests r.line.queue).length := by
      rw [show begun r.log ++ requests r.line.queue = List.range _ from h.lined, List.length_range]
    have hline : (r.mark v.marks).line.queue = r.line.queue ++ [.mark v.marks] := by
      simp [StreamRecord.mark, StreamRecord.note, StreamService.submitMark, queue_enqueue, h.line,
        h.marks]
    rw [hline]
    refine (h.hold rfl).mark hfresh hout ?_
    rw [hcount, List.length_append]
  case unstarted =>
    intro hs
    have := h.unstarted (by simpa [StreamService.submitMark] using hs)
    simpa [StreamRecord.mark, StreamRecord.note, or_imp, forall_and] using this

theorem launch (h : InOrder d v r) (hs : v.started = false) :
    InOrder d { v with started := true } (r.note .launched) where
  lawful := h.lawful.snoc (h.unstarted hs).1
  discipline := h.discipline
  line := h.line
  marks := h.marks
  twins := by simpa [StreamRecord.note] using h.twins
  lined := by simpa [StreamRecord.note] using h.lined
  nodup := h.nodup
  queued := h.queued
  marked := fun mark hin => h.marked mark (by simpa [StreamRecord.note] using hin)
  reached := h.reached
  hold := fun hd => (h.hold hd).note (by simp)
  unstarted := by simp

theorem exists_take {q : Queued ρ} {v' : StreamService ρ} (h : InOrder d v r)
    (ht : v.take? = some (q, v')) :
    ∃ q' line, Twin (submitted r.log) q q' ∧ r.line.queue = q' :: line ∧
      v' = { v with queue := v'.queue } ∧ List.Forall₂ (Twin (submitted r.log)) v'.queue line := by
  have htwins := h.twins
  cases hqueue : v.queue with
  | nil => simp [take?, hqueue] at ht
  | cons q₀ queue =>
    simp only [take?, hqueue, Option.some.injEq, Prod.mk.injEq] at ht
    obtain ⟨rfl, rfl⟩ := ht
    rw [hqueue] at htwins
    obtain ⟨q', line, hq, hrest, hline⟩ := List.forall₂_cons_left_iff.mp htwins
    exact ⟨q', line, hq, hline, rfl, hrest⟩

theorem takeRequest {request : ρ} {v' : StreamService ρ} (h : InOrder d v r)
    (hidle : begun r.log = ended r.log) (hs : v.started = true)
    (ht : v.take? = some (.request request, v')) :
    InOrder d v' (r.take (.request request)) ∧
      ∃ n, begun (r.take (.request request)).log = ended (r.take (.request request)).log ++
        [n] := by
  obtain ⟨_, line, ⟨hn⟩, hline, hv', hrest⟩ := h.exists_take ht
  rename_i n
  have htake : r.take (.request request) =
      { r with line := { r.line with queue := line } }.note (.began n request) := by
    simp [StreamRecord.take, StreamService.take?, hline]
  have hlined := h.lined
  rw [hline, requests_request] at hlined
  rw [htake, hv']
  refine ⟨?_, n, by simp [StreamRecord.note, hidle]⟩
  constructor
  case lawful => exact h.lawful.snoc ⟨isNext_of_perm hlined.perm hlined.goesFirst, hn, hidle⟩
  case discipline => exact h.discipline
  case line => exact h.line
  case marks => exact h.marks
  case twins => simpa [StreamRecord.note] using hrest
  case lined => simpa [StreamRecord.note] using hlined.take
  case nodup => exact (List.nodup_cons.mp (hline ▸ h.nodup)).2
  case queued => exact fun mark hin => h.queued mark (hline ▸ List.mem_cons_of_mem _ hin)
  case marked => exact fun mark hin => h.marked mark (by simpa [StreamRecord.note] using hin)
  case reached =>
    intro mark hin
    obtain ⟨hlt, hout⟩ := h.reached mark hin
    exact ⟨hlt, fun hin' => hout (hline ▸ List.mem_cons_of_mem _ hin')⟩
  case hold =>
    exact fun hd => (hline ▸ h.hold hd : MarksHold r.log (.request n :: line)).takeRequest
  case unstarted => exact fun hs' => absurd (hs.symm.trans hs') (by simp)

theorem takeMark {mark : Nat} {v' : StreamService ρ} (h : InOrder d v r)
    (hidle : begun r.log = ended r.log) (ht : v.take? = some (.mark mark, v')) :
    InOrder d v' (r.take (.mark mark)) ∧ (r.take (.mark mark)).log = r.log ∧
      mark < v'.marks ∧ .mark mark ∉ (r.take (.mark mark)).line.queue := by
  obtain ⟨_, line, ⟨⟩, hline, hv', hrest⟩ := h.exists_take ht
  have htake : r.take (.mark mark) = { r with line := { r.line with queue := line } } := by
    simp [StreamRecord.take, StreamService.take?, hline]
  have hlined := h.lined
  rw [hline, requests_mark] at hlined
  have hnodup := List.nodup_cons.mp (hline ▸ h.nodup)
  rw [htake, hv']
  refine ⟨?_, rfl, h.queued mark (hline ▸ List.mem_cons_self), hnodup.1⟩
  constructor
  case lawful => exact h.lawful
  case discipline => exact h.discipline
  case line => exact h.line
  case marks => exact h.marks
  case twins => exact hrest
  case lined => exact hlined
  case nodup => exact hnodup.2
  case queued => exact fun mark hin => h.queued mark (hline ▸ List.mem_cons_of_mem _ hin)
  case marked => exact h.marked
  case reached =>
    intro mark hin
    obtain ⟨hlt, hout⟩ := h.reached mark hin
    exact ⟨hlt, fun hin' => hout (hline ▸ List.mem_cons_of_mem _ hin')⟩
  case hold =>
    exact fun hd => (hline ▸ h.hold hd : MarksHold r.log (.mark mark :: line)).takeMark hidle
  case unstarted => exact h.unstarted

theorem reach {mark : Nat} (h : InOrder d v r) (hlt : mark < v.marks)
    (hout : .mark mark ∉ r.line.queue) : InOrder d (v.reach mark) r where
  lawful := h.lawful
  discipline := h.discipline
  line := h.line
  marks := h.marks
  twins := h.twins
  lined := h.lined
  nodup := h.nodup
  queued := h.queued
  marked := h.marked
  reached := fun mark' hin => by
    rcases List.mem_cons.mp hin with rfl | hin
    · exact ⟨hlt, hout⟩
    · exact h.reached mark' hin
  hold := h.hold
  unstarted := h.unstarted

theorem finish {n : Nat} (h : InOrder d v r) (hn : begun r.log = ended r.log ++ [n]) :
    InOrder d v r.finish ∧ begun r.finish.log = ended r.finish.log := by
  have hfinish : r.finish = r.note (.ended n) := by simp [StreamRecord.finish, hn]
  rw [hfinish]
  exact ⟨h.note hn rfl rfl (by simp) (by simp), by simp [StreamRecord.note, hn]⟩

theorem isDone_of_reached {mark : Nat} {first last : List (StreamEvent ρ)} (h : InOrder .fifo v r)
    (hlog : r.log = first ++ .marked mark :: last) (hreached : v.hasReached mark = true) :
    IsDone r.log mark := by
  refine ⟨first, last, hlog, fun n hn => ?_⟩
  have hout := (h.reached mark (by simpa [hasReached] using hreached)).2
  have hcount := (h.hold rfl).reached mark first last hlog hout
  have hrange : begun r.log <+: List.range (submitted r.log).length :=
    (show begun r.log ++ _ = List.range _ from h.lined) ▸ List.prefix_append ..
  have hprefix : ended r.log <+: List.range (submitted r.log).length := by
    rcases h.lawful.ended_eq with heq | ⟨k, heq⟩
    · rwa [← heq]
    · exact (heq ▸ List.prefix_append _ _ : ended r.log <+: begun r.log).trans hrange
  have hlength := hprefix.length_le
  have hended := List.prefix_iff_eq_take.mp hprefix
  rw [List.length_range] at hlength
  rw [List.take_range, Nat.min_eq_left hlength] at hended
  rw [hended, List.mem_range]
  omega

end InOrder

end SessionShell
