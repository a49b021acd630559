import Mathlib.Data.List.Infix
import Mathlib.Logic.Function.Basic
import SessionShell.Console.Basic
import SessionShell.Proofs.Stream.Order

/-!
The chronicle of a console: what was printed, by whom, what was written, which lines were asked for,
and who waited for both outlets.

Beside the chronicle it is kept what has no place in the console itself: how much was printed before
each mark, the text that a worker has in hand, and the numbers of the requests for lines.
-/

namespace SessionShell

inductive Outlet where
  | out
  | err
  deriving DecidableEq, Repr

def Outlet.name : Outlet → StreamName
  | .out => .out
  | .err => .err

namespace Console

variable {x y : Outlet} {v : StreamService String} {c : Console} {text : String}

def stream : Outlet → Console → StreamService String
  | .out, c => c.out
  | .err, c => c.err

def setStream : Outlet → StreamService String → Console → Console
  | .out, out, c => { c with out }
  | .err, err, c => { c with err }

def pieces : Outlet → Console → List String
  | .out, c => c.outWritten.toList
  | .err, c => c.errWritten.toList

def write : Outlet → String → Console → Console
  | .out, text, c => { c with outWritten := c.outWritten.push text }
  | .err, text, c => { c with errWritten := c.errWritten.push text }

def press (c : Console) : StreamService String × StreamService String × StreamService LineRequest ×
    Array String × Array String :=
  (c.out, c.err, c.input, c.outWritten, c.errWritten)

@[simp] theorem stream_setStream : (c.setStream x v).stream x = v := by
  cases x <;> rfl

theorem stream_setStream_of_ne (h : y ≠ x) : (c.setStream x v).stream y = c.stream y := by
  cases x <;> cases y <;> first | rfl | exact absurd rfl h

@[simp] theorem pieces_setStream : (c.setStream x v).pieces y = c.pieces y := by
  cases x <;> cases y <;> rfl

@[simp] theorem input_setStream : (c.setStream x v).input = c.input := by
  cases x <;> rfl

@[simp] theorem stream_write : (c.write x text).stream y = c.stream y := by
  cases x <;> cases y <;> rfl

@[simp] theorem pieces_write : (c.write x text).pieces x = c.pieces x ++ [text] := by
  cases x <;> simp [write, pieces]

theorem pieces_write_of_ne (h : y ≠ x) : (c.write x text).pieces y = c.pieces y := by
  cases x <;> cases y <;> first | rfl | exact absurd rfl h

@[simp] theorem input_write : (c.write x text).input = c.input := by
  cases x <;> rfl

theorem stream_input {input : StreamService LineRequest} :
    ({ c with input } : Console).stream x = c.stream x := by
  cases x <;> rfl

theorem pieces_input {input : StreamService LineRequest} :
    ({ c with input } : Console).pieces x = c.pieces x := by
  cases x <;> rfl

end Console

inductive ConsoleEvent where
  | printed (outlet : Outlet) (thread : ThreadId) (text : String)
  | wrote (outlet : Outlet) (text : String)
  | asked (request : LineRequest)
  /-- A thread that waits for both outlets has queued its mark at the first of them. -/
  | syncing (mark : Nat)
  | synced (mark : Nat)
  /-- The prompt of the request with this number was written. -/
  | prompted (n : Nat) (prompt : String)
  deriving DecidableEq, Repr

namespace ConsoleEvent

@[simp]
def printed? (x : Outlet) : ConsoleEvent → Option (ThreadId × String)
  | .printed y thread text => if y = x then some (thread, text) else none
  | _ => none

@[simp]
def wrote? (x : Outlet) : ConsoleEvent → Option String
  | .wrote y text => if y = x then some text else none
  | _ => none

@[simp]
def asked? : ConsoleEvent → Option LineRequest
  | .asked request => some request
  | _ => none

@[simp]
def piece? (x : Outlet) : ConsoleEvent → Option String
  | .wrote y text => if y = x then some text else none
  | .prompted _ prompt => if x = .out then some prompt else none
  | _ => none

end ConsoleEvent

namespace Chronicle

variable {log log' first : List ConsoleEvent} {x : Outlet} {event : ConsoleEvent}

def printed (x : Outlet) (log : List ConsoleEvent) : List (ThreadId × String) :=
  log.filterMap (ConsoleEvent.printed? x)

def texts (x : Outlet) (log : List ConsoleEvent) : List String :=
  (printed x log).map Prod.snd

def wrote (x : Outlet) (log : List ConsoleEvent) : List String :=
  log.filterMap (ConsoleEvent.wrote? x)

def asks (log : List ConsoleEvent) : List LineRequest :=
  log.filterMap ConsoleEvent.asked?

def pieces (x : Outlet) (log : List ConsoleEvent) : List String :=
  log.filterMap (ConsoleEvent.piece? x)

@[simp] theorem texts_append : texts x (log ++ log') = texts x log ++ texts x log' := by
  simp [texts, printed]

@[simp] theorem wrote_append : wrote x (log ++ log') = wrote x log ++ wrote x log' :=
  List.filterMap_append ..

@[simp] theorem asks_append : asks (log ++ log') = asks log ++ asks log' :=
  List.filterMap_append ..

@[simp] theorem pieces_append : pieces x (log ++ log') = pieces x log ++ pieces x log' :=
  List.filterMap_append ..

theorem filterMap_singleton {α β : Type} (f : α → Option β) (a : α) :
    [a].filterMap f = (f a).toList := by
  rw [List.filterMap_cons]
  cases f a <;> rfl

@[simp] theorem texts_singleton : texts x [event] = (event.printed? x).toList.map Prod.snd := by
  rw [texts, printed, filterMap_singleton]

@[simp] theorem wrote_singleton : wrote x [event] = (event.wrote? x).toList :=
  filterMap_singleton _ _

@[simp] theorem asks_singleton : asks [event] = event.asked?.toList :=
  filterMap_singleton _ _

@[simp] theorem pieces_singleton : pieces x [event] = (event.piece? x).toList :=
  filterMap_singleton _ _

theorem texts_mono (h : first <+: log) : texts x first <+: texts x log := by
  obtain ⟨last, rfl⟩ := h
  simp

theorem wrote_mono (h : first <+: log) : wrote x first <+: wrote x log := by
  obtain ⟨last, rfl⟩ := h
  simp

def Covers (first log : List ConsoleEvent) : Prop :=
  ∀ x, texts x first <+: wrote x log

def MayFollow (log : List ConsoleEvent) : ConsoleEvent → Prop
  | .printed .. => True
  | .wrote x text => (texts x log)[(wrote x log).length]? = some text
  | .asked _ => True
  | .syncing mark => .syncing mark ∉ log
  | .synced mark => ∃ first last, log = first ++ .syncing mark :: last ∧ Covers first log
  | .prompted n prompt => ∃ first request last, log = first ++ .asked request :: last ∧
      (asks first).length = n ∧ request.prompt = prompt ∧ Covers first log

def Lawful (log : List ConsoleEvent) : Prop :=
  ∀ before event after, log = before ++ event :: after → MayFollow before event

theorem lawful_nil : Lawful [] := fun _ _ _ h => by simp at h

theorem Lawful.snoc (h : Lawful log) (hmay : MayFollow log event) : Lawful (log ++ [event]) := by
  intro before other after hlog
  rcases split_snoc hlog with ⟨rfl, rfl⟩ | ⟨after', -, hlog'⟩
  · exact hmay
  · exact h before other after' hlog'

theorem exists_asked {n : Nat} {request : LineRequest} (h : (asks log)[n]? = some request) :
    ∃ first last, log = first ++ .asked request :: last ∧ (asks first).length = n := by
  induction log generalizing n with
  | nil => simp [asks] at h
  | cons event log ih =>
    rw [← List.singleton_append, asks_append, asks_singleton] at h
    cases hevent : event.asked? with
    | none =>
      rw [hevent] at h
      obtain ⟨first, last, rfl, hlength⟩ := ih h
      refine ⟨event :: first, last, rfl, ?_⟩
      rw [← List.singleton_append, asks_append, asks_singleton, hevent]
      exact hlength
    | some asked =>
      rw [hevent] at h
      cases n with
      | zero =>
        obtain rfl : asked = request := by simpa using h
        cases event <;> simp at hevent
        cases hevent
        exact ⟨[], log, rfl, rfl⟩
      | succ n =>
        obtain ⟨first, last, rfl, hlength⟩ := ih (by simpa using h)
        refine ⟨event :: first, last, rfl, ?_⟩
        rw [← List.singleton_append, asks_append, asks_singleton, hevent]
        simp [hlength]

end Chronicle

/-! ## What is on its way to an outlet -/

open StreamService

/-- In a stream that is served from its head stands all that was printed and not written. Ahead of a
mark stands what was printed before it, or that is written. -/
structure Flows (v : StreamService String) (printed written : List String) (hand : Option String)
    (due : List Nat) : Prop where
  discipline : v.discipline = .fifo
  flow : written ++ hand.toList ++ requests v.queue = printed
  marks : v.marks = due.length
  ahead : ∀ first mark rest, v.queue = first ++ .mark mark :: rest → ∃ n, due[mark]? = some n ∧
    n ≤ written.length + hand.toList.length + (requests first).length
  reached : ∀ mark ∈ v.reached, ∃ n, due[mark]? = some n ∧ n ≤ written.length

theorem StreamService.exists_of_take {ρ : Type} {v v' : StreamService ρ} {q : Queued ρ}
    (h : v.take? = some (q, v')) : ∃ queue, v.queue = q :: queue ∧ v' = { v with queue } := by
  unfold take? at h
  split at h
  · cases h
  · next q queue hqueue =>
    cases h
    exact ⟨queue, hqueue, rfl⟩

namespace Flows

variable {v v' : StreamService String} {printed written : List String} {hand : Option String}
  {due : List Nat} {text : String}

theorem new : Flows (.new .fifo) [] [] none [] where
  discipline := rfl
  flow := rfl
  marks := rfl
  ahead := by simp [StreamService.new]
  reached := by simp [StreamService.new]

theorem start (h : Flows v printed written hand due) :
    Flows { v with started := true } printed written hand due :=
  ⟨h.discipline, h.flow, h.marks, h.ahead, h.reached⟩

theorem submit (h : Flows v printed written hand due) (text : String) :
    Flows (v.submit text) (printed ++ [text]) written hand due where
  discipline := discipline_enqueue.trans h.discipline
  flow := by simp [StreamService.submit, queue_enqueue, h.discipline, ← h.flow]
  marks := marks_enqueue.trans h.marks
  ahead := by
    intro first mark rest hqueue
    rw [StreamService.submit, queue_enqueue, h.discipline] at hqueue
    rcases split_snoc hqueue with ⟨-, heq⟩ | ⟨rest', -, hqueue'⟩
    · cases heq
    · exact h.ahead first mark rest' hqueue'
  reached := by
    intro mark hin
    exact h.reached mark (by simpa [StreamService.submit] using hin)

theorem due_append {mark bound : Nat} (more : List Nat)
    (h : ∃ n, due[mark]? = some n ∧ n ≤ bound) :
      ∃ n, (due ++ more)[mark]? = some n ∧ n ≤ bound := by
  obtain ⟨n, hn, hle⟩ := h
  exact ⟨n, by rw [List.getElem?_append_left (List.getElem?_eq_some_iff.mp hn).1, hn], hle⟩

theorem mark (h : Flows v printed written hand due) :
    Flows v.submitMark.2 printed written hand (due ++ [printed.length]) where
  discipline := discipline_enqueue.trans h.discipline
  flow := by simp [StreamService.submitMark, queue_enqueue, h.discipline, ← h.flow]
  marks := by simp [StreamService.submitMark, h.marks]
  ahead := by
    intro first mark rest hqueue
    have hsplit : v.queue ++ [.mark v.marks] = first ++ .mark mark :: rest := by
      simpa [StreamService.submitMark, queue_enqueue, h.discipline] using hqueue
    rcases split_snoc hsplit with ⟨rfl, heq⟩ | ⟨rest', -, hqueue'⟩
    · cases heq
      refine ⟨printed.length, by simp [h.marks], ?_⟩
      rw [← h.flow, List.length_append, List.length_append]
    · exact due_append _ (h.ahead first mark rest' hqueue')
  reached := by
    intro mark hin
    exact due_append _ (h.reached mark (by simpa [StreamService.submitMark] using hin))

theorem takeRequest (h : Flows v printed written none due)
    (ht : v.take? = some (.request text, v')) : Flows v' printed written (some text) due := by
  obtain ⟨queue, hqueue, rfl⟩ := exists_of_take ht
  refine ⟨h.discipline, ?_, h.marks, fun first mark rest hrest => ?_, h.reached⟩
  · simpa [hqueue] using h.flow
  · obtain ⟨n, hn, hle⟩ := h.ahead (.request text :: first) mark rest
      (hqueue.trans (congrArg (List.cons _) hrest))
    refine ⟨n, hn, ?_⟩
    simp only [requests_request, List.length_cons, Option.toList_none, List.length_nil,
      Option.toList_some] at hle ⊢
    omega

theorem takeMark {mark : Nat} (h : Flows v printed written none due)
    (ht : v.take? = some (.mark mark, v')) :
    Flows v' printed written none due ∧ ∃ n, due[mark]? = some n ∧ n ≤ written.length := by
  obtain ⟨queue, hqueue, rfl⟩ := exists_of_take ht
  refine ⟨⟨h.discipline, ?_, h.marks, fun first other rest hrest => ?_, h.reached⟩, ?_⟩
  · simpa [hqueue] using h.flow
  · simpa using h.ahead (.mark mark :: first) other rest
      (hqueue.trans (congrArg (List.cons _) hrest))
  · simpa using h.ahead [] mark queue hqueue

theorem write (h : Flows v printed written (some text) due) :
    Flows v printed (written ++ [text]) none due ∧ printed[written.length]? = some text := by
  refine ⟨⟨h.discipline, by simpa using h.flow, h.marks, fun first mark rest hqueue => ?_,
    fun mark hin => ?_⟩, ?_⟩
  · simpa using h.ahead first mark rest hqueue
  · obtain ⟨n, hn, hle⟩ := h.reached mark hin
    exact ⟨n, hn, by simp; omega⟩
  · rw [← h.flow]
    simp

theorem reach {mark : Nat} (h : Flows v printed written hand due)
    (hmark : ∃ n, due[mark]? = some n ∧ n ≤ written.length) :
    Flows (v.reach mark) printed written hand due := by
  refine ⟨h.discipline, h.flow, h.marks, h.ahead, fun other hin => ?_⟩
  rcases List.mem_cons.mp hin with rfl | hin
  · exact hmark
  · exact h.reached other hin

theorem written_initial (h : Flows v printed written hand due) : written <+: printed :=
  ⟨hand.toList ++ requests v.queue, by rw [← List.append_assoc, h.flow]⟩

end Flows

structure ConsoleRecord where
  log : List ConsoleEvent
  due : Outlet → List Nat
  hand : Outlet → Option String
  /-- The numbers of the requests for lines, in the places of the requests. -/
  line : List Nat
  serving : Option Nat

namespace ConsoleRecord

open Chronicle

def new : ConsoleRecord :=
  ⟨[], fun _ => [], fun _ => none, [], none⟩

def note (event : ConsoleEvent) (r : ConsoleRecord) : ConsoleRecord :=
  { r with log := r.log ++ [event] }

def handOut (x : Outlet) (r : ConsoleRecord) : ConsoleRecord :=
  { r with due := Function.update r.due x (r.due x ++ [(texts x r.log).length]) }

def mark (x : Outlet) (mark : Nat) (r : ConsoleRecord) : ConsoleRecord :=
  match x with
  | .out => (r.handOut .out).note (.syncing mark)
  | .err => r.handOut .err

def take (x : Outlet) (text : String) (r : ConsoleRecord) : ConsoleRecord :=
  { r with hand := Function.update r.hand x (some text) }

def write (x : Outlet) (text : String) (r : ConsoleRecord) : ConsoleRecord :=
  { r with hand := Function.update r.hand x none }.note (.wrote x text)

def ask (request : LineRequest) (r : ConsoleRecord) : ConsoleRecord :=
  { r with line := (asks r.log).length :: r.line }.note (.asked request)

def takeAsk (r : ConsoleRecord) : ConsoleRecord :=
  { r with line := r.line.tail, serving := r.line.head? }

def prompt (text : String) (r : ConsoleRecord) : ConsoleRecord :=
  match r.serving with
  | some n => r.note (.prompted n text)
  | none => r

section Fields

variable {r : ConsoleRecord} {x : Outlet} {event : ConsoleEvent} {text : String}

@[simp] theorem log_note : (r.note event).log = r.log ++ [event] := rfl
@[simp] theorem due_note : (r.note event).due = r.due := rfl
@[simp] theorem hand_note : (r.note event).hand = r.hand := rfl
@[simp] theorem line_note : (r.note event).line = r.line := rfl
@[simp] theorem serving_note : (r.note event).serving = r.serving := rfl

@[simp] theorem log_handOut : (r.handOut x).log = r.log := rfl
@[simp] theorem due_handOut : (r.handOut x).due =
    Function.update r.due x (r.due x ++ [(texts x r.log).length]) := rfl
@[simp] theorem hand_handOut : (r.handOut x).hand = r.hand := rfl
@[simp] theorem line_handOut : (r.handOut x).line = r.line := rfl

@[simp] theorem log_take : (r.take x text).log = r.log := rfl
@[simp] theorem due_take : (r.take x text).due = r.due := rfl
@[simp] theorem hand_take : (r.take x text).hand = Function.update r.hand x (some text) := rfl
@[simp] theorem line_take : (r.take x text).line = r.line := rfl

@[simp] theorem log_ask (request : LineRequest) : (r.ask request).log = r.log ++ [.asked request] :=
  rfl
@[simp] theorem due_ask (request : LineRequest) : (r.ask request).due = r.due := rfl
@[simp] theorem hand_ask (request : LineRequest) : (r.ask request).hand = r.hand := rfl
@[simp] theorem line_ask (request : LineRequest) :
    (r.ask request).line = (asks r.log).length :: r.line := rfl

@[simp] theorem log_takeAsk : r.takeAsk.log = r.log := rfl
@[simp] theorem due_takeAsk : r.takeAsk.due = r.due := rfl
@[simp] theorem hand_takeAsk : r.takeAsk.hand = r.hand := rfl

@[simp] theorem log_write : (r.write x text).log = r.log ++ [.wrote x text] := rfl
@[simp] theorem due_write : (r.write x text).due = r.due := rfl
@[simp] theorem hand_write : (r.write x text).hand = Function.update r.hand x none := rfl
@[simp] theorem line_write : (r.write x text).line = r.line := rfl

end Fields

structure Accounts (r : ConsoleRecord) (c : Console) : Prop where
  lawful : Lawful r.log
  flows : ∀ x, Flows (c.stream x) (texts x r.log) (wrote x r.log) (r.hand x) (r.due x)
  unstarted : ∀ x, (c.stream x).started = false → r.hand x = none
  pieces : ∀ x, c.pieces x = Chronicle.pieces x r.log
  input : c.input.discipline = .lifo
  asks : List.Forall₂ (fun q n => ∃ request, q = .request request ∧
    (asks r.log)[n]? = some request) c.input.queue r.line
  synced : ∀ mark, .syncing mark ∈ r.log → mark < (r.due .out).length

namespace Accounts

variable {r : ConsoleRecord} {c c' : Console} {x : Outlet} {text : String}

theorem note {event : ConsoleEvent} (h : r.Accounts c) (hmay : MayFollow r.log event)
    (hprinted : ∀ x, event.printed? x = none) (hpieces : ∀ x, event.piece? x = none)
    (hwrote : ∀ x, event.wrote? x = none) (hasked : event.asked? = none)
    (hsyncing : ∀ mark, event = .syncing mark → mark < (r.due .out).length) :
    (r.note event).Accounts c where
  lawful := h.lawful.snoc hmay
  flows x := by
    rw [log_note, texts_append, texts_singleton, hprinted, wrote_append, wrote_singleton, hwrote]
    simpa using h.flows x
  unstarted := h.unstarted
  pieces x := by
    rw [log_note, pieces_append, pieces_singleton, hpieces]
    simpa using h.pieces x
  input := h.input
  asks := by
    rw [log_note, asks_append, asks_singleton, hasked]
    simpa using h.asks
  synced := by
    intro mark hin
    rcases List.mem_append.mp hin with hin | hin
    · exact h.synced mark hin
    · exact hsyncing mark (List.mem_singleton.mp hin).symm

theorem print (h : r.Accounts c) (thread : ThreadId) (text : String) :
    (r.note (.printed x thread text)).Accounts (c.setStream x ((c.stream x).submit text)) where
  lawful := h.lawful.snoc trivial
  flows y := by
    by_cases hy : y = x
    · subst hy
      simpa using (h.flows y).submit text
    · simpa [Console.stream_setStream_of_ne hy, Ne.symm hy]
        using h.flows y
  unstarted y := by
    by_cases hy : y = x
    · subst hy
      simpa [StreamService.submit] using h.unstarted y
    · simpa [Console.stream_setStream_of_ne hy] using h.unstarted y
  pieces y := by simpa using h.pieces y
  input := by simpa using h.input
  asks := by simpa using h.asks
  synced := by simpa using h.synced

theorem start (h : r.Accounts c) :
    r.Accounts (c.setStream x { c.stream x with started := true }) where
  lawful := h.lawful
  flows y := by
    by_cases hy : y = x
    · subst hy
      simpa using (h.flows y).start
    · simpa [Console.stream_setStream_of_ne hy] using h.flows y
  unstarted y := by
    by_cases hy : y = x
    · subst hy
      simp
    · simpa [Console.stream_setStream_of_ne hy] using h.unstarted y
  pieces y := by simpa using h.pieces y
  input := by simpa using h.input
  asks := by simpa using h.asks
  synced := h.synced

theorem handOut (h : r.Accounts c) :
    (r.handOut x).Accounts (c.setStream x (c.stream x).submitMark.2) where
  lawful := h.lawful
  flows y := by
    by_cases hy : y = x
    · subst hy
      simpa using (h.flows y).mark
    · simpa [Console.stream_setStream_of_ne hy, hy] using h.flows y
  unstarted y := by
    by_cases hy : y = x
    · subst hy
      simpa [StreamService.submitMark] using h.unstarted y
    · simpa [Console.stream_setStream_of_ne hy] using h.unstarted y
  pieces y := by simpa using h.pieces y
  input := by simpa using h.input
  asks := by simpa using h.asks
  synced mark hin := by
    have hlt := h.synced mark hin
    cases x with
    | out => simpa using Nat.lt_succ_of_lt hlt
    | err => simpa using hlt

theorem mark (h : r.Accounts c) :
    (r.mark x (c.stream x).marks).Accounts (c.setStream x (c.stream x).submitMark.2) := by
  cases x with
  | err => exact h.handOut
  | out =>
    have hmarks : (c.stream .out).marks = (r.due .out).length := (h.flows .out).marks
    refine h.handOut.note (fun hin => ?_) (fun _ => rfl) (fun _ => rfl) (fun _ => rfl) rfl ?_
    · exact Nat.lt_irrefl _ (hmarks ▸ h.synced _ hin)
    · rintro mark ⟨⟩
      simp [hmarks]

theorem take {v' : StreamService String} (h : r.Accounts c) (hhand : r.hand x = none)
    (hstarted : (c.stream x).started = true) (ht : (c.stream x).take? = some (.request text, v')) :
    (r.take x text).Accounts (c.setStream x v') where
  lawful := h.lawful
  flows y := by
    by_cases hy : y = x
    · subst hy
      have hflows := h.flows y
      rw [hhand] at hflows
      simpa using hflows.takeRequest ht
    · simpa [Console.stream_setStream_of_ne hy, hy] using h.flows y
  unstarted y := by
    obtain ⟨queue, -, rfl⟩ := exists_of_take ht
    by_cases hy : y = x
    · subst hy
      simp [hstarted]
    · simpa [Console.stream_setStream_of_ne hy, hy] using h.unstarted y
  pieces y := by simpa using h.pieces y
  input := by simpa using h.input
  asks := by simpa using h.asks
  synced := h.synced

theorem takeMark {mark : Nat} {v' : StreamService String} (h : r.Accounts c)
    (hhand : r.hand x = none) (ht : (c.stream x).take? = some (.mark mark, v')) :
    r.Accounts (c.setStream x v') ∧
      ∃ n, (r.due x)[mark]? = some n ∧ n ≤ (wrote x r.log).length := by
  have hflows := h.flows x
  rw [hhand] at hflows
  obtain ⟨hflows', hreached⟩ := hflows.takeMark ht
  refine ⟨⟨h.lawful, fun y => ?_, fun y => ?_, fun y => ?_, ?_, ?_, h.synced⟩, hreached⟩
  · by_cases hy : y = x
    · subst hy
      simpa [hhand] using hflows'
    · simpa [Console.stream_setStream_of_ne hy] using h.flows y
  · by_cases hy : y = x
    · subst hy
      exact fun _ => hhand
    · simpa [Console.stream_setStream_of_ne hy] using h.unstarted y
  · simpa using h.pieces y
  · simpa using h.input
  · simpa using h.asks

theorem write (h : r.Accounts c) (hhand : r.hand x = some text) :
    (r.write x text).Accounts (c.write x text) := by
  have hflows := h.flows x
  rw [hhand] at hflows
  obtain ⟨hflows', hnext⟩ := hflows.write
  refine ⟨h.lawful.snoc hnext, fun y => ?_, fun y => ?_, fun y => ?_, ?_, ?_, ?_⟩
  · by_cases hy : y = x
    · subst hy
      simpa using hflows'
    · simpa [hy, Ne.symm hy] using h.flows y
  · by_cases hy : y = x
    · subst hy
      simp
    · simpa [hy] using h.unstarted y
  · by_cases hy : y = x
    · subst hy
      simpa using h.pieces y
    · simpa [Console.pieces_write_of_ne hy, Ne.symm hy]
        using h.pieces y
  · simpa using h.input
  · simpa using h.asks
  · simpa using h.synced

theorem reach {mark : Nat} (h : r.Accounts c)
    (hmark : ∃ n, (r.due x)[mark]? = some n ∧ n ≤ (wrote x r.log).length) :
    r.Accounts (c.setStream x ((c.stream x).reach mark)) where
  lawful := h.lawful
  flows y := by
    by_cases hy : y = x
    · subst hy
      simpa using (h.flows y).reach hmark
    · simpa [Console.stream_setStream_of_ne hy] using h.flows y
  unstarted y := by
    by_cases hy : y = x
    · subst hy
      simpa [StreamService.reach] using h.unstarted y
    · simpa [Console.stream_setStream_of_ne hy] using h.unstarted y
  pieces y := by simpa using h.pieces y
  input := by simpa using h.input
  asks := by simpa using h.asks
  synced := h.synced

theorem startInput (h : r.Accounts c) :
    r.Accounts { c with input := { c.input with started := true } } where
  lawful := h.lawful
  flows x := by simpa only [Console.stream_input] using h.flows x
  unstarted x := by simpa only [Console.stream_input] using h.unstarted x
  pieces x := by simpa only [Console.pieces_input] using h.pieces x
  input := h.input
  asks := h.asks
  synced := h.synced

theorem ask (h : r.Accounts c) (request : LineRequest) :
    (r.ask request).Accounts { c with input := c.input.submit request } where
  lawful := h.lawful.snoc trivial
  flows x := by simpa [Console.stream_input] using h.flows x
  unstarted x := by simpa [Console.stream_input] using h.unstarted x
  pieces x := by simpa [Console.pieces_input] using h.pieces x
  input := discipline_enqueue.trans h.input
  asks := by
    have hqueue : (c.input.submit request).queue = .request request :: c.input.queue := by
      rw [StreamService.submit, queue_enqueue, h.input]
    rw [hqueue]
    refine .cons ⟨request, rfl, by simp⟩ (h.asks.imp fun q n hq => ?_)
    obtain ⟨asked, rfl, hn⟩ := hq
    exact ⟨asked, rfl, by
      rw [log_ask, asks_append, List.getElem?_append_left (List.getElem?_eq_some_iff.mp hn).1, hn]⟩
  synced := by simpa using h.synced

theorem takeAsk {q : Queued LineRequest} {v' : StreamService LineRequest} (h : r.Accounts c)
    (ht : c.input.take? = some (q, v')) :
    r.takeAsk.Accounts { c with input := v' } ∧ ∃ request n, q = .request request ∧
      r.takeAsk.serving = some n ∧ (Chronicle.asks r.log)[n]? = some request := by
  obtain ⟨queue, hqueue, rfl⟩ := exists_of_take ht
  have hasks := h.asks
  rw [hqueue] at hasks
  obtain ⟨n, line, ⟨request, rfl, hn⟩, hrest, hline⟩ := List.forall₂_cons_left_iff.mp hasks
  refine ⟨⟨h.lawful, fun x => ?_, fun x => ?_, fun x => ?_, h.input, ?_, h.synced⟩,
    request, n, rfl, ?_, hn⟩
  · simpa [Console.stream_input] using h.flows x
  · simpa [Console.stream_input] using h.unstarted x
  · simpa [Console.pieces_input] using h.pieces x
  · simpa [ConsoleRecord.takeAsk, hline] using hrest
  · simp [ConsoleRecord.takeAsk, hline]

theorem prompt {n : Nat} (h : r.Accounts c) (hserving : r.serving = some n)
    (hmay : MayFollow r.log (.prompted n text)) :
    (r.prompt text).Accounts (c.write .out text) := by
  have hprompt : r.prompt text = r.note (.prompted n text) := by rw [ConsoleRecord.prompt, hserving]
  rw [hprompt]
  refine ⟨h.lawful.snoc hmay, fun x => ?_, fun x => ?_, fun x => ?_, h.input, ?_, ?_⟩
  · simpa using h.flows x
  · simpa using h.unstarted x
  · by_cases hx : x = .out
    · subst hx
      simpa using h.pieces .out
    · simpa [Console.pieces_write_of_ne hx, hx] using h.pieces x
  · simpa using h.asks
  · simpa using h.synced

theorem sync {mark : Nat} (h : r.Accounts c) (hmay : MayFollow r.log (.synced mark)) :
    (r.note (.synced mark)).Accounts c :=
  h.note hmay (fun _ => rfl) (fun _ => rfl) (fun _ => rfl) rfl fun _ h => nomatch h

theorem of_press (h : r.Accounts c) (hc : c'.press = c.press) : r.Accounts c' := by
  simp only [Console.press, Prod.mk.injEq] at hc
  obtain ⟨hout, herr, hinput, houts, herrs⟩ := hc
  have hstream : ∀ x, c'.stream x = c.stream x := fun x => by
    cases x
    · exact hout
    · exact herr
  have hpieces : ∀ x, c'.pieces x = c.pieces x := fun x => by
    cases x
    · exact congrArg Array.toList houts
    · exact congrArg Array.toList herrs
  exact ⟨h.lawful, fun x => hstream x ▸ h.flows x, fun x => hstream x ▸ h.unstarted x,
    fun x => (hpieces x).trans (h.pieces x), hinput ▸ h.input, hinput ▸ h.asks, h.synced⟩

/-- A thread that has queued its mark behind something finds it written when the mark is reached. -/
theorem covered {mark : Nat} {first : List ConsoleEvent} (h : r.Accounts c)
    (hfirst : first <+: r.log) (hdue : ∀ n, (r.due x)[mark]? = some n → (texts x first).length ≤ n)
    (hreached : (c.stream x).hasReached mark = true) : texts x first <+: wrote x r.log := by
  have hin : mark ∈ (c.stream x).reached := by simpa [StreamService.hasReached] using hreached
  obtain ⟨n, hn, hle⟩ := (h.flows x).reached mark hin
  exact List.prefix_of_prefix_length_le (texts_mono hfirst) (h.flows x).written_initial
    (Nat.le_trans (hdue n hn) hle)

theorem new {reader : Reader} {mailboxes : Array Mailbox} {isFinal : Bool} :
    ConsoleRecord.new.Accounts { Console.new reader isFinal with mailboxes } where
  lawful := lawful_nil
  flows x := by cases x <;> exact Flows.new
  unstarted _ _ := rfl
  pieces x := by cases x <;> rfl
  input := rfl
  asks := .nil
  synced := by simp [ConsoleRecord.new]

end Accounts

end ConsoleRecord

end SessionShell
