import Mathlib.Algebra.GroupWithZero.Nat
import SessionShell.FairSemaphore
import SessionShell.Interleaving
import SessionShell.Proofs.Stream.Order

/-!
Callers of a semaphore that fall asleep.

Whoever finds that it may not pass falls asleep, and sleeps until somebody wakes it. Whoever passes
or gives a permit back wakes all sleepers, but only in a step of its own, between which and the
change of the permits others may come. Without sleep and waking, what the callers do together is
what their threads do.
-/

namespace SessionShell.FairSemaphore

inductive Operation where
  | acquire
  | release
  | drain
  deriving DecidableEq, Repr

inductive Stage where
  | ready
  | queued (ticket : Nat) (asleep : Bool)
  | telling
  deriving DecidableEq, Repr

structure Caller where
  id : ThreadId
  stage : Stage
  todo : List Operation
  deriving DecidableEq, Repr

inductive Event where
  | arrived (id : ThreadId) (ticket : Nat)
  | granted (id : ThreadId) (ticket : Nat)
  | released
  | drained (taken : Nat)
  deriving DecidableEq, Repr

structure Hall where
  queue : Queue
  callers : List Caller
  deriving DecidableEq, Repr

/-! ## Threads -/

def Queue.pass (id : ThreadId) (ticket : Nat) : Action Queue Unit :=
  Action.await fun q => (q.semaphore.grant? ticket).map fun semaphore =>
    ((), { q with semaphore, granted := q.granted ++ [id] })

def Operation.action (id : ThreadId) : Operation → Action Queue Unit
  | .acquire => Queue.caller id false
  | .release => Queue.release
  | .drain => Queue.drain

def operations (id : ThreadId) : List Operation → Action Queue (Option Unit)
  | [] => return none
  | op :: ops => do
    op.action id
    operations id ops

namespace Caller

def action (c : Caller) : Action Queue (Option Unit) :=
  match c.stage with
  | .ready | .telling => operations c.id c.todo
  | .queued ticket _ => do
    Queue.pass c.id ticket
    operations c.id c.todo

def thread (c : Caller) : Thread Queue Unit :=
  ⟨c.id, c.action⟩

def awakened (c : Caller) : Caller :=
  match c.stage with
  | .queued ticket _ => { c with stage := .queued ticket false }
  | _ => c

@[simp] theorem thread_awakened (c : Caller) : c.awakened.thread = c.thread := by
  obtain ⟨id, stage, todo⟩ := c
  cases stage <;> rfl

end Caller

namespace Hall

/-- The semaphore with these permits, before anyone has arrived. -/
def opening (permits : Nat) (callers : List (ThreadId × List Operation)) : Hall :=
  ⟨.new permits, callers.map fun (id, todo) => ⟨id, .ready, todo⟩⟩

def machine (h : Hall) : Machine Queue Unit :=
  ⟨h.queue, h.callers.map Caller.thread⟩

end Hall

/-! ## Steps -/

inductive Turn (q : Queue) : Caller → Option Event → Queue → Caller → Prop where
  | arrive {id : ThreadId} {todo : List Operation} :
      Turn q ⟨id, .ready, .acquire :: todo⟩ (some (.arrived id q.semaphore.arrive.1))
        { q with semaphore := q.semaphore.arrive.2 } ⟨id, .queued q.semaphore.arrive.1 false, todo⟩
  | grant {id : ThreadId} {todo : List Operation} {ticket : Nat} {semaphore : FairSemaphore}
      (h : q.semaphore.grant? ticket = some semaphore) :
      Turn q ⟨id, .queued ticket false, todo⟩ (some (.granted id ticket))
        ⟨semaphore, q.granted ++ [id]⟩
        ⟨id, .telling, todo⟩
  | doze {id : ThreadId} {todo : List Operation} {ticket : Nat}
      (h : q.semaphore.grant? ticket = none) :
      Turn q ⟨id, .queued ticket false, todo⟩ none q ⟨id, .queued ticket true, todo⟩
  | stir {id : ThreadId} {todo : List Operation} {ticket : Nat} :
      Turn q ⟨id, .queued ticket true, todo⟩ none q ⟨id, .queued ticket false, todo⟩
  | release {id : ThreadId} {todo : List Operation} :
      Turn q ⟨id, .ready, .release :: todo⟩ (some .released)
        { q with semaphore := q.semaphore.release } ⟨id, .telling, todo⟩
  | drain {id : ThreadId} {todo : List Operation} :
      Turn q ⟨id, .ready, .drain :: todo⟩ (some (.drained q.semaphore.drain.1))
        { q with semaphore := q.semaphore.drain.2 } ⟨id, .ready, todo⟩

theorem stepThread?_queued {id : ThreadId} {ticket : Nat} {asleep : Bool} {todo : List Operation}
    (q : Queue) :
    Queue.life.stepThread? (Caller.thread ⟨id, .queued ticket asleep, todo⟩) q =
      (q.semaphore.grant? ticket).map fun semaphore =>
        (some (Caller.thread ⟨id, .telling, todo⟩), ⟨semaphore, q.granted ++ [id]⟩) := by
  have hstep : Queue.life.stepThread? (Caller.thread ⟨id, .queued ticket asleep, todo⟩) q =
      ((q.semaphore.grant? ticket).map fun semaphore =>
        ((), (⟨semaphore, q.granted ++ [id]⟩ : Queue))).map fun r =>
          (some (Caller.thread ⟨id, .telling, todo⟩), r.2) := rfl
  rw [hstep, Option.map_map]
  rfl

theorem Turn.stepThread? {q q' : Queue} {c c' : Caller} {event? : Option Event}
    (h : Turn q c event? q' c') :
    (q' = q ∧ c'.thread = c.thread) ∨
      Queue.life.stepThread? c.thread q = some (some c'.thread, q') := by
  cases h with
  | arrive => exact .inr rfl
  | grant hgrant => exact .inr (by rw [stepThread?_queued, hgrant, Option.map_some])
  | doze => exact .inl ⟨rfl, rfl⟩
  | stir => exact .inl ⟨rfl, rfl⟩
  | release => exact .inr rfl
  | drain => exact .inr rfl

namespace Caller

def IsBrisk (c : Caller) : Prop :=
  c.stage = .ready ∨ ∃ ticket, c.stage = .queued ticket false

theorem IsBrisk.awakened {c : Caller} (h : c.IsBrisk) : c.awakened = c := by
  obtain ⟨id, stage, todo⟩ := c
  rcases h with rfl | ⟨ticket, rfl⟩
  · rfl
  · rfl

/-- Each step of a thread is a turn of its caller, who has to wake the others then or does not
sleep; or else the caller is through. -/
theorem IsBrisk.exists_turn {q q' : Queue} {c : Caller} {t? : Option (Thread Queue Unit)}
    (hbrisk : c.IsBrisk) (h : Queue.life.stepThread? c.thread q = some (t?, q')) :
    (∃ id, c = ⟨id, .ready, []⟩ ∧ t? = none ∧ q' = q) ∨
      ∃ event c', Turn q c (some event) q' c' ∧ t? = some c'.thread ∧
        (c'.IsBrisk ∨ ∃ id todo, c' = ⟨id, .telling, todo⟩) := by
  obtain ⟨id, stage, todo⟩ := c
  rcases hbrisk with rfl | ⟨ticket, rfl⟩
  · cases todo with
    | nil =>
      cases h
      exact .inl ⟨id, rfl, rfl, rfl⟩
    | cons op todo =>
      right
      cases op with
      | acquire =>
        cases h
        exact ⟨_, _, .arrive, rfl, .inl (.inr ⟨_, rfl⟩)⟩
      | release =>
        cases h
        exact ⟨_, _, .release, rfl, .inr ⟨_, _, rfl⟩⟩
      | drain =>
        cases h
        exact ⟨_, _, .drain, rfl, .inl (.inl rfl)⟩
  · rw [stepThread?_queued] at h
    obtain ⟨semaphore, hgrant, heq⟩ := Option.map_eq_some_iff.mp h
    cases heq
    exact .inr ⟨_, _, .grant hgrant, rfl, .inr ⟨_, _, rfl⟩⟩

end Caller

namespace Hall

inductive Step : Hall → Option Event → Hall → Prop where
  | turn {before after : List Caller} {q q' : Queue} {c c' : Caller} {event? : Option Event}
      (h : Turn q c event? q' c') :
      Step ⟨q, before ++ c :: after⟩ event? ⟨q', before ++ c' :: after⟩
  | tell {before after : List Caller} {q : Queue} {id : ThreadId} {todo : List Operation} :
      Step ⟨q, before ++ ⟨id, .telling, todo⟩ :: after⟩ none
        ⟨q, before.map Caller.awakened ++ ⟨id, .ready, todo⟩ :: after.map Caller.awakened⟩
  | leave {before after : List Caller} {q : Queue} {id : ThreadId} :
      Step ⟨q, before ++ ⟨id, .ready, []⟩ :: after⟩ none ⟨q, before ++ after⟩

/-- What happens in any number of steps. -/
inductive Run (h : Hall) : List Event → Hall → Prop where
  | refl : Run h [] h
  | tail {events : List Event} {h' h'' : Hall} {event? : Option Event} (hrun : Run h events h')
      (hstep : Step h' event? h'') : Run h (events ++ event?.toList) h''

variable {h h' : Hall} {events : List Event} {event? : Option Event}

/-! ## What threads do -/

theorem reaches_of_stepThread (before after : List Caller) {c : Caller}
    {t? : Option (Thread Queue Unit)}
    {q q' : Queue} (h : Queue.life.stepThread? c.thread q = some (t?, q')) :
    Queue.life.Reaches (machine ⟨q, before ++ c :: after⟩)
      ⟨q', before.map Caller.thread ++ (t?.toList ++ after.map Caller.thread)⟩ := by
  rw [machine, List.map_append, List.map_cons]
  exact .single (.thread h)

theorem machine_tell (before after : List Caller) (q : Queue) (id : ThreadId)
    (todo : List Operation) :
    machine ⟨q, before.map Caller.awakened ++ ⟨id, .ready, todo⟩ :: after.map Caller.awakened⟩ =
      machine ⟨q, before ++ ⟨id, .telling, todo⟩ :: after⟩ := by
  have htold : Caller.thread ⟨id, .ready, todo⟩ = Caller.thread ⟨id, .telling, todo⟩ := rfl
  simp [machine, Function.comp_def, htold]

theorem Step.reaches (hstep : Step h event? h') : Queue.life.Reaches h.machine h'.machine := by
  cases hstep with
  | @turn before after q q' c c' _ hturn =>
    rcases hturn.stepThread? with ⟨rfl, hc⟩ | hc
    · have hsame : machine ⟨q', before ++ c' :: after⟩ = machine ⟨q', before ++ c :: after⟩ := by
        simp [machine, hc]
      rw [hsame]
      exact .refl _
    · simpa [machine] using reaches_of_stepThread before after hc
  | @tell before after q id todo =>
    rw [machine_tell]
    exact .refl _
  | @leave before after q id =>
    have hdone : Queue.life.stepThread? (Caller.thread ⟨id, .ready, []⟩) q = some (none, q) := rfl
    simpa [machine] using reaches_of_stepThread before after hdone

theorem Run.trans {h'' : Hall} {events' : List Event} (hrun : h.Run events h')
    (hrun' : h'.Run events' h'') : h.Run (events ++ events') h'' := by
  induction hrun' with
  | refl => rwa [List.append_nil]
  | tail _ hstep ih =>
    rw [← List.append_assoc]
    exact ih.tail hstep

theorem Run.reaches (hrun : h.Run events h') : Queue.life.Reaches h.machine h'.machine := by
  induction hrun with
  | refl => exact .refl _
  | tail _ hstep ih => exact ih.trans hstep.reaches

/-! ## What threads can do -/

def Brisk (h : Hall) : Prop :=
  ∀ c ∈ h.callers, c.IsBrisk

theorem exists_run_of_stepThread {before after : List Caller} {c : Caller}
    {t? : Option (Thread Queue Unit)} {q q' : Queue} (hbrisk : Brisk ⟨q, before ++ c :: after⟩)
    (h : Queue.life.stepThread? c.thread q = some (t?, q')) :
    ∃ events h', Run ⟨q, before ++ c :: after⟩ events h' ∧
      h'.machine = ⟨q', before.map Caller.thread ++ (t?.toList ++ after.map Caller.thread)⟩ ∧
        h'.Brisk := by
  have hc : c.IsBrisk := hbrisk c (by simp)
  have hbefore : ∀ c ∈ before, c.IsBrisk := fun c hin => hbrisk c (by simp [hin])
  have hafter : ∀ c ∈ after, c.IsBrisk := fun c hin => hbrisk c (by simp [hin])
  rcases hc.exists_turn h with
    ⟨id, rfl, rfl, rfl⟩ | ⟨event, c', hturn, rfl, hbrisk' | ⟨id, todo, rfl⟩⟩
  · refine ⟨_, ⟨q', before ++ after⟩, Run.refl.tail .leave, by simp [machine], fun c hin => ?_⟩
    rcases List.mem_append.mp hin with hin | hin
    · exact hbefore c hin
    · exact hafter c hin
  · refine ⟨_, ⟨q', before ++ c' :: after⟩, Run.refl.tail (.turn hturn), by simp [machine], ?_⟩
    intro c hin
    rcases List.mem_append.mp hin with hin | hin
    · exact hbefore c hin
    · rcases List.mem_cons.mp hin with rfl | hin
      · exact hbrisk'
      · exact hafter c hin
  · refine ⟨_, _, (Run.refl.tail (.turn hturn)).tail .tell, ?_, fun c hin => ?_⟩
    · rw [machine_tell]
      simp [machine]
    · have hawakened : ∀ c : Caller, c.IsBrisk → c.awakened.IsBrisk := fun c hc => by
        rwa [hc.awakened]
      simp only [List.mem_append, List.mem_map, List.mem_cons] at hin
      rcases hin with ⟨c, hin, rfl⟩ | rfl | ⟨c, hin, rfl⟩
      · exact hawakened c (hbefore c hin)
      · exact .inl rfl
      · exact hawakened c (hafter c hin)

theorem exists_run_of_step {m : Machine Queue Unit} (hbrisk : h.Brisk)
    (hstep : Queue.life.Step h.machine m) :
    ∃ events h', h.Run events h' ∧ h'.machine = m ∧ h'.Brisk := by
  obtain ⟨q, callers⟩ := h
  generalize hm : machine ⟨q, callers⟩ = m₀ at hstep
  cases hstep with
  | @thread before after t t? s s' hstep =>
    obtain ⟨rfl, hthreads⟩ := Machine.mk.inj hm
    obtain ⟨before', rest, rfl, rfl, hrest⟩ := List.map_eq_append_iff.mp hthreads
    obtain ⟨c, after', rfl, rfl, rfl⟩ := List.map_eq_cons_iff.mp hrest
    exact exists_run_of_stepThread hbrisk hstep
  | adopt =>
    refine ⟨[], ⟨q, callers⟩, .refl, ?_, hbrisk⟩
    rw [← hm]
    simp [Life.adopt, Queue.life]

theorem exists_run_of_reaches {m : Machine Queue Unit} (hbrisk : h.Brisk)
    (hreaches : Queue.life.Reaches h.machine m) :
      ∃ events h', h.Run events h' ∧ h'.machine = m := by
  generalize hm : h.machine = m₀ at hreaches
  induction hreaches generalizing h with
  | refl => exact ⟨[], h, .refl, hm⟩
  | head hstep _ ih =>
    subst hm
    obtain ⟨events, h', hrun, hmachine, hbrisk'⟩ := exists_run_of_step hbrisk hstep
    obtain ⟨events', h'', hrun', hm⟩ := ih hbrisk' hmachine
    exact ⟨events ++ events', h'', hrun.trans hrun', hm⟩

theorem brisk_opening (permits : Nat) (callers : List (ThreadId × List Operation)) :
    (opening permits callers).Brisk := by
  intro c hin
  obtain ⟨⟨id, todo⟩, -, rfl⟩ := List.mem_map.mp hin
  exact .inl rfl

theorem reaches_iff_exists_run {permits : Nat} {callers : List (ThreadId × List Operation)}
    {m : Machine Queue Unit} :
    Queue.life.Reaches (opening permits callers).machine m ↔
      ∃ events h, (opening permits callers).Run events h ∧ h.machine = m := by
  constructor
  · exact exists_run_of_reaches (brisk_opening permits callers)
  · rintro ⟨events, h, hrun, rfl⟩
    exact hrun.reaches

end Hall

end SessionShell.FairSemaphore

/-!
In the order of arrival.

Tickets are numbered as they are taken and served as they are numbered. So whoever is granted a
permit has waited longest, and none is passed over. No permit gets lost, and as long as one is free
somebody is awake who may take it, or about to be woken.
-/

namespace SessionShell.FairSemaphore

/-! ## What has happened -/

namespace Event

@[simp] def arrival? : Event → Option (ThreadId × Nat)
  | .arrived id ticket => some (id, ticket)
  | _ => none

@[simp] def grant? : Event → Option (ThreadId × Nat)
  | .granted id ticket => some (id, ticket)
  | _ => none

@[simp] def returned : Event → Nat
  | .released => 1
  | _ => 0

@[simp] def taken : Event → Nat
  | .drained taken => taken
  | _ => 0

end Event

def arrivals (events : List Event) : List (ThreadId × Nat) :=
  events.filterMap Event.arrival?

def grants (events : List Event) : List (ThreadId × Nat) :=
  events.filterMap Event.grant?

def releases (events : List Event) : Nat :=
  (events.map Event.returned).sum

def drained (events : List Event) : Nat :=
  (events.map Event.taken).sum

def pending (events : List Event) : List (ThreadId × Nat) :=
  (arrivals events).drop (grants events).length

def Caller.waits? (c : Caller) : Option (ThreadId × Nat) :=
  match c.stage with
  | .queued ticket _ => some (c.id, ticket)
  | _ => none

def Hall.waiting (h : Hall) : List (ThreadId × Nat) :=
  h.callers.filterMap Caller.waits?

@[simp] theorem arrivals_snoc (events : List Event) (event : Event) :
    arrivals (events ++ [event]) = arrivals events ++ event.arrival?.toList := by
  cases event <;> simp [arrivals]

@[simp] theorem grants_snoc (events : List Event) (event : Event) :
    grants (events ++ [event]) = grants events ++ event.grant?.toList := by
  cases event <;> simp [grants]

@[simp] theorem releases_snoc (events : List Event) (event : Event) :
    releases (events ++ [event]) = releases events + event.returned := by
  simp [releases]

@[simp] theorem drained_snoc (events : List Event) (event : Event) :
    drained (events ++ [event]) = drained events + event.taken := by
  simp [drained]

variable {f f' : FairSemaphore} {ticket : Nat}

theorem grant?_eq_some_iff : f.grant? ticket = some f' ↔
    f.serving = ticket ∧ 0 < f.permits ∧ f' = ⟨f.permits - 1, f.next, f.serving + 1⟩ := by
  rw [grant?, Option.ite_none_right_eq_some, and_assoc, Option.some.injEq, eq_comm (b := f')]

theorem grant?_eq_none_iff : f.grant? ticket = none ↔ (f.serving = ticket → f.permits = 0) := by
  simp [grant?]

/-! ## Counting -/

/-- The numbers of the semaphore tell what has happened, and those wait whose turn is still
to come. -/
structure Counted (permits : Nat) (events : List Event) (q : Queue)
    (waiting : List (ThreadId × Nat)) :
    Prop where
  conserved : q.semaphore.permits + (grants events).length + drained events = permits +
    releases events
  next : q.semaphore.next = (arrivals events).length
  serving : q.semaphore.serving = (grants events).length
  tickets : (arrivals events).map (·.2) = List.range (arrivals events).length
  order : grants events <+: arrivals events
  granted : q.granted = (grants events).map (·.1)
  waiting : waiting.Perm (pending events)

namespace Counted

variable {permits : Nat} {events : List Event} {q q' : Queue}
  {waiting others : List (ThreadId × Nat)}
  {id : ThreadId}

theorem perm (h : Counted permits events q waiting) (hperm : others.Perm waiting) :
    Counted permits events q others :=
  ⟨h.conserved, h.next, h.serving, h.tickets, h.order, h.granted, hperm.trans h.waiting⟩

theorem length_grants_le (h : Counted permits events q waiting) :
    (grants events).length ≤ (arrivals events).length :=
  h.order.length_le

theorem ticket_eq (h : Counted permits events q waiting) {i : Nat}
    (hget : (arrivals events)[i]? = some (id, ticket)) : ticket = i := by
  obtain ⟨hi, -⟩ := List.getElem?_eq_some_iff.mp hget
  have hnumber : ((arrivals events).map (·.2))[i]? = some ticket := by
    rw [List.getElem?_map, hget, Option.map_some]
  rw [h.tickets, List.getElem?_range hi] at hnumber
  exact (Option.some.inj hnumber).symm

theorem serving_of_oldest (h : Counted permits events q waiting)
    (hhead : (pending events).head? = some (id, ticket)) : q.semaphore.serving = ticket := by
  rw [pending, List.head?_drop] at hhead
  rw [h.serving, h.ticket_eq hhead]

theorem pending_of_serving (h : Counted permits events q waiting) (hin : (id, ticket) ∈ waiting)
    (hserving : q.semaphore.serving = ticket) :
    pending events = (id, ticket) :: (arrivals events).drop ((grants events).length + 1) := by
  obtain ⟨i, hget⟩ := List.mem_iff_getElem?.mp (h.waiting.mem_iff.mp hin)
  rw [pending, List.getElem?_drop] at hget
  have hnumber := h.ticket_eq hget
  have hserved := h.serving
  obtain rfl : i = 0 := by omega
  obtain ⟨hlt, hget⟩ := List.getElem?_eq_some_iff.mp hget
  simp only [Nat.add_zero] at hlt hget
  rw [pending, List.drop_eq_getElem_cons hlt, hget]

theorem turn {c c' : Caller} {event? : Option Event}
    (h : Counted permits events q (c.waits?.toList ++ others)) (hturn : Turn q c event? q' c') :
    Counted permits (events ++ event?.toList) q' (c'.waits?.toList ++ others) := by
  have hle := h.length_grants_le
  obtain ⟨hconserved, hnext, hserving, htickets, horder, hgranted, hwaiting⟩ := id h
  cases hturn with
  | @arrive id todo =>
    constructor
    · simpa [arrive] using hconserved
    · simp [arrive, hnext]
    · simpa [arrive] using hserving
    · simp [arrive, htickets, hnext, List.range_succ]
    · simpa using horder.trans (List.prefix_append _ _)
    · simpa using hgranted
    · have hlast : pending (events ++ [.arrived id q.semaphore.next]) =
          pending events ++ [(id, q.semaphore.next)] := by
        simp [pending, List.drop_append_of_le_length hle]
      have hsnoc : ((id, q.semaphore.next) :: others).Perm (others ++ [(id, q.semaphore.next)]) :=
        (List.perm_append_singleton _ _).symm
      rw [Option.toList_some, arrive, hlast]
      exact hsnoc.trans (hwaiting.append_right _)
  | @grant id todo ticket semaphore hgrant =>
    obtain ⟨hserved, hfree, rfl⟩ := grant?_eq_some_iff.mp hgrant
    have hin : (id, ticket) ∈ (Caller.waits? ⟨id, .queued ticket false, todo⟩).toList ++
        others := by
      simp [Caller.waits?]
    have hpending := h.pending_of_serving hin hserved
    constructor
    · simp
      omega
    · simpa using hnext
    · simp [hserving]
    · simpa using htickets
    · have hsplit : grants events ++ pending events = arrivals events :=
        List.prefix_iff_eq_append.mp horder
      rw [hpending] at hsplit
      refine ⟨(arrivals events).drop ((grants events).length + 1), ?_⟩
      simpa using hsplit
    · simp [hgranted]
    · have hothers : others.Perm ((arrivals events).drop ((grants events).length + 1)) := by
        rw [hpending] at hwaiting
        exact hwaiting.cons_inv
      simpa [pending, Caller.waits?] using hothers
  | doze => simpa [Caller.waits?] using h
  | stir => simpa [Caller.waits?] using h
  | release =>
    constructor
    · simp [FairSemaphore.release]
      omega
    · simpa [FairSemaphore.release] using hnext
    · simpa [FairSemaphore.release] using hserving
    · simpa using htickets
    · simpa using horder
    · simpa using hgranted
    · simpa [pending, Caller.waits?] using hwaiting
  | drain =>
    constructor
    · simp [drain]
      omega
    · simpa [drain] using hnext
    · simpa [drain] using hserving
    · simpa using htickets
    · simpa using horder
    · simpa using hgranted
    · simpa [pending, Caller.waits?] using hwaiting

end Counted

namespace Hall

variable {permits : Nat} {events : List Event} {event? : Option Event} {h h' : Hall}

theorem waiting_append (q : Queue) (before after : List Caller) (c : Caller) :
    (⟨q, before ++ c :: after⟩ : Hall).waiting.Perm
      (c.waits?.toList ++ (before.filterMap Caller.waits? ++ after.filterMap Caller.waits?)) := by
  have hsplit : (⟨q, before ++ c :: after⟩ : Hall).waiting =
      before.filterMap Caller.waits? ++ (c.waits?.toList ++ after.filterMap Caller.waits?) := by
    cases hc : c.waits? <;> simp [waiting, hc]
  rw [hsplit]
  exact List.perm_append_comm_assoc _ _ _

theorem waits?_awakened (c : Caller) : c.awakened.waits? = c.waits? := by
  obtain ⟨id, stage, todo⟩ := c
  cases stage <;> rfl

theorem counted_of_step (hcounted : Counted permits events h.queue h.waiting)
    (hstep : h.Step event? h') : Counted permits (events ++ event?.toList) h'.queue h'.waiting := by
  cases hstep with
  | @turn before after q q' c c' _ hturn =>
    have hbefore := hcounted.perm (waiting_append q before after c).symm
    exact (hbefore.turn hturn).perm (waiting_append q' before after c')
  | @tell before after q id todo =>
    have hwaiting :
      (⟨q, before.map Caller.awakened ++ ⟨id, .ready, todo⟩ :: after.map Caller.awakened⟩ :
        Hall).waiting = (⟨q, before ++ ⟨id, .telling, todo⟩ :: after⟩ : Hall).waiting := by
      have hready : Caller.waits? ⟨id, .ready, todo⟩ = none := rfl
      have htelling : Caller.waits? ⟨id, .telling, todo⟩ = none := rfl
      simp [waiting, waits?_awakened, hready, htelling]
    rw [Option.toList_none, List.append_nil, hwaiting]
    exact hcounted
  | leave => simpa [waiting, List.filterMap_cons, Caller.waits?] using hcounted

theorem counted_opening (permits : Nat) (callers : List (ThreadId × List Operation)) :
    Counted permits [] (opening permits callers).queue (opening permits callers).waiting := by
  have hwaiting : (opening permits callers).waiting = [] := by
    simp [waiting, opening, Caller.waits?]
  rw [hwaiting]
  exact ⟨rfl, rfl, rfl, rfl, List.nil_prefix, rfl, .nil⟩

theorem counted_of_run {callers : List (ThreadId × List Operation)}
    (hrun : (opening permits callers).Run events h) : Counted permits events h.queue h.waiting := by
  induction hrun with
  | refl => exact counted_opening permits callers
  | tail _ hstep ih => exact counted_of_step ih hstep

end Hall

end SessionShell.FairSemaphore
