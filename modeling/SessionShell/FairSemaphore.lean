import SessionShell.Concurrent

/-!
A counting semaphore that grants permits strictly in the order of arrival.

Whoever arrives takes a ticket. The ticket being served is the only one that can be granted a
permit, and the next one is served after it.
-/

namespace SessionShell

structure FairSemaphore where
  permits : Nat
  next : Nat
  serving : Nat
  deriving DecidableEq, Repr, Inhabited

namespace FairSemaphore

def new (permits : Nat) : FairSemaphore :=
  ⟨permits, 0, 0⟩

def arrive (f : FairSemaphore) : Nat × FairSemaphore :=
  (f.next, { f with next := f.next + 1 })

/-- Takes a permit on a ticket, when there is one and it is the ticket's turn. -/
def grant? (f : FairSemaphore) (ticket : Nat) : Option FairSemaphore :=
  if f.serving = ticket ∧ 0 < f.permits then
    some { f with permits := f.permits - 1, serving := f.serving + 1 }
  else none

def release (f : FairSemaphore) : FairSemaphore :=
  { f with permits := f.permits + 1 }

/-- Takes every free permit, and tells how many there were. -/
def drain (f : FairSemaphore) : Nat × FairSemaphore :=
  (f.permits, { f with permits := 0 })

/-! ## A queue of callers -/

/-- Callers of one semaphore, and those granted a permit so far, in order. -/
structure Queue where
  semaphore : FairSemaphore
  granted : List Nat
  deriving DecidableEq, Repr

namespace Queue

def new (permits : Nat) : Queue :=
  ⟨.new permits, []⟩

def release : Action Queue Unit :=
  Action.update fun q => { q with semaphore := q.semaphore.release }

def drain : Action Queue Unit :=
  Action.update fun q => { q with semaphore := q.semaphore.drain.2 }

/-- A caller waits for a permit; one that passes gives it back at once. -/
def caller (id : Nat) (passes : Bool) : Action Queue Unit := do
  let ticket ← Action.step fun q =>
    let (ticket, semaphore) := q.semaphore.arrive
    (ticket, { q with semaphore })
  Action.await fun q => (q.semaphore.grant? ticket).map fun semaphore =>
    ((), { q with semaphore, granted := q.granted ++ [id] })
  if passes then release

def life : Life Queue Unit where
  program := fun _ => return none
  takeStarted := fun q => ([], q)
  isOver := fun _ => false

end Queue

end FairSemaphore

end SessionShell
