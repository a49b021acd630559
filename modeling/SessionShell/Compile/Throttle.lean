import SessionShell.Compile.Progress

/-!
A buffer that delivers progress in batches, with at least an interval between two of them.
-/

namespace SessionShell

structure Throttle where
  interval : Nat
  lastFlush : Option Nat
  pending : Array Progress
  deriving DecidableEq, Repr

namespace Throttle

def new (interval : Nat) : Throttle :=
  ⟨interval, none, #[]⟩

/-- Whether a batch may be delivered. The first one may at once. -/
def isDue (t : Throttle) (now : Nat) : Bool :=
  t.lastFlush.all fun last => t.interval ≤ now - last

def drain (t : Throttle) (now : Nat) : List Progress × Throttle :=
  (t.pending.toList, { t with lastFlush := some now, pending := #[] })

/-- Buffers a report. Answers the batch to deliver if one is due. The clock is looked at when the
report comes, and once more when the batch is taken. -/
def offerAt (t : Throttle) (seen taken : Nat) (p : Progress) : Option (List Progress) × Throttle :=
  let t := { t with pending := t.pending.push p }
  if t.isDue seen then
    let (batch, t) := t.drain taken
    (some batch, t)
  else (none, t)

/-- Buffers a report while the clock stands still. -/
def offer (t : Throttle) (now : Nat) (p : Progress) : Option (List Progress) × Throttle :=
  t.offerAt now now p

end Throttle

end SessionShell
