import SessionShell.Concurrent
import SessionShell.FileSystem.Call

/-!
What threads find around them: files, the time, and gates that are opened for them.

Time is in milliseconds. It does not go on by itself: a thread that waits for a time sets an alarm,
and time passes to the next alarm when nothing else can happen.
-/

namespace SessionShell

/-- Set by a thread that waits for a time. One that polls would rather have something else
happen. -/
structure Alarm where
  thread : ThreadId
  time : Nat
  polls : Bool
  deriving DecidableEq, Repr

structure World where
  files : FileSystem
  now : Nat
  alarms : List Alarm
  openGates : List String
  deriving DecidableEq, Repr

namespace World

def new (files : FileSystem) : World :=
  ⟨files, 0, [], []⟩

def openGate (w : World) (gate : String) : World :=
  { w with openGates := gate :: w.openGates }

def setAlarm (w : World) (alarm : Alarm) : World :=
  { w with alarms := w.alarms ++ [alarm] }

def clearAlarm (w : World) (thread : ThreadId) : World :=
  { w with alarms := w.alarms.filter fun alarm => alarm.thread ≠ thread }

def nextAlarm? (w : World) : Option Alarm :=
  w.alarms.foldl (fun best alarm =>
    match best with
    | none => some alarm
    | some b => if alarm.time < b.time then some alarm else best) none

def passTo (w : World) (time : Nat) : World :=
  { w with now := max w.now time }

/-- Time passes to the next alarm, if there is one. -/
def pass? (w : World) : Option World :=
  w.nextAlarm?.map fun alarm => w.passTo alarm.time

end World

/-- Where a shared state keeps the world. -/
structure WorldAt (σ : Type) where
  get : σ → World
  set : World → σ → σ

namespace WorldAt

variable {σ α : Type}

def now (slot : WorldAt σ) : Action σ Nat :=
  Action.read fun s => (slot.get s).now

def file (slot : WorldAt σ) (c : FileCall) : Action σ c.Reply :=
  Action.step fun s =>
    let w := slot.get s
    let (reply, files) := c.perform w.files
    (reply, slot.set { w with files } s)

def awaitGate (slot : WorldAt σ) (gate : String) : Action σ Unit :=
  Action.await fun s => if (slot.get s).openGates.contains gate then some ((), s) else none

def setAlarm (slot : WorldAt σ) (ms : Nat) (polls : Bool) : Action σ Alarm := do
  let thread ← Action.self
  Action.step fun s =>
    let w := slot.get s
    let alarm := ⟨thread, w.now + ms, polls⟩
    (alarm, slot.set (w.setAlarm alarm) s)

def ring? (slot : WorldAt σ) (alarm : Alarm) (s : σ) : Option σ :=
  let w := slot.get s
  if alarm.time ≤ w.now then some (slot.set (w.clearAlarm alarm.thread) s) else none

theorem eq_of_ring? {slot : WorldAt σ} {alarm : Alarm} {s s' : σ}
    (h : slot.ring? alarm s = some s') :
    s' = slot.set ((slot.get s).clearAlarm alarm.thread) s := by
  simp only [ring?] at h
  split at h
  · exact (Option.some.inj h).symm
  · cases h

def sleep (slot : WorldAt σ) (ms : Nat) : Action σ Unit := do
  let alarm ← slot.setAlarm ms false
  Action.await fun s => (slot.ring? alarm s).map ((), ·)

/-- Waits for something, but not for longer than a time. -/
def awaitFor (slot : WorldAt σ) (ms : Nat) (f : σ → Option (α × σ)) : Action σ (Option α) := do
  let alarm ← slot.setAlarm ms true
  Action.await fun s =>
    match f s with
    | some (a, s) => some (some a, slot.set ((slot.get s).clearAlarm alarm.thread) s)
    | none => (slot.ring? alarm s).map (none, ·)

end WorldAt

end SessionShell
