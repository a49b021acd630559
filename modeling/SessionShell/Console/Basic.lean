import SessionShell.Console.Reader
import SessionShell.Stream.Basic

/-!
The console: one worker for each of its three streams.

What sessions write is queued, so the writes of one session keep their order and none comes between
the characters of another. A request for a line shows its prompt when all that was queued before is
written; the newest request is served first. The line is left in the mailbox the request names.
-/

namespace SessionShell

inductive StreamName where
  | out
  | err
  | input
  deriving DecidableEq, Repr, Inhabited

/-- Holds one reply until it is taken. A reply that finds it full or given up is dropped. -/
structure Mailbox where
  held : Option ReadOutcome
  abandoned : Bool
  deriving DecidableEq, Repr, Inhabited

def Mailbox.new : Mailbox :=
  ⟨none, false⟩

def Mailbox.post (m : Mailbox) (reply : ReadOutcome) : Mailbox :=
  if m.abandoned || m.held.isSome then m else { m with held := some reply }

structure LineRequest where
  prompt : String
  mailbox : Nat
  deriving DecidableEq, Repr

structure Console where
  out : StreamService String
  err : StreamService String
  input : StreamService LineRequest
  outWritten : Array String
  errWritten : Array String
  reader : Reader
  mailboxes : Array Mailbox
  endIsFinal : Bool
  deriving DecidableEq, Repr

namespace Console

def new (reader : Reader) (endIsFinal : Bool) : Console where
  out := .new .fifo
  err := .new .fifo
  input := .new .lifo
  outWritten := #[]
  errWritten := #[]
  reader := reader
  mailboxes := #[]
  endIsFinal := endIsFinal

def addMailbox (c : Console) : Nat × Console :=
  (c.mailboxes.size, { c with mailboxes := c.mailboxes.push .new })

def mailbox (c : Console) (id : Nat) : Mailbox :=
  c.mailboxes.getD id .new

def setMailbox (c : Console) (id : Nat) (m : Mailbox) : Console :=
  { c with mailboxes := c.mailboxes.setIfInBounds id m }

def takeReply (c : Console) (id : Nat) : Option ReadOutcome × Console :=
  let m := c.mailbox id
  (m.held, c.setMailbox id { m with held := none })

def abandon (c : Console) (id : Nat) : Console :=
  c.setMailbox id ⟨none, true⟩

end Console

/-- Where a shared state keeps the console, and how the worker of a stream is started. -/
structure ConsoleAt (σ : Type) where
  get : σ → Console
  set : Console → σ → σ
  launch : StreamName → σ → σ

namespace ConsoleAt

variable {σ : Type}

def out (slot : ConsoleAt σ) : StreamAt σ String where
  get s := (slot.get s).out
  set service s := slot.set { slot.get s with out := service } s
  launch := slot.launch .out

def err (slot : ConsoleAt σ) : StreamAt σ String where
  get s := (slot.get s).err
  set service s := slot.set { slot.get s with err := service } s
  launch := slot.launch .err

def input (slot : ConsoleAt σ) : StreamAt σ LineRequest where
  get s := (slot.get s).input
  set service s := slot.set { slot.get s with input := service } s
  launch := slot.launch .input

def modify (slot : ConsoleAt σ) (f : Console → Console) : Action σ Unit :=
  Action.update fun s => slot.set (f (slot.get s)) s

def start (slot : ConsoleAt σ) : Action σ Unit := do
  slot.out.start
  slot.err.start
  slot.input.start

def print (slot : ConsoleAt σ) (text : String) : Action σ Unit :=
  slot.out.submit text

def printError (slot : ConsoleAt σ) (text : String) : Action σ Unit :=
  slot.err.submit text

def requestLine (slot : ConsoleAt σ) (prompt : String) (mailbox : Nat) : Action σ Unit :=
  slot.input.submit ⟨prompt, mailbox⟩

/-- Waits until all that was printed before is written. -/
def sync (slot : ConsoleAt σ) : Action σ Unit := do
  slot.out.sync
  slot.err.sync

def writeOut (slot : ConsoleAt σ) (text : String) : Action σ Unit :=
  slot.modify fun c => { c with outWritten := c.outWritten.push text }

def writeError (slot : ConsoleAt σ) (text : String) : Action σ Unit :=
  slot.modify fun c => { c with errWritten := c.errWritten.push text }

def readLine (slot : ConsoleAt σ) : Action σ ReadOutcome :=
  Action.await fun s =>
    let c := slot.get s
    c.reader.takeLine?.map fun (outcome, reader) => (outcome, slot.set { c with reader } s)

def serveLine (slot : ConsoleAt σ) (r : LineRequest) : Action σ Unit := do
  slot.sync
  slot.writeOut r.prompt
  let outcome ← slot.readLine
  slot.modify fun c => c.setMailbox r.mailbox ((c.mailbox r.mailbox).post outcome)

/-- What the worker of a stream does, again and again. -/
def work (slot : ConsoleAt σ) : StreamName → Action σ Unit
  | .out => slot.out.serveNext slot.writeOut
  | .err => slot.err.serveNext slot.writeError
  | .input => slot.input.serveNext slot.serveLine

def addMailboxes (slot : ConsoleAt σ) (count : Nat) : Action σ Unit :=
  slot.modify fun c =>
    { c with mailboxes := c.mailboxes ++ Array.replicate (count - c.mailboxes.size) .new }

def feed (slot : ConsoleAt σ) (chunk : Bytes) : Action σ Unit :=
  slot.modify fun c => { c with reader := c.reader.feed chunk }

def takeReply (slot : ConsoleAt σ) (mailbox : Nat) : Action σ Unit :=
  slot.modify fun c => (c.takeReply mailbox).2

def abandon (slot : ConsoleAt σ) (mailbox : Nat) : Action σ Unit :=
  slot.modify (·.abandon mailbox)

def awaitReply (slot : ConsoleAt σ) (mailbox : Nat) : Action σ ReadOutcome :=
  Action.await fun s =>
    match (slot.get s).takeReply mailbox with
    | (some outcome, c) => some (outcome, slot.set c s)
    | (none, _) => none

end ConsoleAt

end SessionShell
