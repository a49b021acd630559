import SessionShell.Console.Basic

/-!
A console by itself, with nobody at it but its workers.
-/

namespace SessionShell

structure StandaloneConsole where
  console : Console
  started : List (ThreadId × StreamName)

namespace StandaloneConsole

def new (endIsFinal : Bool) : StandaloneConsole :=
  ⟨.new ⟨[], false⟩ endIsFinal, []⟩

def workerId : StreamName → ThreadId
  | .out => 1
  | .err => 2
  | .input => 3

def place : ConsoleAt StandaloneConsole where
  get s := s.console
  set console s := { s with console }
  launch stream s := { s with started := s.started ++ [(workerId stream, stream)] }

def life : Life StandaloneConsole StreamName where
  program := fun stream => do
    place.work stream
    return some stream
  takeStarted := fun s => (s.started, { s with started := [] })
  isOver := fun _ => false

end StandaloneConsole

end SessionShell
