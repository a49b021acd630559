import SessionShell.Program
import SessionShell.Fault

/-!
The shell as scripts see it: the requests a script can make of the session whose name it uses, and
what each of them answers.
-/

namespace SessionShell

inductive HostCall where
  | name
  | out (text : String)
  | exit (code : Int)
  | jump (index : Nat)
  | fork (script : String)
  | link (path : String)
  | kill (code : Option Int)
  | list
  | wait (index : Nat)
  | compile (source output : String)
  | cancel (job : Nat)
  | join (job : Nat)
  | jobs
  deriving DecidableEq, Repr

def HostCall.Reply : HostCall → Type
  | .name => String
  | .out _ | .exit _ | .jump _ | .kill _ | .cancel _ => Except Fault Unit
  | .fork _ => Except Fault (Option Nat)
  | .link _ => Except Fault Bool
  | .list | .jobs => Except Fault String
  | .wait _ | .join _ => Except Fault Int
  | .compile _ _ => Except Fault Nat

/-- A request made of one of the hosts bound in an interpreter. -/
structure HostRequest (η : Type) where
  host : η
  call : HostCall
  deriving DecidableEq, Repr

def HostRequest.Reply {η : Type} (r : HostRequest η) : Type :=
  r.call.Reply

/-- What an interpreter runs: a program whose questions go to its hosts. -/
abbrev Hosted (η : Type) := Program (HostRequest η) HostRequest.Reply

end SessionShell
