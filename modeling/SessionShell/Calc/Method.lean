import SessionShell.Calc.State
import SessionShell.Number.Binary64

/-!
Calls of a method on a host's name, which are how a script drives the shell.
-/

namespace SessionShell.Calc

variable {η : Type}

/-- An argument that is a whole number of fewer than nineteen digits. -/
def integerArg? (args : List Value) (i : Nat) : Option Int :=
  match args[i]? with
  | some (.num x) => (Number.integer? x).filter fun n => n.natAbs < Nat.pow 10 18
  | _ => none

def codeArg? (args : List Value) (i : Nat) : Option Int :=
  (integerArg? args i).filter fun n => -(Nat.pow 2 31 : Int) ≤ n && n < Nat.pow 2 31

def indexArg? (args : List Value) (i : Nat) : Option Nat :=
  (integerArg? args i).bind Int.toNat?

def textArg? (args : List Value) (i : Nat) : Option String :=
  match args[i]? with
  | some (.str s) => some s
  | _ => none

/-- What a method asks of its host, or how it is to be used. -/
def requestOf? (method : String) (args : List Value) : Option (Except String HostCall) :=
  let needs {α : Type} (usage : String) (arg : Option α) (f : α → HostCall) :=
    match arg with
    | some a => some (Except.ok (f a))
    | none => some (.error usage)
  match method with
  | "name" => some (.ok .name)
  | "exit" =>
    if args.isEmpty then some (.ok (.exit 0)) else needs "exit(code)" (codeArg? args 0) .exit
  | "jump" => needs "jump(index)" (indexArg? args 0) .jump
  | "fork" => needs "fork(\"script\")" (textArg? args 0) .fork
  | "link" => needs "link(\"archive\")" (textArg? args 0) .link
  | "kill" =>
    if args.isEmpty then some (.ok (.kill none))
    else needs "kill(code)" (codeArg? args 0) fun code => .kill (some code)
  | "list" => some (.ok .list)
  | "wait" => needs "wait(index)" (indexArg? args 0) .wait
  | "compile" =>
    needs "compile(\"source\", \"output\")"
      ((textArg? args 0).bind fun s => (textArg? args 1).map fun o => (s, o))
      fun p => .compile p.1 p.2
  | "cancel" => needs "cancel(job)" (indexArg? args 0) .cancel
  | "join" => needs "join(job)" (indexArg? args 0) .join
  | "jobs" => some (.ok .jobs)
  | _ => none

def replyValue (call : HostCall) (reply : call.Reply) : Except Fault Value :=
  match call, reply with
  | .name, (s : String) => .ok (.str s)
  | .out _, (r : Except Fault Unit) | .exit _, r | .jump _, r | .kill _, r | .cancel _, r =>
    r.map fun _ => .unit
  | .fork _, (r : Except Fault (Option Nat)) =>
    r.map fun
      | some index => .num (Float.ofNat index)
      | none => .unit
  | .link _, (r : Except Fault Bool) => r.map fun b => .str (if b then "true" else "false")
  | .list, (r : Except Fault String) | .jobs, r => r.map .str
  | .wait _, (r : Except Fault Int) | .join _, r => r.map fun code => .num (Float.ofInt code)
  | .compile _ _, (r : Except Fault Nat) => r.map fun index => .num (Float.ofNat index)

def callMethod (object method : String) (args : List Value) : Eval η Value := do
  match (← get).memory.hosts.get? object with
  | none => fail ("unknown object '" ++ object ++ "'")
  | some host =>
    match requestOf? method args with
    | none => fail ("'" ++ object ++ "' has no method '" ++ method ++ "'")
    | some (.error usage) => fail ("usage: " ++ object ++ "." ++ usage)
    | some (.ok call) =>
      let reply ← ask host call
      orThrow (replyValue call reply)

end SessionShell.Calc
