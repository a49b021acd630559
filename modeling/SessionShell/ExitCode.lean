/-!
Exit codes. Eight of them are reserved: they tell how a session ended when no script chose the code.
A code chosen by a script is moved out of their way.
-/

namespace SessionShell

inductive ReservedCode where
  | success
  | noFile
  | illegalCode
  /-- A chosen code collided with `illegalCode` itself. -/
  | illegalCodeAlt
  /-- Input ended with no other session to hand focus to. -/
  | noInput
  | compileFail
  | compileAbort
  | killed
  deriving DecidableEq, Repr

namespace ReservedCode

def all : List ReservedCode :=
  [.success, .noFile, .illegalCode, .illegalCodeAlt, .noInput, .compileFail, .compileAbort, .killed]

def code : ReservedCode → Int
  | .success => 0x00
  | .noFile => 0x1F
  | .illegalCode => 0x2F
  | .illegalCodeAlt => 0x3F
  | .noInput => 0x4F
  | .compileFail => 0x5F
  | .compileAbort => 0x6F
  | .killed => 0x7F

def ofCode? (n : Int) : Option ReservedCode :=
  all.find? fun r => r.code = n

def label : ReservedCode → String
  | .success => "success"
  | .noFile => "no such file"
  | .illegalCode | .illegalCodeAlt => "illegal exit code"
  | .noInput => "no input"
  | .compileFail => "compile failed"
  | .compileAbort => "compile aborted"
  | .killed => "killed"

def shown : ReservedCode → String
  | .success => "0x00"
  | .noFile => "0x1f"
  | .illegalCode => "0x2f"
  | .illegalCodeAlt => "0x3f"
  | .noInput => "0x4f"
  | .compileFail => "0x5f"
  | .compileAbort => "0x6f"
  | .killed => "0x7f"

def text (r : ReservedCode) : String :=
  r.shown ++ " (" ++ r.label ++ ")"

end ReservedCode

namespace ExitCode

/-- The code used for a chosen one. It differs when the choice is reserved for anything but
success. -/
def sanitize (n : Int) : Int :=
  match ReservedCode.ofCode? n with
  | none | some .success => n
  | some .illegalCode => ReservedCode.illegalCodeAlt.code
  | some _ => ReservedCode.illegalCode.code

def describe (n : Int) : String :=
  match ReservedCode.ofCode? n with
  | some r => r.text
  | none => toString n

/-- The warning about a chosen code that is not used as it is. -/
def remapWarning? (n : Int) : Option String :=
  match ReservedCode.ofCode? n with
  | none | some .success => none
  | some r =>
    some ("exit code " ++ r.shown ++ " is reserved; exiting with " ++ describe (sanitize n))

def status (n : Int) : Nat :=
  (n.emod 256).toNat

end ExitCode

end SessionShell
