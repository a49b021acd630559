/-!
What can go wrong, as causes, and the one place where each cause is worded.

A `Fault` is what a failed action reports: the cause at the bottom and the sentences put around it
on the way up.
-/

namespace SessionShell

/-- Failures of the file system and of the streams. -/
inductive IoError where
  | notFound
  | alreadyExists
  | notDirectory
  | isDirectory
  | tooManyLinks
  | nameTooLong
  | nameHoldsNul
  | notText
  | other (message : String)
  deriving DecidableEq, Repr

def IoError.message : IoError → String
  | .notFound => "No such file or directory (os error 2)"
  | .alreadyExists => "File exists (os error 17)"
  | .notDirectory => "Not a directory (os error 20)"
  | .isDirectory => "Is a directory (os error 21)"
  | .tooManyLinks => "Too many levels of symbolic links (os error 40)"
  | .nameTooLong => "File name too long (os error 36)"
  | .nameHoldsNul => "file name contained an unexpected NUL byte"
  | .notText => "stream did not contain valid UTF-8"
  | .other message => message

/-- A failure of a script, at a line of a named source when that is known. -/
structure ScriptError where
  message : String
  source : Option String
  line : Option Nat
  deriving DecidableEq, Repr

def ScriptError.new (message : String) : ScriptError :=
  ⟨message, none, none⟩

def ScriptError.location? (e : ScriptError) : Option String :=
  e.line.map fun line => (e.source.getD "<input>") ++ ":" ++ toString line

inductive ShellError where
  | hasExited (session : String)
  | alreadyStarted (session language : String)
  | notStarted (session : String)
  | indexOutOfRange (index length : Nat)
  | wrongThread (session : String) (owner caller : Nat)
  | selfWait (session : String)
  | mayNotBlock (session : String)
  | callbackAlreadySet (session : String)
  | unknownLanguage (language : String)
  | io (error : IoError)
  deriving DecidableEq, Repr

namespace ShellError

def message : ShellError → String
  | .hasExited session => "necromancer alert: session '" ++ session ++ "' has already exited"
  | .alreadyStarted session language =>
    "session '" ++ session ++ "' is already initialized for '" ++ language ++ "'"
  | .notStarted session => "session '" ++ session ++ "' has not started"
  | .indexOutOfRange index length =>
    "session index " ++ toString index ++ " is out of range (0.." ++ toString length ++ ")"
  | .wrongThread session owner caller =>
    "session '" ++ session ++ "' runs on ThreadId(" ++ toString owner ++ "), not ThreadId("
      ++ toString caller ++ ")"
  | .selfWait session => "session '" ++ session ++ "' cannot wait for its own exit"
  | .mayNotBlock session =>
    "refusing to block the UI thread waiting for session '" ++ session ++ "'"
  | .callbackAlreadySet session => "session '" ++ session ++ "' already has an exit callback"
  | .unknownLanguage language => "no script engine for language '" ++ language ++ "'"
  | .io error => "I/O error: " ++ error.message

def isIllegalState : ShellError → Bool
  | .hasExited _ | .alreadyStarted .. | .notStarted _ | .wrongThread .. | .selfWait _
  | .mayNotBlock _ | .callbackAlreadySet _ => true
  | .indexOutOfRange .. | .unknownLanguage _ | .io _ => false

/-- The caller passed a value outside the accepted range. -/
def isIllegalArgument : ShellError → Bool
  | .indexOutOfRange .. | .unknownLanguage _ => true
  | _ => false

end ShellError

/-- Why a library was not linked. Paths are shown as they were given or, once known, in full. -/
inductive LinkError where
  | missing (path : String)
  | unreadable (path : String) (error : IoError)
  | notArchive (path : String)
  | alreadyLinked (path : String)
  deriving DecidableEq, Repr

def LinkError.message : LinkError → String
  | .missing path => "no such library: " ++ path
  | .unreadable path error => "cannot read " ++ path ++ ": " ++ error.message
  | .notArchive path => path ++ " is not a library archive"
  | .alreadyLinked path => path ++ " is already linked"

inductive Cause where
  | plain (message : String)
  | io (error : IoError)
  | cancelled
  | script (error : ScriptError)
  | shell (error : ShellError)
  | link (error : LinkError)
  deriving DecidableEq, Repr

/-- The cause's own message, then the messages of the failures inside it. -/
def Cause.messages : Cause → List String
  | .plain message => [message]
  | .io error => [error.message]
  | .cancelled => ["job was cancelled"]
  | .script error => [error.message]
  | .shell (.io error) => [(ShellError.io error).message, error.message]
  | .shell error => [error.message]
  | .link (.unreadable path error) => [(LinkError.unreadable path error).message, error.message]
  | .link error => [error.message]

structure Fault where
  contexts : List String
  cause : Cause
  deriving DecidableEq, Repr

namespace Fault

def of (cause : Cause) : Fault :=
  ⟨[], cause⟩

def plain (message : String) : Fault :=
  of (.plain message)

def context (f : Fault) (sentence : String) : Fault :=
  { f with contexts := sentence :: f.contexts }

def messages (f : Fault) : List String :=
  f.contexts ++ f.cause.messages

def message (f : Fault) : String :=
  f.messages.headD ""

def causes (f : Fault) : List String :=
  f.messages.tail

def location? (f : Fault) : Option String :=
  match f.cause with
  | .script error => error.location?
  | _ => none

def isCancelled (f : Fault) : Bool :=
  f.cause = .cancelled

end Fault

instance : Coe ShellError Fault where
  coe e := .of (.shell e)

instance : Coe ScriptError Fault where
  coe e := .of (.script e)

instance : Coe IoError Fault where
  coe e := .of (.io e)

end SessionShell
