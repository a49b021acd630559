/-!
Progress reports of compile jobs, and the window title that shows the newest one.
-/

namespace SessionShell

structure Progress where
  title : String
  message : String
  value : Option UInt64
  max : Option UInt64
  terminal : Bool
  deriving DecidableEq, Repr

namespace Progress

def new (title message : String) : Progress :=
  ⟨title, message, none, none, false⟩

def isDeterminate (p : Progress) : Bool :=
  p.value.isSome && p.max.isSome

def text (p : Progress) : String :=
  "[" ++ p.title ++ "] " ++ p.message ++
    match p.value, p.max with
    | some value, some max => " (" ++ toString value.toNat ++ "/" ++ toString max.toNat ++ ")"
    | _, _ => ""

def percent (value max : UInt64) : UInt64 :=
  min value max * 100 / max

/-- A share while the job runs and one is known, else the message. -/
def titleText (p : Progress) : String :=
  "[" ++ p.title ++ "] " ++
    match p.value, p.max with
    | some value, some max =>
      if 0 < max ∧ ¬p.terminal then toString (percent value max).toNat ++ "%" else p.message
    | _, _ => p.message

def setTitle (title : String) : String :=
  "\x1b]0;" ++ title ++ "\x07"

def showTitle (batch : List Progress) : String :=
  match batch.getLast? with
  | some latest => setTitle latest.titleText
  | none => ""

end Progress

end SessionShell
