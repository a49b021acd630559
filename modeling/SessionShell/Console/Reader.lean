import SessionShell.FileSystem.Basic

/-!
Input that arrives in chunks, read line by line.

An empty chunk is an end of input. More can follow it, as on a terminal; behind the close of the
input nothing follows.
-/

namespace SessionShell

structure Reader where
  chunks : List Bytes
  closed : Bool
  deriving DecidableEq, Repr, Inhabited

inductive ReadOutcome where
  | line (text : String)
  | endOfInput
  deriving DecidableEq, Repr, Inhabited

namespace Reader

def lineEnd : UInt8 := 10

def notLineEnd (b : UInt8) : Bool :=
  b != lineEnd

def feed (r : Reader) (chunk : Bytes) : Reader :=
  { r with chunks := r.chunks ++ [chunk] }

/-- The bytes through the next line end, or up to an end of input. Gives nothing as long as neither
has arrived. `read` holds what comes before `chunks`. -/
def takeFrom? (closed : Bool) (read : Bytes) : List Bytes → Option (Bytes × List Bytes)
  | [] => if closed then some (read, []) else none
  | chunk :: chunks =>
    if chunk.isEmpty then some (read, chunks)
    else match chunk.dropWhile notLineEnd with
      | [] => takeFrom? closed (read ++ chunk) chunks
      | _ :: rest =>
        some (read ++ chunk.takeWhile notLineEnd ++ [lineEnd],
          if rest.isEmpty then chunks else rest :: chunks)

def takeBytes? (r : Reader) : Option (Bytes × Reader) :=
  (takeFrom? r.closed [] r.chunks).map fun (bytes, chunks) => (bytes, { r with chunks })

def isLineMark (c : Char) : Bool :=
  c == '\n' || c == '\r'

/-- A line without the marks that end it. Bytes that are no text count as an end of input. -/
def outcomeOf (bytes : Bytes) : ReadOutcome :=
  if bytes.isEmpty then .endOfInput
  else match bytes.text? with
    | none => .endOfInput
    | some s => .line (String.ofList (s.toList.reverse.dropWhile isLineMark).reverse)

def takeLine? (r : Reader) : Option (ReadOutcome × Reader) :=
  r.takeBytes?.map fun (bytes, r) => (outcomeOf bytes, r)

end Reader

end SessionShell
