/-!
The list of live sessions, in the order in which they started. A session's index is its place in the
list, so it goes down when one before it leaves.
-/

namespace SessionShell

abbrev SessionId := Nat

inductive Removal where
  | last
  | removed (index remaining : Nat)
  | absent
  deriving DecidableEq, Repr

abbrev Registry := List SessionId

namespace Registry

def add (r : Registry) (id : SessionId) : Nat × Registry :=
  (r.length, r ++ [id])

def indexOf? (r : Registry) (id : SessionId) : Option Nat :=
  r.findIdx? (· == id)

def remove (r : Registry) (id : SessionId) : Removal × Registry :=
  match r.indexOf? id with
  | none => (.absent, r)
  | some index =>
    let r := r.eraseIdx index
    (if r.isEmpty then .last else .removed index r.length, r)

def get? (r : Registry) (index : Nat) : Option SessionId :=
  r[index]?

end Registry

end SessionShell
