/-!
The values of a TOML document, and how its statements build up the tables that hold them.

A table can be opened by a header once, by a dotted key as often as needed, and by a header below it
without being opened itself. What was opened in one way cannot be opened in another.
-/

namespace SessionShell

namespace Toml

inductive TableKind where
  | opened
  | implied
  | dotted
  | inline
  deriving DecidableEq, Repr, Inhabited

end Toml

/-- Numbers with a fraction and times are checked where they are read and not kept. -/
inductive Toml where
  | string (s : String)
  | integer (n : Int)
  | float
  | boolean (b : Bool)
  | time
  | array (items : List Toml)
  | table (kind : Toml.TableKind) (entries : List (String × Toml))
  /-- Tables opened one after the other by headers in double brackets. -/
  | tables (items : List Toml)
  deriving Inhabited

namespace Toml

structure Table where
  kind : TableKind
  entries : List (String × Toml)
  deriving Inhabited

namespace Table

def toToml (t : Table) : Toml :=
  .table t.kind t.entries

def get? (t : Table) (key : String) : Option Toml :=
  t.entries.lookup key

/-- Puts a value under a key, at the place of an earlier one or else at the end. -/
def put (t : Table) (key : String) (value : Toml) : Table :=
  if (t.get? key).isSome then
    { t with entries := t.entries.map fun e => if e.1 = key then (key, value) else e }
  else { t with entries := t.entries ++ [(key, value)] }

/-- Changes the table that a path of keys leads to from another. Tables that are missing on the way
are made; of several tables under one key the last one counts. A dotted key does not lead through a
table that has a header. -/
def alter (byDots : Bool) (f : Table → Option Table) : List String → Table → Option Table
  | [], t => f t
  | key :: path, t => do
    match t.get? key with
    | none =>
      let child ← alter byDots f path ⟨if byDots then .dotted else .implied, []⟩
      return t.put key child.toToml
    | some (.table kind entries) =>
      if kind = .inline ∨ (byDots ∧ kind = .opened) then none
      else
        let child ← alter byDots f path ⟨kind, entries⟩
        return t.put key child.toToml
    | some (.tables items) =>
      match items.getLast? with
      | some (.table kind entries) =>
        let child ← alter byDots f path ⟨kind, entries⟩
        return t.put key (.tables (items.dropLast ++ [child.toToml]))
      | _ => none
    | some _ => none

/-- Adds a value under a dotted key that holds nothing yet. -/
def assign (path : List String) (key : String) (value : Toml) (t : Table) : Option Table :=
  alter true (fun t =>
    if (t.get? key).isSome ∨ (path ≠ [] ∧ t.kind ≠ .dotted) then none
    else some (t.put key value)) path t

def openTable (path : List String) (key : String) (t : Table) : Option Table :=
  alter false (fun t =>
    match t.get? key with
    | none => some (t.put key (.table .opened []))
    | some (.table .implied entries) => some (t.put key (.table .opened entries))
    | some _ => none) path t

/-- Opens a further table under a key by a header in double brackets. -/
def openNext (path : List String) (key : String) (t : Table) : Option Table :=
  alter false (fun t =>
    match t.get? key with
    | none => some (t.put key (.tables [.table .opened []]))
    | some (.tables items) => some (t.put key (.tables (items ++ [.table .opened []])))
    | some _ => none) path t

end Table

/-- A dotted key: the keys before the last one, and the last one. -/
structure Key where
  before : List String
  last : String
  deriving DecidableEq, Repr, Inhabited

def Key.path (k : Key) : List String :=
  k.before ++ [k.last]

inductive Statement where
  | openTable (key : Key)
  | openNext (key : Key)
  | assign (key : Key) (value : Toml)
  deriving Inhabited

/-- A document partly built: its root, and the path of the table that is open. -/
structure Building where
  root : Table
  current : List String
  deriving Inhabited

def Building.start : Building :=
  ⟨⟨.opened, []⟩, []⟩

def Building.add (b : Building) : Statement → Option Building
  | .openTable key => do
    return ⟨← b.root.openTable key.before key.last, key.path⟩
  | .openNext key => do
    return ⟨← b.root.openNext key.before key.last, key.path⟩
  | .assign key value => do
    let root ← Table.alter false (·.assign key.before key.last value) b.current b.root
    return { b with root }

/-- The table that statements build up, if they agree with each other. -/
def ofStatements? (statements : List Statement) : Option Table := do
  return (← statements.foldlM Building.add Building.start).root

/-- The table written in braces with these entries. -/
def inlineTable? (entries : List (Key × Toml)) : Option Toml := do
  let t ← entries.foldlM (fun t (key, value) => t.assign key.before key.last value)
    (⟨.inline, []⟩ : Table)
  return t.toToml

end Toml

end SessionShell
