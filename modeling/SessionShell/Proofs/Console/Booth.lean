import Mathlib.Data.List.Basic
import Mathlib.Logic.Function.Basic
import SessionShell.Console.Standalone
import SessionShell.Proofs.Console.Press
import SessionShell.Proofs.Turns.Path

/-!
A console with a customer, who asks it for one line after the other and keeps the replies, while its
input is delivered chunk by chunk.

There are five threads at it: the customer, the delivery, the scribe of each outlet and the clerk
who reads. Each stands somewhere in its program, and takes the next step from there if it has not to
wait. A machine is told here by where all of them stand.
-/

namespace SessionShell

open Action

/-- A console, and what its customer was told. -/
structure Booth where
  console : Console
  started : List (ThreadId × StreamName)
  replies : List ReadOutcome

namespace Booth

def place : ConsoleAt Booth where
  get s := s.console
  set console s := { s with console }
  launch stream s :=
    { s with started := s.started ++ [(StandaloneConsole.workerId stream, stream)] }

def life : Life Booth StreamName where
  program := fun stream => do
    place.work stream
    return some stream
  takeStarted := fun s => (s.started, { s with started := [] })
  isOver := fun _ => false

/-- A console with so many mailboxes, before any input has come. -/
def new (count : Nat) (endIsFinal : Bool) : Booth :=
  ⟨{ Console.new ⟨[], false⟩ endIsFinal with mailboxes := Array.replicate count .new }, [], []⟩

/-- Asks for one line after the other. Each reply is taken before the next line is asked for. -/
def askAll : List LineRequest → Action Booth (Option StreamName)
  | [] => return none
  | request :: requests => do
    place.requestLine request.prompt request.mailbox
    let reply ← place.awaitReply request.mailbox
    Action.update fun s => { s with replies := s.replies ++ [reply] }
    askAll requests

/-- The input arrives, and then it is at its end. -/
def deliver : List Bytes → Action Booth (Option StreamName)
  | [] => do
    place.modify fun c => { c with reader := { c.reader with closed := true } }
    return none
  | chunk :: chunks => do
    place.feed chunk
    deliver chunks

/-! ## Where the threads stand -/

inductive Player where
  | customer
  | delivery
  | scribe (x : Outlet)
  | clerk
  deriving DecidableEq, Repr

inductive Position : Player → Type where
  | asking (requests : List LineRequest) : Position .customer
  | awaiting (request : LineRequest) (requests : List LineRequest) : Position .customer
  | noting (reply : ReadOutcome) (requests : List LineRequest) : Position .customer
  | delivering (chunks : List Bytes) : Position .delivery
  | delivered : Position .delivery
  | idle (x : Outlet) : Position (.scribe x)
  | holding (x : Outlet) (q : Queued String) : Position (.scribe x)
  | written (x : Outlet) : Position (.scribe x)
  | listening : Position .clerk
  | reaching (mark : Nat) : Position .clerk
  | starting (x : Outlet) (request : LineRequest) : Position .clerk
  | marking (x : Outlet) (request : LineRequest) : Position .clerk
  | waiting (x : Outlet) (request : LineRequest) (mark : Nat) : Position .clerk
  | prompting (request : LineRequest) : Position .clerk
  | reading (request : LineRequest) : Position .clerk
  | posting (request : LineRequest) (reply : ReadOutcome) : Position .clerk
  | served : Position .clerk

namespace Position

variable {k : Player} {s : Booth} {id : ThreadId}

def post (request : LineRequest) (reply : ReadOutcome) : Action Booth Unit :=
  place.modify fun c => c.setMailbox request.mailbox ((c.mailbox request.mailbox).post reply)

def readOn (request : LineRequest) : Action Booth Unit := do
  let reply ← place.readLine
  post request reply

def promptOn (request : LineRequest) : Action Booth Unit := do
  place.writeOut request.prompt
  readOn request

def syncedAt : Outlet → LineRequest → Action Booth Unit
  | .out, request => do
    place.err.sync
    promptOn request
  | .err, request => promptOn request

def reachOn (x : Outlet) (request : LineRequest) (mark : Nat) : Action Booth Unit := do
  Action.await fun s => if ((place.outlet x).get s).hasReached mark then some ((), s) else none
  syncedAt x request

def markOn (x : Outlet) (request : LineRequest) : Action Booth Unit := do
  let mark ← Action.step fun s =>
    let (mark, service) := ((place.outlet x).get s).submitMark
    (mark, (place.outlet x).set service s)
  reachOn x request mark

def startOn (x : Outlet) (request : LineRequest) : Action Booth Unit := do
  (place.outlet x).start
  markOn x request

def rest : {k : Player} → Position k → Action Booth (Option StreamName)
  | _, asking requests => askAll requests
  | _, awaiting request requests => do
    let reply ← place.awaitReply request.mailbox
    Action.update fun s => { s with replies := s.replies ++ [reply] }
    askAll requests
  | _, noting reply requests => do
    Action.update fun s => { s with replies := s.replies ++ [reply] }
    askAll requests
  | _, delivering chunks => deliver chunks
  | _, delivered => return none
  | _, idle x => life.program x.name
  | _, holding x q => do
    (place.outlet x).serveTaken (place.write x) q
    return some x.name
  | _, written x => return some x.name
  | _, listening => life.program .input
  | _, reaching mark => do
    Action.update fun s => place.input.set ((place.input.get s).reach mark) s
    return some .input
  | _, starting x request => startOn x request >>= fun _ => return some .input
  | _, marking x request => markOn x request >>= fun _ => return some .input
  | _, waiting x request mark => reachOn x request mark >>= fun _ => return some .input
  | _, prompting request => promptOn request >>= fun _ => return some .input
  | _, reading request => readOn request >>= fun _ => return some .input
  | _, posting request reply => post request reply >>= fun _ => return some .input
  | _, served => return some .input

def synced : Outlet → LineRequest → Position .clerk
  | .out, request => starting .err request
  | .err, request => prompting request

/-- One step from there: where the thread stands then, unless it is through. -/
def next : {k : Player} → Position k → Booth → Option (Option (Position k) × Booth)
  | _, asking [], s => some (none, s)
  | _, asking (request :: requests), s =>
    some (some (awaiting request requests),
      { s with console := { s.console with input := s.console.input.submit request } })
  | _, awaiting request requests, s =>
    match s.console.takeReply request.mailbox with
    | (some reply, console) => some (some (noting reply requests), { s with console })
    | (none, _) => none
  | _, noting reply requests, s =>
    some (some (asking requests), { s with replies := s.replies ++ [reply] })
  | _, delivering [], s =>
    some (some delivered,
      { s with console := { s.console with reader := { s.console.reader with closed := true } } })
  | _, delivering (chunk :: chunks), s =>
    some (some (delivering chunks),
      { s with console := { s.console with reader := s.console.reader.feed chunk } })
  | _, delivered, s => some (none, s)
  | _, idle x, s =>
    (s.console.stream x).take?.map fun r =>
      (some (holding x r.1), { s with console := s.console.setStream x r.2 })
  | _, holding x (.request text), s =>
    some (some (written x), { s with console := s.console.write x text })
  | _, holding x (.mark mark), s =>
    some (some (written x),
      { s with console := s.console.setStream x ((s.console.stream x).reach mark) })
  | _, written x, s => some (some (idle x), s)
  | _, listening, s =>
    s.console.input.take?.map fun r =>
      (some (match r.1 with
        | .request request => starting .out request
        | .mark mark => reaching mark), { s with console := { s.console with input := r.2 } })
  | _, reaching mark, s =>
    some (some served, { s with console := { s.console with input := s.console.input.reach mark } })
  | _, starting x request, s =>
    some (some (marking x request),
      if (s.console.stream x).started then s
      else place.launch x.name
        { s with console := s.console.setStream x { s.console.stream x with started := true } })
  | _, marking x request, s =>
    some (some (waiting x request (s.console.stream x).marks),
      { s with console := s.console.setStream x (s.console.stream x).submitMark.2 })
  | _, waiting x request mark, s =>
    if (s.console.stream x).hasReached mark then some (some (synced x request), s) else none
  | _, prompting request, s =>
    some (some (reading request), { s with console := s.console.write .out request.prompt })
  | _, reading request, s =>
    s.console.reader.takeLine?.map fun r =>
      (some (posting request r.1), { s with console := { s.console with reader := r.2 } })
  | _, posting request reply, s =>
    some (some served, { s with
      console := s.console.setMailbox request.mailbox
        ((s.console.mailbox request.mailbox).post reply) })
  | _, served, s => some (some listening, s)

theorem stepThread?_rest (p : Position k) (s : Booth) :
    life.stepThread? ⟨id, p.rest⟩ s =
      (p.next s).map fun r => (r.1.map fun p' => ⟨id, p'.rest⟩, r.2) := by
  cases p with
  | asking requests => cases requests <;> rfl
  | awaiting request requests =>
    change Option.map (fun r : ReadOutcome × Booth => (some _, r.2))
      (match s.console.takeReply request.mailbox with
        | (some reply, console) => some (reply, { s with console })
        | (none, _) => none) = Option.map _ (next (awaiting request requests) s)
    rw [next]
    rcases s.console.takeReply request.mailbox with ⟨_ | reply, console⟩ <;> rfl
  | noting => rfl
  | delivering chunks => cases chunks <;> rfl
  | delivered => rfl
  | idle x =>
    have hstep : life.stepThread? ⟨id, (idle x).rest⟩ s = ((s.console.stream x).take?.map fun r =>
        (r.1, { s with console := s.console.setStream x r.2 })).map fun r =>
          (some ⟨id, (holding x r.1).rest⟩, r.2) := by
      cases x <;> rfl
    rw [hstep, next, Option.map_map, Option.map_map]
    rfl
  | holding x q => cases x <;> cases q <;> rfl
  | written x => rfl
  | listening =>
    change Option.map _ (s.console.input.take?.map fun r =>
      (r.1, { s with console := { s.console with input := r.2 } })) = Option.map _ (Option.map _ _)
    rw [Option.map_map, Option.map_map]
    refine Option.map_congr fun r _ => ?_
    obtain ⟨_ | _, _⟩ := r <;> rfl
  | reaching => rfl
  | starting x request => cases x <;> rfl
  | marking x request => cases x <;> rfl
  | waiting x request mark =>
    have hget : (place.outlet x).get s = s.console.stream x := place.get_outlet x s
    change Option.map _ (if ((place.outlet x).get s).hasReached mark then some ((), s) else none) =
      _
    rw [hget, next]
    split
    · cases x <;> rfl
    · rfl
  | prompting => rfl
  | reading request =>
    change Option.map _ (s.console.reader.takeLine?.map fun r =>
      (r.1, { s with console := { s.console with reader := r.2 } })) = Option.map _ (Option.map _ _)
    rw [Option.map_map, Option.map_map]
    rfl
  | posting => rfl
  | served => rfl

end Position

/-! ## Machines -/

theorem exists_key {κ : Type} {τ : Type*} [DecidableEq κ] {β : κ → Type}
    {f : (k : κ) → Option (β k)}
    {g : (k : κ) → β k → τ} (ks : List κ) (hks : ks.Nodup) {before after : List τ} {t : τ}
    (h : (ks.filterMap fun k => (f k).map (g k)) = before ++ t :: after) :
    ∃ k b, f k = some b ∧ g k b = t ∧ ∀ b? : Option (β k),
      (ks.filterMap fun k' => (Function.update f k b? k').map (g k')) =
        before ++ ((b?.map (g k)).toList ++ after) := by
  obtain ⟨first, rest, rfl, rfl, hrest⟩ := List.filterMap_eq_append_iff.mp h
  obtain ⟨skipped, k, last, rfl, hskipped, hk, rfl⟩ := List.filterMap_eq_cons_iff.mp hrest
  obtain ⟨b, hb, rfl⟩ := Option.map_eq_some_iff.mp hk
  refine ⟨k, b, hb, rfl, fun b? => ?_⟩
  have hne : ∀ ks' : List κ, k ∉ ks' →
    (ks'.filterMap fun k' => (Function.update f k b? k').map (g k')) =
      ks'.filterMap fun k' => (f k').map (g k') := fun ks' hin =>
    List.filterMap_congr fun k' hk' => by rw [Function.update_of_ne (ne_of_mem_of_not_mem hk' hin)]
  simp only [List.nodup_append, List.nodup_cons, List.mem_append, List.mem_cons] at hks
  have hfirst : k ∉ first := fun hin => hks.2.2 k hin k (.inr (.inl rfl)) rfl
  have hin : k ∉ skipped := fun hin => hks.2.1.2.2 k hin k (.inl rfl) rfl
  rw [List.filterMap_append, List.filterMap_append, List.filterMap_cons, hne first hfirst,
    hne skipped hin, hne last hks.2.1.2.1.1, List.filterMap_eq_nil_iff.mpr hskipped,
    Function.update_self]
  cases b? <;> rfl

def players : List Player :=
  [.customer, .delivery, .scribe .out, .scribe .err, .clerk]

end Booth

structure Room where
  booth : Booth
  stands : (k : Booth.Player) → Option (Booth.Position k)

namespace Room

open Booth

variable {ids : Player → ThreadId} {room room' : Room} {m m' : Machine Booth StreamName}

inductive Moves (room : Room) : Room → Prop where
  | step {k : Player} {p : Position k} {p? : Option (Position k)} {booth : Booth}
      (hp : room.stands k = some p) (h : p.next room.booth = some (p?, booth)) :
      Moves room ⟨booth, Function.update room.stands k p?⟩

structure Shows (ids : Player → ThreadId) (room : Room) (m : Machine Booth StreamName) : Prop where
  shared : m.shared = room.booth
  crew : life.crew m = players.filterMap fun k => (room.stands k).map fun p => ⟨ids k, p.rest⟩

def adopted (room : Room) : Room :=
  { room with booth := { room.booth with started := [] } }

def Staffed (room : Room) : Prop :=
  ∀ x, (room.booth.console.stream x).started = true

theorem started_next {k : Player} {p : Position k} {p? : Option (Position k)} {s s' : Booth}
    (hstaffed : ∀ x, (s.console.stream x).started = true) (h : p.next s = some (p?, s')) :
    s'.started = s.started := by
  cases p with
  | asking requests => cases requests <;> cases h <;> rfl
  | awaiting request requests =>
    rw [Position.next] at h
    split at h <;> cases h
    rfl
  | delivering chunks => cases chunks <;> cases h <;> rfl
  | holding x q => cases q <;> cases h <;> rfl
  | idle | listening | reading =>
    obtain ⟨_, _, heq⟩ := Option.map_eq_some_iff.mp h
    cases heq
    rfl
  | starting x request =>
    rw [Position.next, if_pos (hstaffed x)] at h
    cases h
    rfl
  | waiting x request mark =>
    rw [Position.next] at h
    split at h <;> cases h
    rfl
  | _ =>
    cases h
    rfl

theorem shows_step (hstaffed : room.Staffed) (h : room.Shows ids m) (hstep : life.Advances m m') :
    (∃ room', room.Moves room' ∧ room'.Shows ids m') ∨
      room.booth.started ≠ [] ∧ room.adopted.Shows ids m' := by
  cases hstep with
  | adopt hpending =>
    right
    obtain ⟨booth, stands⟩ := room
    obtain ⟨shared, threads⟩ := m
    obtain ⟨rfl, hcrew⟩ := h
    exact ⟨hpending, rfl, (List.append_nil _).trans hcrew⟩
  | @thread before after t t? s s' hact =>
    left
    obtain ⟨booth, stands⟩ := room
    obtain ⟨rfl, hcrew⟩ := h
    have hsplit : (players.filterMap fun k => (stands k).map fun p => ⟨ids k, p.rest⟩) =
        before ++ t :: (after ++ (life.pending s).map fun x => ⟨x.1, life.program x.2⟩) := by
      rw [← hcrew]
      simp [Life.crew]
    obtain ⟨k, p, hp, rfl, hupdate⟩ := exists_key players (by decide) hsplit
    rw [Position.stepThread?_rest] at hact
    obtain ⟨⟨p?, booth⟩, hnext, heq⟩ := Option.map_eq_some_iff.mp hact
    cases heq
    refine ⟨_, .step hp hnext, rfl, ?_⟩
    have hstarted : life.pending booth = life.pending s := started_next hstaffed hnext
    rw [hupdate p?, Life.crew, hstarted]
    simp

theorem shows_of_step (hstaffed : room.Staffed) (h : room.Shows ids m) (hstep : life.Step m m') :
    room.Shows ids m' ∨ (∃ room', room.Moves room' ∧ room'.Shows ids m') ∨
      room.adopted.Shows ids m' := by
  cases hstep with
  | thread hact => exact .inr ((shows_step hstaffed h (.thread hact)).imp id (·.2))
  | adopt =>
    by_cases hpending : life.pending m.shared = []
    · left
      obtain ⟨⟨console, started, replies⟩, threads⟩ := m
      cases hpending
      exact ⟨h.shared, by rw [← h.crew]; simp [Life.crew, Life.adopt, Life.pending, life]⟩
    · exact .inr ((shows_step hstaffed h (.adopt hpending)).imp id (·.2))

theorem next_eq_none_of_stuck (hstuck : ∀ m', ¬life.Advances m m')
    (h : room.Shows ids m) {k : Player}
    (hk : k ∈ players) {p : Position k} (hp : room.stands k = some p) :
      p.next room.booth = none := by
  have hpending : life.pending m.shared = [] := by
    by_contra hpending
    exact hstuck _ (.adopt hpending)
  have hmem : (⟨ids k, p.rest⟩ : Thread Booth StreamName) ∈ m.threads := by
    have hcrew : (⟨ids k, p.rest⟩ : Thread Booth StreamName) ∈ life.crew m := by
      rw [h.crew]
      exact List.mem_filterMap.mpr ⟨k, hk, by rw [hp]; rfl⟩
    simpa [Life.crew, hpending] using hcrew
  obtain ⟨shared, threads⟩ := m
  obtain ⟨before, after, rfl⟩ := List.append_of_mem hmem
  by_contra hsome
  obtain ⟨⟨p?, booth⟩, hnext⟩ := Option.ne_none_iff_exists'.mp hsome
  obtain ⟨rfl, -⟩ := h
  have hact : life.stepThread? ⟨ids k, p.rest⟩ room.booth =
      some (p?.map fun p' => ⟨ids k, p'.rest⟩, booth) := by
    rw [Position.stepThread?_rest, hnext]
    rfl
  exact hstuck _ (.thread hact)

end Room

end SessionShell
