import SessionShell.Proofs.Console.Booth
import SessionShell.Proofs.Dialogue.Lines

/-!
What the customer of a console is told: the lines of its input in their order, and behind the last
of them that it is at its end, however the input comes in chunks and whenever they come.

What is still to be read is told by the chunks that have come together with those that have not: a
line that can be read of the first part is the first line of both. At most one request is under
way, so the clerk reads for the request that was made last, and its mailbox is empty when the line
is put there.
-/

namespace SessionShell

open Action

namespace Text

/-- The parts of a text between its line ends. What stands behind the last one is a part if it is
not empty. -/
def segments (text : List Char) : List (List Char) :=
  if (text.splitOn '\n').getLast? = some [] then (text.splitOn '\n').dropLast else text.splitOn '\n'

theorem segments_line {line : List Char} (rest : List Char) (h : '\n' ∉ line) :
    segments (line ++ '\n' :: rest) = line :: segments rest := by
  have hne := List.splitOn_ne_nil '\n' rest
  rw [segments, segments, List.splitOn_append_cons_self_of_not_mem h, List.getLast?_cons,
    List.getLast?_eq_some_getLast hne, Option.getD_some, List.dropLast_cons_of_ne_nil hne]
  split <;> rfl

theorem segments_rest {line : List Char} (h : '\n' ∉ line) :
    segments line = if line = [] then [] else [line] := by
  rw [segments, List.splitOn_eq_singleton h]
  simp

theorem lines_eq_segments (text : List Char) : lines text = (segments text).map trimLine := by
  induction hlength : text.length using Nat.strongRecOn generalizing text with
  | ind n ih =>
    by_cases hin : '\n' ∈ text
    · obtain ⟨line, rest, rfl, hline⟩ := List.eq_append_cons_of_mem hin
      rw [lines, linesFrom_line [] rest hline, segments_line rest hline,
        ih rest.length (by simp [← hlength]; omega) rest rfl]
      rfl
    · rw [lines, linesFrom_rest [] hin, segments_rest hin, List.nil_append]
      split <;> rfl

end Text

namespace Reader

variable {r r' : Reader} {lines : List String} {outcome : ReadOutcome} {closed : Bool}

theorem takeFrom?_append {read bytes : Bytes} {chunks rest later : List Bytes}
    (h : takeFrom? closed read chunks = some (bytes, rest)) (hlater : closed = true → later = []) :
    takeFrom? true read (chunks ++ later) = some (bytes, rest ++ later) := by
  induction chunks generalizing read with
  | nil =>
    cases closed with
    | false => simp [takeFrom?] at h
    | true =>
      cases hlater rfl
      simpa [takeFrom?] using h
  | cons chunk chunks ih =>
    rw [takeFrom?] at h
    rw [List.cons_append, takeFrom?]
    split at h
    · next hempty =>
      cases h
      rw [if_pos hempty]
    · next hempty =>
      rw [if_neg hempty]
      cases hdrop : chunk.dropWhile notLineEnd with
      | nil =>
        rw [hdrop] at h
        exact ih h
      | cons b tail =>
        rw [hdrop] at h
        cases h
        cases tail <;> rfl

theorem takeLine?_append {later : List Bytes} (h : r.takeLine? = some (outcome, r'))
    (hlater : r.closed = true → later = []) :
    takeLine? ⟨r.chunks ++ later, true⟩ = some (outcome, ⟨r'.chunks ++ later, true⟩) ∧
      r'.closed = r.closed := by
  obtain ⟨⟨bytes, r₁⟩, hbytes, heq⟩ := Option.map_eq_some_iff.mp h
  cases heq
  obtain ⟨⟨bytes', rest⟩, hfrom, heq⟩ := Option.map_eq_some_iff.mp hbytes
  cases heq
  refine ⟨?_, rfl⟩
  simp [takeLine?, takeBytes?, takeFrom?_append hfrom hlater]

/-- Whoever reads once more is told this when so many lines were read. -/
def due (lines : List String) (n : Nat) : ReadOutcome :=
  lines[n]?.elim .endOfInput .line

theorem Holds.takeLine? {n : Nat} (h : r.Holds (lines.drop n))
    (hr : r.takeLine? = some (outcome, r')) :
    outcome = due lines n ∧ r'.Holds (lines.drop (n + 1)) := by
  cases hdrop : lines.drop n with
  | nil =>
    rw [hdrop] at h
    cases h.takeLine?_nil.symm.trans hr
    have hle : lines.length ≤ n := List.drop_eq_nil_iff.mp hdrop
    rw [List.drop_eq_nil_of_le (by omega)]
    exact ⟨by simp [due, hle], h⟩
  | cons line rest =>
    rw [hdrop] at h
    obtain ⟨r₁, hline, hrest⟩ := h
    cases hline.symm.trans hr
    have hget : lines[n]? = some line := by
      rw [← List.head?_drop, hdrop, List.head?_cons]
    refine ⟨by simp [due, hget], ?_⟩
    rw [List.drop_add_one_eq_tail_drop, hdrop]
    exact hrest

theorem takeLine?_isSome_of_closed (h : r.closed = true) : r.takeLine?.isSome := by
  have hfrom : ∀ (chunks : List Bytes) (read : Bytes), (takeFrom? true read chunks).isSome := by
    intro chunks
    induction chunks with
    | nil => exact fun read => rfl
    | cons chunk chunks ih =>
      intro read
      rw [takeFrom?]
      split
      · rfl
      · split
        · exact ih _
        · rfl
  obtain ⟨⟨bytes, rest⟩, hsome⟩ := Option.isSome_iff_exists.mp (hfrom r.chunks [])
  simp [takeLine?, takeBytes?, h, hsome]

end Reader

namespace Console

variable {x : Outlet} {v : StreamService String} {c : Console} {text : String} {id other : Nat}
  {m : Mailbox}

@[simp] theorem reader_setStream : (c.setStream x v).reader = c.reader := by
  cases x <;> rfl

@[simp] theorem mailboxes_setStream : (c.setStream x v).mailboxes = c.mailboxes := by
  cases x <;> rfl

@[simp] theorem reader_write : (c.write x text).reader = c.reader := by
  cases x <;> rfl

@[simp] theorem mailboxes_write : (c.write x text).mailboxes = c.mailboxes := by
  cases x <;> rfl

theorem mailbox_setMailbox (hid : id < c.mailboxes.size) :
    (c.setMailbox id m).mailbox other = if other = id then m else c.mailbox other := by
  simp only [mailbox, setMailbox, Array.getD_eq_getD_getElem?, Array.getElem?_setIfInBounds]
  by_cases h : other = id
  · simp [h, hid]
  · simp [h, Ne.symm h]

@[simp] theorem size_setMailbox : (c.setMailbox id m).mailboxes.size = c.mailboxes.size := by
  simp [setMailbox]

@[simp] theorem stream_setMailbox : (c.setMailbox id m).stream x = c.stream x := by
  cases x <;> rfl

end Console

namespace Booth

def later : Option (Position .delivery) → List Bytes
  | some (.delivering chunks) => chunks
  | _ => []

def named : Option (Position .customer) → List LineRequest
  | some (.asking requests) => requests
  | some (.awaiting request requests) => request :: requests
  | some (.noting _ requests) => requests
  | none => []

def owed : Option (Position .customer) → Nat
  | some (.asking requests) => requests.length
  | some (.awaiting _ requests) => requests.length + 1
  | some (.noting _ requests) => requests.length + 1
  | none => 0

def Rests (p? : Option (Position .clerk)) : Prop :=
  p? = some .listening ∨ p? = some .served

inductive Serves (request : LineRequest) : Position .clerk → Prop where
  | starting (x : Outlet) : Serves request (.starting x request)
  | marking (x : Outlet) : Serves request (.marking x request)
  | waiting (x : Outlet) (mark : Nat) : Serves request (.waiting x request mark)
  | prompting : Serves request (.prompting request)
  | reading : Serves request (.reading request)

/-- How far the customer and the clerk are with one another when so many replies were kept; `Ahead`
tells how many lines were read. -/
inductive Stage (lines : List String) (Ahead : Nat → Prop) (n : Nat) (mail : Nat → Mailbox) :
    Option (Position .customer) → Option (Position .clerk) → List (Queued LineRequest) → Prop where
  | rests {clerk : Option (Position .clerk)} (requests : List LineRequest) (hclerk : Rests clerk)
      (hmail : ∀ id, mail id = .new) (hahead : Ahead n) :
      Stage lines Ahead n mail (some (.asking requests)) clerk []
  | gone {clerk : Option (Position .clerk)} (hclerk : Rests clerk) (hmail : ∀ id, mail id = .new)
      (hahead : Ahead n) : Stage lines Ahead n mail none clerk []
  | asked {clerk : Option (Position .clerk)} (request : LineRequest) (requests : List LineRequest)
      (hclerk : Rests clerk) (hmail : ∀ id, mail id = .new) (hahead : Ahead n) :
      Stage lines Ahead n mail (some (.awaiting request requests)) clerk [.request request]
  | serving {clerk : Position .clerk} {request : LineRequest} (requests : List LineRequest)
      (hclerk : Serves request clerk) (hmail : ∀ id, mail id = .new) (hahead : Ahead n) :
      Stage lines Ahead n mail (some (.awaiting request requests)) (some clerk) []
  | posting (request : LineRequest) (requests : List LineRequest) (hmail : ∀ id, mail id = .new)
      (hahead : Ahead (n + 1)) : Stage lines Ahead n mail (some (.awaiting request requests))
        (some (.posting request (Reader.due lines n))) []
  | posted {clerk : Option (Position .clerk)} (request : LineRequest) (requests : List LineRequest)
      (hclerk : Rests clerk)
      (hmail : ∀ id, mail id = if id = request.mailbox then ⟨some (Reader.due lines n),
        false⟩ else .new)
      (hahead : Ahead (n + 1)) : Stage lines Ahead n mail
      (some (.awaiting request requests)) clerk []
  | noting {clerk : Option (Position .clerk)} (requests : List LineRequest) (hclerk : Rests clerk)
      (hmail : ∀ id, mail id = .new) (hahead : Ahead (n + 1)) :
      Stage lines Ahead n mail (some (.noting (Reader.due lines n) requests)) clerk []

namespace Stage

variable {lines : List String} {Ahead Ahead' : Nat → Prop} {n : Nat} {mail : Nat → Mailbox}
  {customer : Option (Position .customer)} {clerk : Option (Position .clerk)}
  {queue : List (Queued LineRequest)} {request : LineRequest} {requests : List LineRequest}

theorem mono (h : Stage lines Ahead n mail customer clerk queue)
    (hahead : ∀ k, Ahead k → Ahead' k) :
    Stage lines Ahead' n mail customer clerk queue := by
  cases h with
  | rests requests hclerk hmail ha => exact .rests requests hclerk hmail (hahead _ ha)
  | gone hclerk hmail ha => exact .gone hclerk hmail (hahead _ ha)
  | asked request requests hclerk hmail ha =>
    exact .asked request requests hclerk hmail (hahead _ ha)
  | serving requests hclerk hmail ha => exact .serving requests hclerk hmail (hahead _ ha)
  | posting request requests hmail ha => exact .posting request requests hmail (hahead _ ha)
  | posted request requests hclerk hmail ha =>
    exact .posted request requests hclerk hmail (hahead _ ha)
  | noting requests hclerk hmail ha => exact .noting requests hclerk hmail (hahead _ ha)

theorem of_asking (h : Stage lines Ahead n mail (some (.asking requests)) clerk queue) :
    Rests clerk ∧ (∀ id, mail id = .new) ∧ Ahead n ∧ queue = [] := by
  cases h with
  | rests _ hclerk hmail hahead => exact ⟨hclerk, hmail, hahead, rfl⟩

theorem of_noting {reply : ReadOutcome}
    (h : Stage lines Ahead n mail (some (.noting reply requests)) clerk queue) :
    reply = Reader.due lines n ∧ Rests clerk ∧ (∀ id, mail id = .new) ∧ Ahead (n + 1) ∧
      queue = [] := by
  cases h with
  | noting _ hclerk hmail hahead => exact ⟨rfl, hclerk, hmail, hahead, rfl⟩

theorem of_held {reply : ReadOutcome}
    (h : Stage lines Ahead n mail (some (.awaiting request requests)) clerk queue)
    (hheld : (mail request.mailbox).held = some reply) :
    reply = Reader.due lines n ∧ Rests clerk ∧
      (∀ id, mail id = if id = request.mailbox then ⟨some reply, false⟩ else .new) ∧
      Ahead (n + 1) ∧ queue = [] := by
  cases h with
  | posted _ _ hclerk hmail hahead =>
    rw [hmail, if_pos rfl] at hheld
    cases hheld
    exact ⟨rfl, hclerk, hmail, hahead, rfl⟩
  | asked _ _ _ hmail | serving _ _ hmail | posting _ _ hmail =>
    rw [hmail] at hheld
    cases hheld

theorem of_queue {q : Queued LineRequest}
    (h : Stage lines Ahead n mail customer clerk (q :: queue)) :
    ∃ request requests, customer = some (.awaiting request requests) ∧ Rests clerk ∧
      (∀ id, mail id = .new) ∧ Ahead n ∧ q = .request request ∧ queue = [] := by
  cases h with
  | asked request requests hclerk hmail hahead =>
    exact ⟨request, requests, rfl, hclerk, hmail, hahead, rfl, rfl⟩

theorem of_serves {p : Position .clerk} (h : Stage lines Ahead n mail customer (some p) queue)
    (hp : Serves request p) : ∃ requests, customer = some (.awaiting request requests) ∧
      (∀ id, mail id = .new) ∧ Ahead n ∧ queue = [] := by
  have hbusy : ¬Rests (some p) := by
    cases hp <;> simp [Rests]
  cases h with
  | serving requests hclerk hmail hahead =>
    have heq : ∀ {r r' : LineRequest}, Serves r p → Serves r' p → r = r' := fun h h' => by
      cases h <;> cases h' <;> rfl
    cases heq hclerk hp
    exact ⟨requests, rfl, hmail, hahead, rfl⟩
  | posting => cases hp
  | rests _ hclerk | gone hclerk | asked _ _ hclerk | posted _ _ hclerk | noting _ hclerk =>
    exact absurd hclerk hbusy

theorem of_posting {reply : ReadOutcome}
    (h : Stage lines Ahead n mail customer (some (.posting request reply)) queue) :
    ∃ requests, customer = some (.awaiting request requests) ∧ reply = Reader.due lines n ∧
      (∀ id, mail id = .new) ∧ Ahead (n + 1) ∧ queue = [] := by
  cases h with
  | posting _ requests hmail hahead => exact ⟨requests, rfl, rfl, hmail, hahead, rfl⟩
  | serving _ hclerk => cases hclerk
  | rests _ hclerk | gone hclerk | asked _ _ hclerk | posted _ _ hclerk | noting _ hclerk =>
    exact absurd hclerk (by simp [Rests])

theorem of_rests {clerk' : Option (Position .clerk)}
    (h : Stage lines Ahead n mail customer clerk queue)
    (hclerk : Rests clerk) (hclerk' : Rests clerk') :
      Stage lines Ahead n mail customer clerk' queue := by
  cases h with
  | rests requests _ hmail hahead => exact .rests requests hclerk' hmail hahead
  | gone _ hmail hahead => exact .gone hclerk' hmail hahead
  | asked request requests _ hmail hahead => exact .asked request requests hclerk' hmail hahead
  | serving _ hserves => cases hserves <;> simp [Rests] at hclerk
  | posting => simp [Rests] at hclerk
  | posted request requests _ hmail hahead => exact .posted request requests hclerk' hmail hahead
  | noting requests _ hmail hahead => exact .noting requests hclerk' hmail hahead

end Stage

end Booth

namespace Room

open Booth

variable {room room' : Room} {lines : List String} {total : Nat}

/-- So many lines were read of what has come, and so the others are still to be read. -/
def Ahead (lines : List String) (room : Room) (n : Nat) : Prop :=
  Reader.Holds ⟨room.booth.console.reader.chunks ++ later (room.stands .delivery), true⟩
    (lines.drop n)

def Marked (x : Outlet) (room : Room) : Prop :=
  ∃ p, room.stands (.scribe x) = some p ∧ ∀ mark < (room.booth.console.stream x).marks,
    mark ∈ (room.booth.console.stream x).reached ∨
      .mark mark ∈ (room.booth.console.stream x).queue ∨
      p = .holding x (.mark mark)

/-- Both scribes are at their work, and the clerk waits for marks only that it has made. -/
structure Penned (room : Room) : Prop where
  staffed : room.Staffed
  marked : ∀ x, room.Marked x
  waiting : ∀ x request mark, room.stands .clerk = some (.waiting x request mark) →
    mark < (room.booth.console.stream x).marks

/-- The customer was told what is due, and is served what is due next. -/
structure Told (lines : List String) (total : Nat) (room : Room) : Prop where
  closed : room.booth.console.reader.closed = true ↔
    ∀ chunks, room.stands .delivery ≠ some (.delivering chunks)
  named : ∀ request ∈ named (room.stands .customer),
    request.mailbox < room.booth.console.mailboxes.size
  replies : room.booth.replies = (List.range room.booth.replies.length).map (Reader.due lines)
  owed : room.booth.replies.length + owed (room.stands .customer) = total
  stage : Booth.Stage lines (room.Ahead lines) room.booth.replies.length room.booth.console.mailbox
    (room.stands .customer) (room.stands .clerk) room.booth.console.input.queue

/-! ### The scribes -/

variable {k : Player} {p : Position k} {p? : Option (Position k)} {booth : Booth}

theorem Penned.of_streams (h : room.Penned)
    (hstream : ∀ x, room'.booth.console.stream x = room.booth.console.stream x)
    (hscribe : ∀ x, room'.stands (.scribe x) = room.stands (.scribe x))
    (hwaiting : ∀ x request mark, room'.stands .clerk = some (.waiting x request mark) →
      mark < (room.booth.console.stream x).marks) : room'.Penned where
  staffed x := by rw [hstream]; exact h.staffed x
  marked x := by rw [Marked, hstream, hscribe]; exact h.marked x
  waiting x request mark hclerk := by rw [hstream]; exact hwaiting x request mark hclerk

theorem Penned.adopted (h : room.Penned) : room.adopted.Penned :=
  h.of_streams (fun _ => rfl) (fun _ => rfl) h.waiting

theorem Penned.customer {p : Position .customer} {p? : Option (Position .customer)}
    (h : room.Penned) (hnext : p.next room.booth = some (p?, booth)) :
    Penned ⟨booth, Function.update room.stands .customer p?⟩ := by
  have hstream : ∀ x, booth.console.stream x = room.booth.console.stream x := by
    intro x
    cases p with
    | asking requests =>
      cases requests <;> cases hnext
      · rfl
      · exact Console.stream_input
    | awaiting request requests =>
      rw [Position.next] at hnext
      split at hnext
      · next reply console htake =>
        cases hnext
        rw [Console.takeReply, Prod.mk.injEq] at htake
        rw [← htake.2]
        exact Console.stream_setMailbox
      · cases hnext
    | noting => cases hnext; rfl
  exact h.of_streams hstream (fun x => rfl) fun x request mark hclerk =>
    h.waiting x request mark hclerk

theorem Penned.delivery {p : Position .delivery} {p? : Option (Position .delivery)}
    (h : room.Penned) (hnext : p.next room.booth = some (p?, booth)) :
    Penned ⟨booth, Function.update room.stands .delivery p?⟩ := by
  have hstream : ∀ x, booth.console.stream x = room.booth.console.stream x := by
    intro x
    cases p with
    | delivering chunks => cases chunks <;> cases hnext <;> cases x <;> rfl
    | delivered => cases hnext; rfl
  exact h.of_streams hstream (fun x => rfl) fun x request mark hclerk =>
    h.waiting x request mark hclerk

theorem Penned.of_scribe {x : Outlet} {p : Position (.scribe x)} (h : room.Penned)
    (hother : ∀ y, y ≠ x → booth.console.stream y = room.booth.console.stream y)
    (hstarted : (booth.console.stream x).started = (room.booth.console.stream x).started)
    (hmarks : (booth.console.stream x).marks = (room.booth.console.stream x).marks)
    (hmarked : ∀ mark < (booth.console.stream x).marks,
      mark ∈ (booth.console.stream x).reached ∨ .mark mark ∈ (booth.console.stream x).queue ∨
        p = .holding x (.mark mark)) :
          Penned ⟨booth, Function.update room.stands (.scribe x) (some p)⟩ where
  staffed y := by
    by_cases hy : y = x
    · subst hy
      exact hstarted.trans (h.staffed y)
    · exact (congrArg (·.started) (hother y hy)).trans (h.staffed y)
  marked y := by
    by_cases hy : y = x
    · subst hy
      exact ⟨p, Function.update_self .., hmarked⟩
    · have hne : Player.scribe y ≠ .scribe x := fun heq => hy (Player.scribe.inj heq)
      obtain ⟨p', hp', hmarked'⟩ := h.marked y
      refine ⟨p', (Function.update_of_ne hne ..).trans hp', ?_⟩
      rw [hother y hy]
      exact hmarked'
  waiting y request mark hclerk := by
    have hmark := h.waiting y request mark hclerk
    by_cases hy : y = x
    · subst hy
      rwa [hmarks]
    · rwa [hother y hy]

theorem Penned.scribe {x : Outlet} {p : Position (.scribe x)} {p? : Option (Position (.scribe x))}
    (h : room.Penned) (hp : room.stands (.scribe x) = some p)
    (hnext : p.next room.booth = some (p?, booth)) :
    Penned ⟨booth, Function.update room.stands (.scribe x) p?⟩ := by
  obtain ⟨p', hp', hmarked⟩ := h.marked x
  cases hp'.symm.trans hp
  have hset : ∀ v y, y ≠ x →
      (room.booth.console.setStream x v).stream y = room.booth.console.stream y :=
    fun v y hy => Console.stream_setStream_of_ne hy
  cases p with
  | idle =>
    obtain ⟨⟨q, v⟩, htake, heq⟩ := Option.map_eq_some_iff.mp hnext
    cases heq
    obtain ⟨queue, hqueue, rfl⟩ := StreamService.exists_of_take htake
    refine h.of_scribe (hset _) (by simp) (by simp) fun mark hmark => ?_
    simp only [Console.stream_setStream] at hmark ⊢
    have hbefore := hmarked mark hmark
    rw [hqueue, List.mem_cons] at hbefore
    rcases hbefore with hin | (rfl | hin) | hnot
    · exact .inl hin
    · exact .inr (.inr rfl)
    · exact .inr (.inl hin)
    · cases hnot
  | holding _ q =>
    cases q with
    | request text =>
      cases hnext
      refine h.of_scribe (fun y _ => by simp) (by simp) (by simp) fun mark hmark => ?_
      simp only [Console.stream_write] at hmark ⊢
      refine (hmarked mark hmark).imp_right fun hbefore => hbefore.imp_right fun hheld => ?_
      cases hheld
    | mark mark =>
      cases hnext
      refine h.of_scribe (hset _) (by simp [StreamService.reach]) (by simp [StreamService.reach])
        fun other hother => ?_
      simp only [Console.stream_setStream, StreamService.reach, List.mem_cons] at hother ⊢
      rcases hmarked other hother with hin | hin | hheld
      · exact .inl (.inr hin)
      · exact .inr (.inl hin)
      · cases hheld
        exact .inl (.inl rfl)
  | written =>
    cases hnext
    refine h.of_scribe (fun y _ => rfl) rfl rfl fun mark hmark => ?_
    refine (hmarked mark hmark).imp_right fun hbefore => hbefore.imp_right fun hheld => ?_
    cases hheld

theorem Penned.of_clerk {p? : Option (Position .clerk)} (h : room.Penned)
    (hstream : ∀ x, booth.console.stream x = room.booth.console.stream x)
    (hwaiting : ∀ x request mark, p? ≠ some (.waiting x request mark)) :
    Penned ⟨booth, Function.update room.stands .clerk p?⟩ :=
  h.of_streams hstream (fun _ => rfl) fun x request mark hclerk =>
    absurd (by simpa using hclerk) (hwaiting x request mark)

theorem Penned.marking {x : Outlet} {request : LineRequest} (h : room.Penned) :
    Penned ⟨{ room.booth with
        console := room.booth.console.setStream x (room.booth.console.stream x).submitMark.2 },
      Function.update room.stands .clerk
        (some (.waiting x request (room.booth.console.stream x).marks))⟩ where
  staffed y := by
    by_cases hy : y = x
    · subst hy
      simpa [StreamService.submitMark] using h.staffed y
    · exact (congrArg (·.started) (Console.stream_setStream_of_ne hy)).trans (h.staffed y)
  marked y := by
    obtain ⟨p, hp, hmarked⟩ := h.marked y
    refine ⟨p, hp, ?_⟩
    by_cases hy : y = x
    · subst hy
      intro mark hmark
      have hqueue : ∀ q, q ∈ (room.booth.console.stream y).queue ∨
        q = .mark (room.booth.console.stream y).marks ↔
          q ∈ ((room.booth.console.stream y).enqueue
            (.mark (room.booth.console.stream y).marks)).queue := by
        intro q
        rw [StreamService.queue_enqueue]
        split <;> simp [or_comm]
      simp only [Console.stream_setStream, StreamService.submitMark,
        StreamService.reached_enqueue] at hmark ⊢
      rw [← hqueue]
      rcases Nat.lt_succ_iff_lt_or_eq.mp hmark with hlt | rfl
      · rcases hmarked mark hlt with hin | hin | hheld
        · exact .inl hin
        · exact .inr (.inl (.inl hin))
        · exact .inr (.inr hheld)
      · exact .inr (.inl (.inr rfl))
    · simp only [Console.stream_setStream_of_ne hy]
      exact hmarked
  waiting y other mark hclerk := by
    obtain ⟨rfl, rfl, rfl⟩ : x = y ∧ request = other ∧
      (room.booth.console.stream x).marks = mark := by
      simpa using hclerk
    simp [StreamService.submitMark]

theorem Penned.clerk {p : Position .clerk} {p? : Option (Position .clerk)} (h : room.Penned)
    (hnext : p.next room.booth = some (p?, booth)) :
    Penned ⟨booth, Function.update room.stands .clerk p?⟩ := by
  cases p with
  | listening =>
    obtain ⟨⟨q, v⟩, -, heq⟩ := Option.map_eq_some_iff.mp hnext
    cases heq
    refine h.of_clerk (fun x => Console.stream_input) fun x request mark => ?_
    cases q <;> simp
  | reaching mark =>
    cases hnext
    exact h.of_clerk (fun x => Console.stream_input) (by simp)
  | starting x request =>
    rw [Position.next, if_pos (h.staffed x)] at hnext
    cases hnext
    exact h.of_clerk (fun x => rfl) (by simp)
  | marking x request =>
    cases hnext
    exact h.marking
  | waiting x request mark =>
    rw [Position.next] at hnext
    split at hnext <;> cases hnext
    exact h.of_clerk (fun x => rfl) (by cases x <;> simp [Position.synced])
  | prompting request =>
    cases hnext
    exact h.of_clerk (fun x => by simp) (by simp)
  | reading request =>
    obtain ⟨⟨reply, r⟩, -, heq⟩ := Option.map_eq_some_iff.mp hnext
    cases heq
    exact h.of_clerk (fun x => by cases x <;> rfl) (by simp)
  | posting request reply =>
    cases hnext
    exact h.of_clerk (fun x => Console.stream_setMailbox) (by simp)
  | served =>
    cases hnext
    exact h.of_clerk (fun x => rfl) (by simp)

theorem Penned.moves (h : room.Penned) (hmove : room.Moves room') : room'.Penned := by
  cases hmove with
  | @step k p p? booth hp hnext =>
    cases k with
    | customer => exact h.customer hnext
    | delivery => exact h.delivery hnext
    | scribe x => exact h.scribe hp hnext
    | clerk => exact h.clerk hnext

/-! ### The customer and the clerk -/

theorem Told.of_same (h : room.Told lines total)
    (hreader : room'.booth.console.reader = room.booth.console.reader)
    (hmailboxes : room'.booth.console.mailboxes = room.booth.console.mailboxes)
    (hinput : room'.booth.console.input = room.booth.console.input)
    (hreplies : room'.booth.replies = room.booth.replies)
    (hcustomer : room'.stands .customer = room.stands .customer)
    (hdelivery : room'.stands .delivery = room.stands .delivery)
    (hclerk : room'.stands .clerk = room.stands .clerk) : room'.Told lines total := by
  have hmail : room'.booth.console.mailbox = room.booth.console.mailbox := by
    funext id
    rw [Console.mailbox, Console.mailbox, hmailboxes]
  have hahead : room'.Ahead lines = room.Ahead lines := by
    funext n
    rw [Ahead, Ahead, hreader, hdelivery]
  constructor
  case closed => rw [hreader, hdelivery]; exact h.closed
  case named => rw [hcustomer, hmailboxes]; exact h.named
  case replies => rw [hreplies]; exact h.replies
  case owed => rw [hreplies, hcustomer]; exact h.owed
  case stage => rw [hahead, hreplies, hmail, hcustomer, hclerk, hinput]; exact h.stage

theorem Told.scribe {x : Outlet} {p : Position (.scribe x)} {p? : Option (Position (.scribe x))}
    (h : room.Told lines total) (hnext : p.next room.booth = some (p?, booth)) :
    Told lines total ⟨booth, Function.update room.stands (.scribe x) p?⟩ := by
  cases p with
  | idle =>
    obtain ⟨⟨q, v⟩, -, heq⟩ := Option.map_eq_some_iff.mp hnext
    cases heq
    exact h.of_same (by simp) (by simp) (by simp) rfl rfl rfl rfl
  | holding _ q =>
    cases q <;> cases hnext <;> exact h.of_same (by simp) (by simp) (by simp) rfl rfl rfl rfl
  | written =>
    cases hnext
    exact h.of_same rfl rfl rfl rfl rfl rfl rfl

theorem Told.delivery {p : Position .delivery} {p? : Option (Position .delivery)}
    (h : room.Told lines total) (hp : room.stands .delivery = some p)
    (hnext : p.next room.booth = some (p?, booth)) :
    Told lines total ⟨booth, Function.update room.stands .delivery p?⟩ := by
  have hstage := h.stage
  cases p with
  | delivering chunks =>
    cases chunks with
    | nil =>
      cases hnext
      refine ⟨by simp, h.named, h.replies, h.owed, hstage.mono fun n hahead => ?_⟩
      simpa [Ahead, hp, later] using hahead
    | cons chunk chunks =>
      cases hnext
      have hopen : room.booth.console.reader.closed = false := by
        rw [Bool.eq_false_iff]
        exact fun hclosed => h.closed.mp hclosed _ hp
      refine ⟨by simp [Reader.feed, hopen], h.named, h.replies, h.owed,
        hstage.mono fun n hahead => ?_⟩
      simpa [Ahead, hp, later, Reader.feed] using hahead
  | delivered =>
    cases hnext
    have hclosed : room.booth.console.reader.closed = true := h.closed.mpr (by simp [hp])
    refine ⟨by simp [hclosed], h.named, h.replies, h.owed, hstage.mono fun n hahead => ?_⟩
    simpa [Ahead, hp, later] using hahead

theorem Told.customer {p : Position .customer} {p? : Option (Position .customer)}
    (h : room.Told lines total) (hp : room.stands .customer = some p)
    (hnext : p.next room.booth = some (p?, booth)) :
    Told lines total ⟨booth, Function.update room.stands .customer p?⟩ := by
  obtain ⟨hclosed, hnamed, hreplies, howed, hstage⟩ := h
  rw [hp] at hnamed howed hstage
  cases p with
  | asking requests =>
    obtain ⟨hclerk, hmail, hahead, hqueue⟩ := hstage.of_asking
    cases requests with
    | nil =>
      cases hnext
      refine ⟨hclosed, by simp [Booth.named], hreplies, howed, ?_⟩
      simp only [Function.update_self]
      rw [hqueue]
      exact .gone hclerk hmail hahead
    | cons request requests =>
      cases hnext
      have hsubmitted : (room.booth.console.input.submit request).queue = [.request request] := by
        rw [StreamService.submit, StreamService.queue_enqueue, hqueue]
        split <;> rfl
      refine ⟨hclosed, hnamed, hreplies, howed, ?_⟩
      simp only [Function.update_self]
      rw [hsubmitted]
      exact .asked request requests hclerk hmail hahead
  | awaiting request requests =>
    rw [Position.next] at hnext
    split at hnext
    · next reply console htake =>
      cases hnext
      rw [Console.takeReply, Prod.mk.injEq] at htake
      obtain ⟨hheld, rfl⟩ := htake
      obtain ⟨rfl, hclerk, hmail, hahead, hqueue⟩ := hstage.of_held hheld
      have hsize : request.mailbox < room.booth.console.mailboxes.size :=
        hnamed request List.mem_cons_self
      refine ⟨hclosed, fun other hother => ?_, hreplies, howed, ?_⟩
      · rw [Console.size_setMailbox]
        exact hnamed other (List.mem_cons_of_mem _ hother)
      · simp only [Function.update_self]
        have hempty : (room.booth.console.setMailbox request.mailbox
            { room.booth.console.mailbox request.mailbox with held := none }).input.queue =
              [] := hqueue
        rw [hempty]
        refine .noting requests hclerk (fun id => ?_) hahead
        rw [Console.mailbox_setMailbox hsize, hmail, hmail]
        split <;> simp [Mailbox.new]
    · cases hnext
  | noting reply requests =>
    cases hnext
    obtain ⟨rfl, hclerk, hmail, hahead, hqueue⟩ := hstage.of_noting
    refine ⟨hclosed, hnamed, ?_, ?_, ?_⟩
    · rw [List.length_append, List.length_singleton, List.range_succ, List.map_append, ← hreplies]
      rfl
    · simp only [Function.update_self, Booth.owed, List.length_append,
        List.length_singleton] at howed ⊢
      omega
    · simp only [Function.update_self, List.length_append, List.length_singleton]
      rw [hqueue]
      exact .rests requests hclerk hmail hahead

theorem Told.of_serves {p p' : Position .clerk} {request : LineRequest} (h : room.Told lines total)
    (hp : room.stands .clerk = some p) (hserves : Serves request p) (hserves' : Serves request p')
    (hreader : booth.console.reader = room.booth.console.reader)
    (hmailboxes : booth.console.mailboxes = room.booth.console.mailboxes)
    (hinput : booth.console.input = room.booth.console.input)
    (hreplies : booth.replies = room.booth.replies) :
    Told lines total ⟨booth, Function.update room.stands .clerk (some p')⟩ := by
  have hstage := h.stage
  rw [hp] at hstage
  obtain ⟨requests, hcustomer, hmail, hahead, hqueue⟩ := hstage.of_serves hserves
  -- Before the clerk moves on, it can as well stand there already.
  have hmoved : Told lines total ⟨room.booth, Function.update room.stands .clerk (some p')⟩ := by
    have hnew : Booth.Stage lines (room.Ahead lines) room.booth.replies.length
      room.booth.console.mailbox
        (room.stands .customer) (some p') room.booth.console.input.queue := by
      rw [hcustomer, hqueue]
      exact .serving requests hserves' hmail hahead
    exact ⟨h.closed, h.named, h.replies, h.owed, hnew⟩
  exact hmoved.of_same hreader hmailboxes hinput hreplies rfl rfl rfl

theorem Told.reading {request : LineRequest} {reply : ReadOutcome} {r : Reader}
    (h : room.Told lines total) (hp : room.stands .clerk = some (.reading request))
    (hread : room.booth.console.reader.takeLine? = some (reply, r)) :
    Told lines total ⟨{ room.booth with console := { room.booth.console with reader := r } },
      Function.update room.stands .clerk (some (.posting request reply))⟩ := by
  have hstage := h.stage
  rw [hp] at hstage
  obtain ⟨requests, hcustomer, hmail, hahead, hqueue⟩ := hstage.of_serves .reading
  have hlater : room.booth.console.reader.closed = true → later (room.stands .delivery) = [] := by
    intro hclosed
    have hnone := h.closed.mp hclosed
    rw [later.eq_def]
    split
    · next chunks hdelivery => exact absurd hdelivery (hnone chunks)
    · rfl
  obtain ⟨hall, hclosed⟩ := Reader.takeLine?_append hread hlater
  obtain ⟨rfl, hrest⟩ := Reader.Holds.takeLine? hahead hall
  refine ⟨by rw [hclosed]; exact h.closed, h.named, h.replies, h.owed, ?_⟩
  change Booth.Stage _ _ _ _ (room.stands .customer) (some (.posting request _))
    room.booth.console.input.queue
  rw [hcustomer, hqueue]
  exact .posting request requests hmail hrest

theorem Told.posting {request : LineRequest} {reply : ReadOutcome} (h : room.Told lines total)
    (hp : room.stands .clerk = some (.posting request reply)) :
    Told lines total ⟨{ room.booth with
        console := room.booth.console.setMailbox request.mailbox
          ((room.booth.console.mailbox request.mailbox).post reply) },
      Function.update room.stands .clerk (some .served)⟩ := by
  have hstage := h.stage
  rw [hp] at hstage
  obtain ⟨requests, hcustomer, rfl, hmail, hahead, hqueue⟩ := hstage.of_posting
  have hsize : request.mailbox < room.booth.console.mailboxes.size :=
    h.named request (by rw [hcustomer]; exact List.mem_cons_self)
  refine ⟨h.closed, fun other hother => ?_, h.replies, h.owed, ?_⟩
  · rw [Console.size_setMailbox]
    exact h.named other hother
  · change Booth.Stage _ _ _ _ (room.stands .customer) (some .served) room.booth.console.input.queue
    rw [hcustomer, hqueue]
    refine .posted request requests (.inr rfl) (fun id => ?_) hahead
    rw [Console.mailbox_setMailbox hsize, hmail, hmail]
    rfl

theorem Told.clerk {p : Position .clerk} {p? : Option (Position .clerk)} (hstaffed : room.Staffed)
    (h : room.Told lines total) (hp : room.stands .clerk = some p)
    (hnext : p.next room.booth = some (p?, booth)) :
    Told lines total ⟨booth, Function.update room.stands .clerk p?⟩ := by
  have hstage := h.stage
  rw [hp] at hstage
  cases p with
  | listening =>
    obtain ⟨⟨q, v⟩, htake, heq⟩ := Option.map_eq_some_iff.mp hnext
    cases heq
    obtain ⟨queue, hqueue, rfl⟩ := StreamService.exists_of_take htake
    rw [hqueue] at hstage
    obtain ⟨request, requests, hcustomer, -, hmail, hahead, rfl, rfl⟩ := hstage.of_queue
    refine ⟨h.closed, h.named, h.replies, h.owed, ?_⟩
    change Booth.Stage _ _ _ _ (room.stands .customer) (some (.starting .out request)) []
    rw [hcustomer]
    exact .serving requests (.starting .out) hmail hahead
  | reaching mark =>
    generalize room.stands .customer = customer at hstage
    generalize room.booth.console.input.queue = queue at hstage
    cases hstage with
    | serving _ hserves => cases hserves
    | rests _ hclerk | gone hclerk | asked _ _ hclerk | posted _ _ hclerk | noting _ hclerk =>
      simp [Rests] at hclerk
  | starting x request =>
    rw [Position.next, if_pos (hstaffed x)] at hnext
    cases hnext
    exact h.of_serves hp (.starting x) (.marking x) rfl rfl rfl rfl
  | marking x request =>
    cases hnext
    exact h.of_serves hp (.marking x) (.waiting x _) (by simp) (by simp) (by simp) rfl
  | waiting x request mark =>
    rw [Position.next] at hnext
    split at hnext <;> cases hnext
    refine h.of_serves hp (.waiting x mark) ?_ rfl rfl rfl rfl
    cases x with
    | out => exact .starting .err
    | err => exact .prompting
  | prompting request =>
    cases hnext
    exact h.of_serves hp .prompting .reading (by simp) (by simp) (by simp) rfl
  | reading request =>
    obtain ⟨⟨reply, r⟩, hread, heq⟩ := Option.map_eq_some_iff.mp hnext
    cases heq
    exact h.reading hp hread
  | posting request reply =>
    cases hnext
    exact h.posting hp
  | served =>
    cases hnext
    exact ⟨h.closed, h.named, h.replies, h.owed, hstage.of_rests (.inr rfl) (.inl rfl)⟩

theorem Told.moves (hstaffed : room.Staffed) (h : room.Told lines total)
    (hmove : room.Moves room') :
    room'.Told lines total := by
  cases hmove with
  | @step k p p? booth hp hnext =>
    cases k with
    | customer => exact h.customer hp hnext
    | delivery => exact h.delivery hp hnext
    | scribe x => exact h.scribe hnext
    | clerk => exact h.clerk hstaffed hp hnext

/-! ### The end -/

def cost : {k : Player} → Position k → Nat
  | _, .asking requests => 20 * requests.length + 1
  | _, .awaiting _ requests => 20 * requests.length + 3
  | _, .noting _ requests => 20 * requests.length + 2
  | _, .delivering chunks => chunks.length + 2
  | _, .delivered => 1
  | _, .idle _ => 0
  | _, .holding .. => 2
  | _, .written _ => 1
  | _, .listening => 0
  | _, .reaching _ => 2
  | _, .starting .out _ => 16
  | _, .marking .out _ => 15
  | _, .waiting .out .. => 11
  | _, .starting .err _ => 10
  | _, .marking .err _ => 9
  | _, .waiting .err .. => 5
  | _, .prompting _ => 4
  | _, .reading _ => 3
  | _, .posting .. => 2
  | _, .served => 1

def costOf {k : Player} (p? : Option (Position k)) : Nat :=
  p?.elim 0 cost

def work (room : Room) : Nat :=
  costOf (room.stands .customer) + costOf (room.stands .delivery) + costOf
    (room.stands (.scribe .out)) +
    costOf (room.stands (.scribe .err)) + costOf (room.stands .clerk) +
    3 * (room.booth.console.out.queue.length + room.booth.console.err.queue.length) +
    17 * room.booth.console.input.queue.length + (if room.booth.started.isEmpty then 0 else 1)

theorem length_enqueue {ρ : Type} (s : StreamService ρ) (q : Queued ρ) :
    (s.enqueue q).queue.length = s.queue.length + 1 := by
  rw [StreamService.queue_enqueue]
  split <;> simp

theorem work_lt_of_moves (hstaffed : room.Staffed) (hmove : room.Moves room') :
    room'.work < room.work := by
  cases hmove with
  | @step k p p? booth hp hnext =>
    cases p with
    | asking requests =>
      cases requests with
      | nil =>
        cases hnext
        simp [work, hp, costOf, cost]
      | cons request requests =>
        cases hnext
        simp only [work, hp, costOf, cost, StreamService.submit, length_enqueue,
          Function.update_self, Option.elim_some, List.length_cons]
        simp
        omega
    | awaiting request requests =>
      rw [Position.next] at hnext
      split at hnext
      · next reply console htake =>
        cases hnext
        rw [Console.takeReply, Prod.mk.injEq] at htake
        rw [← htake.2]
        simp [work, hp, costOf, cost, Console.setMailbox]
      · cases hnext
    | noting => cases hnext; simp [work, hp, costOf, cost]
    | delivering chunks => cases chunks <;> cases hnext <;> simp [work, hp, costOf, cost]
    | delivered => cases hnext; simp [work, hp, costOf, cost]
    | idle x =>
      obtain ⟨⟨q, v⟩, htake, heq⟩ := Option.map_eq_some_iff.mp hnext
      cases heq
      obtain ⟨queue, hqueue, rfl⟩ := StreamService.exists_of_take htake
      cases x <;> simp_all [work, costOf, cost, Console.stream, Console.setStream] <;> omega
    | holding x q =>
      cases x <;> cases q <;> cases hnext <;>
        simp [work, hp, costOf, cost, Console.write, Console.setStream, Console.stream,
          StreamService.reach]
    | written x => cases x <;> cases hnext <;> simp [work, hp, costOf, cost]
    | listening =>
      obtain ⟨⟨q, v⟩, htake, heq⟩ := Option.map_eq_some_iff.mp hnext
      cases heq
      obtain ⟨queue, hqueue, rfl⟩ := StreamService.exists_of_take htake
      cases q <;> simp [work, hp, hqueue, costOf, cost] <;> omega
    | reaching mark => cases hnext; simp [work, hp, costOf, cost, StreamService.reach]
    | starting x request =>
      rw [Position.next, if_pos (hstaffed x)] at hnext
      cases x <;> cases hnext <;> simp [work, hp, costOf, cost]
    | marking x request =>
      cases x <;> cases hnext <;> simp [work, hp, costOf, cost, Console.setStream, Console.stream,
        StreamService.submitMark, length_enqueue] <;> omega
    | waiting x request mark =>
      rw [Position.next] at hnext
      split at hnext <;> cases hnext
      cases x <;> simp [work, hp, costOf, cost, Position.synced]
    | prompting request => cases hnext; simp [work, hp, costOf, cost, Console.write]
    | reading request =>
      obtain ⟨⟨reply, r⟩, -, heq⟩ := Option.map_eq_some_iff.mp hnext
      cases heq
      simp [work, hp, costOf, cost]
    | posting request reply => cases hnext; simp [work, hp, costOf, cost, Console.setMailbox]
    | served => cases hnext; simp [work, hp, costOf, cost]

def Stuck (room : Room) : Prop :=
  ∀ k p, room.stands k = some p → p.next room.booth = none

theorem Stuck.queue_eq_nil {x : Outlet} {p : Position (.scribe x)} (h : room.Stuck)
    (hp : room.stands (.scribe x) = some p) :
      p = .idle x ∧ (room.booth.console.stream x).queue = [] := by
  have hnone := h _ p hp
  cases p with
  | idle =>
    refine ⟨rfl, ?_⟩
    rw [Position.next, Option.map_eq_none_iff, StreamService.take?] at hnone
    split at hnone
    · assumption
    · cases hnone
  | holding _ q => cases q <;> cases hnone
  | written => cases hnone

theorem Stuck.hasReached (h : room.Stuck) (hpenned : room.Penned) {x : Outlet} {mark : Nat}
    (hmark : mark < (room.booth.console.stream x).marks) :
    (room.booth.console.stream x).hasReached mark = true := by
  obtain ⟨p, hp, hmarked⟩ := hpenned.marked x
  obtain ⟨rfl, hqueue⟩ := h.queue_eq_nil hp
  rcases hmarked mark hmark with hin | hin | hheld
  · exact List.contains_iff_mem.mpr hin
  · rw [hqueue] at hin
    cases hin
  · cases hheld

theorem Stuck.closed (h : room.Stuck) (htold : room.Told lines total) :
    room.booth.console.reader.closed = true := by
  refine htold.closed.mpr fun chunks hchunks => ?_
  have hnone := h _ _ hchunks
  cases chunks <;> cases hnone

theorem Stuck.not_serves (h : room.Stuck) (hpenned : room.Penned) (htold : room.Told lines total)
    {p : Position .clerk} {request : LineRequest} (hp : room.stands .clerk = some p) :
      ¬Serves request p := by
  intro hserves
  have hnone := h _ _ hp
  cases hserves with
  | starting | marking | prompting => cases hnone
  | waiting x mark =>
    rw [Position.next, if_pos (h.hasReached hpenned (hpenned.waiting x request mark hp))] at hnone
    cases hnone
  | reading =>
    rw [Position.next, Option.map_eq_none_iff] at hnone
    have hsome := Reader.takeLine?_isSome_of_closed (h.closed htold)
    rw [hnone] at hsome
    cases hsome

theorem Stuck.gone (h : room.Stuck) (hpenned : room.Penned) (htold : room.Told lines total) :
    room.stands .customer = none := by
  have hcustomer := h .customer
  have hclerk := h .clerk
  have hserves : ∀ p request, room.stands .clerk = some p → ¬Serves request p :=
    fun _ _ hp => h.not_serves hpenned htold hp
  have hstage := htold.stage
  generalize hcustomer? : room.stands .customer = customer at hcustomer hstage
  generalize room.stands .clerk = clerk at hclerk hserves hstage
  generalize hqueue : room.booth.console.input.queue = queue at hstage
  cases hstage with
  | gone => rfl
  | rests requests => cases requests <;> cases hcustomer _ rfl
  | asked request requests hrests =>
    rcases hrests with rfl | rfl
    · have hnone := hclerk _ rfl
      rw [Position.next, StreamService.take?, hqueue] at hnone
      cases hnone
    · cases hclerk _ rfl
  | serving requests hserving => exact absurd hserving (hserves _ _ rfl)
  | posting => cases hclerk _ rfl
  | posted request requests _ hmail =>
    have hnone := hcustomer _ rfl
    rw [Position.next, Console.takeReply, hmail, if_pos rfl] at hnone
    cases hnone
  | noting => cases hcustomer _ rfl

theorem acc_of_shows {ids : Player → ThreadId} {m : Machine Booth StreamName}
    (hpenned : room.Penned) (h : room.Shows ids m) : Acc (fun m' m => life.Advances m m') m := by
  induction hwork : room.work using Nat.strongRecOn generalizing room m with
  | ind n ih =>
    refine ⟨m, fun m' hstep => ?_⟩
    rcases shows_step hpenned.staffed h hstep with ⟨room', hmoves, hshows⟩ | ⟨hstarted, hshows⟩
    · exact ih room'.work (hwork ▸ work_lt_of_moves hpenned.staffed hmoves)
        (hpenned.moves hmoves) hshows rfl
    · refine ih room.adopted.work ?_ hpenned.adopted hshows rfl
      rw [← hwork]
      simp [work, adopted, hstarted]

theorem exists_sound {ids : Player → ThreadId} {m m' : Machine Booth StreamName}
    (hpenned : room.Penned)
    (htold : room.Told lines total) (h : room.Shows ids m) (hreaches : life.Reaches m m') :
    ∃ room' : Room, room'.Penned ∧ room'.Told lines total ∧ room'.Shows ids m' := by
  induction hreaches generalizing room with
  | refl => exact ⟨room, hpenned, htold, h⟩
  | head hstep _ ih =>
    rcases shows_of_step hpenned.staffed h hstep with hshows | ⟨room', hmoves, hshows⟩ | hshows
    · exact ih hpenned htold hshows
    · exact ih (hpenned.moves hmoves) (htold.moves hpenned.staffed hmoves) hshows
    · exact ih hpenned.adopted (htold.of_same rfl rfl rfl rfl rfl rfl rfl) hshows

end Room

namespace Booth

variable {count : Nat} {endIsFinal : Bool} {customer delivery starter : ThreadId}
  {requests : List LineRequest} {chunks : List Bytes} {text : String}

def opened (count : Nat) (endIsFinal : Bool) : Booth :=
  let streams := (new count endIsFinal).console
  { console := { streams with
      out := { streams.out with started := true }
      err := { streams.err with started := true }
      input := { streams.input with started := true } }
    started := [(1, .out), (2, .err), (3, .input)]
    replies := [] }

theorem runAlone?_start :
    place.start.runAlone? starter (new count endIsFinal) = some ((), opened count endIsFinal) := rfl

def opening (count : Nat) (endIsFinal : Bool) (requests : List LineRequest) (chunks : List Bytes) :
    Room where
  booth := opened count endIsFinal
  stands
    | .customer => some (.asking requests)
    | .delivery => some (.delivering chunks)
    | .scribe x => some (.idle x)
    | .clerk => some .listening

def idsAt (customer delivery : ThreadId) : Player → ThreadId
  | .customer => customer
  | .delivery => delivery
  | .scribe x => StandaloneConsole.workerId x.name
  | .clerk => StandaloneConsole.workerId .input

theorem shows_opening : (opening count endIsFinal requests chunks).Shows (idsAt customer delivery)
    ⟨opened count endIsFinal, [⟨customer, askAll requests⟩, ⟨delivery, deliver chunks⟩]⟩ :=
  ⟨rfl, rfl⟩

theorem penned_opening : (opening count endIsFinal requests chunks).Penned where
  staffed x := by cases x <;> rfl
  marked x := by
    refine ⟨.idle x, rfl, ?_⟩
    cases x <;> simp [opening, opened, new, Console.stream, Console.new, StreamService.new]
  waiting x request mark hclerk := by simp [opening] at hclerk

theorem told_opening (hchunks : ∀ chunk ∈ chunks, chunk ≠ [])
    (htext : Bytes.text? chunks.flatten = some text)
    (hmailboxes : ∀ request ∈ requests, request.mailbox < count) :
    (opening count endIsFinal requests chunks).Told (Text.lines text.toList) requests.length where
  closed := by simp [opening, opened, new, Console.new]
  named := by simpa [opening, opened, new, named] using hmailboxes
  replies := rfl
  owed := by simp [opening, opened, owed]
  stage := .rests requests (.inl rfl)
    (fun id => by
      simp [opening, opened, new, Console.mailbox, Array.getD_eq_getD_getElem?,
        Array.getElem?_replicate]
      split <;> rfl)
    (Reader.holds_lines hchunks (Bytes.eq_ofChars_of_text? htext))

/-- However a text comes in chunks, and however the steps of all threads fall, the customer is told
the segments of the text in their order, each without the carriage returns at its end, and behind
the last one that the input is at its end; and everything comes to rest only when every request was
answered. -/
theorem told_segments (endIsFinal : Bool) (starter customer delivery : ThreadId)
    (hchunks : ∀ chunk ∈ chunks, chunk ≠ []) (htext : Bytes.text? chunks.flatten = some text)
    (hmailboxes : ∀ request ∈ requests, request.mailbox < count) :
    ∃ s, place.start.runAlone? starter (new count endIsFinal) = some ((), s) ∧
      ∀ m, life.Reaches ⟨s, [⟨customer, askAll requests⟩, ⟨delivery, deliver chunks⟩]⟩ m →
        (∃ n ≤ requests.length, m.shared.replies =
          (List.range n).map (Reader.due ((Text.segments text.toList).map Text.trimLine))) ∧
        Acc (fun m' m => life.Advances m m') m ∧
        ((∀ m', ¬life.Advances m m') → m.shared.replies =
          (List.range requests.length).map
          (Reader.due ((Text.segments text.toList).map Text.trimLine))) := by
  refine ⟨_, runAlone?_start, fun m hreaches => ?_⟩
  rw [← Text.lines_eq_segments]
  have hopening : (opening count endIsFinal requests chunks).Shows (idsAt customer delivery)
      ⟨opened count endIsFinal, [⟨customer, askAll requests⟩, ⟨delivery, deliver chunks⟩]⟩ :=
    shows_opening
  obtain ⟨room, hpenned, htold, hshows⟩ := Room.exists_sound penned_opening
    (told_opening hchunks htext hmailboxes) hopening hreaches
  have howed := htold.owed
  rw [hshows.shared]
  refine ⟨⟨_, by omega, htold.replies⟩, Room.acc_of_shows hpenned hshows, fun hstuck => ?_⟩
  have hstuck' : room.Stuck := fun k p hp =>
    Room.next_eq_none_of_stuck hstuck hshows
      (by cases k with | scribe x => cases x <;> decide | _ => decide) hp
  rw [hstuck'.gone hpenned htold] at howed
  have hlength : room.booth.replies.length = requests.length := howed
  rw [htold.replies, hlength]

/-- A character and a line end that are cut in two, and a last line without an end. -/
theorem told_segments_of_split_character :
    ∃ s, place.start.runAlone? 0 (new 1 true) = some ((), s) ∧
      ∀ m, life.Reaches ⟨s, [⟨4, askAll [⟨"> ", 0⟩, ⟨"", 0⟩, ⟨"> ", 0⟩]⟩,
          ⟨5, deliver [[0xC3], [0xA9, 0x0D], [0x0A, 0x62]]⟩]⟩ m →
        Acc (fun m' m => life.Advances m m') m ∧
        ((∀ m', ¬life.Advances m m') →
          m.shared.replies = [.line "é", .line "b", .endOfInput]) := by
  obtain ⟨s, hs, h⟩ := @told_segments 1 [⟨"> ", 0⟩, ⟨"", 0⟩, ⟨"> ", 0⟩]
    [[0xC3], [0xA9, 0x0D], [0x0A, 0x62]] "é\r\nb" true 0 4 5 (by decide) rfl
    (by decide)
  refine ⟨s, hs, fun m hreaches => ?_⟩
  obtain ⟨-, hacc, hstuck⟩ := h m hreaches
  refine ⟨hacc, fun hm => (hstuck hm).trans ?_⟩
  decide +kernel

end Booth

end SessionShell
