import Mathlib.Data.List.DropRight
import Mathlib.Data.List.SplitBy
import SessionShell.Proofs.Dialogue.Conversation
import SessionShell.Proofs.Shell.Reading

/-!
The statements that are read from lines.

The mark that makes a statement go on is looked for at the end of what was read of the statement,
not at the end of its last line. Where no line has a line end in it this is the same, so the
statements are the lines in groups, each as long as the marks at the ends of its lines make it.
-/

namespace SessionShell

open SessionShell.Action Shell Dialogue

namespace Dialogue

variable {mark : Char} {line : String} {lines group : List String}

/-! ## Groups of lines -/

def goesOn (mark : Char) (line : String) : Bool :=
  (continued? mark line).isSome

/-- The lines in groups, each of which goes on up to its last line. -/
def groups (mark : Char) (lines : List String) : List (List String) :=
  lines.splitBy fun line _ => goesOn mark line

def unmarked (mark : Char) (line : String) : String :=
  (continued? mark line).getD line

def joined (mark : Char) (group : List String) : String :=
  "\n".intercalate (group.map (unmarked mark))

section Chain

variable {α : Type*} {p : α → Bool}

theorem isChain_left_iff {l : List α} : l.IsChain (fun a _ => p a) ↔ ∀ a ∈ l.dropLast, p a := by
  induction l with
  | nil => simp
  | cons a l ih =>
    rw [List.isChain_cons, ih]
    cases l with
    | nil => simp
    | cons b l => simp [List.dropLast]

theorem isChain_getLast_iff {ls : List (List α)} (h : [] ∉ ls) :
    ls.IsChain (fun l m => ∃ (hl : l ≠ []) (_ : m ≠ []), p (l.getLast hl) = false) ↔
      ∀ l ∈ ls.dropLast, ∀ a ∈ l.getLast?, p a = false := by
  induction ls with
  | nil => simp
  | cons l ls ih =>
    rw [List.mem_cons, not_or] at h
    rw [List.isChain_cons, ih h.2]
    cases ls with
    | nil => simp
    | cons m ls =>
      have hl : l ≠ [] := Ne.symm h.1
      have hm : m ≠ [] := fun hm => h.2 (hm ▸ List.mem_cons_self)
      simp [List.dropLast, hl, hm, List.getLast?_eq_getLast_of_ne_nil]

end Chain

/-- All lines in their order, in groups each of which is as long as it goes on. -/
structure IsGrouping (mark : Char) (lines : List String) (gs : List (List String)) : Prop where
  flatten : lines = gs.flatten
  nil_not_mem : [] ∉ gs
  goesOn_dropLast : ∀ g ∈ gs, ∀ line ∈ g.dropLast, goesOn mark line
  stops_getLast : ∀ g ∈ gs.dropLast, ∀ line ∈ g.getLast?, goesOn mark line = false

theorem isGrouping_iff {gs : List (List String)} : IsGrouping mark lines gs ↔
    groups mark lines = gs := by
  have hgoesOn : (∀ g ∈ gs, g.IsChain fun line _ => goesOn mark line) ↔
      ∀ g ∈ gs, ∀ line ∈ g.dropLast, goesOn mark line :=
    forall₂_congr fun _ _ => isChain_left_iff
  rw [groups, List.splitBy_eq_iff, hgoesOn]
  constructor
  · rintro ⟨hflatten, hne, hgoesOn, hstops⟩
    exact ⟨hflatten, hne, hgoesOn, (isChain_getLast_iff hne).mpr hstops⟩
  · rintro ⟨hflatten, hne, hgoesOn, hstops⟩
    exact ⟨hflatten, hne, hgoesOn, (isChain_getLast_iff hne).mp hstops⟩

theorem groups_append_of_goesOn {closed : List String}
    (hclosed : ∀ line ∈ closed.getLast?, goesOn mark line = false)
    (hgroup : ∀ line ∈ group, goesOn mark line) (line : String) :
    groups mark (closed ++ (group ++ [line])) = groups mark closed ++ [group ++ [line]] := by
  have hchain : (group ++ [line]).IsChain fun line _ => goesOn mark line :=
    isChain_left_iff.mpr (by simpa using hgroup)
  rw [groups, List.splitBy_append fun x hx _ _ => hclosed x hx,
    List.splitBy_of_isChain (by simp) hchain]
  rfl

theorem joined_append_singleton (hne : group ≠ []) :
    joined mark (group ++ [line]) = joined mark group ++ "\n" ++ unmarked mark line := by
  rw [joined, List.map_append, String.intercalate_append_of_ne_nil (by simpa using hne) (by simp)]
  simp [joined]

theorem continued?_append {s : String} (hmark : mark ≠ '\n') :
    continued? mark (s ++ "\n" ++ line) = (continued? mark line).map fun rest =>
      s ++ "\n" ++ rest := by
  have htext : (s ++ "\n" ++ line).toList = s.toList ++ '\n' :: line.toList := by
    simp [String.toList_append]
  rw [continued?, continued?, htext]
  rcases List.eq_nil_or_concat line.toList with hempty | ⟨front, c, hline⟩
  · simp [hempty, hmark.symm]
  · have hwhole : s.toList ++ '\n' :: line.toList = (s.toList ++ '\n' :: front) ++ [c] := by
      rw [hline, List.concat_eq_append, List.append_assoc, List.cons_append]
    rw [hwhole, hline, List.concat_eq_append, List.getLast?_concat, List.getLast?_concat,
      List.dropLast_concat, List.dropLast_concat]
    split
    · exact congrArg some (String.toList_inj.mp (by simp))
    · rfl

def unfinished (mark : Char) (group : List String) : Option String :=
  if group = [] then none else some (joined mark group)

theorem continued?_unfinished (hgroup : ∀ line ∈ group, goesOn mark line)
    (hlines : ∀ line ∈ group, '\n' ∉ line.toList) :
    continued? mark ((unfinished mark group).elim line fun s => s ++ "\n" ++ line) =
      if goesOn mark line then some (joined mark (group ++ [line])) else none := by
  have hunmarked : continued? mark line = if goesOn mark line then some (unmarked mark line)
      else none := by
    rw [goesOn, unmarked]
    cases continued? mark line <;> rfl
  cases group with
  | nil =>
    refine hunmarked.trans ?_
    simp [joined]
  | cons first group =>
    have hne : first :: group ≠ [] := List.cons_ne_nil first group
    have hmark : mark ≠ '\n' := by
      rintro rfl
      have hfirst := hgroup first List.mem_cons_self
      rw [goesOn, continued?] at hfirst
      split at hfirst
      · next hlast => exact hlines first List.mem_cons_self (List.mem_of_getLast? hlast)
      · cases hfirst
    rw [unfinished, if_neg hne, Option.elim_some, continued?_append hmark, hunmarked,
      joined_append_singleton hne]
    split <;> rfl

theorem elim_unfinished (h : goesOn mark line = false) :
    ((unfinished mark group).elim line fun s => s ++ "\n" ++ line) = joined mark
    (group ++ [line]) := by
  have hunmarked : unmarked mark line = line := by
    rw [goesOn, Option.isSome_eq_false_iff, Option.isNone_iff_eq_none] at h
    rw [unmarked, h, Option.getD_none]
  by_cases hne : group = []
  · simp [unfinished, hne, joined, hunmarked]
  · rw [unfinished, if_neg hne, Option.elim_some, joined_append_singleton hne, hunmarked]

/-! ## From outcome to outcome -/

/-- What a turn of reading comes to. -/
inductive Reading where
  | returned (outcome : ReadOutcome)
  | goesOn (statement : String)

/-- What has come of reading so far. -/
structure Readings where
  heard : List ReadOutcome
  read : List ReadOutcome
  before : Option String

def next (mark : Char) (before : Option String) : ReadOutcome → Reading
  | .endOfInput => .returned (before.elim .endOfInput .line)
  | .line line =>
    let text := before.elim line fun s => s ++ "\n" ++ line
    match continued? mark text with
    | some statement => .goesOn statement
    | none => .returned (.line text)

namespace Readings

def start : Readings :=
  ⟨[], [], none⟩

def after (r : Readings) (outcome : ReadOutcome) : Reading → Readings
  | .returned result => ⟨r.heard ++ [outcome], r.read ++ [result], none⟩
  | .goesOn statement => ⟨r.heard ++ [outcome], r.read, some statement⟩

def hear (mark : Char) (r : Readings) (outcome : ReadOutcome) : Readings :=
  r.after outcome (next mark r.before outcome)

end Readings

def opened (mark : Char) (lines : List String) : List String :=
  lines.rtakeWhile (goesOn mark)

def closed (mark : Char) (lines : List String) : List String :=
  lines.rdropWhile (goesOn mark)

theorem closed_append_opened (mark : Char) (lines : List String) :
    closed mark lines ++ opened mark lines = lines :=
  List.rdropWhile_append_rtakeWhile

theorem goesOn_of_mem_opened : ∀ line ∈ opened mark lines, goesOn mark line :=
  fun _ => List.mem_rtakeWhile_imp

theorem stops_of_mem_getLast?_closed :
    ∀ line ∈ (closed mark lines).getLast?, goesOn mark line = false := by
  intro line hline
  obtain ⟨hne, rfl⟩ := List.mem_getLast?_eq_getLast hline
  exact Bool.eq_false_iff.mpr (List.rdropWhile_last_not (goesOn mark) lines hne)

theorem opened_concat_of_goesOn (h : goesOn mark line) :
    opened mark (lines ++ [line]) = opened mark lines ++ [line] :=
  List.rtakeWhile_concat_pos _ _ _ h

theorem closed_concat_of_goesOn (h : goesOn mark line) :
    closed mark (lines ++ [line]) = closed mark lines :=
  List.rdropWhile_concat_pos _ _ _ h

theorem opened_concat_of_stops (h : goesOn mark line = false) :
    opened mark (lines ++ [line]) = [] :=
  List.rtakeWhile_concat_neg _ _ _ (by simp [h])

theorem closed_concat_of_stops (h : goesOn mark line = false) :
    closed mark (lines ++ [line]) = lines ++ [line] :=
  List.rdropWhile_concat_neg _ _ _ (by simp [h])

def statements (mark : Char) (lines : List String) : List ReadOutcome :=
  (groups mark lines).map fun group => .line (joined mark group)

theorem statements_append (hgroup : ∀ line ∈ group, goesOn mark line) (line : String) :
    statements mark (closed mark lines ++ (group ++ [line])) =
      statements mark (closed mark lines) ++ [.line (joined mark (group ++ [line]))] := by
  rw [statements, groups_append_of_goesOn stops_of_mem_getLast?_closed hgroup, List.map_append]
  rfl

theorem statements_eq : statements mark lines = statements mark (closed mark lines) ++
    ((unfinished mark (opened mark lines)).map ReadOutcome.line).toList := by
  have hwhole := closed_append_opened mark lines
  rcases List.eq_nil_or_concat (opened mark lines) with hnil | ⟨group, line, hopened⟩
  · rw [hnil, List.append_nil] at hwhole
    simp [hwhole, hnil, unfinished]
  · rw [List.concat_eq_append] at hopened
    have hgroup : ∀ l ∈ group, goesOn mark l := by
      intro l hl
      have hmem : l ∈ opened mark lines := by simp [hopened, hl]
      exact goesOn_of_mem_opened l hmem
    rw [hopened] at hwhole
    conv_lhs => rw [← hwhole, statements_append hgroup line]
    simp [hopened, unfinished]

theorem hear_line {r : Readings} (hbefore : r.before = unfinished mark group)
    (hgroup : ∀ line ∈ group, goesOn mark line) (hlines : ∀ line ∈ group, '\n' ∉ line.toList) :
    r.hear mark (.line line) =
      if goesOn mark line then ⟨r.heard ++ [.line line], r.read, unfinished mark (group ++ [line])⟩
      else ⟨r.heard ++ [.line line], r.read ++ [.line (joined mark (group ++ [line]))], none⟩ := by
  rw [Readings.hear, next, hbefore, continued?_unfinished hgroup hlines]
  cases hline : goesOn mark line with
  | true => simp [Readings.after, unfinished]
  | false => simp [Readings.after, elim_unfinished hline]

theorem foldl_hear_lines (hlines : ∀ line ∈ lines, '\n' ∉ line.toList) :
    (lines.map ReadOutcome.line).foldl (Readings.hear mark) .start =
      ⟨lines.map .line, statements mark (closed mark lines),
        unfinished mark (opened mark lines)⟩ := by
  induction lines using List.reverseRecOn with
  | nil => rfl
  | append_singleton lines line ih =>
    have hends : ∀ l ∈ opened mark lines, '\n' ∉ l.toList := fun l hl =>
      hlines l (List.mem_append_left _ ((List.rtakeWhile_suffix _ _).subset hl))
    rw [List.map_append, List.foldl_append, ih fun l hl => hlines l (List.mem_append_left _ hl)]
    refine (hear_line rfl goesOn_of_mem_opened hends).trans ?_
    cases hline : goesOn mark line with
    | true => simp [opened_concat_of_goesOn hline, closed_concat_of_goesOn hline]
    | false =>
      have hwhole : lines ++ [line] = closed mark lines ++ (opened mark lines ++ [line]) := by
        rw [← List.append_assoc, closed_append_opened]
      rw [opened_concat_of_stops hline, closed_concat_of_stops hline, hwhole,
        statements_append goesOn_of_mem_opened]
      simp [unfinished]

def cutShort (mark : Char) (lines : List String) : Bool :=
  lines.getLast?.any (goesOn mark)

theorem isSome_unfinished_opened :
    (unfinished mark (opened mark lines)).isSome = cutShort mark lines := by
  rcases List.eq_nil_or_concat lines with rfl | ⟨front, line, rfl⟩
  · rfl
  · rw [List.concat_eq_append, cutShort, List.getLast?_concat, Option.any_some]
    cases hline : goesOn mark line with
    | true => simp [opened_concat_of_goesOn hline, unfinished]
    | false => simp [opened_concat_of_stops hline, unfinished]

/-- How often the input is found at its end, when all its lines are read and then so many
times more. -/
def endsSeen (mark : Char) (lines : List String) (ends : Nat) : Nat :=
  if cutShort mark lines then ends - 1 else ends

theorem heard_foldl (outcomes : List ReadOutcome) (r : Readings) :
    (outcomes.foldl (Readings.hear mark) r).heard = r.heard ++ outcomes := by
  induction outcomes generalizing r with
  | nil => simp
  | cons outcome outcomes ih =>
    have hheard : (r.hear mark outcome).heard = r.heard ++ [outcome] := by
      rw [Readings.hear]
      cases next mark r.before outcome <;> rfl
    rw [List.foldl_cons, ih, hheard, List.append_assoc, List.singleton_append]

/-- What has come of reading some lines and then so many ends of the input. -/
structure Reads (mark : Char) (lines : List String) (ends : Nat) (r : Readings) : Prop where
  /-- The statements, the last of which may be unfinished, and the ends of the input that cut
  none short. -/
  read : r.read ++ (r.before.map ReadOutcome.line).toList =
    statements mark lines ++ List.replicate (endsSeen mark lines ends) ReadOutcome.endOfInput
  before : r.before.isSome ↔ ends = 0 ∧ cutShort mark lines

theorem Reads.hear_endOfInput {ends : Nat} {r : Readings} (h : Reads mark lines ends r) :
    Reads mark lines (ends + 1) (r.hear mark .endOfInput) := by
  have hread := h.read
  rw [Readings.hear, next, Readings.after]
  cases hbefore : r.before with
  | some statement =>
    obtain ⟨rfl, hcut⟩ := h.before.mp (by simp [hbefore])
    rw [hbefore] at hread
    exact ⟨by simpa [endsSeen, hcut] using hread, by simp⟩
  | none =>
    rw [hbefore] at hread
    have hmore : ¬(ends = 0 ∧ cutShort mark lines) := by
      rw [← h.before, hbefore]
      simp
    have hends : endsSeen mark lines (ends + 1) = endsSeen mark lines ends + 1 := by
      cases hcut : cutShort mark lines with
      | true =>
        have hpos : ends ≠ 0 := fun hzero => hmore ⟨hzero, hcut⟩
        simp only [endsSeen, hcut, if_true]
        omega
      | false => simp [endsSeen, hcut]
    refine ⟨?_, by simp⟩
    rw [hends, List.replicate_succ', ← List.append_assoc, ← hread]
    simp

theorem reads_foldl (ends : Nat) (hlines : ∀ line ∈ lines, '\n' ∉ line.toList) :
    Reads mark lines ends
      ((lines.map ReadOutcome.line ++ List.replicate ends ReadOutcome.endOfInput).foldl
        (Readings.hear mark) .start) := by
  induction ends with
  | zero =>
    rw [List.replicate_zero, List.append_nil, foldl_hear_lines hlines]
    exact ⟨by simp [endsSeen, ← statements_eq], by simp [isSome_unfinished_opened]⟩
  | succ ends ih =>
    rw [List.replicate_succ', ← List.append_assoc, List.foldl_append]
    exact ih.hear_endOfInput

end Dialogue

/-! ## Turns of reading -/

namespace Shell

variable {id : SessionId} {me : ThreadId} {s s' : Shell}

def askFor (id : SessionId) (before : Option String) :
    Action Shell (Except ShellError ReadOutcome) := do
  let text ← renderPrompt id before.isSome
  (prompt id text).run

def heed (before : Option String) : ReadOutcome → Action Shell Reading
  | .endOfInput => return .returned (before.elim .endOfInput .line)
  | .line line => do
    let settings ← getSettings
    return next settings.prompt.continueChar before (.line line)

/-- What the loop does with what reading has come to. -/
def follow (id : SessionId) : Reading → Action Shell Phase
  | .goesOn statement => return .reading statement
  | .returned .endOfInput => do
    onEndOfInput id
    rest id
  | .returned (.line statement) => do
    evaluateStatement id statement
    rest id

theorem readStatement_eq (id : SessionId) (before : Option String) : readStatement id before = (do
    match ← askFor id before with
    | .error e =>
      if ← isLive id then reportError e
      rest id
    | .ok outcome => follow id (← heed before outcome)) := by
  refine Eq.trans ?_ (Program.bind_assoc _ _ _).symm
  refine congrArg (renderPrompt id before.isSome >>= ·) (funext fun text => ?_)
  refine congrArg ((prompt id text).run >>= ·) (funext fun r => ?_)
  cases r with
  | error e => rfl
  | ok outcome =>
    cases outcome with
    | endOfInput => cases before <;> simp only [heed, pure_bind, follow, Option.elim]
    | line line =>
      refine congrArg (getSettings >>= ·) (funext fun settings => ?_)
      change _ = follow id (next settings.prompt.continueChar before (.line line))
      rw [next]
      cases continued? settings.prompt.continueChar
        (before.elim line fun s => s ++ "\n" ++ line) <;> rfl

/-- Reads on for so many lines, statement after statement. -/
def readOn (id : SessionId) : Nat → Readings → Checked Readings
  | 0, r => return r
  | turns + 1, r => do
    let outcome ← (askFor id r.before : Checked ReadOutcome)
    let reading ← heed r.before outcome
    readOn id turns (r.after outcome reading)

def attention (id : SessionId) (s : Shell) : Char × Bool :=
  (s.settings.prompt.continueChar, (s.session id).disposed)

variable {x : Char × Bool} {mark : Char}

theorem attention_modifySession {other : SessionId} {f : Session → Session}
    (h : ∀ session, (f session).disposed = session.disposed) :
    attention id (modifySession other f s) = attention id s :=
  Prod.ext rfl (read_modifySession h)

theorem exists_session (s : Shell) (id : SessionId) (session : Session)
    (h : session.disposed = (s.session id).disposed) :
    ∃ s' : Shell, attention id s' = attention id s ∧ s'.session id = session := by
  have hsession : Shell.session { s with sessions := Array.replicate (id + 1) session } id =
      session := by
    simp [Shell.session]
  exact ⟨{ s with sessions := Array.replicate (id + 1) session },
    Prod.ext rfl ((congrArg Session.disposed hsession).trans h), hsession⟩

theorem exists_granted (id : SessionId) (ticket : Nat) (s : Shell) :
    ∃ s' : Shell, attention id s' = attention id s ∧ ((s'.session id).focus.grant? ticket).map
      (fun focus =>
      ((), modifySession id (fun session => { session with focus }) s')) ≠ none := by
  obtain ⟨s', hsame, hs'⟩ :=
    exists_session s id { s.session id with focus := ⟨1, ticket + 1, ticket⟩ } rfl
  exact ⟨s', hsame, by simp [hs', FairSemaphore.grant?]⟩

theorem exists_free (id : SessionId) (s : Shell) :
    ∃ s' : Shell, attention id s' = attention id s ∧ (if (s'.session id).asking then none
      else some ((), modifySession id (fun session => { session with asking := true }) s')) ≠
        none := by
  obtain ⟨s', hsame, hs'⟩ := exists_session s id { s.session id with asking := false } rfl
  exact ⟨s', hsame, by simp [hs']⟩

theorem exists_replied (id : SessionId) (mailbox : Nat) (s : Shell) :
    ∃ s' : Shell, attention id s' = attention id s ∧
      (match (consolePlace.get s').takeReply mailbox with
      | (some outcome, console) => some (outcome, consolePlace.set console s')
      | (none, _) => none) ≠ none := by
  let mailboxes : Array Mailbox := Array.replicate (mailbox + 1) ⟨some .endOfInput, false⟩
  refine ⟨{ s with console := { s.console with mailboxes } }, rfl, ?_⟩
  simp [mailboxes, consolePlace, Console.takeReply, Console.mailbox]

theorem yields_ensureLive_attention :
    Yields (attention id) me (ensureLive id).run (mark, false) fun r y => r = .ok () ∧
      y = (mark, false) := by
  refine yields_ensureLive_of_live fun s hs => ?_
  exact congrArg Prod.snd hs

theorem yields_updateSession_attention {f : Session → Session}
    (h : ∀ session, (f session).disposed = session.disposed) :
    Yields (attention id) me (updateSession id f) x fun _ y => y = x :=
  yields_update fun _ hs => (attention_modifySession h).trans hs

theorem yields_acquire_attention : Yields (attention id) me (acquire id) x fun _ y => y = x := by
  refine Yields.bind (P := fun _ y => y = x) (yields_step fun s hs => ?_) ?_
  · exact (attention_modifySession (f := fun session => { session with
      focus := (s.session id).focus.arrive.2 }) fun _ => rfl).trans hs
  rintro ticket _ rfl
  refine always_await (fun s _ s' hs hgrant => ?_) fun s _ =>
    (exists_granted id ticket s).imp fun _ h => h.2
  obtain ⟨focus, -, heq⟩ := Option.map_eq_some_iff.mp hgrant
  obtain ⟨rfl, rfl⟩ := Prod.mk.inj heq
  exact (attention_modifySession (f := fun session => { session with focus }) fun _ => rfl).trans hs

theorem yields_askLine_attention (text : String) :
    Yields (attention id) me (askLine id text).run (mark, false) fun r y =>
      (∃ outcome, r = .ok outcome) ∧ y = (mark, false) := by
  refine Yields.run_bind yields_ensureLive_attention ?_ fun e y h => nomatch h.1
  rintro _ _ ⟨-, rfl⟩
  refine Yields.lift_bind (P := fun _ y => y = (mark, false)) ?_ ?_
  · refine always_await (fun s _ s' hs hfree => ?_) fun s _ => (exists_free id s).imp fun _ h => h.2
    split at hfree
    · cases hfree
    · obtain ⟨rfl, rfl⟩ := Prod.mk.inj (Option.some.inj hfree)
      exact (attention_modifySession (f := fun session => { session with asking := true }) fun _ =>
        rfl).trans hs
  rintro _ _ rfl
  refine Yields.lift_bind (P := fun _ y => y = (mark, false)) (yields_read fun _ _ => rfl) ?_
  rintro session _ rfl
  refine Yields.lift_bind (P := fun _ y => y = (mark, false)) (yields_update fun _ hs => hs) ?_
  rintro _ _ rfl
  refine Yields.lift_bind (P := fun _ y => y = (mark, false)) (yields_update fun _ hs => hs) ?_
  rintro _ _ rfl
  refine Yields.lift_bind (P := fun _ y => y = (mark, false)) ?_ ?_
  · refine always_await (fun s _ s' hs hreply => ?_) fun s _ =>
      (exists_replied id session.mailbox s).imp fun _ h => h.2
    split at hreply
    · obtain ⟨rfl, rfl⟩ := Prod.mk.inj (Option.some.inj hreply)
      exact hs
    · cases hreply
  rintro outcome _ rfl
  refine Yields.lift_bind (yields_updateSession_attention fun _ => rfl) ?_
  rintro _ _ rfl
  exact always_pure _ ⟨⟨outcome, rfl⟩, rfl⟩

theorem yields_askFor (before : Option String) :
    Yields (attention id) me (askFor id before) (mark, false) fun r y =>
      (∃ outcome, r = .ok outcome) ∧ y = (mark, false) := by
  have hrender : Yields (attention id) me (renderPrompt id before.isSome) (mark, false) fun _ y =>
      y = (mark, false) := by
    refine Yields.bind (P := fun _ y => y = (mark, false)) (yields_read fun _ _ => rfl) ?_
    rintro context _ rfl
    refine yields_step fun s hs => ?_
    dsimp only
    split
    · exact (attention_modifySession (f := fun session => { session with prompt :=
        ((s.session id).prompt.continuation s.settings.prompt.secondary context).2 }) fun _ =>
          rfl).trans hs
    · exact (attention_modifySession (f := fun session => { session with prompt :=
        ((s.session id).prompt.primary s.settings.prompt.primary context).2 }) fun _ => rfl).trans
          hs
  refine Yields.bind hrender ?_
  rintro text _ rfl
  refine Yields.run_bind yields_ensureLive_attention ?_ fun e y h => nomatch h.1
  rintro _ _ ⟨-, rfl⟩
  refine Yields.lift_bind yields_acquire_attention ?_
  rintro _ _ rfl
  refine Yields.lift_bind (yields_askLine_attention text) ?_
  rintro _ _ ⟨⟨outcome, rfl⟩, rfl⟩
  refine Yields.lift_bind (yields_updateSession_attention fun _ => rfl) ?_
  rintro _ _ rfl
  exact always_pure _ ⟨⟨outcome, rfl⟩, rfl⟩

theorem yields_heed (before : Option String) (outcome : ReadOutcome) :
    Yields (attention id) me (heed before outcome) x fun reading y =>
      reading = next x.1 before outcome ∧ y = x := by
  cases outcome with
  | endOfInput => exact always_pure _ ⟨rfl, rfl⟩
  | line line =>
    refine Yields.bind (P := fun settings y => settings.prompt.continueChar = x.1 ∧ y = x)
      (yields_read fun s hs => ⟨congrArg Prod.fst hs, rfl⟩) ?_
    rintro settings _ ⟨hmark, rfl⟩
    rw [hmark]
    exact always_pure _ ⟨rfl, rfl⟩

theorem yields_readOn (turns : Nat) (r : Readings) :
    Yields (attention id) me (readOn id turns r).run (mark, false) fun result _ =>
      ∃ outcomes : List ReadOutcome, outcomes.length = turns ∧
        result = .ok (outcomes.foldl (Readings.hear mark) r) := by
  induction turns generalizing r with
  | zero => exact always_pure _ ⟨[], rfl, rfl⟩
  | succ turns ih =>
    refine Yields.run_bind (yields_askFor r.before) ?_ fun e y h => nomatch h.1
    rintro outcome _ ⟨-, rfl⟩
    refine Yields.lift_bind (yields_heed r.before outcome) ?_
    rintro _ _ ⟨rfl, rfl⟩
    refine Yields.mono (ih _) ?_
    rintro _ _ ⟨outcomes, rfl, rfl⟩
    exact ⟨outcome :: outcomes, rfl, rfl⟩

/-! ## Nothing keeps a reader from its turns -/

theorem feasible_askLine {stops : Prop} (text : String) :
    Feasible (attention id) stops (askLine id text).run :=
  feasible_ensureLive.run_bind fun _ =>
    (Feasible.lift (feasible_await (exists_free id))).run_bind fun _ =>
    (Feasible.lift (feasible_read _)).run_bind fun session =>
    (Feasible.lift (feasible_update _)).run_bind fun _ =>
    (Feasible.lift (feasible_update _)).run_bind fun _ =>
    (Feasible.lift (feasible_await (exists_replied id session.mailbox))).run_bind fun _ =>
    (Feasible.lift (feasible_update _)).run_bind fun _ => feasible_pure _

theorem feasible_askFor {stops : Prop} (before : Option String) :
    Feasible (attention id) stops (askFor id before) := by
  have hacquire : Feasible (attention id) stops (acquire id) :=
    (feasible_step _).bind fun ticket => feasible_await (exists_granted id ticket)
  refine ((feasible_read _).bind fun context => feasible_step _).bind fun text => ?_
  refine feasible_ensureLive.run_bind fun _ => (Feasible.lift hacquire).run_bind fun _ =>
    (Feasible.lift (feasible_askLine text)).run_bind fun r =>
    (Feasible.lift (feasible_update _)).run_bind fun _ => ?_
  cases r with
  | ok outcome => exact feasible_pure _
  | error e => exact feasible_pure _

theorem feasible_readOn {stops : Prop} (turns : Nat) (r : Readings) :
    Feasible (attention id) stops (readOn id turns r).run := by
  induction turns generalizing r with
  | zero => exact feasible_pure _
  | succ turns ih =>
    refine Feasible.run_bind (feasible_askFor r.before) fun outcome =>
      (Feasible.lift ?_).run_bind fun reading => ih _
    cases outcome with
    | endOfInput => exact feasible_pure _
    | line line => exact (feasible_read _).bind fun _ => feasible_pure _

end Shell

/-! ## The only session -/

namespace Talk

variable {o : Shell} {t : Talk} {d : Drafts} {outcome : ReadOutcome} {reader : Reader}
  {r : Readings}

theorem plays_askFor {before : Option String} (hmode : t.prompt.mode = o.settings.escapeMode)
    (hprompt : before.isSome → t.prompt = formatterFor o.settings t.name)
    (hr : t.reader.takeLine? = some (outcome, reader)) :
    Plays speaking (askFor 0 before) (t.scene.on o) d.writing (.returned (.ok outcome))
      ((t.having o.settings reader).scene.on o)
      (d.sync.write ((promptsFor o.settings t.name).shown before)).writing :=
  (plays_renderPrompt hmode hprompt).bind
    (plays_prompt (t := { t with prompt := formatterFor o.settings t.name }) _ hr)

theorem plays_heed (before : Option String) (outcome : ReadOutcome) (w : Writing) :
    Plays speaking (heed before outcome) (t.scene.on o) w
      (.returned (next o.settings.prompt.continueChar before outcome)) (t.scene.on o) w := by
  cases outcome with
  | endOfInput => exact plays_pure _
  | line line => exact (Scene.plays_getSettings open_speaking).bind (plays_pure _)

theorem plays_readOn_succ {turns : Nat} {result : Except ShellError Readings} {b' : Shell}
    {w' : Writing} (hmode : t.prompt.mode = o.settings.escapeMode)
    (hprompt : r.before.isSome → t.prompt = formatterFor o.settings t.name)
    (hr : t.reader.takeLine? = some (outcome, reader))
    (hrest : Plays speaking (readOn 0 turns (r.hear o.settings.prompt.continueChar outcome)).run
      ((t.having o.settings reader).scene.on o)
      (d.sync.write ((promptsFor o.settings t.name).shown r.before)).writing
      (.returned result) b' w') :
    Plays speaking (readOn 0 (turns + 1) r).run (t.scene.on o) d.writing (.returned result) b' w' :=
  Plays.run_bind (plays_askFor hmode hprompt hr)
    (Plays.lift_bind (plays_heed r.before outcome _) hrest)

theorem exists_plays_ends (ends : Nat) (hmode : t.prompt.mode = o.settings.escapeMode)
    (hprompt : r.before.isSome → t.prompt = formatterFor o.settings t.name)
    (hholds : t.reader.Holds []) :
    ∃ (t' : Talk) (d' : Drafts), Plays speaking (readOn 0 ends r).run (t.scene.on o) d.writing
      (.returned (.ok ((List.replicate ends ReadOutcome.endOfInput).foldl
        (Readings.hear o.settings.prompt.continueChar) r))) (t'.scene.on o) d'.writing := by
  induction ends generalizing t d r with
  | zero => exact ⟨t, d, plays_pure _⟩
  | succ ends ih =>
    obtain ⟨t', d', hplays⟩ := @ih (t.having o.settings t.reader)
      (d.sync.write ((promptsFor o.settings t.name).shown r.before))
      (r.hear o.settings.prompt.continueChar .endOfInput) rfl (fun _ => rfl) hholds
    exact ⟨t', d', plays_readOn_succ hmode hprompt hholds.takeLine?_nil hplays⟩

theorem exists_plays_lines {lines : List String} (ends : Nat)
    (hmode : t.prompt.mode = o.settings.escapeMode)
    (hprompt : r.before.isSome → t.prompt = formatterFor o.settings t.name)
    (hholds : t.reader.Holds lines) :
    ∃ (t' : Talk) (d' : Drafts), Plays speaking (readOn 0 (lines.length + ends) r).run
      (t.scene.on o) d.writing
      (.returned (.ok
        ((lines.map ReadOutcome.line ++ List.replicate ends ReadOutcome.endOfInput).foldl
        (Readings.hear o.settings.prompt.continueChar) r))) (t'.scene.on o) d'.writing := by
  induction lines generalizing t d r with
  | nil =>
    rw [List.length_nil, Nat.zero_add]
    exact exists_plays_ends ends hmode hprompt hholds
  | cons line lines ih =>
    obtain ⟨reader, hr, hholds⟩ := hholds
    obtain ⟨t', d', hplays⟩ := @ih (t.having o.settings reader)
      (d.sync.write ((promptsFor o.settings t.name).shown r.before))
      (r.hear o.settings.prompt.continueChar (.line line)) rfl (fun _ => rfl) hholds
    rw [List.length_cons, Nat.add_right_comm]
    exact ⟨t', d', plays_readOn_succ hmode hprompt hr hplays⟩

end Talk

theorem Text.lineEnd_not_mem_lines (text : List Char) :
    ∀ line ∈ Text.lines text, '\n' ∉ line.toList := by
  have htrim : ∀ front : List Char, '\n' ∉ front → '\n' ∉ (Text.trimLine front).toList := by
    intro front hfront hin
    rw [Text.trimLine, String.toList_ofList, List.mem_reverse] at hin
    exact hfront (List.mem_reverse.mp ((List.dropWhile_sublist _).subset hin))
  have hfrom : ∀ (text front : List Char), '\n' ∉ front →
      ∀ line ∈ Text.linesFrom front text, '\n' ∉ line.toList := by
    intro text
    induction text with
    | nil =>
      intro front hfront line hline
      rw [Text.linesFrom] at hline
      split at hline
      · cases hline
      · rw [List.mem_singleton.mp hline]
        exact htrim front hfront
    | cons c text ih =>
      intro front hfront line hline
      rw [Text.linesFrom] at hline
      split at hline
      · rcases List.mem_cons.mp hline with rfl | hline
        · exact htrim front hfront
        · exact ih [] List.not_mem_nil line hline
      · next hc =>
        refine ih (front ++ [c]) ?_ line hline
        simp [hfront, Ne.symm hc]
  exact hfrom text [] List.not_mem_nil

namespace Shell

/-- The statements a session reads are the groups of its lines. A turn of reading asks for one line
and looks at what was read of the statement with it, and only then is anything done with the
statement. Whatever others do meanwhile and between two turns, as long as the session stays alive
each turn comes to a line or to the end of the input. Where it has come to some lines and then so
many times to the end of the input, the statement of each group was returned in its order, also that
of a last group which the end of the input cuts short, and then the end of the input, as often as it
cut nothing short. The only session before an input that is text comes to the lines of that text,
however they arrive. -/
theorem reads_statements {id : SessionId} {me : ThreadId} {s : Shell} (turns : Nat)
    (hlive : (s.session id).disposed = false) :
    (∀ before, readStatement id before = (do
      match ← askFor id before with
      | .error e =>
        if ← isLive id then reportError e
        rest id
      | .ok outcome => follow id (← heed before outcome))) ∧
    (∀ mark lines gs, IsGrouping mark lines gs ↔ groups mark lines = gs) ∧
    (∃ fate s', Runs (attention id) me (readOn id turns .start).run s fate s') ∧
    (∀ fate s', Runs (attention id) me (readOn id turns .start).run s fate s' →
      ∃ r : Readings, fate = .returned (.ok r) ∧ r.heard.length = turns ∧
        ∀ lines ends, (∀ line ∈ lines, '\n' ∉ line.toList) →
          r.heard = lines.map ReadOutcome.line ++ List.replicate ends ReadOutcome.endOfInput →
            Reads s.settings.prompt.continueChar lines ends r) ∧
    (∀ (o : Shell) (t : Talk) (d : Drafts) (chunks : List Bytes) (text : List Char) (ends : Nat),
      t.prompt.mode = o.settings.escapeMode → t.reader = ⟨chunks, true⟩ →
        (∀ chunk ∈ chunks, chunk ≠ []) →
      chunks.flatten = Bytes.ofChars text →
        ∃ (r : Readings) (t' : Talk) (d' : Drafts),
          Plays speaking (readOn 0 ((Text.lines text).length + ends) .start).run
            (t.scene.on o) d.writing
            (.returned (.ok r)) (t'.scene.on o) d'.writing ∧
          Reads o.settings.prompt.continueChar (Text.lines text) ends r) := by
  have hfeasible : Feasible (attention id) False (readOn id turns .start).run :=
    feasible_readOn turns .start
  refine ⟨readStatement_eq id, fun _ _ _ => isGrouping_iff, hfeasible.exists_runs me s,
    fun fate s' hr => ?_, ?_⟩
  · have hyield := yields_readOn turns .start s fate s' (Prod.ext rfl hlive) hr
    cases fate with
    | crashed => exact hyield.elim
    | halted => exact hyield.elim
    | returned result =>
      obtain ⟨outcomes, rfl, rfl⟩ := hyield
      refine ⟨_, rfl,
        by rw [heard_foldl]; simp [Readings.start], fun lines ends hlines hheard => ?_⟩
      obtain rfl : outcomes = _ := by simpa [heard_foldl, Readings.start] using hheard
      exact reads_foldl ends hlines
  · intro o t d chunks text ends hmode hreader hchunks hbytes
    have hholds : t.reader.Holds (Text.lines text) := hreader ▸ Reader.holds_lines hchunks hbytes
    obtain ⟨t', d', hplays⟩ :=
      Talk.exists_plays_lines (d := d) (r := .start) ends hmode (fun h => by cases h) hholds
    exact ⟨_, t', d', hplays, reads_foldl ends (Text.lineEnd_not_mem_lines text)⟩

/-- The shell of a program with one session. -/
def loneReader : Shell :=
  aloneOr 0 (newSession "a" none) (.new (.default 1) (.empty "") .empty ⟨[], true⟩ true true)

def threeLines : List Char :=
  "a\\\n\nb\\\\".toList

/-- A session in front of these lines. -/
def withThreeLines : Talk :=
  ⟨"a", 0, none, .new loneReader.settings.escapeMode, .bare, ⟨[Bytes.ofChars threeLines], true⟩⟩

/-- The first statement ends with an empty line, and the second one with the input. -/
theorem reads_statements_of_three_lines :
    (loneReader.session 0).disposed = false ∧
    ∃ (r : Readings) (t' : Talk) (d' : Drafts), Plays speaking (readOn 0 5 .start).run
        (withThreeLines.scene.on loneReader) (Drafts.writing ⟨⟨[], [], 0⟩, ⟨[], [], 0⟩, []⟩)
        (.returned (.ok r)) (t'.scene.on loneReader) d'.writing ∧
      r.read = [.line "a\n", .line "b\\", .endOfInput] := by
  have hlive : (loneReader.session 0).disposed = false := rfl
  have hlines : Text.lines threeLines = ["a\\", "", "b\\\\"] := rfl
  obtain ⟨-, -, -, -, hplays⟩ := @reads_statements 0 0 loneReader 5 hlive
  obtain ⟨r, t', d', hread, hreads⟩ :=
    hplays loneReader withThreeLines ⟨⟨[], [], 0⟩, ⟨[], [], 0⟩, []⟩
    [Bytes.ofChars threeLines] threeLines 2 rfl rfl (by decide) (List.append_nil _)
  rw [hlines] at hread hreads
  refine ⟨hlive, r, t', d', hread, ?_⟩
  have hnone : r.before = none := by simpa using hreads.before
  have hall := hreads.read
  rw [hnone, Option.map_none, Option.toList_none, List.append_nil] at hall
  exact hall.trans rfl

end Shell

end SessionShell
