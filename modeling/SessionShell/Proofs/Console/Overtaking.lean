import SessionShell.Console.Standalone
import SessionShell.Proofs.Console.Users
import SessionShell.Proofs.Console.Workers

/-!
Neither a prompt nor the end of the process overtakes what was printed before: whatever the threads
beside a console do, a prompt is written, and a wait for both outlets is over, when all is written
that was printed before the line was asked for, or before the wait has begun.
-/

namespace SessionShell

open Action Chronicle

namespace Press

variable {σ κ α : Type} {w : Press σ κ} {γ γ' : σ × ConsoleRecord} {k other : Option StreamName}
  {env : σ → σ → Prop}

/-! ## All threads together -/

def pact (w : Press σ κ) : Pact (σ × ConsoleRecord) κ (Option StreamName) where
  rely := w.Leaves
  guar := w.Does
  here k γ := w.Inv γ ∧ ∀ stream, k = some stream → (w.place.get γ.1).isStarted stream = true
  ready k _ role γ := w.stream? role = k ∧ w.Stands k γ
  gone _ _ := True

theorem suits_of (h : k ≠ other ∨ k = none) : w.pact.Suits k other := by
  refine ⟨fun _ _ hdoes => hdoes.leaves other ?_, fun _ _ hdoes => hdoes.leaves k h⟩
  rcases h with hne | rfl
  · exact .inl hne.symm
  · exact (ne_or_eq other none)

theorem here_of_grows (h : w.pact.here k γ) (hr : w.Grows γ γ') : w.pact.here k γ' :=
  ⟨hr.inv h.1, fun stream hs => hr.started stream (h.2 stream hs)⟩

/-- The surroundings leave alone what is queued and written. -/
structure Undisturbed (w : Press σ κ) (env : σ → σ → Prop) : Prop where
  press : ∀ s s', env s s' → (w.place.get s').press = (w.place.get s).press
  pending : ∀ s s', env s s' → w.life.pending s' = w.life.pending s

theorem joins_of_does (hw : w.Lawful) (hhere : w.pact.here k γ) (h : w.Does k γ γ') :
    w.pact.Joins w.recorded γ γ' := by
  have hinv' : w.Inv γ' := h.grows.inv hhere.1
  cases h.staffs with
  | nobody hsame => exact Pact.joins_nobody hsame
  | @others news hroles hnew =>
    have hstands : w.Stands none γ' := ⟨hinv', (fun _ hs => nomatch hs), fun _ hx => nomatch hx⟩
    refine Pact.joins_all (P := w.pact) (k := none) hnew ⟨hinv', fun _ hs => nomatch hs⟩
      (fun joined hjoined => ⟨hroles joined hjoined, hstands⟩) ?_ (suits_of (.inr rfl))
    exact fun other _ => suits_of (ne_or_eq other none)
  | @worker id stream hbefore hafter hnew =>
    have hnone : ¬w.pact.here (some stream) γ := fun hthere => by
      have hstarted := hthere.2 stream rfl
      rw [hbefore] at hstarted
      cases hstarted
    have hne : ∀ other, w.pact.here other γ → other ≠ some stream := fun other hother he =>
      hnone (he ▸ hother)
    have hstarted : ∀ other, some stream = some other →
        (w.place.get γ'.1).isStarted other = true := by
      rintro other ⟨⟩
      exact hafter
    have hstands : w.Stands (some stream) γ' := by
      refine ⟨hinv', hstarted, fun x hx => ?_⟩
      have hleaves := h.leaves (some stream) (.inl (hne k hhere).symm)
      refine (hleaves.hand x hx).trans (ConsoleRecord.Accounts.unstarted hhere.1 x ?_)
      rw [← Console.isStarted_outlet, ← Option.some.inj hx]
      exact hbefore
    exact Pact.joins_one (P := w.pact) (k := some stream) hnew ⟨hinv', hstarted⟩
      ⟨hw.stream?_worker stream, hstands⟩ fun other hother => suits_of (.inl (hne other hother))

theorem safe_errand (hw : w.Lawful) {id : ThreadId}
    (errand : PressErrand w.toPressSite (Option {k : κ // w.stream? k = none}))
    (h : w.Stands none γ) :
    Safe (w.pact.rely none) (w.pact.guar none) id (w.pact.Fate none id)
      (do return (← errand.recorded).map Subtype.val) γ := by
  refine (upholds_errand hw bears_stands errand γ h).bind_fate .refl ?_ fun _ _ => trivial
  intro role? γ' hstands γ'' hr
  cases role? with
  | none => trivial
  | some role => exact ⟨role.property, bears_stands.stable γ' γ'' hstands hr⟩

theorem safe_role (hw : w.Lawful) {id : ThreadId} {role : κ} (h : w.pact.ready k id role γ) :
    Safe (w.pact.rely k) (w.pact.guar k) id (w.pact.Fate k id) (w.recorded.program role) γ := by
  obtain ⟨hrole, hstands⟩ := h
  cases k with
  | none =>
    rw [program_other hrole]
    exact safe_errand hw (w.role ⟨role, hrole⟩) hstands
  | some stream =>
    rw [program_worker hrole]
    refine (upholds_work hw stream γ hstands).bind .refl fun _ γ' hstands' γ'' hr => ?_
    exact ⟨hrole, bears_stands.stable γ' γ'' hstands' hr⟩

theorem kept_pact (hw : w.Lawful) (henv : w.Undisturbed env) :
    w.pact.Kept w.recorded (Life.beside env) where
  refl _ := .refl
  trans _ _ _ _ h h' := Leaves.trans h h'
  here_rely _ _ _ h hr := here_of_grows h hr.toGrows
  here_guar _ _ _ h hg := here_of_grows h hg.grows
  gone _ _ _ _ _ := trivial
  joins _ _ _ := joins_of_does hw
  role _ _ _ _ _ := safe_role hw
  adopts _ γ := leaves_of_press (congrArg Console.press (hw.get_adopt γ.1)) rfl
  adopted γ := hw.pending_adopt γ.1
  passes _ _ _ h := leaves_of_press (henv.press _ _ h.1) h.2
  passed _ _ h := henv.pending _ _ h.1

/-! ## What the record tells -/

/-- What is written is what was printed, and nothing overtakes it. -/
structure Unovertaken (c : Console) (log : List ConsoleEvent) : Prop where
  /-- Each text is written in one piece, and nothing else is but the prompts. -/
  pieces : ∀ x, c.pieces x = Chronicle.pieces x log
  /-- What was printed first is written first, each text of each thread once. -/
  order : ∀ x, wrote x log = ((printed x log).take (wrote x log).length).map Prod.snd
  prompted : ∀ before n prompt after, log = before ++ .prompted n prompt :: after →
    ∃ first request last, before = first ++ .asked request :: last ∧ (asks first).length = n ∧
      request.prompt = prompt ∧ Covers first before
  syncing : ∀ before mark after, log = before ++ .syncing mark :: after → .syncing mark ∉ before
  synced : ∀ before mark after, log = before ++ .synced mark :: after →
    ∃ first last, before = first ++ .syncing mark :: last ∧ Covers first before

theorem unovertaken_of_accounts {r : ConsoleRecord} {c : Console} (h : r.Accounts c) :
    Unovertaken c r.log where
  pieces := h.pieces
  order x := by
    rw [List.map_take]
    exact List.prefix_iff_eq_take.mp (h.flows x).written_initial
  prompted before n prompt after hlog := h.lawful before _ after hlog
  syncing before mark after hlog := h.lawful before _ after hlog
  synced before mark after hlog := h.lawful before _ after hlog

/-- A machine with a new console, nothing in its record, and threads that are no workers. -/
structure IsNew (w : Press σ κ) (m : Machine (σ × ConsoleRecord) κ) : Prop where
  console : ∃ reader mailboxes isFinal,
    w.place.get m.shared.1 = { Console.new reader isFinal with mailboxes }
  record : m.shared.2 = .new
  pending : ∀ joined ∈ w.life.pending m.shared.1, w.stream? joined.2 = none
  clients : ∀ t ∈ m.threads,
    ∃ errand : PressErrand w.toPressSite (Option {k // w.stream? k = none}),
      t.rest = (do return (← errand.recorded).map Subtype.val)

theorem IsNew.inv {m : Machine (σ × ConsoleRecord) κ} (h : w.IsNew m) : w.Inv m.shared := by
  obtain ⟨reader, mailboxes, isFinal, hconsole⟩ := h.console
  rw [Inv, hconsole, h.record]
  exact .new

theorem manned_of_isNew (hw : w.Lawful) {m : Machine (σ × ConsoleRecord) κ} (h : w.IsNew m) :
    w.pact.Manned w.recorded m ((w.recorded.crew m).map fun t => (none, some t)) := by
  have hhere : w.pact.here none m.shared := ⟨h.inv, fun _ hs => nomatch hs⟩
  have hstands : w.Stands none m.shared := ⟨h.inv, (fun _ hs => nomatch hs), fun _ hx => nomatch hx⟩
  have hclient : ∀ t ∈ w.recorded.crew m, w.pact.Member m.shared none (some t) := by
    intro t ht
    refine .present hhere ?_
    rcases List.mem_append.mp ht with hin | hin
    · obtain ⟨errand, hrest⟩ := h.clients t hin
      rw [hrest]
      exact safe_errand hw errand hstands
    · obtain ⟨⟨id, role⟩, hjoined, rfl⟩ := List.mem_map.mp hin
      have hready : w.pact.ready none id role m.shared := ⟨h.pending _ hjoined, hstands⟩
      exact safe_role hw hready
  constructor
  case members =>
    intro k t? hin
    obtain ⟨t, ht, heq⟩ := List.mem_map.mp hin
    cases heq
    exact hclient t ht
  case suits =>
    rw [List.map_map, List.pairwise_map]
    exact List.pairwise_of_forall fun _ _ => suits_of (.inr rfl)
  case crew => simp [List.filterMap_map]

theorem unovertaken_of_course (hw : w.Lawful) (henv : w.Undisturbed env)
    {allowed : ThreadId → σ × ConsoleRecord → σ × ConsoleRecord → Prop}
    {m₀ m : Machine (σ × ConsoleRecord) κ} (h₀ : w.IsNew m₀)
    (h : w.recorded.Course allowed (Life.beside env) m₀ m) :
    Unovertaken (w.place.get m.shared.1) m.shared.2.log := by
  have hkept := kept_pact hw henv
  refine unovertaken_of_accounts ((Pact.manned_of_course (T := w.Grows) hkept .refl
    (fun _ _ _ => .trans) ?_ h (manned_of_isNew hw h₀)).1.inv h₀.inv)
  intro γ γ' hdeed
  cases hdeed with
  | nothing => exact .refl γ
  | step _ hguar => exact hguar.grows
  | adopt => exact (hkept.adopts none γ).toGrows
  | env he => exact (hkept.passes none γ γ' he).toGrows

/-! ## Machines without a record -/

/-- A machine with a new console, and threads that are no workers. -/
structure IsOpen (w : Press σ κ) (m : Machine σ κ) : Prop where
  console : ∃ reader mailboxes isFinal,
    w.place.get m.shared = { Console.new reader isFinal with mailboxes }
  pending : ∀ joined ∈ w.life.pending m.shared, w.stream? joined.2 = none
  clients : ∀ t ∈ m.threads,
    ∃ errand : PressErrand w.toPressSite (Option {k // w.stream? k = none}),
      t.rest = (do return (← errand.plain).map Subtype.val)

theorem exists_isNew {m : Machine σ κ} (h : w.IsOpen m) :
    ∃ m' : Machine (σ × ConsoleRecord) κ, w.IsNew m' ∧ Life.Keeps (fun _ _ _ => True) m' m := by
  have hfollows : ∀ errand : PressErrand w.toPressSite (Option {k // w.stream? k = none}),
      Follows (fun _ _ _ => True) (do return (← errand.recorded).map Subtype.val)
        (do return (← errand.plain).map Subtype.val) :=
    fun errand => errand.follows_recorded.bind fun _ => .done _
  obtain ⟨threads', hthreads, -, hclients⟩ := Life.exists_threads hfollows h.clients
  exact ⟨⟨(m.shared, .new), threads'⟩, ⟨h.console, rfl, h.pending, hclients⟩, rfl, hthreads⟩

end Press

/-! ## The end of the process -/

namespace Shell

/-- The end of the process, as an errand: first all is written. -/
def terminating (code : Int) : PressErrand pressSite Unit := do
  Program.call (PressCall.sync : PressCall pressSite)
  Program.call (PressCall.own (stop code) (within_stop code))

theorem terminate_eq (code : Int) : terminate code = (terminating code).plain := by
  have hstop : (stop code).bind .done = stop code := Program.bind_done _
  change consolePlace.sync >>= (fun _ => stop code) =
    consolePlace.sync >>= fun _ => (stop code).bind .done
  rw [hstop]

end Shell

namespace Press

variable {σ κ : Type} {w : Press σ κ} {env : σ → σ → Prop}

/-- Of every course of a machine there is a record by which nothing is overtaken, and the process
waits for both outlets before it ends. A shell is such a machine. -/
theorem never_overtaken (hw : w.Lawful) (henv : w.Undisturbed env) :
    (∀ m₀ m, w.IsOpen m₀ → w.life.Course (fun _ _ _ => True) env m₀ m →
      ∃ m₀' m', w.IsNew m₀' ∧ Life.Keeps (fun _ _ _ => True) m₀' m₀ ∧
        w.recorded.Course (fun _ _ _ => True) (Life.beside env) m₀' m' ∧
        Life.Keeps (fun _ _ _ => True) m' m) ∧
    (∀ m₀ m, w.IsNew m₀ → w.recorded.Course (fun _ _ _ => True) (Life.beside env) m₀ m →
      Unovertaken (w.place.get m.shared.1) m.shared.2.log) ∧
    (∀ code, Shell.terminate code = (Shell.terminating code).plain) ∧
    ∃ w : Press Shell Role, w.toPressSite = Shell.pressSite ∧ w.Lawful := by
  refine ⟨fun m₀ m h₀ h => ?_, fun m₀ m h₀ h => unovertaken_of_course hw henv h₀ h,
    Shell.terminate_eq, Shell.exists_lawful_press⟩
  obtain ⟨m₀', hnew, hkeeps⟩ := exists_isNew h₀
  obtain ⟨m', hcourse, hkeeps'⟩ := Life.exists_kept (follows_recorded hw) h hkeeps
  exact ⟨m₀', m', hnew, hkeeps, hcourse, hkeeps'⟩

end Press

/-! ## A shell -/

namespace Shell

variable {w : Press Shell Role} {act : Action Shell Answer}

theorem isOpen_of_call (hw : w.toPressSite = pressSite) (h : Uses act) (settings : Settings)
    (preload : Preload) (files : FileSystem) (input : Reader) (endIsFinal endsProcess : Bool) :
    w.IsOpen (life.spawn mainThread (answering act)
      ⟨new settings preload files input endIsFinal endsProcess, []⟩) := by
  obtain ⟨site, role⟩ := w
  cases hw
  refine ⟨⟨input, #[], endIsFinal, rfl⟩, (fun _ hin => nomatch hin), fun t ht => ?_⟩
  cases List.mem_singleton.mp ht
  exact exists_errand_of_call h

theorem undisturbed_of_pressView (hw : w.toPressSite = pressSite) {env : Shell → Shell → Prop}
    (h : ∀ s s', env s s' → s'.pressView = s.pressView) : w.Undisturbed env := by
  obtain ⟨site, role⟩ := w
  cases hw
  exact ⟨fun s s' he => congrArg Prod.fst (h s s' he), fun s s' he => congrArg Prod.snd (h s s' he)⟩

/-- Whatever follows a first call to a shell, and whatever comes in from outside, there is a record
of it by which nothing is overtaken. -/
theorem exists_unovertaken_of_call (h : Uses act) (settings : Settings) (preload : Preload)
    (files : FileSystem) (input : Reader) (endIsFinal endsProcess : Bool)
    {env : Shell → Shell → Prop} (henv : ∀ s s', env s s' → s'.pressView = s.pressView)
    {m : Machine Shell Role}
    (hm : life.Course (fun _ _ _ => True) env (life.spawn mainThread (answering act)
      ⟨new settings preload files input endIsFinal endsProcess, []⟩) m) :
    ∃ (w : Press Shell Role) (m₀' m' : Machine (Shell × ConsoleRecord) Role),
      w.toPressSite = pressSite ∧ w.IsNew m₀' ∧
      w.recorded.Course (fun _ _ _ => True) (Life.beside env) m₀' m' ∧
      Life.Keeps (fun _ _ _ => True) m' m ∧
      Press.Unovertaken m.shared.console m'.shared.2.log := by
  obtain ⟨w, hsite, hw⟩ := exists_lawful_press
  obtain ⟨m₀', hnew, hkeeps⟩ := Press.exists_isNew
    (isOpen_of_call hsite h settings preload files input endIsFinal endsProcess)
  have hcourse : w.life.Course (fun _ _ _ => True) env (life.spawn mainThread (answering act)
      ⟨new settings preload files input endIsFinal endsProcess, []⟩) m := by
    rw [hsite]
    exact hm
  obtain ⟨m', hcourse', hkeeps'⟩ := Life.exists_kept (Press.follows_recorded hw) hcourse hkeeps
  have hunovertaken := Press.unovertaken_of_course hw (undisturbed_of_pressView hsite henv) hnew
    hcourse'
  have hget : w.place.get m'.shared.1 = m.shared.console := by
    rw [congrArg PressSite.place hsite, hkeeps'.1]
    rfl
  exact ⟨w, m₀', m', hsite, hnew, hcourse', hkeeps', hget ▸ hunovertaken⟩

end Shell

/-! ## The console that is by itself -/

namespace StandaloneConsole

def site : PressSite StandaloneConsole StreamName where
  place := place
  life := life
  worker := id
  stream? := some

/-- The console that is by itself, as a press without any other roles. -/
def press : Press StandaloneConsole StreamName where
  toPressSite := site
  role k := nomatch k.property

theorem lawful_press : press.Lawful where
  get_set _ _ := rfl
  pending_set _ _ := rfl
  get_launch _ _ := rfl
  pending_launch stream _ := ⟨workerId stream, rfl⟩
  get_adopt _ := rfl
  pending_adopt _ := rfl
  stream?_worker _ := rfl
  workers k stream h := by
    cases h
    rfl
  others k := nomatch k.property

def Feeds (s s' : StandaloneConsole) : Prop :=
  ∃ chunk, s' = { s with console := { s.console with reader := s.console.reader.feed chunk } }

theorem undisturbed_of_feeds : press.Undisturbed Feeds where
  press := by
    rintro s _ ⟨chunk, rfl⟩
    rfl
  pending := by
    rintro s _ ⟨chunk, rfl⟩
    rfl

/-- One thread prints, asks for a line and prints again. Another one prints an error and waits. -/
def twoWriters : Machine (StandaloneConsole × ConsoleRecord) StreamName :=
  let first : PressErrand site (Option {k // some k = (none : Option StreamName)}) := do
    Program.call (PressCall.start .input)
    Program.call (PressCall.print .out "a")
    Program.call (PressCall.ask ⟨"> ", 0⟩)
    Program.call (PressCall.print .out "b")
    return none
  let second : PressErrand site (Option {k // some k = (none : Option StreamName)}) := do
    Program.call (PressCall.print .err "c")
    Program.call PressCall.sync
    return none
  ⟨(new true, .new),
    [⟨7, do return (← first.recorded).map Subtype.val⟩,
      ⟨8, do return (← second.recorded).map Subtype.val⟩]⟩

theorem isNew_twoWriters : press.IsNew twoWriters where
  console := ⟨⟨[], false⟩, #[], true, rfl⟩
  record := rfl
  pending := by simp [press, site, twoWriters, Life.pending, life, new]
  clients t ht := by
    simp only [twoWriters, List.mem_cons, List.not_mem_nil, or_false] at ht
    rcases ht with rfl | rfl
    · exact ⟨_, rfl⟩
    · exact ⟨_, rfl⟩

theorem never_overtaken_of_twoWriters :
    let m := press.recorded.settle 6 twoWriters
    press.recorded.Course (fun _ _ _ => True) (Life.beside Feeds) twoWriters m ∧
    Press.Unovertaken m.shared.1.console m.shared.2.log ∧
    m.shared.2.log = [.printed .out 7 "a", .asked ⟨"> ", 0⟩, .printed .out 7 "b",
      .printed .err 8 "c", .syncing 0, .syncing 1, .wrote .out "a", .wrote .out "b",
      .wrote .err "c", .synced 0, .synced 1, .prompted 0 "> "] ∧
    m.shared.1.console.outWritten = #["a", "b", "> "] := by
  have hcourse : press.recorded.Course (fun _ _ _ => True) (Life.beside Feeds) twoWriters
      (press.recorded.settle 6 twoWriters) := .of_reaches (Life.reaches_settle _ _ _)
  refine ⟨hcourse, ?_, rfl, rfl⟩
  exact (Press.never_overtaken lawful_press undisturbed_of_feeds).2.1 _ _ isNew_twoWriters hcourse

end StandaloneConsole

end SessionShell
