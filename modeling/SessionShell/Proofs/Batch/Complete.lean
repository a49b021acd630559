import Mathlib.Data.List.Induction
import SessionShell.Proofs.Batch.Closing
import SessionShell.Proofs.Batch.Peace
import SessionShell.Proofs.Batch.Services
import SessionShell.Proofs.Team.Pact

/-!
A batch is complete when it returns, in whatever order its host, its children and the services take
their steps: no target is lost, none is counted twice, and the host leaves last.
-/

namespace SessionShell

open Action Shell Batch

namespace BatchSite

variable {b : BatchSite} {c : Child} {t : ThreadId} {γ γ' : Shell × BatchRecord} {s s' : Shell}
  {k k' : Party}

/-! ## The pact of a batch -/

def pact (b : BatchSite) : Pact (Shell × BatchRecord) Role Party where
  rely
    | .host => b.HostRely
    | .child c => b.ChildRely c
    | .service t => b.ServiceRely t
  guar
    | .host => b.Leads
    | .child c => b.ChildGuar c
    | .service _ => Calm
  here
    | .host => fun γ => b.Sound γ ∧ b.Final γ
    | .child c => fun γ => b.Sound γ ∧ c ∈ γ.2.launched
    | .service t => b.Serves t
  ready
    | .host =>
      fun id role γ => id = b.thread ∧ ∃ phase, role = .session b.host phase ∧ b.Goes phase γ
    | .child c => b.ChildReady c
    | .service t => b.ServiceReady t
  gone _ _ := True

def Apart : Party → Party → Prop
  | .host, .host => False
  | .child c, .child c' => c ≠ c'
  | _, _ => True

theorem suits_of_apart (h : Apart k k') : b.pact.Suits k k' := by
  cases k with
  | host =>
    cases k' with
    | host => exact h.elim
    | child c =>
      exact ⟨fun _ _ hg => childRely_of_hostGuar hg.1, fun _ _ hg => hostRely_of_childGuar hg⟩
    | service t => exact ⟨fun _ _ hg => serves_of_hostGuar hg.1, fun _ _ hg => hostRely_of_calm hg⟩
  | child c =>
    cases k' with
    | host =>
      exact ⟨fun _ _ hg => hostRely_of_childGuar hg, fun _ _ hg => childRely_of_hostGuar hg.1⟩
    | child c' =>
      exact ⟨fun _ _ hg => childRely_of_childGuar hg h.symm, fun _ _ hg =>
        childRely_of_childGuar hg h⟩
    | service t => exact ⟨fun _ _ hg => serves_of_childGuar hg, fun _ _ hg => childRely_of_calm hg⟩
  | service t =>
    cases k' with
    | host => exact ⟨fun _ _ hg => hostRely_of_calm hg, fun _ _ hg => serves_of_hostGuar hg.1⟩
    | child c => exact ⟨fun _ _ hg => childRely_of_calm hg, fun _ _ hg => serves_of_childGuar hg⟩
    | service t' => exact ⟨fun _ _ hg => serves_of_calm hg, fun _ _ hg => serves_of_calm hg⟩

theorem apart_service (k : Party) (t : ThreadId) : Apart k (.service t) := by
  cases k <;> trivial

theorem joins_services (hsound : b.Sound γ) (hsound' : b.Sound γ')
    (hjoined : ∃ news : List (ThreadId × Role), γ'.1.started = γ.1.started ++ news ∧
      ∀ t role, (t, role) ∈ news → role.IsService ∧ γ.1.threads.size ≤ t ∧ t < γ'.1.threads.size)
    (hchildren : γ'.2.launched.map Child.thread = γ.2.launched.map Child.thread)
    (howners : ∀ id t, (γ'.1.session id).owner = some t →
      (γ.1.session id).owner = some t ∨ t ∈ γ.2.launched.map Child.thread) :
    b.pact.Joins b.recorded γ γ' := by
  obtain ⟨news, hnews, hservices⟩ := hjoined
  have hlaunched : ∀ t ∈ γ.2.launched.map Child.thread, t < γ.1.threads.size := fun t ht => by
    obtain ⟨c, hc, rfl⟩ := List.mem_map.mp ht
    exact (hsound.children c hc).2.1
  have hserves : ∀ t role, (t, role) ∈ news → b.Serves t γ' := fun t role hin => by
    obtain ⟨-, hnew, hlt⟩ := hservices t role hin
    refine ⟨hsound', hlt, fun c hc heq => ?_, fun heq => ?_, fun id ho => ?_⟩
    · have hold := hlaunched c.thread (hchildren ▸ List.mem_map_of_mem hc)
      exact Nat.not_lt_of_le hnew (heq ▸ hold)
    · exact Nat.not_lt_of_le hnew (heq ▸ hsound.thread)
    · rcases howners id t ho with ho | hin
      · exact Nat.not_lt_of_le hnew (hsound.owners id t ho)
      · exact Nat.not_lt_of_le hnew (hlaunched t hin)
  refine ⟨news.map fun x => (.service x.1, x), ?_, ?_, ?_⟩
  · rw [List.map_map]
    exact hnews.trans (by simp [Function.comp_def, Life.pending, recorded, life])
  · intro k t role hin
    obtain ⟨x, hx, heq⟩ := List.mem_map.mp hin
    cases heq
    exact ⟨hserves t role hx, ⟨rfl, (hservices t role hx).1, hserves t role hx⟩,
      fun other _ => suits_of_apart (apart_service other t)⟩
  · rw [List.map_map, List.pairwise_map]
    exact List.pairwise_of_forall fun _ y => suits_of_apart (apart_service _ y.1)

theorem joins_of_childGuar (hsound : b.Sound γ) (h : b.ChildGuar c γ γ') :
    b.pact.Joins b.recorded γ γ' :=
  joins_services hsound (h.sound hsound) h.joined (by rw [h.launched]) fun id t ht => by
    rcases h.owners id t ht with ho | rfl
    · exact .inl ho
    · exact .inr (List.mem_map_of_mem h.child)

theorem joins_of_calm (hsound : b.Sound γ) (h : Calm γ γ') : b.pact.Joins b.recorded γ γ' :=
  joins_services hsound (hsound.of_calm h) h.still.joined (by rw [h.record]) fun id t ht =>
    .inl ((congrArg Session.Ties.owner (h.still.ties id)).symm.trans ht)

theorem joins_of_hostGuar (hsound : b.Sound γ) (h : b.HostGuar γ γ') :
    b.pact.Joins b.recorded γ γ' := by
  rcases h.joined with ⟨hsame, hjoined⟩ | ⟨c, -, hnews, hthread, hboards⟩
  · exact joins_services hsound (h.sound hsound) hjoined (by rw [hsame]) fun id t ht =>
      .inl (h.owners id t ht)
  · have hhere : b.pact.here (.child c) γ' := ⟨hboards.sound, hboards.child⟩
    have hready : b.pact.ready (.child c) c.thread (.session c.session .entering) γ' :=
      ⟨rfl, .inl ⟨rfl, hboards⟩⟩
    refine Pact.joins_one hnews hhere hready fun other hother => suits_of_apart ?_
    cases other with
    | host => trivial
    | service t => trivial
    | child c' =>
      rintro rfl
      exact Nat.ne_of_lt (hsound.children c' hother.2).2.1 hthread

/-- What the surroundings may do: let time pass, and bring input. -/
def Passes (s s' : Shell) : Prop :=
  s'.frame = s.frame

theorem calm_of_passes (h : Life.beside Passes γ γ') : Calm γ γ' :=
  ⟨.of_frame h.1, h.2⟩

theorem rely_of_calm (h : Calm γ γ') (k : Party) : b.pact.rely k γ γ' := by
  cases k with
  | host => exact hostRely_of_calm h
  | child c => exact childRely_of_calm h
  | service t => exact serves_of_calm h

theorem rely_of_adopt (γ : Shell × BatchRecord) (k : Party) :
    b.pact.rely k γ (b.recorded.takeStarted γ).2 := by
  cases k with
  | host =>
    exact ⟨fun h => { h with }, rfl, rfl, rfl, rfl, Nat.le_refl _, fun _ _ _ => rfl, fun _ h => h,
      ⟨rfl, rfl⟩, .refl _, fun _ h _ => h,
      ⟨[], by simp [recorded, life], by simp [recorded, life, codesAt],
        by simp⟩, rfl, rfl, rfl, fun _ _ _ h => h, fun _ _ h => h⟩
  | child c =>
    exact ⟨fun h => { h with }, fun _ h => h, fun _ _ => rfl, fun _ _ h => h, Nat.le_refl _,
      fun _ h => h, fun _ _ _ h => h, fun _ _ _ h => h⟩
  | service t => exact fun h => ⟨{ h.sound with }, h.thread, h.children, h.host, h.owners⟩

theorem safe_host {id : ThreadId} {role : Role} (h : b.pact.ready .host id role γ) :
    Safe b.HostRely b.Leads id (b.pact.Fate .host id) (b.recorded.program role) γ := by
  obtain ⟨rfl, phase, rfl, h⟩ := h
  simp only [recorded, if_pos]
  refine (Upholds.bind (leads_advanceNoted phase) .refl (fun phase? => ?_) γ h).mono
    (Q := Fate.Returns fun role? γ => ∀ role, role? = some role →
      b.pact.ready .host b.thread role γ)
    fun fate γ' hfate => ?_
  · intro γ h γ' hr role hrole
    obtain ⟨phase', rfl, rfl⟩ := Option.map_eq_some_iff.mp hrole
    exact ⟨rfl, phase', rfl, stable_goes phase' γ γ' (h phase' rfl) hr⟩
  · cases fate with
    | returned role? =>
      cases role? with
      | none => trivial
      | some role => exact hfate role rfl
    | crashed => trivial
    | halted => trivial

theorem fate_of_ready {Q : Action.Fate (Option Role) → Shell × BatchRecord → Prop} {id : ThreadId}
    (h : ∀ fate γ, Q fate γ → ∀ role, fate = .returned (some role) → b.pact.ready k id role γ) :
    ∀ fate γ, Q fate γ → b.pact.Fate k id fate γ := by
  intro fate γ hfate
  cases fate with
  | returned role? =>
    cases role? with
    | none => trivial
    | some role => exact h _ γ hfate role rfl
  | crashed => trivial
  | halted => trivial

theorem kept_pact (b : BatchSite) : b.pact.Kept b.recorded (Life.beside Passes) := by
  constructor
  case refl =>
    intro k γ
    cases k with
    | host => exact .refl γ
    | child c => exact .refl c γ
    | service t => exact id
  case trans =>
    intro k γ γ' γ'' h h'
    cases k with
    | host => exact HostRely.trans h h'
    | child c => exact ChildRely.trans h h'
    | service t => exact fun hs => h' (h hs)
  case here_rely =>
    intro k γ γ' h hr
    cases k with
    | host => exact ⟨HostRely.sound hr h.1, h.2.of_rely hr⟩
    | child c => exact ⟨ChildRely.sound hr h.1, ChildRely.child hr h.1 h.2⟩
    | service t => exact hr h
  case here_guar =>
    intro k γ γ' h hg
    cases k with
    | host => exact ⟨hg.1.sound h.1, hg.2 h.2⟩
    | child c => exact ⟨ChildGuar.sound hg h.1, (ChildGuar.launched hg).symm ▸ h.2⟩
    | service t => exact serves_of_calm hg h
  case gone => exact fun _ _ _ h _ => h
  case joins =>
    intro k γ γ' h hg
    cases k with
    | host => exact joins_of_hostGuar h.1 hg.1
    | child c => exact joins_of_childGuar h.1 hg
    | service t => exact joins_of_calm h.sound hg
  case role =>
    intro k id role γ h hready
    cases k with
    | host => exact safe_host hready
    | child c => exact (safe_child h.1 h.2 hready).mono (fate_of_ready fun _ _ h => h)
    | service t => exact (safe_service hready).mono (fate_of_ready fun _ _ h => h)
  case adopts => exact fun k γ => rely_of_adopt γ k
  case adopted => exact fun _ => rfl
  case passes => exact fun k γ γ' h => rely_of_calm (calm_of_passes h) k
  case passed =>
    intro γ γ' h
    have hstarted : γ'.1.started = γ.1.started := congrArg (·.2.2.2.2.2.2) h.1
    exact hstarted

/-! ## What it comes to -/

theorem foldAll_ne_zero_iff {codes : List (String × Int)} :
    foldAll false codes ≠ 0 ↔ ∃ x ∈ codes, x.2 ≠ 0 := by
  induction codes using List.reverseRecOn with
  | nil => simp [foldAll]
  | append_singleton codes x ih =>
    have hfold : fold false (foldAll false codes) x.2 = if x.2 ≠ 0 then x.2 else foldAll
        false codes := by
      simp [fold]
    rw [foldAll_append_singleton, hfold]
    simp only [List.mem_append, List.mem_singleton, or_and_right, exists_or, exists_eq_left]
    split
    · next hx => exact ⟨fun _ => .inr hx, fun _ => hx⟩
    · next hx => rw [ih, or_iff_left hx]

/-- A batch that has returned with a code. -/
structure Complete (b : BatchSite) (code : Int) (γ : Shell × BatchRecord) : Prop where
  targets : γ.2.begun.map Prod.fst = b.targets
  /-- Each target has been counted in exactly once, with its own code. -/
  counted : γ.2.recorded.Perm (γ.2.begun.map fun x => (x.1, x.2.code γ.1))
  folded : code = foldAll γ.1.settings.batch.lastCode γ.2.recorded
  failed : γ.1.settings.batch.lastCode = false →
    (code ≠ 0 ↔ ∃ x ∈ γ.2.begun, x.2.code γ.1 ≠ 0)
  children : ∀ target id, (target, .child id) ∈ γ.2.begun →
    id ∉ γ.1.registry ∧ (γ.1.session id).disposed = true ∧ (γ.1.session id).exitCode.isSome
  alone : ∀ id ∈ γ.1.registry, id = b.host
  /-- The shell has been ended at most once, by the host and with the code of the batch. -/
  ends : γ.2.endings = [] ∨ γ.2.endings = [(b.thread, code)]
  /-- It has been when the exit of the host is through. -/
  ended : γ.2.closed = true ∨ γ.1.ended ≠ none → γ.2.endings = [(b.thread, code)]
  /-- The code that everything has ended with, if it has. -/
  last : ∀ n, γ.1.ended = some n → n = code

theorem Ending.child {p : Page} {e : Farewell} {target : String} {id : SessionId}
    (h : b.Ending p e γ)
    (hin : (target, .child id) ∈ p.begun) : ∃ c ∈ γ.2.launched, c.session = id := by
  have hmem : (target, id) ∈ p.begun.filterMap Start.child? := List.mem_filterMap.mpr ⟨_, hin, rfl⟩
  have hlaunched : γ.2.launched.map (fun c => (c.label, c.session)) =
      p.begun.filterMap Start.child? :=
    h.accounts.launched
  rw [← hlaunched] at hmem
  obtain ⟨c, hc, heq⟩ := List.mem_map.mp hmem
  exact ⟨c, hc, congrArg Prod.snd heq⟩

theorem Ending.complete {p : Page} {e : Farewell} (h : b.Ending p e γ) :
    b.Complete p.run.code γ := by
  have hbegun : γ.2.begun = p.begun := congrArg (·.1) h.notes
  have hrecorded : γ.2.recorded = p.recorded := congrArg (·.2.1) h.notes
  have hlast : γ.1.settings.batch.lastCode = p.lastCode := h.accounts.lastCode
  have hendings : γ.2.endings = e.endings := congrArg Farewell.endings h.farewell
  have hcounted : p.recorded.Perm (p.begun.map fun x => (x.1, x.2.code γ.1)) :=
    h.accounts.recorded_perm h.sound h.stands h.pending h.held
  constructor
  case targets => simpa [hbegun, h.targets] using h.accounts.targets
  case counted => rwa [hbegun, hrecorded]
  case folded =>
    rw [hlast, hrecorded]
    exact h.accounts.code
  case failed =>
    intro hfirst
    rw [h.accounts.code, ← hlast, hfirst, foldAll_ne_zero_iff, hbegun]
    constructor
    · rintro ⟨x, hx, hne⟩
      obtain ⟨y, hy, rfl⟩ := List.mem_map.mp (hcounted.mem_iff.mp hx)
      exact ⟨y, hy, hne⟩
    · rintro ⟨y, hy, hne⟩
      exact ⟨_, hcounted.mem_iff.mpr (List.mem_map_of_mem hy), hne⟩
  case children =>
    intro target id hin
    obtain ⟨c, hc, rfl⟩ := h.child (hbegun ▸ hin)
    refine ⟨left_of_disposed (h.stands c hc) (h.deserted c hc), h.deserted c hc, ?_⟩
    rcases sent_of_stands (h.stands c hc) with ⟨-, hlive, -⟩ | ⟨code, -, hcode⟩
    · exact absurd (h.deserted c hc) (Bool.eq_false_iff.mp hlive)
    · rw [hcode]
      rfl
  case alone => exact h.registry
  case ends =>
    rw [hendings]
    exact h.once.imp And.left And.left
  case ended =>
    rw [hendings, show γ.2.closed = e.closed from congrArg Farewell.closed h.farewell,
      show γ.1.ended = e.ended from congrArg Farewell.ended h.farewell]
    rcases h.once with ⟨-, hended, hclosed⟩ | ⟨hone, -⟩
    · rintro (hc | he)
      · exact absurd (hclosed.symm.trans hc) Bool.false_ne_true
      · exact absurd hended he
    · exact fun _ => hone
  case last =>
    intro n hn
    have hlast : e.ended = some n := (congrArg Farewell.ended h.farewell).symm.trans hn
    rcases h.once with ⟨-, hended, -⟩ | ⟨-, hended⟩
    · cases hended.symm.trans hlast
    · exact hended n hlast

/-! ## From the beginning -/

/-- A shell whose only session is about to run its batch, for which it has a channel. -/
structure Opens (b : BatchSite) (services : List (ThreadId × Role)) (s : Shell) : Prop where
  started : s.started = []
  registry : s.registry = [b.host]
  known : b.host < s.sessions.size
  live : (s.session b.host).exitCode = none ∧ (s.session b.host).disposed = false
  quiet : ∀ hook, (s.session b.host).exitHook = some hook → hook.IsQuiet
  tame : (s.session b.host).duty.IsTame b.host
  running : s.ended = none
  owners : ∀ id t, (s.session id).owner = some t → t < s.threads.size
  thread : b.thread < s.threads.size
  channel : s.channels[b.channel]? = some ⟨[], 1⟩
  spares : s.SparesSessions
  services : ∀ t role, (t, role) ∈ services → role.IsService ∧ t < s.threads.size ∧ t ≠ b.thread ∧
    ∀ id, (s.session id).owner ≠ some t

def firstRun (b : BatchSite) : BatchRun :=
  ⟨b.targets, b.channel, 0, 0, []⟩

/-- The threads of the shell with their roles. -/
def crew (b : BatchSite) (services : List (ThreadId × Role)) : List (ThreadId × Role) :=
  (b.thread, .session b.host (.batch b.firstRun)) :: services

variable {services : List (ThreadId × Role)}

theorem Opens.sound (h : b.Opens services s) : b.Sound (s, .new) where
  known := by
    rw [h.registry]
    exact fun id hid => List.mem_singleton.mp hid ▸ h.known
  registered := by
    rw [h.registry]
    exact List.nodup_singleton _
  hooked := by
    rw [h.registry]
    exact fun id hid hne => absurd (List.mem_singleton.mp hid) hne
  owners := h.owners
  channel := (Array.getElem?_eq_some_iff.mp h.channel).1
  spares := h.spares
  quiet := h.quiet
  thread := h.thread
  children := nofun
  sessions := .nil
  threads := .nil
  dropped := nofun
  once := .nil
  senders := Nat.zero_le _

def firstPage (b : BatchSite) (s : Shell) : Page :=
  ⟨b.firstRun, s.settings.batch.lastCode, 1, [], [], []⟩

theorem Opens.keeps (h : b.Opens services s) : b.Keeps (b.firstPage s) (s, .new) where
  housed := {
    sound := h.sound
    live := h.live
    tame := h.tame
    running := h.running
    host := h.registry ▸ List.mem_singleton_self _
    registry := by
      rw [h.registry]
      exact fun id hid => .inl (List.mem_singleton.mp hid)
    stands := nofun }
  accounts := {
    channel := rfl
    targets := rfl
    launched := rfl
    children := rfl
    senders := nofun
    missing := rfl
    taken := ⟨[], by simp [tally, codesAt, h.channel, BatchRecord.new, firstPage], .refl _, rfl⟩
    lastCode := rfl
    code := rfl
    slack := by simp [tally, sendersAt, h.channel, BatchRecord.new, firstPage] }
  notes := rfl

theorem Opens.goes (h : b.Opens services s) : b.Goes (.batch b.firstRun) (s, .new) :=
  .inl ⟨b.firstPage s, rfl, rfl, rfl, h.keeps⟩

theorem Opens.manned (h : b.Opens services s) :
    ∃ roster, b.pact.Manned b.recorded (b.recorded.machine (s, .new) (b.crew services)) roster ∧
      [.host] <+: roster.map Prod.fst := by
  have hfinal : b.Final (s, .new) := fun _ hcode => nomatch hcode
  have hserves : ∀ t role, (t, role) ∈ services → b.Serves t (s, .new) := fun t role hin => by
    obtain ⟨-, hlt, hne, howners⟩ := h.services t role hin
    exact ⟨h.sound, hlt, nofun, hne.symm, howners⟩
  let host : Thread (Shell × BatchRecord) Role :=
    ⟨b.thread, b.recorded.program (.session b.host (.batch b.firstRun))⟩
  refine ⟨(.host, some host) :: services.map fun x =>
    (.service x.1, some ⟨x.1, b.recorded.program x.2⟩),
    ⟨fun k t? hk => ?_, ?_, ?_⟩, ⟨_, rfl⟩⟩
  · rcases List.mem_cons.mp hk with heq | hin
    · cases heq
      have hready : b.pact.ready .host b.thread (.session b.host (.batch b.firstRun)) (s, .new) :=
        ⟨rfl, _, rfl, h.goes⟩
      exact .present ⟨h.sound, hfinal⟩ (safe_host hready)
    · obtain ⟨⟨t, role⟩, hx, heq⟩ := List.mem_map.mp hin
      cases heq
      have hthere : b.pact.here (.service t) (s, .new) := hserves t role hx
      exact .present hthere ((kept_pact b).role (.service t) t role _ hthere
        ⟨rfl, (h.services t role hx).1, hserves t role hx⟩)
  · rw [List.map_cons, List.map_map, List.pairwise_cons, List.pairwise_map]
    refine ⟨fun k hk => ?_, List.pairwise_of_forall fun _ y => suits_of_apart (apart_service _ y.1)⟩
    obtain ⟨x, -, rfl⟩ := List.mem_map.mp hk
    exact suits_of_apart (apart_service _ x.1)
  · have hnobody : b.recorded.pending (s, .new) = [] := h.started
    simp [Life.crew, Life.machine, hnobody, crew, host]

theorem complete_of_course {m : Machine (Shell × BatchRecord) Role} {code : Int}
    (h : b.Opens services s) (hcourse : b.recorded.Course (fun _ _ _ => True) (Life.beside Passes)
      (b.recorded.machine (s, .new) (b.crew services)) m)
    (hcode : m.shared.2.returned = some code) : b.Complete code m.shared := by
  obtain ⟨roster, hmanned, hhost⟩ := h.manned
  obtain ⟨-, roster', hmanned', hgrown⟩ :=
    Pact.manned_of_course (T := fun _ _ => True) (kept_pact b)
    (fun _ => trivial) (fun _ _ _ _ _ => trivial) (fun _ _ _ => trivial) hcourse hmanned
  obtain ⟨⟨k, t?⟩, hin, rfl⟩ := List.mem_map.mp
    ((hhost.trans hgrown).subset (List.mem_singleton_self Party.host))
  obtain ⟨p, e, rfl, hending⟩ := (hmanned'.members _ t? hin).here.2 code hcode
  exact hending.complete

/-- Whatever the shell can do from where its batch begins, it can do with a record, as long as all
steps are peaceful, and the steps of scripts that neither fork nor kill are. Once the batch has
returned on the record, each target has been counted in exactly once, the code is what comes of the
codes in this order, all children are gone, and the host ends the shell, which nobody else does. -/
theorem complete_when_returned (h : b.Opens services s) :
    (∀ m, life.Course b.Peaceful Passes (life.machine s (b.crew services)) m →
      ∃ m', b.recorded.Course (fun _ _ _ => True) (Life.beside Passes)
        (b.recorded.machine (s, .new) (b.crew services)) m' ∧ Life.Keeps b.Peaceful m' m) ∧
    (∀ interpreter id text source, Interpreter.BindsOnly (· = id) interpreter →
      (∀ r, (interpreter.eval text source).MayAsk r → r.IsPeaceful) →
      Within (b.PeacefulFor id) (evalWith interpreter text source)) ∧
    ∀ m code, b.recorded.Course (fun _ _ _ => True) (Life.beside Passes)
        (b.recorded.machine (s, .new) (b.crew services)) m →
      m.shared.2.returned = some code → b.Complete code m.shared :=
  ⟨fun _ hcourse => Life.exists_kept follows_recorded hcourse
    (Life.keeps_machine follows_recorded s .new _),
    fun _ _ text source hown hasks => peaceful_evalWith hown text source hasks,
    fun _ _ hcourse hcode => complete_of_course h hcourse hcode⟩

/-- A script without statements, and one that is not there. -/
def emptyAndMissing : BatchSite :=
  ⟨0, 4, 0, ["a", "b"]⟩

/-- The shell that is about to run them. -/
def emptyAndMissingShell : Shell :=
  let files : FileSystem := ⟨#[.directory [("a", 1)], .file []], []⟩
  let new : Shell := .new (.default 1) (.empty "") files ⟨[], true⟩ true false
  let started : Shell := aloneOr 0 (start 0 "calc").run (aloneOr 0 (newSession "a" none) new)
  let entered : Shell := aloneOr 4 (advance 0 .entering) { started with started := [] }
  aloneOr 4 (beginBatch ["a", "b"]) entered

def streams : List (ThreadId × Role) :=
  [(1, .stream .out), (2, .stream .err), (3, .stream .input)]

theorem opens_emptyAndMissing : emptyAndMissing.Opens streams emptyAndMissingShell := by
  have hsize : emptyAndMissingShell.sessions.size = 1 := rfl
  have hthreads : emptyAndMissingShell.threads.size = 5 := rfl
  have howner : (emptyAndMissingShell.session 0).owner = some 4 := by decide +kernel
  have hhook : (emptyAndMissingShell.session 0).exitHook = none := by decide +kernel
  have hmain : (emptyAndMissingShell.session 0).main = none := by decide +kernel
  have htasks : (emptyAndMissingShell.session 0).tasks = [.boot .calculator] := rfl
  have hinterpreter : (emptyAndMissingShell.session 0).interpreter.isNone = true := rfl
  have hjobs : emptyAndMissingShell.pool.jobs.size = 0 := rfl
  have howners : ∀ id t, (emptyAndMissingShell.session id).owner = some t → t = 4 := by
    intro id t ht
    rcases Nat.eq_zero_or_pos id with rfl | hpos
    · exact Option.some.inj (ht.symm.trans howner)
    · rw [session_of_size_le (hsize ▸ hpos)] at ht
      cases ht
  exact {
    started := rfl
    registry := rfl
    known := hsize ▸ Nat.zero_lt_one
    live := by decide
    quiet := fun hook hin => nomatch hhook.symm.trans hin
    tame := {
      main := fun main hin => nomatch hmain.symm.trans hin
      tasks := fun hook code hin => by
        have hin' : .runHook hook code ∈ (emptyAndMissingShell.session 0).tasks := hin
        rw [htasks] at hin'
        simp at hin'
      hosts := fun i hin => nomatch (Option.isNone_iff_eq_none.mp hinterpreter).symm.trans hin }
    running := rfl
    owners := fun id t ht => by
      rw [howners id t ht, hthreads]
      decide
    thread := hthreads ▸ (by decide : 4 < 5)
    channel := rfl
    spares := fun r hr => by
      rw [Array.eq_empty_of_size_eq_zero hjobs] at hr
      exact absurd hr (Array.not_mem_empty r)
    services := fun t role hin => by
      simp only [streams, List.mem_cons, Prod.mk.injEq, List.not_mem_nil, or_false] at hin
      rw [hthreads]
      rcases hin with ⟨rfl, rfl⟩ | ⟨rfl, rfl⟩ | ⟨rfl, rfl⟩ <;>
        exact ⟨trivial, by decide, by decide, fun id ho => absurd (howners id _ ho) (by decide)⟩ }

theorem complete_of_emptyAndMissing :
    ∃ m, emptyAndMissing.recorded.Course (fun _ _ _ => True) (Life.beside Passes)
        (emptyAndMissing.recorded.machine (emptyAndMissingShell, .new)
          (emptyAndMissing.crew streams)) m ∧
      emptyAndMissing.Complete 31 m.shared ∧ m.shared.2.recorded = [("a", 0), ("b", 31)] ∧
      m.shared.2.endings = [(4, 31)] := by
  let m₀ := emptyAndMissing.recorded.machine (emptyAndMissingShell, .new)
    (emptyAndMissing.crew streams)
  have hcourse : emptyAndMissing.recorded.Course (fun _ _ _ => True) (Life.beside Passes) m₀
      (emptyAndMissing.recorded.settle 8 m₀) := .of_reaches (Life.reaches_settle _ _ _)
  have hrecord : (emptyAndMissing.recorded.settle 8 m₀).shared.2 =
      ⟨[⟨1, 5, "a"⟩], [(5, "a", 0), (4, "b", 31)], [5], [(4, 31)],
        [("a", .child 1), ("b", .missing)], [("a", 0), ("b", 31)], some 31, true⟩ := by
    decide +kernel
  generalize emptyAndMissing.recorded.settle 8 m₀ = m at hcourse hrecord
  exact ⟨m, hcourse, (complete_when_returned opens_emptyAndMissing).2.2 m 31 hcourse
    (by rw [hrecord]),
    by rw [hrecord], by rw [hrecord]⟩

end BatchSite

end SessionShell
