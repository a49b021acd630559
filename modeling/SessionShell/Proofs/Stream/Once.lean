import SessionShell.Proofs.Stream.Service
import SessionShell.Stream.Scripted

/-!
Every request that is submitted to a stream service is served once, in the order of the service, by
its one worker; and who waits for the service finds all served that was submitted before.
-/

namespace SessionShell

open Action StreamRecord

namespace Workshop

variable {σ ρ κ α : Type} {w : Workshop σ ρ κ} {d : Discipline} [DecidableEq κ]

/-! ## What the record tells -/

/-- Every request is served once, in order, and whoever waits finds all served that was there
before. -/
structure Orderly (d : Discipline) (queue : List (Queued ρ)) (log : List (StreamEvent ρ)) :
    Prop where
  /-- What is taken was submitted, was not taken before and goes first, and no other is served. -/
  began : ∀ before n request after, log = before ++ .began n request :: after →
    IsNext d before n ∧ (submitted before)[n]? = some request ∧ begun before = ended before
  ended : ∀ before n after, log = before ++ .ended n :: after → begun before = ended before ++ [n]
  once : (begun log).Nodup
  /-- When nothing is left to do, all that was submitted was served once. -/
  all : queue = [] → begun log = StreamRecord.ended log →
    (StreamRecord.ended log).Perm (List.range (submitted log).length)
  one : ∀ before after, log = before ++ .launched :: after → .launched ∉ before ∧ .launched ∉ after
  synced : d = .fifo → ∀ before mark after, log = before ++ .returned mark :: after →
    IsDone before mark

omit [DecidableEq κ] in
theorem orderly_of_inOrder {v : StreamService ρ} {r : StreamRecord ρ} (h : InOrder d v r) :
    Orderly d v.queue r.log := by
  constructor
  case began => exact fun before n request after hlog => h.lawful.mayFollow hlog
  case ended => exact fun before n after hlog => h.lawful.mayFollow hlog
  case once => exact h.lawful.nodup_begun
  case all =>
    intro hqueue hidle
    have hline : r.line.queue = [] := by
      have := h.twins
      rw [hqueue] at this
      exact List.forall₂_nil_left_iff.mp this
    have hperm := h.lined.perm
    rw [hline, StreamService.requests_nil, List.append_nil, hidle] at hperm
    exact hperm
  case one =>
    intro before after hlog
    refine ⟨fun hin => ?_, h.lawful.launched_once hlog⟩
    exact h.lawful.mayFollow hlog _ hin rfl
  case synced =>
    intro hd before mark after hlog
    exact h.lawful.mayFollow hlog hd

/-- A machine with a new service, nothing in its record, and clients only. -/
structure IsNew (w : Workshop σ ρ κ) (d : Discipline) (m : Machine (σ × StreamRecord ρ) κ) :
    Prop where
  service : w.slot.get m.shared.1 = .new d
  record : m.shared.2 = .new d
  pending : ∀ joined ∈ w.life.pending m.shared.1, joined.2 ≠ w.worker
  clients : ∀ t ∈ m.threads, ∃ errand : Errand w.slot w.life w.worker (Option {k // k ≠ w.worker}),
    t.rest = (do return (← errand.recorded).map Subtype.val)

theorem manned_of_isNew (hw : w.Lawful) {m : Machine (σ × StreamRecord ρ) κ} (h : w.IsNew d m) :
    (w.pact d).Manned w.recorded m ((w.recorded.crew m).map fun t => (.client, some t)) := by
  have hinv : w.Inv d m.shared := by
    rw [Inv, h.service, h.record]
    exact .new d
  have hclient : ∀ t ∈ w.recorded.crew m, (w.pact d).Member m.shared .client (some t) := by
    intro t ht
    refine .present hinv ?_
    rcases List.mem_append.mp ht with hin | hin
    · obtain ⟨errand, hrest⟩ := h.clients t hin
      rw [hrest]
      refine (upholds_errand hw bears_client errand m.shared hinv).bind_fate .refl ?_ fun _ _ =>
        trivial
      intro role? γ' hinv' γ'' hr
      cases role? with
      | none => trivial
      | some role' => exact ⟨hr.inv hinv', role'.property⟩
    · obtain ⟨⟨id, role⟩, hjoined, rfl⟩ := List.mem_map.mp hin
      have hready : (w.pact d).ready .client id role m.shared := ⟨hinv, h.pending _ hjoined⟩
      exact safe_role hw hready
  constructor
  case members =>
    intro k t? hin
    obtain ⟨t, ht, heq⟩ := List.mem_map.mp hin
    cases heq
    exact hclient t ht
  case suits =>
    rw [List.map_map, List.pairwise_map]
    exact List.pairwise_of_forall fun _ _ => suits_of_client .client
  case crew => simp [List.filterMap_map]

theorem orderly_of_course (hw : w.Lawful) {env : σ → σ → Prop} (henv : w.Undisturbed env)
    {allowed : ThreadId → σ × StreamRecord ρ → σ × StreamRecord ρ → Prop}
    {m₀ m : Machine (σ × StreamRecord ρ) κ} (h₀ : w.IsNew d m₀)
    (h : w.recorded.Course allowed (Life.beside env) m₀ m) :
    Orderly d (w.slot.get m.shared.1).queue m.shared.2.log := by
  have hinv₀ : w.Inv d m₀.shared := by
    rw [Inv, h₀.service, h₀.record]
    exact .new d
  have hkept := kept_pact (d := d) hw henv
  refine orderly_of_inOrder ((Pact.manned_of_course (T := w.Grows d) hkept .refl
    (fun _ _ _ => .trans) ?_ h (manned_of_isNew hw h₀)).1.inv hinv₀)
  intro γ γ' hdeed
  cases hdeed with
  | nothing => exact .refl γ
  | @step k _ _ hguar =>
    cases k with
    | client => exact hguar.1.toGrows
    | worker => exact hguar.1
  | adopt =>
    have hs : w.Spares d γ (w.recorded.takeStarted γ).2 := spares_of_eq (hw.get_adopt γ.1) rfl
    exact hs.toGrows
  | env he => exact (spares_of_eq (henv.get _ _ he.1) he.2).toGrows

/-! ## Machines without a record -/

omit [DecidableEq κ] in
theorem erases_serveNextRecorded :
    Erases w.serveNextRecorded (w.slot.serveNext fun r => (w.serve r).plain) := by
  refine (erases_noted _ _).bind fun q => ?_
  cases q with
  | mark mark => exact erases_silent _
  | request request =>
    have hserved : Erases (discard (w.serve request).recorded.attempt)
        (discard (w.serve request).plain.attempt) :=
      (w.serve request).erases_recorded.attempt.bind fun _ => .done ()
    have hdone : ∀ _ : Unit, Erases (.done () : Action (σ × StreamRecord ρ) Unit) (.done ()) :=
      fun _ => .done ()
    have hfinish : Erases (record StreamRecord.finish : Action (σ × StreamRecord ρ) Unit)
        (.done ()) := .note (hdone ())
    have hboth := hserved.bind fun _ => hfinish
    rwa [show discard (w.serve request).plain.attempt >>= (fun _ => .done ()) = _ from
      Program.bind_done _] at hboth

theorem follows_recorded (hw : w.Lawful) :
    w.recorded.Follows w.life fun _ _ _ => True := by
  constructor
  · intro role
    by_cases hrole : role = w.worker
    · subst hrole
      rw [hw.worker]
      simp only [recorded, dif_pos]
      exact (erases_serveNextRecorded.bind fun _ => .done _).follows
    · have hother := hw.others ⟨role, hrole⟩
      simp only at hother
      rw [hother]
      simp only [recorded, dif_neg hrole]
      exact ((w.role ⟨role, hrole⟩).erases_recorded.bind fun _ => .done _).follows
  · exact fun _ _ => rfl

/-- A machine with a new service and clients only. -/
structure IsOpen (w : Workshop σ ρ κ) (d : Discipline) (m : Machine σ κ) : Prop where
  service : w.slot.get m.shared = .new d
  pending : ∀ joined ∈ w.life.pending m.shared, joined.2 ≠ w.worker
  clients : ∀ t ∈ m.threads, ∃ errand : Errand w.slot w.life w.worker (Option {k // k ≠ w.worker}),
    t.rest = (do return (← errand.plain).map Subtype.val)

omit [DecidableEq κ] in
theorem exists_isNew {m : Machine σ κ} (h : w.IsOpen d m) :
    ∃ m' : Machine (σ × StreamRecord ρ) κ, w.IsNew d m' ∧ Life.Keeps (fun _ _ _ => True) m' m := by
  have hthreads : ∀ threads : List (Thread σ κ), (∀ t ∈ threads,
      ∃ errand : Errand w.slot w.life w.worker (Option {k // k ≠ w.worker}),
        t.rest = (do return (← errand.plain).map Subtype.val)) →
      ∃ threads' : List (Thread (σ × StreamRecord ρ) κ),
        List.Forall₂ (Life.ThreadFollows fun _ _ _ => True) threads' threads ∧
        ∀ t ∈ threads', ∃ errand : Errand w.slot w.life w.worker (Option {k // k ≠ w.worker}),
          t.rest = (do return (← errand.recorded).map Subtype.val) := by
    intro threads hall
    induction threads with
    | nil => exact ⟨[], .nil, by simp⟩
    | cons t threads ih =>
      obtain ⟨errand, hrest⟩ := hall t List.mem_cons_self
      obtain ⟨threads', hfollows, hclients⟩ := ih fun t' ht' => hall t' (List.mem_cons_of_mem _ ht')
      refine ⟨⟨t.id, do return (← errand.recorded).map Subtype.val⟩ :: threads',
        .cons ⟨rfl, ?_⟩ hfollows, ?_⟩
      · rw [hrest]
        exact (errand.erases_recorded.bind fun _ => .done _).follows
      · intro t' ht'
        rcases List.mem_cons.mp ht' with rfl | hin
        · exact ⟨errand, rfl⟩
        · exact hclients t' hin
  obtain ⟨threads', hfollows, hclients⟩ := hthreads m.threads h.clients
  exact ⟨⟨(m.shared, .new d), threads'⟩, ⟨h.service, rfl, h.pending, hclients⟩, rfl, hfollows⟩

end Workshop

/-! ## The service that is by itself -/

namespace ScriptedStream

theorem expand_bind {α β : Type} (p : Errand place life () α) (f : α → Errand place life () β) :
    Errand.plain (p >>= f) = Errand.plain p >>= fun a => Errand.plain (f a) := by
  induction p with
  | done a => rfl
  | crash => rfl
  | ask call next ih =>
    change call.plain >>= (fun reply => Errand.plain ((next reply).bind f)) =
      (call.plain >>= fun reply => Errand.plain (next reply)) >>= _
    rw [show (fun reply => Errand.plain ((next reply).bind f)) = _ from funext ih]
    exact (Program.bind_assoc _ _ _).symm

def gateCall (gate : String) : StreamCall place life () :=
  .own ⟨Unit, fun _ s => if s.openGates.contains gate then some ((), s) else none⟩ <| by
    intro me s answer s' h
    dsimp only at h
    split at h
    · cases h
      exact ⟨rfl, .inl rfl⟩
    · cases h

def logCall (log : String) : StreamCall place life () :=
  .own ⟨Unit, fun _ s => some ((), { s with log := s.log ++ [log] })⟩ <| by
    intro me s answer s' h
    cases h
    exact ⟨rfl, .inl rfl⟩

def submitCall (request : ScriptedRequest) : Errand place life () Unit :=
  Program.call (StreamCall.submit request)

def gateErrand : Option String → Errand place life () Unit
  | some gate => Program.call (gateCall gate)
  | none => pure ()

def logErrand (log : String) : Errand place life () Unit :=
  Program.call (logCall log)

def endErrand : Ending → Errand place life () Unit
  | .crashes => .crash
  | .succeeds | .fails => pure ()

def errand : ScriptedRequest → Errand place life () Unit
  | .mk log gate nested ending => do
    gateErrand gate
    logErrand log
    nested.forM submitCall
    endErrand ending

theorem plain_forM (nested : List ScriptedRequest) :
    Errand.plain (nested.forM submitCall) = nested.forM place.submit := by
  induction nested with
  | nil => rfl
  | cons request nested ih =>
    change Errand.plain (submitCall request >>= fun _ => nested.forM submitCall) =
      place.submit request >>= fun _ => nested.forM place.submit
    rw [expand_bind, ih]
    rfl

theorem plain_errand (request : ScriptedRequest) : (errand request).plain = serve request := by
  obtain ⟨log, gate, nested, ending⟩ := request
  have hending : (endErrand ending).plain =
      (match ending with | .crashes => .crash | .succeeds | .fails => pure ()) := by
    cases ending <;> rfl
  change Errand.plain (gateErrand gate >>= fun _ => logErrand log >>= fun _ =>
    nested.forM submitCall >>= fun _ => endErrand ending) = _
  rw [expand_bind]
  simp only [expand_bind, plain_forM, hending]
  cases gate with
  | none => rfl
  | some gate => rfl

/-- The service that is by itself, as a workshop without any other roles. -/
def workshop : Workshop ScriptedStream ScriptedRequest Unit where
  slot := place
  life := life
  worker := ()
  serve := errand
  role k := absurd rfl k.property

theorem lawful_workshop : workshop.Lawful where
  get_set _ _ := rfl
  pending_set _ _ := rfl
  get_launch _ := rfl
  pending_launch _ := ⟨workerId, rfl⟩
  get_adopt _ := rfl
  pending_adopt _ := rfl
  worker := by
    have hserve : (fun request => (workshop.serve request).plain) = serve := funext plain_errand
    rw [hserve]
    rfl
  others k := absurd rfl k.property

def Opens (s s' : ScriptedStream) : Prop :=
  ∃ gate, s' = { s with openGates := gate :: s.openGates }

theorem undisturbed_of_opens : workshop.Undisturbed Opens where
  get := by
    rintro s _ ⟨gate, rfl⟩
    rfl
  pending := by
    rintro s _ ⟨gate, rfl⟩
    rfl

end ScriptedStream

namespace Workshop

variable {σ ρ κ α : Type} {w : Workshop σ ρ κ} [DecidableEq κ]

omit [DecidableEq κ] in
theorem discard_attempt (p : Action σ α) :
    discard (discard p.attempt).attempt = (discard p.attempt : Action σ Unit) := by
  induction p with
  | done a => rfl
  | crash => rfl
  | ask act next ih => exact congrArg (Program.ask act) (funext ih)

/-- Of every course of a machine there is a record that is orderly, and for the worker a request
that crashes is one that returns where it crashes. -/
theorem serves_once_in_order (hw : w.Lawful) {env : σ → σ → Prop} (henv : w.Undisturbed env)
    (d : Discipline) :
    (∀ m₀ m, w.IsOpen d m₀ → w.life.Course (fun _ _ _ => True) env m₀ m →
      ∃ m₀' m', w.IsNew d m₀' ∧ Life.Keeps (fun _ _ _ => True) m₀' m₀ ∧
        w.recorded.Course (fun _ _ _ => True) (Life.beside env) m₀' m' ∧
        Life.Keeps (fun _ _ _ => True) m' m) ∧
    (∀ m₀ m, w.IsNew d m₀ → w.recorded.Course (fun _ _ _ => True) (Life.beside env) m₀ m →
      Orderly d (w.slot.get m.shared.1).queue m.shared.2.log) ∧
    ∀ serve : ρ → Action σ Unit,
      w.slot.serveNext serve = w.slot.serveNext fun r => discard (serve r).attempt := by
  refine ⟨fun m₀ m h₀ h => ?_, fun m₀ m h₀ h => orderly_of_course hw henv h₀ h, fun serve => ?_⟩
  · obtain ⟨m₀', hnew, hkeeps⟩ := exists_isNew h₀
    obtain ⟨m', hcourse, hkeeps'⟩ := Life.exists_kept (follows_recorded hw) h hkeeps
    exact ⟨m₀', m', hnew, hkeeps, hcourse, hkeeps'⟩
  · refine congrArg (Program.bind _) (funext fun q => ?_)
    cases q with
    | mark mark => rfl
    | request r => exact (discard_attempt (serve r)).symm

end Workshop

namespace ScriptedStream

/-- One thread submits a request that submits another one and crashes, a second thread submits a
third request, starts the service and waits. -/
def twoClients : Machine (ScriptedStream × StreamRecord ScriptedRequest) Unit :=
  let first : Errand place life () (Option {k // k ≠ ()}) := do
    Program.call (StreamCall.submit (.mk "a" none [.mk "c" none [] .fails] .crashes))
    return none
  let second : Errand place life () (Option {k // k ≠ ()}) := do
    Program.call (StreamCall.submit (.mk "b" none [] .succeeds))
    Program.call StreamCall.start
    Program.call StreamCall.sync
    return none
  ⟨(.new .fifo, .new .fifo),
    [⟨7, do return (← first.recorded).map Subtype.val⟩,
      ⟨8, do return (← second.recorded).map Subtype.val⟩]⟩

theorem isNew_twoClients : workshop.IsNew .fifo twoClients where
  service := rfl
  record := rfl
  pending := by simp [workshop, twoClients, Life.pending, life, new]
  clients t ht := by
    simp only [twoClients, List.mem_cons, List.not_mem_nil, or_false] at ht
    rcases ht with rfl | rfl
    · exact ⟨_, rfl⟩
    · exact ⟨_, rfl⟩

theorem serves_once_of_twoClients :
    let m := workshop.recorded.settle 5 twoClients
    workshop.recorded.Course (fun _ _ _ => True) (Life.beside Opens) twoClients m ∧
    Workshop.Orderly .fifo m.shared.1.service.queue m.shared.2.log ∧
    m.shared.1.log = ["a", "b", "c"] ∧ ended m.shared.2.log = [0, 1, 2] ∧ m.threads.length = 1 := by
  have hcourse : workshop.recorded.Course (fun _ _ _ => True) (Life.beside Opens) twoClients
      (workshop.recorded.settle 5 twoClients) := .of_reaches (Life.reaches_settle _ _ _)
  refine ⟨hcourse, ?_, by decide +kernel, by decide +kernel, by decide +kernel⟩
  exact (Workshop.serves_once_in_order lawful_workshop undisturbed_of_opens .fifo).2.1 _ _
    isNew_twoClients hcourse

end ScriptedStream

end SessionShell
