import SessionShell.Proofs.Stream.Order
import SessionShell.Proofs.Team.Pact
import SessionShell.Proofs.Team.Shadow

/-!
A stream service at work, with any number of threads that use it.

What a thread does beside the service is its own affair, as long as it leaves the service alone. So
is what a request does while it is served: it may submit further requests, start the worker, wait,
or crash.
-/

namespace SessionShell

open Action StreamRecord

variable {σ ρ κ α β : Type}

def StreamAt.Spares (slot : StreamAt σ ρ) (life : Life σ κ) (worker : κ) (act : Act σ) : Prop :=
  ∀ me s answer s', act.run me s = some (answer, s') → slot.get s' = slot.get s ∧
    (life.pending s' = life.pending s ∨
      ∃ id role, role ≠ worker ∧ life.pending s' = life.pending s ++ [(id, role)])

inductive StreamCall (slot : StreamAt σ ρ) (life : Life σ κ) (worker : κ) where
  | submit (request : ρ)
  | start
  | sync
  | own (act : Act σ) (h : slot.Spares life worker act)

namespace StreamCall

variable {slot : StreamAt σ ρ} {life : Life σ κ} {worker : κ}

def Reply : StreamCall slot life worker → Type
  | .submit _ => Unit
  | .start => Unit
  | .sync => Unit
  | .own act _ => act.Answer

def plain : (call : StreamCall slot life worker) → Action σ call.Reply
  | .submit request => slot.submit request
  | .start => slot.start
  | .sync => slot.sync
  | .own act _ => Program.call act

def startNoted (slot : StreamAt σ ρ) : Action (σ × StreamRecord ρ) Unit :=
  noted (fun s _ r => if (slot.get s).started then r else r.note .launched) slot.start

def syncNoted (slot : StreamAt σ ρ) : Action (σ × StreamRecord ρ) Unit := do
  startNoted slot
  let mark ← noted (fun _ mark r => r.mark mark) (Action.step fun s =>
    let (mark, service) := (slot.get s).submitMark
    (mark, slot.set service s))
  noted (fun _ _ r => r.note (.returned mark))
    (Action.await fun s => if (slot.get s).hasReached mark then some ((), s) else none)

def recorded : (call : StreamCall slot life worker) → Action (σ × StreamRecord ρ) call.Reply
  | .submit request => noted (fun _ _ r => r.submit request) (slot.submit request)
  | .start => startNoted slot
  | .sync => syncNoted slot
  | .own act _ => silent (Program.call act)

theorem erases_recorded (call : StreamCall slot life worker) : Erases call.recorded call.plain := by
  cases call with
  | submit request => exact erases_noted _ _
  | start => exact erases_noted _ _
  | sync =>
    exact (erases_noted _ _).bind fun _ => (erases_noted _ _).bind fun _ => erases_noted _ _
  | own act h => exact erases_silent _

end StreamCall

abbrev Errand (slot : StreamAt σ ρ) (life : Life σ κ) (worker : κ) (α : Type) :=
  Program (StreamCall slot life worker) StreamCall.Reply α

namespace Errand

variable {slot : StreamAt σ ρ} {life : Life σ κ} {worker : κ}

def plain (errand : Errand slot life worker α) : Action σ α :=
  errand.expand StreamCall.plain

def recorded (errand : Errand slot life worker α) : Action (σ × StreamRecord ρ) α :=
  errand.expand StreamCall.recorded

theorem erases_recorded (errand : Errand slot life worker α) :
    Erases errand.recorded errand.plain := by
  induction errand with
  | done a => exact .done a
  | crash => exact .crash
  | ask call next ih => exact call.erases_recorded.bind ih

end Errand

/-- A service with its worker, the requests it serves, and the roles of all other threads. -/
structure Workshop (σ ρ κ : Type) where
  slot : StreamAt σ ρ
  life : Life σ κ
  worker : κ
  serve : ρ → Errand slot life worker Unit
  role : {k : κ // k ≠ worker} → Errand slot life worker (Option {k : κ // k ≠ worker})

namespace Workshop

/-- The roles do what they are said to do, and the service is kept in a place of its own. -/
structure Lawful (w : Workshop σ ρ κ) : Prop where
  get_set : ∀ service s, w.slot.get (w.slot.set service s) = service
  pending_set : ∀ service s, w.life.pending (w.slot.set service s) = w.life.pending s
  get_launch : ∀ s, w.slot.get (w.slot.launch s) = w.slot.get s
  pending_launch : ∀ s, ∃ id, w.life.pending (w.slot.launch s) = w.life.pending s ++
    [(id, w.worker)]
  get_adopt : ∀ s, w.slot.get (w.life.takeStarted s).2 = w.slot.get s
  pending_adopt : ∀ s, w.life.pending (w.life.takeStarted s).2 = []
  worker : w.life.program w.worker = (do
    w.slot.serveNext fun r => (w.serve r).plain
    return some w.worker)
  others : ∀ k, w.life.program k.val = (do return (← (w.role k).plain).map Subtype.val)

variable (w : Workshop σ ρ κ)

def serveNextRecorded : Action (σ × StreamRecord ρ) Unit := do
  let q ← noted (fun _ q r => r.take q) (Action.await fun s =>
    (w.slot.get s).take?.map fun (q, service) => (q, w.slot.set service s))
  match q with
  | .request r =>
    discard (w.serve r).recorded.attempt
    record (·.finish)
  | .mark id => silent (Action.update fun s => w.slot.set ((w.slot.get s).reach id) s)

/-- The same life with a record beside the state. -/
def recorded [DecidableEq κ] : Life (σ × StreamRecord ρ) κ where
  program k :=
    if h : k = w.worker then do
      w.serveNextRecorded
      return some w.worker
    else do return (← (w.role ⟨k, h⟩).recorded).map Subtype.val
  takeStarted γ := ((w.life.takeStarted γ.1).1, ((w.life.takeStarted γ.1).2, γ.2))
  isOver γ := w.life.isOver γ.1

end Workshop

end SessionShell

/-!
What the threads beside a stream service rely on and guarantee. A client only queues requests and
marks; what is taken is taken by the worker, who joins when the service is started.
-/

namespace SessionShell

open Action StreamRecord

inductive Hand where
  | client
  | worker
  deriving DecidableEq, Repr

namespace Workshop

variable {σ ρ κ α : Type} {w : Workshop σ ρ κ} {d : Discipline} {γ γ' γ'' : σ × StreamRecord ρ}
  {me : ThreadId}

def Inv (w : Workshop σ ρ κ) (d : Discipline) (γ : σ × StreamRecord ρ) : Prop :=
  InOrder d (w.slot.get γ.1) γ.2

structure Grows (w : Workshop σ ρ κ) (d : Discipline) (γ γ' : σ × StreamRecord ρ) : Prop where
  inv : w.Inv d γ → w.Inv d γ'
  log : γ.2.log <+: γ'.2.log
  started : (w.slot.get γ.1).started = true → (w.slot.get γ'.1).started = true

structure Spares (w : Workshop σ ρ κ) (d : Discipline) (γ γ' : σ × StreamRecord ρ) : Prop
    extends w.Grows d γ γ' where
  begun : begun γ'.2.log = begun γ.2.log
  ended : ended γ'.2.log = ended γ.2.log
  marks : (w.slot.get γ.1).marks ≤ (w.slot.get γ'.1).marks
  gone : ∀ mark, mark < (w.slot.get γ.1).marks → .mark mark ∉ γ.2.line.queue →
    .mark mark ∉ γ'.2.line.queue

def Staffs (w : Workshop σ ρ κ) (γ γ' : σ × StreamRecord ρ) : Prop :=
  w.life.pending γ'.1 = w.life.pending γ.1 ∨
  (∃ id role, role ≠ w.worker ∧ w.life.pending γ'.1 = w.life.pending γ.1 ++ [(id, role)]) ∨
  (w.slot.get γ.1).started = false ∧ (w.slot.get γ'.1).started = true ∧
    ∃ id, w.life.pending γ'.1 = w.life.pending γ.1 ++ [(id, w.worker)]

theorem Grows.refl (γ : σ × StreamRecord ρ) : w.Grows d γ γ :=
  ⟨fun h => h, List.prefix_rfl, fun h => h⟩

theorem Grows.trans (h : w.Grows d γ γ') (h' : w.Grows d γ' γ'') : w.Grows d γ γ'' :=
  ⟨fun hi => h'.inv (h.inv hi), h.log.trans h'.log, fun hs => h'.started (h.started hs)⟩

theorem Spares.refl (γ : σ × StreamRecord ρ) : w.Spares d γ γ :=
  ⟨.refl γ, rfl, rfl, Nat.le_refl _, fun _ _ h => h⟩

theorem Spares.trans (h : w.Spares d γ γ') (h' : w.Spares d γ' γ'') : w.Spares d γ γ'' :=
  ⟨h.toGrows.trans h'.toGrows, h'.begun.trans h.begun, h'.ended.trans h.ended,
    Nat.le_trans h.marks h'.marks,
    fun mark hlt hout => h'.gone mark (Nat.lt_of_lt_of_le hlt h.marks) (h.gone mark hlt hout)⟩

theorem spares_of_eq (hget : w.slot.get γ'.1 = w.slot.get γ.1) (hr : γ'.2 = γ.2) :
    w.Spares d γ γ' := by
  refine ⟨⟨fun h => ?_, ?_, fun h => ?_⟩, ?_, ?_, ?_, fun mark _ h => ?_⟩
  · rwa [Inv, hget, hr]
  · exact hr ▸ List.prefix_rfl
  · rwa [hget]
  · rw [hr]
  · rw [hr]
  · rw [hget]
  · rwa [hr]

/-! ## The calls of a client -/

def HasMarked (mark : Nat) (γ : σ × StreamRecord ρ) : Prop :=
  .marked mark ∈ γ.2.log

theorem spares_return {mark : Nat} (hi : w.Inv d γ) (hmarked : HasMarked mark γ)
    (hreached : (w.slot.get γ.1).hasReached mark = true) :
    w.Spares d γ (γ.1, γ.2.note (.returned mark)) := by
  have hnew : InOrder d (w.slot.get γ.1) (γ.2.note (.returned mark)) := by
    refine InOrder.note hi ?_ rfl rfl (by simp) (by simp)
    rintro rfl
    obtain ⟨first, last, hlog⟩ := List.append_of_mem hmarked
    exact InOrder.isDone_of_reached hi hlog hreached
  refine ⟨⟨fun _ => hnew, List.prefix_append _ _, fun h => h⟩, ?_, ?_, Nat.le_refl _,
    fun _ _ h => h⟩
  · simp [StreamRecord.note]
  · simp [StreamRecord.note]

section Calls

variable (hw : w.Lawful)

include hw

theorem spares_submit (request : ρ) (hi : w.Inv d γ) :
    w.Spares d γ (w.slot.set ((w.slot.get γ.1).submit request) γ.1, γ.2.submit request) := by
  have hnew : InOrder d ((w.slot.get γ.1).submit request) (γ.2.submit request) := hi.submit request
  refine ⟨⟨fun _ => ?_, List.prefix_append _ _, fun h => ?_⟩, ?_, ?_, ?_, fun mark _ hout => ?_⟩
  · simpa [Inv, hw.get_set] using hnew
  · simpa [hw.get_set, StreamService.submit] using h
  · simp [StreamRecord.submit, StreamRecord.note]
  · simp [StreamRecord.submit, StreamRecord.note]
  · simp [hw.get_set, StreamService.submit]
  · simpa [StreamRecord.submit, StreamRecord.note, StreamService.submit, StreamService.mem_enqueue]
      using hout

theorem spares_mark (hi : w.Inv d γ) :
    w.Spares d γ (w.slot.set (w.slot.get γ.1).submitMark.2 γ.1,
      γ.2.mark (w.slot.get γ.1).marks) := by
  have hnew : InOrder d (w.slot.get γ.1).submitMark.2 (γ.2.mark (w.slot.get γ.1).marks) := hi.mark
  refine ⟨⟨fun _ => ?_, List.prefix_append _ _, fun h => ?_⟩, ?_, ?_, ?_, fun mark hlt hout => ?_⟩
  · simpa [Inv, hw.get_set] using hnew
  · simpa [hw.get_set, StreamService.submitMark] using h
  · simp [StreamRecord.mark, StreamRecord.note]
  · simp [StreamRecord.mark, StreamRecord.note]
  · simp [hw.get_set, StreamService.submitMark]
  · have hne : mark ≠ γ.2.line.marks := by
      rw [hi.marks]
      exact Nat.ne_of_lt hlt
    simpa [StreamRecord.mark, StreamRecord.note, StreamService.submitMark,
      StreamService.mem_enqueue, hne] using hout

theorem spares_start (hi : w.Inv d γ) (hs : (w.slot.get γ.1).started = false) :
    w.Spares d γ (w.slot.launch (w.slot.set { w.slot.get γ.1 with started := true } γ.1),
      γ.2.note .launched) := by
  have hnew : InOrder d { w.slot.get γ.1 with started := true } (γ.2.note .launched) := hi.launch hs
  refine ⟨⟨fun _ => ?_, List.prefix_append _ _, fun _ => ?_⟩, ?_, ?_, ?_, fun mark _ hout => ?_⟩
  · simpa [Inv, hw.get_launch, hw.get_set] using hnew
  · simp [hw.get_launch, hw.get_set]
  · simp [StreamRecord.note]
  · simp [StreamRecord.note]
  · simp [hw.get_launch, hw.get_set]
  · simpa [StreamRecord.note] using hout

/-- Whoever makes only such changes to the service may do as a client does. -/
structure Bears (w : Workshop σ ρ κ) (d : Discipline)
    (rely guar : σ × StreamRecord ρ → σ × StreamRecord ρ → Prop) (P : σ × StreamRecord ρ → Prop) :
    Prop where
  refl : ∀ γ, rely γ γ
  grows : ∀ γ γ', rely γ γ' → w.Grows d γ γ'
  stable : Stable rely P
  inv : ∀ γ, P γ → w.Inv d γ
  step : ∀ γ γ', P γ → w.Spares d γ γ' → w.Staffs γ γ' → guar γ γ' ∧ P γ'

variable {rely guar : σ × StreamRecord ρ → σ × StreamRecord ρ →
  Prop} {P : σ × StreamRecord ρ → Prop}

theorem upholds_submit (h : w.Bears d rely guar P) (request : ρ) :
    Upholds rely guar me P (noted (fun _ _ r => r.submit request) (w.slot.submit request))
      (Fate.Returns fun _ => P) := by
  change Upholds rely guar me P (Action.step fun γ : σ × StreamRecord ρ =>
    ((), w.slot.set ((w.slot.get γ.1).submit request) γ.1, γ.2.submit request)) _
  refine upholds_step h.stable (fun _ => h.stable) fun γ hγ => h.step γ _ hγ ?_ ?_
  · exact spares_submit hw request (h.inv γ hγ)
  · exact .inl (hw.pending_set _ _)

theorem upholds_start (h : w.Bears d rely guar P) :
    Upholds rely guar me P (StreamCall.startNoted w.slot) (Fate.Returns fun _ => P) := by
  change Upholds rely guar me P (Action.step fun γ : σ × StreamRecord ρ =>
    ((), (if (w.slot.get γ.1).started then γ.1
      else w.slot.launch (w.slot.set { w.slot.get γ.1 with started := true } γ.1)),
      if (w.slot.get γ.1).started then γ.2 else γ.2.note .launched)) _
  refine upholds_step h.stable (fun _ => h.stable) fun γ hγ => h.step γ _ hγ ?_ ?_
  · cases hs : (w.slot.get γ.1).started with
    | true => exact spares_of_eq (by simp) (by simp)
    | false => simpa [hs] using spares_start hw (h.inv γ hγ) hs
  · cases hs : (w.slot.get γ.1).started with
    | true => exact .inl (by simp)
    | false =>
      obtain ⟨id, hid⟩ := hw.pending_launch (w.slot.set { w.slot.get γ.1 with started := true } γ.1)
      refine .inr (.inr ⟨hs, ?_, id, ?_⟩)
      · simp [hw.get_launch, hw.get_set]
      · simpa [hw.pending_set] using hid

theorem upholds_mark (h : w.Bears d rely guar P) :
    Upholds rely guar me P (noted (fun _ mark r => r.mark mark) (Action.step fun s =>
        ((w.slot.get s).submitMark.1, w.slot.set (w.slot.get s).submitMark.2 s)))
      (Fate.Returns fun mark γ => P γ ∧ HasMarked mark γ) := by
  change Upholds rely guar me P (Action.step fun γ : σ × StreamRecord ρ =>
    ((w.slot.get γ.1).marks, w.slot.set (w.slot.get γ.1).submitMark.2 γ.1,
      γ.2.mark (w.slot.get γ.1).marks)) _
  refine upholds_step h.stable (fun mark γ γ' hγ hr => ?_) fun γ hγ => ?_
  · exact ⟨h.stable γ γ' hγ.1 hr, (h.grows γ γ' hr).log.subset hγ.2⟩
  · obtain ⟨hguar, hP⟩ := h.step γ _ hγ (spares_mark hw (h.inv γ hγ)) (.inl (hw.pending_set _ _))
    exact ⟨hguar, hP, by simp [HasMarked, StreamRecord.mark, StreamRecord.note]⟩

omit hw in
theorem upholds_return (h : w.Bears d rely guar P) (mark : Nat) :
    Upholds rely guar me (fun γ => P γ ∧ HasMarked mark γ)
      (noted (fun _ _ r => r.note (.returned mark)) (Action.await fun s =>
        if (w.slot.get s).hasReached mark then some ((), s) else none))
      (Fate.Returns fun _ => P) := by
  change Upholds rely guar me _ (Action.await fun γ : σ × StreamRecord ρ =>
    (if (w.slot.get γ.1).hasReached mark then some ((), γ.1) else none).map fun answer =>
      (answer.1, answer.2, γ.2.note (.returned mark))) _
  refine upholds_await (fun γ γ' hγ hr => ?_) (fun _ => h.stable) fun γ _ γ' hγ hγ' => ?_
  · exact ⟨h.stable γ γ' hγ.1 hr, (h.grows γ γ' hr).log.subset hγ.2⟩
  · obtain ⟨hP, hmarked⟩ := hγ
    cases hreached : (w.slot.get γ.1).hasReached mark with
    | false => simp [hreached] at hγ'
    | true =>
      simp only [hreached, if_true, Option.map_some, Option.some.injEq, Prod.mk.injEq,
        true_and] at hγ'
      subst hγ'
      refine h.step γ _ hP (spares_return (h.inv γ hP) hmarked hreached) (.inl rfl)

theorem upholds_sync (h : w.Bears d rely guar P) :
    Upholds rely guar me P (StreamCall.syncNoted w.slot) (Fate.Returns fun _ => P) :=
  (upholds_start hw h).bind h.refl fun _ =>
    (upholds_mark hw h).bind h.refl fun mark => upholds_return h mark

omit hw in
theorem upholds_own (h : w.Bears d rely guar P) {act : Act σ}
    (hact : w.slot.Spares w.life w.worker act) :
    Upholds rely guar me P (silent (Program.call act)) (Fate.Returns fun _ => P) := by
  intro γ hγ γ₁ answer γ₂ hr hrun
  obtain ⟨⟨answer', s⟩, hs, heq⟩ := Option.map_eq_some_iff.mp hrun
  cases heq
  have hγ₁ := h.stable γ γ₁ hγ hr
  obtain ⟨hget, hpending⟩ := hact me γ₁.1 answer' s hs
  have hstaffs : w.Staffs γ₁ (s, γ₁.2) := by
    rcases hpending with hsame | hother
    · exact .inl hsame
    · exact .inr (.inl hother)
  obtain ⟨hguar, hP⟩ := h.step γ₁ (s, γ₁.2) hγ₁ (spares_of_eq hget rfl) hstaffs
  exact ⟨hguar, fun γ' hr' => h.stable _ γ' hP hr'⟩

theorem upholds_call (h : w.Bears d rely guar P) (call : StreamCall w.slot w.life w.worker) :
    Upholds rely guar me P call.recorded (Fate.Returns fun _ => P) := by
  cases call with
  | submit request => exact upholds_submit hw h request
  | start => exact upholds_start hw h
  | sync => exact upholds_sync hw h
  | own act hact => exact upholds_own h hact

/-- Whatever a thread does by calls of the service, it bears what it bore before, also if it
crashes. -/
theorem upholds_errand (h : w.Bears d rely guar P) (errand : Errand w.slot w.life w.worker α) :
    Upholds rely guar me P errand.recorded fun _ => P := by
  induction errand with
  | done a => exact fun γ hγ γ' hr => h.stable γ γ' hγ hr
  | crash => exact fun γ hγ γ' hr => h.stable γ γ' hγ hr
  | ask call next ih =>
    exact Upholds.bind (upholds_call hw h call) h.refl ih

/-! ## The worker -/

def Idle (w : Workshop σ ρ κ) (d : Discipline) (γ : σ × StreamRecord ρ) : Prop :=
  w.Inv d γ ∧ (w.slot.get γ.1).started = true ∧ begun γ.2.log = ended γ.2.log

def Serving (w : Workshop σ ρ κ) (d : Discipline) (γ : σ × StreamRecord ρ) : Prop :=
  w.Inv d γ ∧ (w.slot.get γ.1).started = true ∧ ∃ n, begun γ.2.log = ended γ.2.log ++ [n]

def Reaching (w : Workshop σ ρ κ) (d : Discipline) (mark : Nat) (γ : σ × StreamRecord ρ) : Prop :=
  w.Idle d γ ∧ mark < (w.slot.get γ.1).marks ∧ .mark mark ∉ γ.2.line.queue

def Works (w : Workshop σ ρ κ) (d : Discipline) (γ γ' : σ × StreamRecord ρ) : Prop :=
  w.Grows d γ γ' ∧ w.Staffs γ γ'

omit hw in
theorem stable_idle : Stable (w.Spares d) (w.Idle d) := fun γ γ' hγ hr =>
  ⟨hr.inv hγ.1, hr.started hγ.2.1, by rw [hr.begun, hr.ended, hγ.2.2]⟩

omit hw in
theorem stable_serving : Stable (w.Spares d) (w.Serving d) := fun γ γ' hγ hr =>
  ⟨hr.inv hγ.1, hr.started hγ.2.1, by rw [hr.begun, hr.ended]; exact hγ.2.2⟩

omit hw in
theorem stable_reaching {mark : Nat} : Stable (w.Spares d) (w.Reaching d mark) :=
  fun γ γ' hγ hr => ⟨stable_idle γ γ' hγ.1 hr, Nat.lt_of_lt_of_le hγ.2.1 hr.marks,
    hr.gone mark hγ.2.1 hγ.2.2⟩

omit hw in
theorem bears_serving : w.Bears d (w.Spares d) (w.Works d) (w.Serving d) where
  refl := .refl
  grows _ _ h := h.toGrows
  stable := stable_serving
  inv _ h := h.1
  step γ γ' hγ hs hstaffs := ⟨⟨hs.toGrows, hstaffs⟩, stable_serving γ γ' hγ hs⟩

omit hw in
theorem log_take (q : Queued ρ) (r : StreamRecord ρ) : r.log <+: (r.take q).log := by
  unfold StreamRecord.take
  split
  · exact List.prefix_append _ _
  · exact List.prefix_rfl
  · exact List.prefix_rfl

omit hw in
theorem started_take {v v' : StreamService ρ} {q : Queued ρ} (h : v.take? = some (q, v')) :
    v'.started = v.started := by
  unfold StreamService.take? at h
  split at h
  · cases h
  · cases h
    rfl

theorem upholds_take :
    Upholds (w.Spares d) (w.Works d) me (w.Idle d)
      (noted (fun _ q r => r.take q) (Action.await fun s =>
        (w.slot.get s).take?.map fun (q, service) => (q, w.slot.set service s)))
      (Fate.Returns fun q => match q with
        | .request _ => w.Serving d
        | .mark mark => w.Reaching d mark) := by
  change Upholds _ _ me _ (Action.await fun γ : σ × StreamRecord ρ =>
    ((w.slot.get γ.1).take?.map fun (q, service) => (q, w.slot.set service γ.1)).map fun answer =>
      (answer.1, answer.2, γ.2.take answer.1)) _
  refine upholds_await stable_idle (fun q => ?_) fun γ q γ' hγ hγ' => ?_
  · cases q with
    | request => exact stable_serving
    | mark => exact stable_reaching
  · obtain ⟨_, ht', rfl, rfl⟩ : ∃ answer, ((w.slot.get γ.1).take?.map fun (q, service) =>
        (q, w.slot.set service γ.1)) = some answer ∧ answer.1 = q ∧
        (answer.2, γ.2.take answer.1) = γ' := by simpa using hγ'
    obtain ⟨⟨q, v'⟩, ht, rfl⟩ := Option.map_eq_some_iff.mp ht'
    obtain ⟨hi, hs, hidle⟩ := hγ
    have hs' : v'.started = true := (started_take ht).trans hs
    have hworks : InOrder d v' (γ.2.take q) →
        w.Works d γ (w.slot.set v' γ.1, γ.2.take q) := fun hi' =>
      ⟨⟨fun _ => by rwa [Inv, hw.get_set], log_take q γ.2, fun _ => by rwa [hw.get_set]⟩,
        .inl (hw.pending_set _ _)⟩
    cases q with
    | request request =>
      obtain ⟨hi', hserving⟩ := InOrder.takeRequest hi hidle hs ht
      exact ⟨hworks hi', by rwa [Inv, hw.get_set], by rwa [hw.get_set], hserving⟩
    | mark mark =>
      obtain ⟨hi', hlog, hlt, hout⟩ := InOrder.takeMark hi hidle ht
      refine ⟨hworks hi', ⟨by rwa [Inv, hw.get_set], by rwa [hw.get_set], ?_⟩, ?_, hout⟩
      · change begun (γ.2.take (.mark mark)).log = ended (γ.2.take (.mark mark)).log
        rw [hlog, hidle]
      · rwa [hw.get_set]

omit hw in
theorem upholds_finish :
    Upholds (w.Spares d) (w.Works d) me (w.Serving d) (record StreamRecord.finish)
      (Fate.Returns fun _ => w.Idle d) := by
  refine upholds_step stable_serving (fun _ => stable_idle) fun γ hγ => ?_
  obtain ⟨hi, hs, n, hn⟩ := hγ
  obtain ⟨hi', hidle⟩ := InOrder.finish hi hn
  have hlog : γ.2.log <+: γ.2.finish.log := by
    rw [StreamRecord.finish, hn, List.getLast?_append]
    exact List.prefix_append _ _
  exact ⟨⟨⟨fun _ => hi', hlog, fun h => h⟩, .inl rfl⟩, hi', hs, hidle⟩

theorem upholds_reach (mark : Nat) :
    Upholds (w.Spares d) (w.Works d) me (w.Reaching d mark)
      (silent (Action.update fun s => w.slot.set ((w.slot.get s).reach mark) s))
      (Fate.Returns fun _ => w.Idle d) := by
  change Upholds _ _ me _ (Action.step fun γ : σ × StreamRecord ρ =>
    ((), w.slot.set ((w.slot.get γ.1).reach mark) γ.1, γ.2)) _
  refine upholds_step stable_reaching (fun _ => stable_idle) fun γ hγ => ?_
  obtain ⟨⟨hi, hs, hidle⟩, hlt, hout⟩ := hγ
  have hi' : InOrder d ((w.slot.get γ.1).reach mark) γ.2 := InOrder.reach hi hlt hout
  have hs' : ((w.slot.get γ.1).reach mark).started = true := hs
  refine ⟨⟨⟨fun _ => ?_, List.prefix_rfl, fun _ => ?_⟩, .inl (hw.pending_set _ _)⟩, ?_, ?_, hidle⟩
  · rwa [Inv, hw.get_set]
  · rwa [hw.get_set]
  · rwa [Inv, hw.get_set]
  · rwa [hw.get_set]

theorem upholds_serveNext :
    Upholds (w.Spares d) (w.Works d) me (w.Idle d) w.serveNextRecorded
      (Fate.Returns fun _ => w.Idle d) := by
  refine (upholds_take hw).bind .refl fun q => ?_
  cases q with
  | mark mark => exact upholds_reach hw mark
  | request request =>
    have hserved : Upholds (w.Spares d) (w.Works d) me (w.Serving d)
        (discard (w.serve request).recorded.attempt) (Fate.Returns fun _ => w.Serving d) := by
      intro γ hγ
      have hattempt : Safe (w.Spares d) (w.Works d) me
          (Fate.Returns fun _ => w.Serving d) (Program.attempt (w.serve request).recorded) γ :=
        (upholds_errand hw bears_serving (w.serve request) γ hγ).attempt
        (fun _ _ h => h) fun _ h => h
      exact hattempt.bind .refl fun _ γ' hγ' γ'' hr => stable_serving γ' γ'' hγ' hr
    exact hserved.bind .refl fun _ => upholds_finish

end Calls

/-! ## All threads together -/

def pact (w : Workshop σ ρ κ) (d : Discipline) : Pact (σ × StreamRecord ρ) κ Hand where
  rely
    | .client => w.Grows d
    | .worker => w.Spares d
  guar
    | .client => fun γ γ' => w.Spares d γ γ' ∧ w.Staffs γ γ'
    | .worker => w.Works d
  here
    | .client => w.Inv d
    | .worker => fun γ => w.Inv d γ ∧ (w.slot.get γ.1).started = true
  ready
    | .client => fun _ role γ => w.Inv d γ ∧ role ≠ w.worker
    | .worker => fun _ role γ => w.Idle d γ ∧ role = w.worker
  gone _ _ := True

theorem bears_client : w.Bears d (w.Grows d) (fun γ γ' => w.Spares d γ γ' ∧ w.Staffs γ γ')
    (w.Inv d) where
  refl := .refl
  grows _ _ h := h
  stable _ _ h hr := hr.inv h
  inv _ h := h
  step _ _ h hs hstaffs := ⟨⟨hs, hstaffs⟩, hs.inv h⟩

theorem suits_of_client (k : Hand) : (w.pact d).Suits k .client := by
  cases k with
  | client => exact ⟨fun _ _ h => h.1.toGrows, fun _ _ h => h.1.toGrows⟩
  | worker => exact ⟨fun _ _ h => h.1, fun _ _ h => h.1⟩

theorem idle_of_launched (hi : w.Inv d γ) (hs : (w.slot.get γ.1).started = false)
    (h : w.Spares d γ γ') : begun γ'.2.log = ended γ'.2.log := by
  have hbegun : begun γ.2.log = [] := (InOrder.unstarted hi hs).2
  rw [h.begun, h.ended, hbegun]
  rcases (InOrder.lawful hi).ended_eq with heq | ⟨n, heq⟩
  · rw [← heq, hbegun]
  · simp [hbegun] at heq

variable [DecidableEq κ]

/-- The surroundings leave the service alone. -/
structure Undisturbed (w : Workshop σ ρ κ) (env : σ → σ → Prop) : Prop where
  get : ∀ s s', env s s' → w.slot.get s' = w.slot.get s
  pending : ∀ s s', env s s' → w.life.pending s' = w.life.pending s

theorem joins_of_guar {k : Hand} (hhere : (w.pact d).here k γ) (h : (w.pact d).guar k γ γ') :
    (w.pact d).Joins w.recorded γ γ' := by
  have hgrows : w.Grows d γ γ' ∧ w.Staffs γ γ' := by
    cases k with
    | client => exact ⟨h.1.toGrows, h.2⟩
    | worker => exact h
  have hinv : w.Inv d γ := by
    cases k with
    | client => exact hhere
    | worker => exact hhere.1
  have hinv' : w.Inv d γ' := hgrows.1.inv hinv
  rcases hgrows.2 with hsame | ⟨id, role, hne, hnew⟩ | ⟨hbefore, hafter, id, hnew⟩
  · exact Pact.joins_nobody hsame
  · exact Pact.joins_one (P := w.pact d) (k := Hand.client) hnew hinv' ⟨hinv', hne⟩ fun other _ =>
      suits_of_client other
  -- The worker joins, and there was none before.
  · have hnone : ¬(w.pact d).here .worker γ := fun h => by
      have := h.2
      simp [hbefore] at this
    have hidle : begun γ'.2.log = ended γ'.2.log := by
      cases k with
      | client => exact idle_of_launched hinv hbefore h.1
      | worker => exact absurd hhere hnone
    refine Pact.joins_one (P := w.pact d) (k := Hand.worker) hnew ⟨hinv', hafter⟩
      ⟨⟨hinv', hafter, hidle⟩, rfl⟩ ?_
    intro other hother
    cases other with
    | client => exact ⟨fun _ _ h => h.1, fun _ _ h => h.1⟩
    | worker => exact absurd hother hnone

theorem safe_role (hw : w.Lawful) {k : Hand} {id : ThreadId} {role : κ}
    (h : (w.pact d).ready k id role γ) :
    Safe ((w.pact d).rely k) ((w.pact d).guar k) id ((w.pact d).Fate k id)
      (w.recorded.program role) γ := by
  cases k with
  | client =>
    obtain ⟨hinv, hne⟩ := h
    simp only [recorded, dif_neg hne]
    refine (upholds_errand hw bears_client (w.role ⟨role, hne⟩) γ hinv).bind_fate .refl ?_ ?_
    · intro role? γ' hinv' γ'' hr
      cases role? with
      | none => trivial
      | some role' => exact ⟨hr.inv hinv', role'.property⟩
    · exact fun _ _ => trivial
  | worker =>
    obtain ⟨hidle, rfl⟩ := h
    simp only [recorded, dif_pos]
    refine (upholds_serveNext hw γ hidle).bind .refl fun _ γ' hidle' γ'' hr => ?_
    exact ⟨stable_idle γ' γ'' hidle' hr, rfl⟩

theorem kept_pact (hw : w.Lawful) {env : σ → σ → Prop} (henv : w.Undisturbed env) :
    (w.pact d).Kept w.recorded (Life.beside env) := by
  have hrely : ∀ (k : Hand) γ γ', w.Spares d γ γ' → (w.pact d).rely k γ γ' := fun k γ γ' h => by
    cases k with
    | client => exact h.toGrows
    | worker => exact h
  have hguar : ∀ (k : Hand) γ γ', (w.pact d).guar k γ γ' → w.Grows d γ γ' := fun k γ γ' h => by
    cases k with
    | client => exact h.1.toGrows
    | worker => exact h.1
  constructor
  case refl => exact fun k γ => hrely k γ γ (.refl γ)
  case trans =>
    intro k γ γ' γ'' h h'
    cases k with
    | client => exact Grows.trans h h'
    | worker => exact Spares.trans h h'
  case here_rely =>
    intro k γ γ' h hr
    cases k with
    | client => exact hr.inv h
    | worker => exact ⟨hr.inv h.1, hr.started h.2⟩
  case here_guar =>
    intro k γ γ' h hg
    cases k with
    | client => exact (hguar .client γ γ' hg).inv h
    | worker => exact ⟨(hguar .worker γ γ' hg).inv h.1, (hguar .worker γ γ' hg).started h.2⟩
  case gone => exact fun _ _ _ _ _ => trivial
  case joins => exact fun k γ γ' => joins_of_guar
  case role => exact fun k id role γ _ => safe_role hw
  case adopts => exact fun k γ => hrely k _ _ (spares_of_eq (hw.get_adopt γ.1) rfl)
  case adopted => exact fun γ => hw.pending_adopt γ.1
  case passes => exact fun k γ γ' h => hrely k γ γ' (spares_of_eq (henv.get _ _ h.1) h.2)
  case passed => exact fun γ γ' h => henv.pending _ _ h.1

end Workshop

end SessionShell
