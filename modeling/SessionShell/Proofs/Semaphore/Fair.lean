import SessionShell.Proofs.Semaphore.Order

/-!
A semaphore that is fair.

A sleeper has nothing to wake for, or somebody is about to wake it: a permit that is free and a turn
that has come are announced by whoever brought them about. With the order of the grants, that makes
the semaphore fair to its callers.

The numbers are machine words in the end, which wrap around where numbers go on. As long as fewer
callers have arrived than a word has values, and fewer permits were there and given back, the words
are the numbers.
-/

namespace SessionShell.FairSemaphore

/-! ## Machine words -/

section MachineWords

/-- A semaphore whose numbers have 64 bits. -/
structure Words where
  permits : UInt64
  next : UInt64
  serving : UInt64
  deriving DecidableEq, Repr

namespace Words

variable {w w' : Words} {f : FairSemaphore} {event : Event} {events : List Event}

def new (permits : UInt64) : Words :=
  ⟨permits, 0, 0⟩

def arrive (w : Words) : UInt64 × Words :=
  (w.next, { w with next := w.next + 1 })

def grant? (w : Words) (ticket : UInt64) : Option Words :=
  if w.serving = ticket ∧ 0 < w.permits then
    some { w with permits := w.permits - 1, serving := w.serving + 1 }
  else none

def release (w : Words) : Words :=
  { w with permits := w.permits + 1 }

def drain (w : Words) : UInt64 × Words :=
  (w.permits, { w with permits := 0 })

inductive Does (w : Words) : Event → Words → Prop where
  | arrived {id : ThreadId} : Does w (.arrived id w.arrive.1.toNat) w.arrive.2
  | granted {id : ThreadId} {ticket : UInt64} {w' : Words} (h : w.grant? ticket = some w') :
      Does w (.granted id ticket.toNat) w'
  | released : Does w .released w.release
  | drained : Does w (.drained w.drain.1.toNat) w.drain.2

inductive Run (w : Words) : List Event → Words → Prop where
  | refl : Run w [] w
  | tail {events : List Event} {event : Event} {w' w'' : Words} (hrun : Run w events w')
      (h : w'.Does event w'') : Run w (events ++ [event]) w''

def value (w : Words) : FairSemaphore :=
  ⟨w.permits.toNat, w.next.toNat, w.serving.toNat⟩

theorem value_new (permits : UInt64) : (new permits).value = .new permits.toNat := rfl

theorem toNat_succ {n : UInt64} (h : n.toNat + 1 < UInt64.size) : (n + 1).toNat = n.toNat + 1 := by
  rw [UInt64.toNat_add]
  exact Nat.mod_eq_of_lt h

theorem toNat_pred {n : UInt64} (h : 0 < n) : (n - 1).toNat = n.toNat - 1 := by
  have hone : 1 ≤ n := by
    rw [UInt64.le_iff_toNat_le]
    exact UInt64.lt_iff_toNat_lt.mp h
  rw [UInt64.toNat_sub_of_le n 1 hone]
  rfl

theorem grant?_eq_none_iff (w : Words) (ticket : UInt64) :
    w.grant? ticket = none ↔ w.value.grant? ticket.toNat = none := by
  simp [grant?, FairSemaphore.grant?, value, UInt64.toNat_inj, UInt64.lt_iff_toNat_lt]

theorem value_grant {ticket : UInt64} (h : w.grant? ticket = some w')
    (hfits : w.serving.toNat + 1 < UInt64.size) :
    w.value.grant? ticket.toNat = some w'.value := by
  simp only [grant?, Option.ite_none_right_eq_some, Option.some.injEq] at h
  obtain ⟨⟨rfl, hfree⟩, rfl⟩ := h
  rw [FairSemaphore.grant?_eq_some_iff]
  refine ⟨rfl, UInt64.lt_iff_toNat_lt.mp hfree, ?_⟩
  simp only [value, toNat_succ hfits, toNat_pred hfree]

theorem exists_does_of_turn {q q' : Queue} {c c' : Caller} (hw : w.value = q.semaphore)
    (hturn : Turn q c (some event) q' c') (hnext : q'.semaphore.next < UInt64.size)
    (hserving : q'.semaphore.serving < UInt64.size)
    (hpermits : q'.semaphore.permits < UInt64.size) :
    ∃ w', w.Does event w' ∧ w'.value = q'.semaphore := by
  generalize hevent : some event = event? at hturn
  obtain ⟨f, granted⟩ := q
  cases hw
  cases hturn with
  | arrive =>
    cases hevent
    refine ⟨_, .arrived, ?_⟩
    simp only [value, arrive, FairSemaphore.arrive, toNat_succ hnext]
  | @grant id todo ticket semaphore hgrant =>
    cases hevent
    obtain ⟨rfl, hfree, rfl⟩ := FairSemaphore.grant?_eq_some_iff.mp hgrant
    have hgranted : w.grant? w.serving =
        some { w with permits := w.permits - 1, serving := w.serving + 1 } :=
      if_pos ⟨rfl, UInt64.lt_iff_toNat_lt.mpr hfree⟩
    refine ⟨_, .granted hgranted, ?_⟩
    exact Option.some.inj ((value_grant hgranted hserving).symm.trans hgrant)
  | doze => cases hevent
  | stir => cases hevent
  | release =>
    cases hevent
    refine ⟨_, .released, ?_⟩
    simp only [value, release, FairSemaphore.release, toNat_succ hpermits]
  | drain =>
    cases hevent
    exact ⟨_, .drained, rfl⟩

end Words

theorem Turn.semaphore_of_silent {q q' : Queue} {c c' : Caller} (h : Turn q c none q' c') :
    q' = q := by
  generalize hevent : (none : Option Event) = event? at h
  cases h with
  | arrive | grant | release | drain => cases hevent
  | doze | stir => rfl

variable {callers : List (ThreadId × List Operation)} {events : List Event} {h h' : Hall}
  {event? : Option Event}

theorem Hall.exists_words_of_step {first w : Words} (hrun : first.Run events w)
    (hw : w.value = h.queue.semaphore) (hstep : h.Step event? h')
    (hnext : h'.queue.semaphore.next < UInt64.size)
    (hserving : h'.queue.semaphore.serving < UInt64.size)
    (hpermits : h'.queue.semaphore.permits < UInt64.size) :
    ∃ w', first.Run (events ++ event?.toList) w' ∧ w'.value = h'.queue.semaphore := by
  cases hstep with
  | @turn before after q q' c c' event? hturn =>
    cases event? with
    | none =>
      cases hturn.semaphore_of_silent
      exact ⟨w, by simpa using hrun, hw⟩
    | some event =>
      obtain ⟨w', hdoes, hw'⟩ := Words.exists_does_of_turn hw hturn hnext hserving hpermits
      exact ⟨w', hrun.tail hdoes, hw'⟩
  | tell => exact ⟨w, by simpa using hrun, hw⟩
  | leave => exact ⟨w, by simpa using hrun, hw⟩

theorem arrivals_length_le (events : List Event) (event? : Option Event) :
    (arrivals events).length ≤ (arrivals (events ++ event?.toList)).length := by
  simp [arrivals]

theorem releases_le (events : List Event) (event? : Option Event) :
    releases events ≤ releases (events ++ event?.toList) := by
  simp [releases]

/-- Nothing has wrapped around as long as fewer callers have arrived than a word has values, and
fewer permits were there at first and given back. -/
theorem Hall.exists_words_of_run {permits : UInt64}
    (hrun : (opening permits.toNat callers).Run events h)
    (harrivals : (arrivals events).length < UInt64.size)
    (hreleases : permits.toNat + releases events < UInt64.size) :
    ∃ w, (Words.new permits).Run events w ∧ w.value = h.queue.semaphore := by
  induction hrun with
  | refl => exact ⟨_, .refl, rfl⟩
  | @tail events h h' event? hrun hstep ih =>
    obtain ⟨w, hwords, hw⟩ := ih (Nat.lt_of_le_of_lt (arrivals_length_le events event?) harrivals)
      (Nat.lt_of_le_of_lt (Nat.add_le_add_left (releases_le events event?) _) hreleases)
    have hcounted := counted_of_step (counted_of_run hrun) hstep
    have hgrants := hcounted.length_grants_le
    refine exists_words_of_step hwords hw hstep ?_ ?_ ?_
    · rw [hcounted.next]
      exact harrivals
    · rw [hcounted.serving]
      omega
    · have := hcounted.conserved
      omega

end MachineWords

variable {permits : Nat} {events : List Event} {event? : Option Event}
  {callers : List (ThreadId × List Operation)}

/-! ## Sleep and waking -/

def Hall.Watched (h : Hall) : Prop :=
  (∀ c ∈ h.callers, c.stage ≠ .telling) →
    ∀ c ∈ h.callers, ∀ ticket, c.stage = .queued ticket true →
      h.queue.semaphore.grant? ticket = none

theorem Turn.grant?_eq_none {q q' : Queue} {c c' : Caller} {ticket : Nat}
    (h : Turn q c event? q' c')
    (hquiet : c'.stage ≠ .telling) (hnone : q.semaphore.grant? ticket = none) :
    q'.semaphore.grant? ticket = none := by
  rw [grant?_eq_none_iff] at hnone ⊢
  cases h with
  | arrive => exact hnone
  | grant => exact absurd rfl hquiet
  | doze => exact hnone
  | stir => exact hnone
  | release => exact absurd rfl hquiet
  | drain => exact fun _ => rfl

theorem Turn.grant?_of_asleep {q q' : Queue} {c c' : Caller} {ticket : Nat}
    (h : Turn q c event? q' c')
    (hasleep : c'.stage = .queued ticket true) : q'.semaphore.grant? ticket = none := by
  cases h with
  | doze hnone =>
    cases hasleep
    exact hnone
  | _ => cases hasleep

theorem Turn.not_telling {q q' : Queue} {c c' : Caller} (h : Turn q c event? q' c') :
    c.stage ≠ .telling := by
  cases h <;> simp

namespace Hall

variable {h h' : Hall}

theorem Caller.stage_awakened_ne (c : Caller) (ticket : Nat) :
    c.awakened.stage ≠ .queued ticket true := by
  obtain ⟨id, stage, todo⟩ := c
  cases stage <;> simp [Caller.awakened]

theorem watched_of_step (hwatched : h.Watched) (hstep : h.Step event? h') : h'.Watched := by
  intro hquiet c hin ticket hasleep
  cases hstep with
  | @turn before after q q' first first' _ hturn =>
    have hquietBefore : ∀ c ∈ before ++ first :: after, c.stage ≠ .telling := by
      intro c hc
      rcases List.mem_append.mp hc with hc | hc
      · exact hquiet c (by simp [hc])
      · rcases List.mem_cons.mp hc with rfl | hc
        · exact hturn.not_telling
        · exact hquiet c (by simp [hc])
    have hothers : ∀ hc : c ∈ before ++ first :: after, q'.semaphore.grant? ticket = none :=
      fun hc =>
      hturn.grant?_eq_none (hquiet first' (by simp)) (hwatched hquietBefore c hc ticket hasleep)
    rcases List.mem_append.mp hin with hc | hc
    · exact hothers (by simp [hc])
    · rcases List.mem_cons.mp hc with rfl | hc
      · exact hturn.grant?_of_asleep hasleep
      · exact hothers (by simp [hc])
  | @tell before after q id todo =>
    simp only [List.mem_append, List.mem_map, List.mem_cons] at hin
    rcases hin with ⟨c, -, rfl⟩ | rfl | ⟨c, -, rfl⟩
    · exact absurd hasleep (Caller.stage_awakened_ne c ticket)
    · cases hasleep
    · exact absurd hasleep (Caller.stage_awakened_ne c ticket)
  | @leave before after q id =>
    refine hwatched (fun c hc => ?_) c ?_ ticket hasleep
    · rcases List.mem_append.mp hc with hc | hc
      · exact hquiet c (by simp [hc])
      · rcases List.mem_cons.mp hc with rfl | hc
        · simp
        · exact hquiet c (by simp [hc])
    · rcases List.mem_append.mp hin with hc | hc
      · simp [hc]
      · simp [hc]

theorem watched_of_run (hrun : (opening permits callers).Run events h) : h.Watched := by
  induction hrun with
  | refl =>
    intro _ c hin ticket hasleep
    obtain ⟨⟨id, todo⟩, -, rfl⟩ := List.mem_map.mp hin
    cases hasleep
  | tail _ hstep ih => exact watched_of_step ih hstep

/-! ## Grants -/

def Lawful (permits : Nat) (events : List Event) : Prop :=
  ∀ past id ticket future, events = past ++ .granted id ticket :: future →
    (pending past).head? = some (id, ticket) ∧
      (grants past).length + drained past < permits + releases past

theorem lawful_snoc {event : Event} (hlawful : Lawful permits events)
    (hgrant : ∀ id ticket, event = .granted id ticket → (pending events).head? = some (id, ticket) ∧
      (grants events).length + drained events < permits + releases events) :
    Lawful permits (events ++ [event]) := by
  intro past id ticket future hsplit
  rcases split_snoc hsplit with ⟨rfl, rfl⟩ | ⟨future', -, rfl⟩
  · exact hgrant id ticket rfl
  · exact hlawful past id ticket future' rfl

theorem lawful_of_step (hlawful : Lawful permits events)
    (hcounted : Counted permits events h.queue h.waiting)
    (hstep : h.Step event? h') : Lawful permits (events ++ event?.toList) := by
  cases event? with
  | none => simpa using hlawful
  | some event =>
    refine lawful_snoc hlawful ?_
    rintro id ticket rfl
    cases hstep with
    | @turn before after q q' c c' _ hturn =>
      cases hturn with
      | @grant id todo ticket semaphore hgrant =>
        obtain ⟨hserved, hfree, -⟩ := grant?_eq_some_iff.mp hgrant
        have hin : (id, ticket) ∈
            (⟨q, before ++ ⟨id, .queued ticket false, todo⟩ :: after⟩ : Hall).waiting := by
          simp [waiting, Caller.waits?]
        rw [hcounted.pending_of_serving hin hserved]
        have := hcounted.conserved
        refine ⟨rfl, ?_⟩
        dsimp only at this
        omega

theorem lawful_of_run (hrun : (opening permits callers).Run events h) : Lawful permits events := by
  induction hrun with
  | refl =>
    intro past id ticket future hsplit
    simp at hsplit
  | tail hrun hstep ih => exact lawful_of_step ih (counted_of_run hrun) hstep

/-- As long as a permit is free and somebody waits, whoever has waited longest may pass, and is
awake or about to be woken. -/
theorem exists_oldest (hcounted : Counted permits events h.queue h.waiting) (hwatched : h.Watched)
    (hfree : 0 < h.queue.semaphore.permits) (hwaiting : h.waiting ≠ []) :
    ∃ c ∈ h.callers, ∃ ticket asleep, c.stage = .queued ticket asleep ∧
      (pending events).head? = some (c.id, ticket) ∧ (h.queue.semaphore.grant? ticket).isSome ∧
      (asleep = true → ∃ teller ∈ h.callers, teller.stage = .telling) := by
  have hpending : pending events ≠ [] := fun hnone => by
    have hperm := hcounted.waiting
    rw [hnone] at hperm
    exact hwaiting hperm.eq_nil
  obtain ⟨⟨id, ticket⟩, rest, holdest⟩ := List.exists_cons_of_ne_nil hpending
  have hserved := hcounted.serving_of_oldest (by rw [holdest]; rfl)
  have hin : (id, ticket) ∈ h.waiting := hcounted.waiting.mem_iff.mpr (by simp [holdest])
  obtain ⟨c, hc, hwaits⟩ := List.mem_filterMap.mp hin
  obtain ⟨id', stage, todo⟩ := c
  cases stage with
  | ready => cases hwaits
  | telling => cases hwaits
  | queued ticket' asleep =>
    cases hwaits
    have hgrant : (h.queue.semaphore.grant? ticket).isSome := by
      simp [grant?, hserved, hfree]
    refine ⟨_, hc, ticket, asleep, rfl, by rw [holdest]; rfl, hgrant, ?_⟩
    rintro rfl
    by_contra hquiet
    push Not at hquiet
    have hnone := hwatched hquiet _ hc ticket rfl
    rw [hnone] at hgrant
    cases hgrant

theorem exists_step_of_telling {c : Caller} (hin : c ∈ h.callers) (htelling : c.stage = .telling) :
    ∃ h', h.Step none h' := by
  obtain ⟨q, callers⟩ := h
  obtain ⟨before, after, rfl⟩ := List.append_of_mem hin
  obtain ⟨id, stage, todo⟩ := c
  cases htelling
  exact ⟨_, .tell⟩

theorem exists_step_of_queued {c : Caller} {ticket : Nat} (hin : c ∈ h.callers)
    (hqueued : c.stage = .queued ticket false) (hgrant : (h.queue.semaphore.grant? ticket).isSome) :
    ∃ event? h', h.Step event? h' := by
  obtain ⟨q, callers⟩ := h
  obtain ⟨before, after, rfl⟩ := List.append_of_mem hin
  obtain ⟨id, stage, todo⟩ := c
  cases hqueued
  obtain ⟨semaphore, hgrant⟩ := Option.isSome_iff_exists.mp hgrant
  exact ⟨_, _, .turn (.grant hgrant)⟩

theorem idle_of_stuck (hcounted : Counted permits events h.queue h.waiting) (hwatched : h.Watched)
    (hstuck : ∀ event? h', ¬h.Step event? h') : h.queue.semaphore.permits = 0 ∨ h.waiting = [] := by
  by_contra hbusy
  push Not at hbusy
  obtain ⟨hpermits, hwaiting⟩ := hbusy
  obtain ⟨c, hin, ticket, asleep, hstage, -, hgrant, hteller⟩ :=
    exists_oldest hcounted hwatched (Nat.pos_of_ne_zero hpermits) hwaiting
  cases asleep with
  | false =>
    obtain ⟨event?, h', hstep⟩ := exists_step_of_queued hin hstage hgrant
    exact hstuck event? h' hstep
  | true =>
    obtain ⟨teller, hin, htelling⟩ := hteller rfl
    obtain ⟨h', hstep⟩ := exists_step_of_telling hin htelling
    exact hstuck none h' hstep

end Hall

/-! ## Fairness -/

/-- What callers of a fair semaphore can rely on after these events. -/
structure Fair (permits : Nat) (events : List Event) (h : Hall) : Prop where
  /-- Permits are there as they were at first, with those given back and less those granted and
  drained. -/
  conserved : h.queue.semaphore.permits + (grants events).length + drained events = permits +
    releases events
  /-- Grants are made in the order of arrival, with none passed over and none twice. -/
  order : grants events <+: arrivals events
  tickets : (arrivals events).map (·.2) = List.range (arrivals events).length
  granted : h.queue.granted = (grants events).map (·.1)
  /-- Those wait who have arrived and were granted no permit yet. -/
  waiting : h.waiting.Perm (pending events)
  lawful : Hall.Lawful permits events
  enabled : 0 < h.queue.semaphore.permits → h.waiting ≠ [] →
    ∃ c ∈ h.callers, ∃ ticket asleep, c.stage = .queued ticket asleep ∧
      (pending events).head? = some (c.id, ticket) ∧ (h.queue.semaphore.grant? ticket).isSome ∧
      (asleep = true → ∃ teller ∈ h.callers, teller.stage = .telling)
  idle : (∀ event? h', ¬h.Step event? h') → h.queue.semaphore.permits = 0 ∨ h.waiting = []

/-- Callers that acquire, release and drain as they like, any number of them and with any number of
permits at first: whatever their threads do together, in whatever order, callers do who fall asleep
and are woken, and whatever these do the semaphore is fair to them. So it is with numbers of 64
bits, until so many callers have arrived, or so many permits were there, that these wrap around. -/
theorem fair_of_run (permits : Nat) (callers : List (ThreadId × List Operation)) :
    (∀ m, Queue.life.Reaches (Hall.opening permits callers).machine m ↔
      ∃ events h, (Hall.opening permits callers).Run events h ∧ h.machine = m) ∧
    (∀ events h, (Hall.opening permits callers).Run events h → Fair permits events h) ∧
    ∀ (count : UInt64) events h, count.toNat = permits →
      (Hall.opening permits callers).Run events h →
      (arrivals events).length < UInt64.size → permits + releases events < UInt64.size →
      ∃ w, (Words.new count).Run events w ∧ w.value = h.queue.semaphore ∧
        ∀ ticket, w.grant? ticket = none ↔ h.queue.semaphore.grant? ticket.toNat = none := by
  refine ⟨fun m => Hall.reaches_iff_exists_run, fun events h hrun => ?_,
    fun count events h hcount hrun harrivals hreleases => ?_⟩
  · have hcounted := Hall.counted_of_run hrun
    have hwatched := Hall.watched_of_run hrun
    exact {
      conserved := hcounted.conserved
      order := hcounted.order
      tickets := hcounted.tickets
      granted := hcounted.granted
      waiting := hcounted.waiting
      lawful := Hall.lawful_of_run hrun
      enabled := Hall.exists_oldest hcounted hwatched
      idle := Hall.idle_of_stuck hcounted hwatched }
  · subst hcount
    obtain ⟨w, hwords, hw⟩ := Hall.exists_words_of_run hrun harrivals hreleases
    exact ⟨w, hwords, hw, fun ticket => hw ▸ Words.grant?_eq_none_iff w ticket⟩

/-- A caller that falls asleep before another gives a permit back, which wakes it. -/
theorem fair_of_woken :
    let events : List Event := [.arrived 7 0, .released, .granted 7 0]
    let passed : Hall := ⟨⟨⟨0, 1, 1⟩, [7]⟩, [⟨7, .telling, []⟩, ⟨8, .ready, []⟩]⟩
    (Hall.opening 0 [(7, [.acquire]), (8, [.release])]).Run events passed ∧ Fair 0 events passed ∧
      Queue.life.Reaches (Hall.opening 0 [(7, [.acquire]), (8, [.release])]).machine
        passed.machine := by
  intro events passed
  have harrived : (Hall.opening 0 [(7, [.acquire]), (8, [.release])]).Run [.arrived 7 0]
      ⟨⟨⟨0, 1, 0⟩, []⟩, [⟨7, .queued 0 false, []⟩, ⟨8, .ready, [.release]⟩]⟩ :=
    Hall.Run.refl.tail (@Hall.Step.turn [] [_] _ _ _ _ _ .arrive)
  have hasleep : (Hall.opening 0 [(7, [.acquire]), (8, [.release])]).Run [.arrived 7 0]
      ⟨⟨⟨0, 1, 0⟩, []⟩, [⟨7, .queued 0 true, []⟩, ⟨8, .ready, [.release]⟩]⟩ :=
    harrived.tail (@Hall.Step.turn [] [_] _ _ _ _ _ (.doze rfl))
  have hreleased : (Hall.opening 0 [(7, [.acquire]), (8, [.release])]).Run [.arrived 7 0, .released]
      ⟨⟨⟨1, 1, 0⟩, []⟩, [⟨7, .queued 0 true, []⟩, ⟨8, .telling, []⟩]⟩ :=
    hasleep.tail (@Hall.Step.turn [_] [] _ _ _ _ _ .release)
  have hwoken : (Hall.opening 0 [(7, [.acquire]), (8, [.release])]).Run [.arrived 7 0, .released]
      ⟨⟨⟨1, 1, 0⟩, []⟩, [⟨7, .queued 0 false, []⟩, ⟨8, .ready, []⟩]⟩ :=
    hreleased.tail (@Hall.Step.tell [_] [] _ _ _)
  have hpassed : (Hall.opening 0 [(7, [.acquire]), (8, [.release])]).Run events passed :=
    hwoken.tail (@Hall.Step.turn [] [_] _ _ _ _ _ (.grant rfl))
  have hfair := fair_of_run 0 [(7, [.acquire]), (8, [.release])]
  exact ⟨hpassed, hfair.2.1 _ _ hpassed, (hfair.1 _).mpr ⟨_, _, hpassed, rfl⟩⟩

end SessionShell.FairSemaphore
