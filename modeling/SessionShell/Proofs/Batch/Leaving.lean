import Mathlib.Data.List.Perm.Subperm
import SessionShell.Proofs.Batch.Parties
import SessionShell.Proofs.Focus.Seating

/-!
How a child of a batch leaves, from the time when it has its thread.
-/

namespace SessionShell

open Action Shell Batch

namespace BatchSite

variable {b : BatchSite} {c : Child} {γ γ' : Shell × BatchRecord} {s s' : Shell} {r : BatchRecord}
  {stage stage' : Departure} {me : ThreadId} {α : Type}

structure Aboard (b : BatchSite) (c : Child) (stage : Departure) (γ : Shell × BatchRecord) :
    Prop where
  sound : b.Sound γ
  child : c ∈ γ.2.launched
  tame : (γ.1.session c.session).duty.IsTame c.session
  owned : ∀ id, (γ.1.session id).owner = some c.thread → id = c.session
  host : (γ.1.session c.session).disposed = false → b.host ∈ γ.1.registry
  view : view c γ = stage.view b.channel c (some c.thread)

theorem stable_aboard : Stable (b.ChildRely c) (b.Aboard c stage) := by
  intro γ γ' h hr
  have hview : view c γ' = view c γ := hr.view h.sound h.child
  constructor
  case sound => exact hr.sound h.sound
  case child => exact hr.child h.sound h.child
  case tame => exact hr.tame h.sound h.child h.tame
  case owned => exact fun id ho => h.owned id (hr.owners h.sound h.child id ho)
  case host =>
    intro hlive
    have hsame : (γ.1.session c.session).disposed = false :=
      (congrArg (fun v : View => v.ties.disposed) hview).symm.trans hlive
    exact hr.host h.sound h.child hsame (h.host hsame)
  case view => exact hview.trans h.view

theorem stable_boards : Stable (b.ChildRely c) (b.Boards c) := by
  intro γ γ' h hr
  have hview : view c γ' = view c γ := hr.view h.sound h.child
  have hlive : (γ.1.session c.session).disposed = false :=
    congrArg (fun v : View => v.ties.disposed) h.view
  exact ⟨hr.sound h.sound, hr.child h.sound h.child, hr.tame h.sound h.child h.tame,
    fun id ho => h.owned id (hr.owners h.sound h.child id ho), hr.host h.sound h.child hlive h.host,
    hview.trans h.view⟩

theorem Aboard.of_calm (h : b.Aboard c stage γ) (hcalm : Calm γ γ') : b.Aboard c stage γ' :=
  stable_aboard γ γ' h (childRely_of_calm hcalm)

theorem Aboard.ties (h : b.Aboard c stage γ) :
    (γ.1.session c.session).ties = (stage.view b.channel c (some c.thread)).ties :=
  congrArg View.ties h.view

theorem Aboard.still (h : b.Aboard c stage (s, r)) (me : ThreadId) (hstill : Still s s') :
    b.ChildGuar c (s, r) (s', b.observer.notes me s s' r) ∧
      b.Aboard c stage (s', b.observer.notes me s s' r) :=
  ⟨childGuar_of_calm h.child (calm_of_still hstill), h.of_calm (calm_of_still hstill)⟩

theorem upholds_still {p : Action Shell α} (hp : Within Still p) (hcrash : NeverCrashes p) :
    Upholds (b.ChildRely c) (b.ChildGuar c) me (b.Aboard c stage) (b.observe p)
      (Fate.Returns fun _ => b.Aboard c stage) :=
  upholds_of_within stable_aboard (fun _ _ _ h hstill => h.still me hstill) hp hcrash

/-! ## Single steps -/

theorem notes_of_rim (h : s'.rim = s.rim) : b.notes me s s' r = r := by
  simp only [rim, Prod.mk.injEq] at h
  obtain ⟨⟨-, hchannels⟩, -, hended, -, hstarted⟩ := h
  refine notes_of_quiet ?_ (Nat.le_of_eq (by rw [codesAt, hchannels, codesAt])) ?_ hended
  · simp [newChildren, hstarted]
  · exact Nat.le_of_eq (by rw [sendersAt, sendersAt, hchannels])

theorem isHooked_of_stage {x : Session} {owner : Option ThreadId}
    (h : x.ties = (stage.view b.channel c owner).ties) : x.IsHooked := by
  obtain ⟨hcode, -, hhook, -⟩ := Session.Ties.mk.inj h
  cases stage with
  | running => exact .inl (by rw [show x.exitHook = _ from hhook]; rfl)
  | _ => exact .inr (.inl (by rw [show x.exitCode = _ from hcode]; rfl))

theorem guar_of_session (hsound : b.Sound (s, r)) (hc : c ∈ r.launched) (hrim : s'.rim = s.rim)
    (hspares : s.SparesSessions → s'.SparesSessions) (hsize : s'.sessions.size = s.sessions.size)
    (hothers : ∀ id, id ≠ c.session → s'.session id = s.session id)
    (htame : (s.session c.session).duty.IsTame c.session →
      (s'.session c.session).duty.IsTame c.session)
    {owner : Option ThreadId} (howner : owner = some c.thread ∨ owner = (s.session c.session).owner)
    (hdisposed : (s.session c.session).disposed = true → (s'.session c.session).disposed = true)
    (hview : Batch.view c (s', r) = stage'.view b.channel c owner) :
    b.ChildGuar c (s, r) (s', r) := by
  have hties : (s'.session c.session).ties = (stage'.view b.channel c owner).ties :=
    congrArg View.ties hview
  have hhost : c.session ≠ b.host := (hsound.children c hc).2.2.1
  simp only [rim, Prod.mk.injEq] at hrim
  obtain ⟨⟨hregistry, hchannels⟩, ⟨hsettings, hends⟩, ⟨-, hended⟩, hthreads, hstarted⟩ := hrim
  have howners : ∀ id t, (s'.session id).owner = some t → (s.session id).owner = some t ∨
      t = c.thread := by
    intro id t ht
    by_cases hid : id = c.session
    · subst hid
      have hsame : (s'.session c.session).owner = owner := by
        have := congrArg Session.Ties.owner hties
        cases stage' <;> exact this
      rcases howner with rfl | rfl
      · exact .inr (Option.some.inj (ht.symm.trans hsame))
      · exact .inl (hsame ▸ ht)
    · exact .inl (hothers id hid ▸ ht)
  constructor
  case child => exact hc
  case size => exact hsize
  case settings => exact hsettings
  case endsProcess => exact hends
  case ended => exact hended
  case threads => exact hthreads ▸ Nat.le_refl _
  case joined => exact ⟨[], by simp [hstarted], by simp⟩
  case ties => exact fun id hid _ => by rw [hothers id hid]
  case host => rw [hothers _ hhost.symm]; exact ⟨rfl, rfl⟩
  case tame =>
    intro id ht
    by_cases hid : id = c.session
    · subst hid
      exact htame ht
    · rwa [hothers id hid]
  case hooked =>
    intro id hid
    by_cases hself : id = c.session
    · subst hself
      exact isHooked_of_stage hties
    · rwa [hothers id hself]
  case owners => exact howners
  case registry => exact hregistry ▸ .refl _
  case registered => exact fun id hin _ => hregistry ▸ hin
  case sends => exact ⟨[], by simp, by simp [codesAt, hchannels]⟩
  case drops => exact ⟨[], by simp, by simp, by simp [sendersAt, hchannels]⟩
  case launched => rfl
  case books => rfl
  case stands => exact fun _ => ⟨stage', owner, hview⟩
  case disposed => exact hdisposed
  case sound =>
    intro h
    constructor
    case known => rw [hregistry, hsize]; exact h.known
    case registered => rw [hregistry]; exact h.registered
    case hooked =>
      rw [hregistry]
      intro id hid hne
      by_cases hself : id = c.session
      · subst hself
        exact isHooked_of_stage hties
      · rw [hothers id hself]
        exact h.hooked id hid hne
    case owners =>
      intro id t ht
      rw [hthreads]
      rcases howners id t ht with ho | rfl
      · exact h.owners id t ho
      · exact (h.children c hc).2.1
    case channel => rw [hchannels]; exact h.channel
    case spares => exact hspares h.spares
    case quiet => rw [hothers _ hhost.symm]; exact h.quiet
    case thread => rw [hthreads]; exact h.thread
    case children => rw [hsize, hthreads]; exact h.children
    case sessions => exact h.sessions
    case threads => exact h.threads
    case dropped => exact h.dropped
    case once => exact h.once
    case senders =>
      have := h.senders
      rwa [sendersAt, hchannels]

theorem Aboard.session {s₁ : Shell} {f : Session → Session} (h : b.Aboard c stage (s, r))
    (stage' : Departure) (me : ThreadId)
    (hrim : s₁.rim = s.rim) (hspares : s.SparesSessions → s₁.SparesSessions)
    (hsessions : s₁.sessions = s.sessions)
    (hties : (f (s.session c.session)).ties = (stage'.view b.channel c (some c.thread)).ties)
    (htame : (f (s.session c.session)).duty.IsTame c.session)
    (hdisposed : (s.session c.session).disposed = true →
      (f (s.session c.session)).disposed = true)
    (hstage : stage'.view b.channel c (some c.thread) =
      { stage.view b.channel c (some c.thread) with
        ties := (stage'.view b.channel c (some c.thread)).ties }) :
    let s' := modifySession c.session f s₁
    b.ChildGuar c (s, r) (s', b.observer.notes me s s' r) ∧
      b.Aboard c stage' (s', b.observer.notes me s s' r) := by
  intro s'
  rw [show b.observer.notes me s s' r = r from notes_of_rim hrim]
  have hlt : c.session < s.sessions.size := (h.sound.children c h.child).1
  have hsame : ∀ id, s₁.session id = s.session id :=
    fun id => by rw [Shell.session, hsessions, Shell.session]
  have hself : (modifySession c.session f s₁).session c.session = f (s.session c.session) := by
    rw [session_modifySession_self f (hsessions ▸ hlt), hsame]
  have hothers : ∀ id, id ≠ c.session → (modifySession c.session f s₁).session id = s.session id :=
    fun id hid => (session_modifySession_of_ne f hid).trans (hsame id)
  have hview : Batch.view c (modifySession c.session f s₁, r) =
      stage'.view b.channel c (some c.thread) := by
    have hregistry : (modifySession c.session f s₁).registry = s.registry := congrArg (·.1.1) hrim
    rw [hstage, ← h.view]
    simp only [Batch.view, hself, hties, hregistry]
  have howner : (s.session c.session).owner = some c.thread := by
    have := congrArg Session.Ties.owner h.ties
    cases stage <;> exact this
  have hguar : b.ChildGuar c (s, r) (modifySession c.session f s₁, r) := by
    refine guar_of_session h.sound h.child hrim (by exact hspares) ?_ hothers ?_ (.inl rfl) ?_ hview
    · rw [size_modifySession, hsessions]
    · exact fun _ => hself ▸ htame
    · exact fun hd => hself ▸ hdisposed hd
  refine ⟨hguar, hguar.sound h.sound, h.child, hself ▸ htame, fun id ho => ?_,
    fun hlive => ?_, hview⟩
  · rcases hguar.owners id _ ho with ho | -
    · exact h.owned id ho
    · by_contra hid
      rw [hothers id hid] at ho
      exact hid (h.owned id ho)
  · have hregistry : (modifySession c.session f s₁).registry = s.registry := congrArg (·.1.1) hrim
    rw [hregistry]
    refine h.host ?_
    cases hd : (s.session c.session).disposed with
    | false => rfl
    | true =>
      rw [hself, hdisposed hd] at hlive
      cases hlive

theorem guar_of_channel {f : Channel → Channel} {r' : BatchRecord} (hc : c ∈ r.launched)
    (hlaunched : r'.launched = r.launched) (hbooks : r'.books = r.books)
    (hsends : ∃ codes, r'.sent = r.sent ++ codes.map (c.thread, ·) ∧
      codesAt b.channel (modifyChannel b.channel f s) = codesAt b.channel s ++ codes)
    (hdrops : ∃ drops : List ThreadId, r'.dropped = r.dropped ++ drops ∧
      (∀ t ∈ drops, t = c.thread) ∧
      sendersAt b.channel (modifyChannel b.channel f s) + drops.length = sendersAt b.channel s)
    (honce : r'.dropped.Nodup) (hstands : Stands b.channel c (modifyChannel b.channel f s, r')) :
    b.ChildGuar c (s, r) (modifyChannel b.channel f s, r') := by
  constructor
  case child => exact hc
  case size => rfl
  case settings => rfl
  case endsProcess => rfl
  case ended => rfl
  case threads => exact Nat.le_refl _
  case joined => exact ⟨[], by simp [modifyChannel], by simp⟩
  case ties => exact fun _ _ _ => rfl
  case host => exact ⟨rfl, rfl⟩
  case tame => exact fun _ ht => ht
  case hooked => exact fun _ hid => hid
  case owners => exact fun _ _ ho => .inl ho
  case registry => exact .refl _
  case registered => exact fun _ hin _ => hin
  case sends => exact hsends
  case drops => exact hdrops
  case launched => exact hlaunched
  case books => exact hbooks
  case stands => exact fun _ => hstands
  case disposed => exact fun hd => hd
  case sound =>
    intro h
    obtain ⟨drops, hdropped, hby, hsenders⟩ := hdrops
    constructor
    case known => exact h.known
    case registered => exact h.registered
    case hooked => exact h.hooked
    case owners => exact h.owners
    case channel => simpa [modifyChannel] using h.channel
    case spares => exact h.spares
    case quiet => exact h.quiet
    case thread => exact h.thread
    case children => rw [hlaunched]; exact h.children
    case sessions => rw [hlaunched]; exact h.sessions
    case threads => rw [hlaunched]; exact h.threads
    case dropped =>
      rw [hlaunched, hdropped]
      intro t ht
      rcases List.mem_append.mp ht with ht | ht
      · exact h.dropped t ht
      · exact hby t ht ▸ List.mem_map_of_mem hc
    case once => exact honce
    case senders =>
      have := h.senders
      rw [hlaunched, hdropped, List.length_append]
      dsimp only at hsenders this ⊢
      omega

theorem channel_eq {channel : Nat} (h : channel < s.channels.size) :
    s.channels[channel]? = some ⟨codesAt channel s, sendersAt channel s⟩ := by
  simp [codesAt, sendersAt, h]

theorem codesAt_modifyChannel {channel : Nat} {f : Channel → Channel}
    (h : channel < s.channels.size) : codesAt channel (modifyChannel channel f s) =
      (f ⟨codesAt channel s, sendersAt channel s⟩).queue := by
  simp [codesAt, sendersAt, modifyChannel, h, Array.getElem_modify_self]

theorem sendersAt_modifyChannel {channel : Nat} {f : Channel → Channel}
    (h : channel < s.channels.size) : sendersAt channel (modifyChannel channel f s) =
      (f ⟨codesAt channel s, sendersAt channel s⟩).senders := by
  simp [codesAt, sendersAt, modifyChannel, h, Array.getElem_modify_self]

theorem notes_of_channel {f : Channel → Channel} {codes : List (String × Int)}
    (drops : List ThreadId)
    (hcodes : codesAt b.channel (modifyChannel b.channel f s) = codesAt b.channel s ++ codes)
    (hdrops : (if me ≠ b.thread ∧ sendersAt b.channel (modifyChannel b.channel f s) <
      sendersAt b.channel s then [me] else []) = drops) :
    b.notes me s (modifyChannel b.channel f s) r =
      { r with sent := r.sent ++ codes.map (me, ·), dropped := r.dropped ++ drops } := by
  have hchildren : newChildren s (modifyChannel b.channel f s) = [] := by
    simp [newChildren, modifyChannel]
  have hended : newEndings s (modifyChannel b.channel f s) = [] := by
    simp [newEndings, modifyChannel, endedCodes]
  simp only [notes, hchildren, hended, newCodes, hcodes, hdrops, List.drop_left, List.append_nil,
    List.map_nil]

theorem Aboard.send {code : Int} (h : b.Aboard c (.coded code) (s, r)) :
    let s' := modifyChannel b.channel (fun ch => { ch with queue := ch.queue ++ [(c.label, code)] })
      s
    b.ChildGuar c (s, r) (s', b.notes c.thread s s' r) ∧
      b.Aboard c (.sent code) (s', b.notes c.thread s s' r) := by
  intro s'
  have hcodes : codesAt b.channel s' = codesAt b.channel s ++ [(c.label, code)] :=
    codesAt_modifyChannel h.sound.channel
  have hsenders : sendersAt b.channel s' = sendersAt b.channel s :=
    sendersAt_modifyChannel h.sound.channel
  have hnotes : b.notes c.thread s s' r =
      { r with sent := r.sent ++ [(c.thread, c.label, code)] } := by
    rw [notes_of_channel [] hcodes (by simp [hsenders, s'])]
    simp
  have hview : Batch.view c (s', b.notes c.thread s s' r) =
      Departure.view b.channel c (some c.thread) (.sent code) := by
    have hsent : r.sent.filter (·.1 = c.thread) = [] := congrArg View.sent h.view
    rw [hnotes]
    refine View.mk.injEq .. ▸ ⟨congrArg View.ties h.view, congrArg View.registered h.view, ?_,
      congrArg View.drops h.view⟩
    simp [hsent]
  have hguar : b.ChildGuar c (s, r) (s', b.notes c.thread s s' r) := by
    refine guar_of_channel h.child (by rw [hnotes]) (by rw [hnotes]; rfl) ?_ ?_ ?_ ⟨_, _, hview⟩
    · exact ⟨[(c.label, code)], by simp [hnotes], hcodes⟩
    · exact ⟨[], by simp [hnotes], by simp, by rw [hsenders]; rfl⟩
    · rw [hnotes]
      exact h.sound.once
  exact ⟨hguar, hguar.sound h.sound, by rw [hnotes]; exact h.child, h.tame, h.owned, h.host, hview⟩

theorem not_mem_dropped (h : b.Aboard c stage γ)
    (hdrops : (stage.view b.channel c (some c.thread)).drops = 0) : c.thread ∉ γ.2.dropped := by
  have hview : (Batch.view c γ).drops = 0 := h.view ▸ hdrops
  exact List.count_eq_zero.mp hview

theorem senders_pos (hsound : b.Sound γ) (hc : c ∈ γ.2.launched) (hnot : c.thread ∉ γ.2.dropped) :
    0 < sendersAt b.channel γ.1 := by
  have hsub : γ.2.dropped ⊆ (γ.2.launched.map Child.thread).erase c.thread := by
    intro t ht
    have hne : t ≠ c.thread := fun heq => hnot (heq ▸ ht)
    exact (List.mem_erase_of_ne hne).mpr (hsound.dropped t ht)
  have hle := (List.Nodup.subperm hsound.once hsub).length_le
  rw [List.length_erase_of_mem (List.mem_map_of_mem hc), List.length_map] at hle
  have hpos : 0 < γ.2.launched.length := List.length_pos_of_mem hc
  have hsenders := hsound.senders
  omega

theorem Aboard.drop {code : Int} (h : b.Aboard c (.sent code) (s, r)) :
    let s' := dropSender b.channel s
    b.ChildGuar c (s, r) (s', b.notes c.thread s s' r) ∧
      b.Aboard c (.hushed code) (s', b.notes c.thread s s' r) := by
  intro s'
  have hnot : c.thread ∉ r.dropped := not_mem_dropped h rfl
  have hpos : 0 < sendersAt b.channel s := senders_pos h.sound h.child hnot
  have hthread : c.thread ≠ b.thread := (h.sound.children c h.child).2.2.2
  have hcodes : codesAt b.channel s' = codesAt b.channel s :=
    codesAt_modifyChannel h.sound.channel
  have hsenders : sendersAt b.channel s' = sendersAt b.channel s - 1 :=
    sendersAt_modifyChannel h.sound.channel
  have hless : sendersAt b.channel s' < sendersAt b.channel s := by omega
  have hnotes : b.notes c.thread s s' r = { r with dropped := r.dropped ++ [c.thread] } := by
    have hcodes' : codesAt b.channel s' = codesAt b.channel s ++ [] := by
      rw [hcodes, List.append_nil]
    refine (notes_of_channel [c.thread] hcodes' ?_).trans (by simp)
    exact if_pos ⟨hthread, hless⟩
  have hview : Batch.view c (s', b.notes c.thread s s' r) =
      Departure.view b.channel c (some c.thread) (.hushed code) := by
    rw [hnotes]
    refine View.mk.injEq .. ▸ ⟨congrArg View.ties h.view, congrArg View.registered h.view,
      congrArg View.sent h.view, ?_⟩
    simp [List.count_append, List.count_eq_zero.mpr hnot]
  have hguar : b.ChildGuar c (s, r) (s', b.notes c.thread s s' r) := by
    refine guar_of_channel h.child (by rw [hnotes]) (by rw [hnotes]; rfl) ?_ ?_ ?_ ⟨_, _, hview⟩
    · exact ⟨[], by simp [hnotes], by rw [List.append_nil]; exact hcodes⟩
    · refine ⟨[c.thread], by simp [hnotes], by simp, ?_⟩
      change sendersAt b.channel s' + 1 = _
      omega
    · rw [hnotes]
      refine List.nodup_append.mpr ⟨h.sound.once, by simp, fun t ht t' ht' heq => hnot ?_⟩
      rwa [← List.mem_singleton.mp ht', ← heq]
  exact ⟨hguar, hguar.sound h.sound, by rw [hnotes]; exact h.child, h.tame, h.owned, h.host, hview⟩

theorem Aboard.leaveRegistry {code : Int} (h : b.Aboard c (.hushed code) (s, r)) (me : ThreadId) :
    let s' : Shell := { s with registry := (s.registry.remove c.session).2 }
    (s.registry.remove c.session).1 ≠ .last ∧ b.ChildGuar c (s, r) (s', b.notes me s s' r) ∧
      b.Aboard c (.left code) (s', b.notes me s s' r) := by
  intro s'
  have hregistry : s'.registry = s.registry.erase c.session := Registry.remove_snd
  have hnotes : b.notes me s s' r = r :=
    notes_of_quiet (by simp [newChildren, s']) (Nat.le_refl _) (Nat.le_refl _) ⟨rfl, rfl⟩
  have hne : c.session ≠ b.host := (h.sound.children c h.child).2.2.1
  have hlive : (s.session c.session).disposed = false := congrArg Session.Ties.disposed h.ties
  have hhost : b.host ∈ s'.registry := by
    rw [hregistry]
    exact (List.mem_erase_of_ne hne.symm).mpr (h.host hlive)
  have hout : c.session ∉ s'.registry := by
    rw [hregistry]
    exact h.sound.registered.not_mem_erase
  have hview : Batch.view c (s', b.notes me s s' r) =
      Departure.view b.channel c (some c.thread) (.left code) := by
    rw [hnotes]
    refine View.mk.injEq .. ▸ ⟨congrArg View.ties h.view, ?_, congrArg View.sent h.view,
      congrArg View.drops h.view⟩
    exact eq_false hout
  have hsub : s'.registry.Sublist s.registry := hregistry ▸ List.erase_sublist
  have hguar : b.ChildGuar c (s, r) (s', b.notes me s s' r) := by
    rw [hnotes] at hview ⊢
    constructor
    case child => exact h.child
    case size => rfl
    case settings => rfl
    case endsProcess => rfl
    case ended => rfl
    case threads => exact Nat.le_refl _
    case joined => exact ⟨[], by simp [s'], by simp⟩
    case ties => exact fun _ _ _ => rfl
    case host => exact ⟨rfl, rfl⟩
    case tame => exact fun _ ht => ht
    case hooked => exact fun _ hid => hid
    case owners => exact fun _ _ ho => .inl ho
    case registry => exact hsub
    case registered =>
      intro id hin hid
      rw [hregistry]
      exact (List.mem_erase_of_ne hid).mpr hin
    case sends => exact ⟨[], by simp, by simp [codesAt, s']⟩
    case drops => exact ⟨[], by simp, by simp, by simp [sendersAt, s']⟩
    case launched => rfl
    case books => rfl
    case stands => exact fun _ => ⟨_, _, hview⟩
    case disposed => exact fun hd => hd
    case sound =>
      exact fun hs => { hs with
        known := fun id hid => hs.known id (hsub.subset hid)
        registered := hsub.nodup hs.registered
        hooked := fun id hid => hs.hooked id (hsub.subset hid) }
  refine ⟨fun hlast => ?_, hguar, hguar.sound h.sound,
    by rw [hnotes]; exact h.child, h.tame, h.owned,
    fun _ => hhost, hview⟩
  have := Registry.erase_of_last hlast
  rw [hregistry, this] at hhost
  cases hhost

/-! ## Leaving -/

theorem stable_aboard_and {p : Prop} : Stable (b.ChildRely c) fun γ => p ∧ b.Aboard c stage γ :=
  fun _ _ h hr => ⟨h.1, stable_aboard _ _ h.2 hr⟩

theorem upholds_recordCode (code : Int) :
    Upholds (b.ChildRely c) (b.ChildGuar c) me (b.Aboard c .running)
      (b.observe (recordCode c.session code).run)
      (Fate.Returns fun hook? γ => hook? = .ok (some (.report b.channel c.label)) ∧
        b.Aboard c (.coded code) γ) := by
  refine upholds_observe_step stable_aboard (fun _ => stable_aboard_and) fun s r h _ => ?_
  obtain ⟨hcode, hdisposed, hhook, howner⟩ := Session.Ties.mk.inj h.ties
  have hopen : ¬((s.session c.session).disposed = true ∨
      (s.session c.session).exitCode.isSome = true) := by
    simp [hcode, hdisposed]
  have hsession := h.session (.coded code) me (show s.rim = s.rim from rfl) id rfl
    (f := fun session => { session with exitCode := some code, exitHook := none })
    (by rw [← howner]; exact congrArg (fun d => Session.Ties.mk (some code) d none _) hdisposed)
    ⟨h.tame.main, h.tame.tasks, h.tame.hosts⟩ (fun hd => hd) rfl
  dsimp only
  rw [if_neg hopen]
  exact ⟨hsession.1, by rw [hhook], hsession.2⟩

theorem upholds_report (code : Int) :
    Upholds (b.ChildRely c) (b.ChildGuar c) c.thread (b.Aboard c (.coded code))
      (b.observe (discard (runHook code (.report b.channel c.label)).attempt))
      (Fate.Returns fun _ => b.Aboard c (.hushed code)) := by
  have hrun : Upholds (b.ChildRely c) (b.ChildGuar c) c.thread (b.Aboard c (.coded code))
      (b.observe (runHook code (.report b.channel c.label)))
      (Fate.Returns fun _ => b.Aboard c (.hushed code)) := by
    refine Upholds.observe_bind (R := fun _ => b.Aboard c (.sent code)) ?_ (.refl c) fun _ => ?_
    · exact upholds_observe_step stable_aboard (fun _ => stable_aboard) fun s r h _ => h.send
    · exact upholds_observe_step stable_aboard (fun _ => stable_aboard) fun s r h _ => h.drop
  refine Upholds.observe_bind (R := fun _ => b.Aboard c (.hushed code)) (fun γ h => ?_) (.refl c)
    fun _ => upholds_observe_pure _ stable_aboard fun _ h => h
  rw [Observer.observe_attempt]
  exact (hrun γ h).attempt (fun _ _ h => h) fun _ h => h.elim

theorem upholds_leave (code : Int) (handsOn : Bool) :
    Upholds (b.ChildRely c) (b.ChildGuar c) c.thread (b.Aboard c (.coded code))
      (b.observe (leave c.session code (some (.report b.channel c.label)) handsOn))
      (Fate.Returns fun wasLast γ => wasLast = false ∧ b.Aboard c (.left code) γ) := by
  refine Upholds.observe_bind (upholds_report code) (.refl c) fun _ => ?_
  refine Upholds.observe_bind (R := fun _ => b.Aboard c (.hushed code))
    (upholds_still chore_loseFocus fun _ => trivial) (.refl c) fun wasCurrent => ?_
  refine Upholds.observe_bind (R := fun removal γ => removal ≠ .last ∧ b.Aboard c (.left code) γ)
    ?_ (.refl c) fun removal => ?_
  · refine upholds_observe_step stable_aboard (fun _ => stable_aboard_and) fun s r h _ => ?_
    obtain ⟨hlast, hguar, hleft⟩ := h.leaveRegistry c.thread
    exact ⟨hguar, hlast, hleft⟩
  have hdone : Upholds (b.ChildRely c) (b.ChildGuar c) c.thread (b.Aboard c (.left code))
      (b.observe (pure false))
      (Fate.Returns fun wasLast γ => wasLast = false ∧ b.Aboard c (.left code) γ) :=
    upholds_observe_pure _ stable_aboard fun _ h => ⟨rfl, h⟩
  cases removal with
  | last => exact fun _ h => absurd rfl h.1
  | absent => exact fun γ h => hdone γ h.2
  | removed index remaining =>
    intro γ h
    cases handsOn && wasCurrent with
    | false => exact hdone γ h.2
    | true =>
      exact Upholds.observe_bind (R := fun _ => b.Aboard c (.left code))
        (upholds_still (chore_handOn index remaining) (neverCrashes_handOn index remaining))
        (.refl c) (fun _ => hdone) γ h.2

theorem frame_of_cancel (s : Shell) (job? : Option JobId) :
    let s' := job?.elim s fun job => cancelJob job s
    s'.rim = s.rim ∧ s'.sessions = s.sessions ∧ (s.SparesSessions → s'.SparesSessions) := by
  cases job? with
  | none => exact ⟨rfl, rfl, id⟩
  | some job => exact ⟨rfl, rfl, Still.spares (chore_cancelJob job)⟩

theorem upholds_markDisposed (code : Int) :
    Upholds (b.ChildRely c) (b.ChildGuar c) me (b.Aboard c (.left code))
      (b.observe (markDisposed c.session))
      (Fate.Returns fun hook? γ => hook? = none ∧ b.Aboard c (.gone code) γ) := by
  refine upholds_observe_step stable_aboard (fun _ => stable_aboard_and) fun s r h _ => ?_
  obtain ⟨hcode, hdisposed, hhook, howner⟩ := Session.Ties.mk.inj h.ties
  obtain ⟨hrim, hsessions, hspares⟩ := frame_of_cancel s (s.session c.session).compiling
  have hsession := h.session (.gone code) me hrim hspares hsessions
    (f := fun session => { session with
      disposed := true
      compiling := none
      interpreter := none
      main := none
      exitHook := none })
    (by rw [← howner]; exact congrArg (fun x => Session.Ties.mk x true none _) hcode)
    ⟨fun _ hmain => (nomatch hmain), h.tame.tasks, fun _ hi => nomatch hi⟩ (fun _ => rfl) rfl
  exact ⟨hsession.1, hhook, hsession.2⟩

theorem foldl_drop {tasks : List Task} (h : ∀ hook code, .runHook hook code ∉ tasks) :
    tasks.foldl (fun s task => Task.drop task s) s = s := by
  induction tasks with
  | nil => rfl
  | cons task tasks ih =>
    have hrest := ih fun hook code hin => h hook code (List.mem_cons_of_mem task hin)
    cases task with
    | runHook hook code => exact absurd List.mem_cons_self (h hook code)
    | boot => exact hrest
    | script => exact hrest

theorem upholds_dropTasks :
    Upholds (b.ChildRely c) (b.ChildGuar c) me (b.Aboard c stage) (b.observe (dropTasks c.session))
      (Fate.Returns fun _ => b.Aboard c stage) := by
  refine upholds_observe_step stable_aboard (fun _ => stable_aboard) fun s r h _ => h.still me ?_
  dsimp only
  rw [show (s.session c.session).tasks.foldl _ s = s from foldl_drop h.tame.tasks]
  exact still_modifySession (by exact fun _ => rfl) fun ht =>
    ⟨ht.main, by simp [Session.duty], ht.hosts⟩

theorem upholds_dispose (code : Int) :
    Upholds (b.ChildRely c) (b.ChildGuar c) me (b.Aboard c (.left code))
      (b.observe (dispose c.session)) (Fate.Returns fun _ => b.Aboard c (.gone code)) := by
  refine Upholds.observe_bind (upholds_markDisposed code) (.refl c) fun hook? γ h => ?_
  obtain ⟨rfl, h⟩ := h
  refine Upholds.observe_bind (upholds_still chore_cancelJobs fun _ => trivial) (.refl c)
    (fun _ => ?_) γ h
  refine Upholds.observe_bind upholds_dropTasks (.refl c) fun _ => ?_
  exact Upholds.observe_bind (upholds_still (chore_setCurrent false) fun _ => trivial) (.refl c)
    fun _ => upholds_still chore_release fun _ => trivial

theorem upholds_finish (code : Int) (handsOn : Bool) :
    Upholds (b.ChildRely c) (b.ChildGuar c) c.thread (b.Aboard c .running)
      (b.observe (finish c.session code true handsOn).run)
      (Fate.Returns fun result γ => result = .ok () ∧ b.Aboard c (.gone code) γ) := by
  refine Upholds.observe_run_bind (upholds_recordCode code) (.refl c) (fun hook? γ h => ?_)
    fun e γ h => ?_
  · obtain ⟨hhook, h⟩ := h
    cases hhook
    refine Upholds.observe_lift_bind (upholds_leave code handsOn) (.refl c)
      (fun wasLast γ h => ?_) γ h
    obtain ⟨rfl, h⟩ := h
    exact Upholds.observe_lift_bind (upholds_dispose code) (.refl c)
      (fun _ => upholds_observe_pure _ stable_aboard fun _ h => ⟨rfl, h⟩) γ h
  · obtain ⟨hhook, -⟩ := h
    cases hhook

end BatchSite

end SessionShell
