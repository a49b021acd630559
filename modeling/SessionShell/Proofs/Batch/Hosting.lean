import SessionShell.Proofs.Batch.Books

/-!
Single steps of the thread that runs a batch, and what comes of its books by them.
-/

namespace SessionShell

open Action Shell Batch

namespace BatchSite

variable {b : BatchSite} {γ γ' : Shell × BatchRecord} {s s' : Shell} {r r' : BatchRecord}
  {guests : List SessionId} {p : Page} {c : Child} {id : SessionId} {me : ThreadId}

/-! ## What a step of the batch guarantees -/

theorem hostGuar_of_session (hsound : b.Sound (s, r)) (hid : id ∉ r.launched.map Child.session)
    (hrim : s'.rim = s.rim) (hspares : s.SparesSessions → s'.SparesSessions)
    (hsize : s.sessions.size ≤ s'.sessions.size)
    (hothers : ∀ other, other ≠ id → s'.session other = s.session other)
    (howner : ∀ t, (s'.session id).owner = some t → (s.session id).owner = some t)
    (hhooked : (s.session id).IsHooked → (s'.session id).IsHooked)
    (hquiet : id = b.host → ∀ hook, (s'.session id).exitHook = some hook → hook.IsQuiet) :
    b.HostGuar (s, r) (s', r) := by
  simp only [rim, Prod.mk.injEq] at hrim
  obtain ⟨⟨hregistry, hchannels⟩, -, -, hthreads, hstarted⟩ := hrim
  have hchild : ∀ c ∈ r.launched, s'.session c.session = s.session c.session := fun c hc =>
    hothers _ fun heq => hid (heq ▸ List.mem_map_of_mem hc)
  have howners : ∀ other t, (s'.session other).owner = some t →
      (s.session other).owner = some t := by
    intro other t ht
    by_cases ho : other = id
    · subst ho
      exact howner t ht
    · rwa [hothers other ho] at ht
  have hall : ∀ other, (s.session other).IsHooked → (s'.session other).IsHooked := by
    intro other h
    by_cases ho : other = id
    · subst ho
      exact hhooked h
    · rwa [hothers other ho]
  have hkeeps : b.Sound (s', r) :=
    { known := fun other hin => Nat.lt_of_lt_of_le (hsound.known other (hregistry ▸ hin)) hsize
      registered := hregistry.symm ▸ hsound.registered
      hooked := fun other hin hne => hall other (hsound.hooked other (hregistry ▸ hin) hne)
      owners := fun other t ho => hthreads.symm ▸ hsound.owners other t (howners other t ho)
      channel := hchannels.symm ▸ hsound.channel
      spares := hspares hsound.spares
      quiet := fun hook hhook => by
        by_cases hhost : id = b.host
        · exact hquiet hhost hook (hhost ▸ hhook)
        · rw [hothers _ (Ne.symm hhost)] at hhook
          exact hsound.quiet hook hhook
      thread := hthreads.symm ▸ hsound.thread
      children := fun child hin => by
        have hchild := hsound.children child hin
        rw [hthreads]
        exact ⟨Nat.lt_of_lt_of_le hchild.1 hsize, hchild.2⟩
      sessions := hsound.sessions
      threads := hsound.threads
      dropped := hsound.dropped
      once := hsound.once
      senders := by
        have := hsound.senders
        rwa [sendersAt, hchannels] }
  constructor
  case sound => exact fun _ => hkeeps
  case threads => exact Nat.le_of_eq (congrArg Array.size hthreads.symm)
  case owners => exact howners
  case view =>
    intro c hc
    simp only [Batch.view, hchild c hc, hregistry]
  case tame => exact fun c hc ht => by rwa [hchild c hc]
  case size => exact hsize
  case hooked => exact hall
  case host => exact fun _ _ _ hin => hregistry.symm ▸ hin
  case joined => exact .inl ⟨rfl, [], by simp [hstarted], by simp⟩

theorem hostGuar_of_channel {f : Channel → Channel} (sent : List (ThreadId × String × Int))
    (hsound : b.Sound (s, r)) (hr : r' = { r with sent := r.sent ++ sent })
    (hby : ∀ x ∈ sent, x.1 = b.thread)
    (hsenders : r.launched.length ≤ sendersAt b.channel (modifyChannel b.channel f s) +
      r.dropped.length) :
    b.HostGuar (s, r) (modifyChannel b.channel f s, r') := by
  subst hr
  constructor
  case sound =>
    exact fun h => { h with
      channel := by simpa [modifyChannel] using h.channel
      senders := hsenders }
  case threads => exact Nat.le_refl _
  case owners => exact fun _ _ h => h
  case view =>
    intro c hc
    have hne : c.thread ≠ b.thread := (hsound.children c hc).2.2.2
    have hnone : sent.filter (·.1 = c.thread) = [] := by
      simp only [List.filter_eq_nil_iff, decide_eq_true_eq]
      exact fun x hx heq => hne (heq.symm.trans (hby x hx))
    refine View.mk.injEq .. ▸ ⟨rfl, rfl, ?_, rfl⟩
    rw [List.filter_append, hnone, List.append_nil]
  case tame => exact fun _ _ h => h
  case size => exact Nat.le_refl _
  case hooked => exact fun _ h => h
  case host => exact fun _ _ _ h => h
  case joined => exact .inl ⟨rfl, [], by simp [modifyChannel], by simp⟩

theorem hostGuar_of_registry {registry : Registry} (hknown : ∀ id ∈ registry, id < s.sessions.size)
    (hnodup : registry.Nodup) (hhooked : ∀ id ∈ registry, id ≠ b.host → (s.session id).IsHooked)
    (hchildren : ∀ c ∈ r.launched, c.session ∈ registry ↔ c.session ∈ s.registry)
    (hhost : ∀ c ∈ r.launched, (s.session c.session).disposed = false → b.host ∈ s.registry →
      b.host ∈ registry) : b.HostGuar (s, r) ({ s with registry }, r) := by
  constructor
  case sound => exact fun h => { h with known := hknown, registered := hnodup, hooked := hhooked }
  case threads => exact Nat.le_refl _
  case owners => exact fun _ _ h => h
  case view =>
    intro c hc
    simp only [Batch.view]
    rw [hchildren c hc]
    rfl
  case tame => exact fun _ _ h => h
  case size => exact Nat.le_refl _
  case hooked => exact fun _ h => h
  case host => exact hhost
  case joined => exact .inl ⟨rfl, [], by simp, by simp⟩

/-! ## Books behind a step -/

theorem stands_of_view (hview : Batch.view c γ' = Batch.view c γ) (h : Stands b.channel c γ) :
    Stands b.channel c γ' := by
  obtain ⟨stage, owner, hstage⟩ := h
  exact ⟨stage, owner, hview.trans hstage⟩

theorem Housed.of_guar {guests' : List SessionId} (h : b.Housed guests γ) (hg : b.HostGuar γ γ')
    (hlaunched : γ'.2.launched = γ.2.launched) (hended : γ'.1.ended = γ.1.ended)
    (hself : γ'.1.session b.host = γ.1.session b.host) (hhost : b.host ∈ γ'.1.registry)
    (hregistry : ∀ id ∈ γ'.1.registry,
      id = b.host ∨ id ∈ guests' ∨ id ∈ γ.2.launched.map Child.session) : b.Housed guests' γ' where
  sound := hg.sound h.sound
  live := hself.symm ▸ h.live
  tame := hself.symm ▸ h.tame
  running := hended.trans h.running
  host := hhost
  registry := hlaunched.symm ▸ hregistry
  stands c hc := stands_of_view (hg.view c (hlaunched ▸ hc)) (h.stands c (hlaunched ▸ hc))

theorem tally_of_rim (h : s'.rim = s.rim) : b.tally (s', r) = b.tally (s, r) := by
  simp only [rim, Prod.mk.injEq] at h
  simp only [tally, codesAt, sendersAt, h.1.2, h.2.1.1]

/-! ## Running on -/

/-- What the thread of the batch does, with what it knows before and behind it. -/
abbrev Hosts {α : Type} (b : BatchSite) (P : Shell × BatchRecord → Prop) (p : Action Shell α)
    (Q : Fate α → Shell × BatchRecord → Prop) : Prop :=
  Upholds b.HostRely b.HostGuar b.thread P (b.observe p) Q

variable {α β ε : Type} {P : Shell × BatchRecord → Prop}

theorem hosts_of_still {p : Action Shell α} (hP : Stable b.HostRely P) (hp : Within Still p)
    (hcrash : NeverCrashes p) : b.Hosts P p (Fate.Returns fun _ => P) :=
  upholds_of_within hP (fun _ _ _ h hstill =>
    ⟨hostGuar_of_calm (calm_of_still hstill), hP _ _ h (hostRely_of_calm (calm_of_still hstill))⟩)
    hp hcrash

theorem hosts_read {f : Shell → α} {R : α → Shell × BatchRecord → Prop} (hP : Stable b.HostRely P)
    (hR : ∀ a, Stable b.HostRely (R a)) (h : ∀ γ, P γ → R (f γ.1) γ) :
    b.Hosts P (read f) (Fate.Returns R) :=
  upholds_observe_step hP hR fun s r hs _ => by
    have hnotes : b.observer.notes b.thread s s r = r := notes_of_still (Still.refl s)
    dsimp only
    rw [hnotes]
    exact ⟨hostGuar_of_calm ⟨.refl s, rfl⟩, h (s, r) hs⟩

theorem stable_and {R : Shell × BatchRecord → Prop} (hP : Stable b.HostRely P)
    (hR : Stable b.HostRely R) : Stable b.HostRely fun γ => P γ ∧ R γ :=
  fun γ γ' h hr => ⟨hP γ γ' h.1 hr, hR γ γ' h.2 hr⟩

theorem stable_const {q : Prop} : Stable b.HostRely fun _ => q :=
  fun _ _ h _ => h

/-! ## The channel -/

theorem length_dropped_le (h : b.Sound γ) : γ.2.dropped.length ≤ γ.2.launched.length := by
  have hle := (List.Nodup.subperm h.once h.dropped).length_le
  rwa [List.length_map] at hle

theorem Housed.senders {f : Channel → Channel} {slack : Nat} (h : b.Housed guests (s, r))
    (ha : b.Accounts p (b.tally (s, r))) (hqueue : ∀ ch, (f ch).queue = ch.queue)
    (hsenders : r.launched.length + slack ≤
      (f ⟨codesAt b.channel s, sendersAt b.channel s⟩).senders + r.dropped.length) :
    let s' := modifyChannel b.channel f s
    b.observer.notes b.thread s s' r = r ∧ b.HostGuar (s, r) (s', r) ∧ b.Housed guests (s', r) ∧
      b.Accounts { p with slack } (b.tally (s', r)) := by
  intro s'
  have hcodes : codesAt b.channel s' = codesAt b.channel s :=
    (codesAt_modifyChannel h.sound.channel).trans (hqueue _)
  have hcount : sendersAt b.channel s' = (f ⟨codesAt b.channel s, sendersAt b.channel s⟩).senders :=
    sendersAt_modifyChannel h.sound.channel
  have hnotes : b.observer.notes b.thread s s' r = r := by
    refine (notes_of_channel [] (by rw [List.append_nil]; exact hcodes) (by simp)).trans ?_
    simp
  have hguar : b.HostGuar (s, r) (s', r) :=
    hostGuar_of_channel [] h.sound (by simp) (by simp)
      (Nat.le_trans (Nat.le_add_right _ slack) (hcount ▸ hsenders))
  refine ⟨hnotes, hguar, h.of_guar hguar rfl rfl rfl h.host h.registry, ?_⟩
  have htally : b.tally (s', r) =
      { b.tally (s, r) with senders := sendersAt b.channel s' + r.dropped.length } := by
    simp only [tally, hcodes]
    rfl
  rw [htally]
  exact { ha with slack := hcount ▸ hsenders }

variable {begun : List (String × Start)} {recorded : List (String × Int)}

theorem hosts_addSender :
    b.Hosts (b.Books p begun recorded) (addSender b.channel)
      (Fate.Returns fun _ => b.Books { p with slack := p.slack + 1 } begun recorded) := by
  have hmore : ∀ s r, b.Books p begun recorded (s, r) →
      r.launched.length + (p.slack + 1) ≤ sendersAt b.channel s + 1 + r.dropped.length :=
        fun s r h => by
    have hslack : r.launched.length + p.slack ≤ sendersAt b.channel s + r.dropped.length :=
      h.accounts.slack
    omega
  refine upholds_observe_step stable_books (fun _ => stable_books) fun s r h _ => ?_
  obtain ⟨hnotes, hguar, hhoused, haccounts⟩ := h.housed.senders h.accounts
    (f := fun c => { c with senders := c.senders + 1 }) (fun _ => rfl) (hmore s r h)
  exact hnotes.symm ▸ ⟨hguar, hhoused, haccounts, h.notes⟩

theorem Housed.dropSender (h : b.Housed guests (s, r))
    (ha : b.Accounts { p with slack := p.slack + 1 } (b.tally (s, r))) :
    let s' := Shell.dropSender b.channel s
    b.observer.notes b.thread s s' r = r ∧ b.HostGuar (s, r) (s', r) ∧ b.Housed guests (s', r) ∧
      b.Accounts p (b.tally (s', r)) := by
  refine h.senders (p := { p with slack := p.slack + 1 }) ha
    (f := fun c => { c with senders := c.senders - 1 }) (fun _ => rfl) ?_
  have hslack : r.launched.length + (p.slack + 1) ≤ sendersAt b.channel s + r.dropped.length :=
    ha.slack
  have hdropped : r.dropped.length ≤ r.launched.length := length_dropped_le h.sound
  dsimp only
  omega

theorem hosts_dropSender :
    b.Hosts (b.Books { p with slack := p.slack + 1 } begun recorded) (update (dropSender b.channel))
      (Fate.Returns fun _ => b.Books p begun recorded) := by
  refine upholds_observe_step stable_books (fun _ => stable_books) fun s r h _ => ?_
  obtain ⟨hnotes, hguar, hhoused, haccounts⟩ := h.housed.dropSender h.accounts
  exact hnotes.symm ▸ ⟨hguar, hhoused, haccounts, h.notes⟩

/-! ## Notes -/

theorem hostGuar_of_record (hlaunched : r'.launched = r.launched) (hsent : r'.sent = r.sent)
    (hdropped : r'.dropped = r.dropped) : b.HostGuar (s, r) (s, r') := by
  constructor
  case sound =>
    exact fun h => { h with
      children := hlaunched.symm ▸ h.children
      sessions := hlaunched.symm ▸ h.sessions
      threads := hlaunched.symm ▸ h.threads
      dropped := fun t ht => hlaunched.symm ▸ h.dropped t (hdropped ▸ ht)
      once := hdropped.symm ▸ h.once
      senders := by
        have := h.senders
        rwa [hlaunched, hdropped] }
  case threads => exact Nat.le_refl _
  case owners => exact fun _ _ h => h
  case view =>
    intro c _
    simp only [Batch.view, hsent, hdropped]
  case tame => exact fun _ _ h => h
  case size => exact Nat.le_refl _
  case hooked => exact fun _ h => h
  case host => exact fun _ _ _ h => h
  case joined => exact .inl ⟨hlaunched, [], by simp, by simp⟩

theorem hosts_record {f : BatchRecord → BatchRecord} {begun' : List (String × Start)}
    {recorded' : List (String × Int)}
    (hf : ∀ r, (f r).launched = r.launched ∧ (f r).sent = r.sent ∧ (f r).dropped = r.dropped)
    (hnotes : ∀ r : BatchRecord, r.Notes begun recorded → (f r).Notes begun' recorded') :
    Upholds b.HostRely b.HostGuar b.thread (b.Books p begun recorded) (Action.record f)
      (Fate.Returns fun _ => b.Books p begun' recorded') := by
  refine upholds_step stable_books (fun _ => stable_books) fun γ h => ?_
  obtain ⟨s, r⟩ := γ
  obtain ⟨hlaunched, hsent, hdropped⟩ := hf r
  have hguar : b.HostGuar (s, r) (s, f r) := hostGuar_of_record hlaunched hsent hdropped
  have htally : b.tally (s, f r) = b.tally (s, r) := by
    simp only [tally, hlaunched, hsent, hdropped]
  exact ⟨hguar, h.housed.of_guar hguar hlaunched rfl rfl h.housed.host h.housed.registry,
    htally.symm ▸ h.accounts, hnotes r h.notes⟩

end BatchSite

end SessionShell
