import SessionShell.Proofs.Batch.Hosting

/-!
How a batch starts a child for a target, and what comes of a target that cannot be started.
-/

namespace SessionShell

open Action Shell Batch

namespace Batch

def Page.withChild (p : Page) (target : String) (targets : List String) (child : BatchChild) :
    Page :=
  { p with
    run := { p.run with
      targets
      pending := p.run.pending + 1
      children := p.run.children ++ [child] }
    begun := p.begun ++ [(target, .child child.session)] }

def Page.withMissing (p : Page) (target : String) (targets : List String) : Page :=
  { p with
    run := { p.run with targets, pending := p.run.pending + 1 }
    begun := p.begun ++ [(target, .missing)] }

def Page.withRefused (p : Page) (target : String) (targets : List String) : Page :=
  { p with
    run := { p.run with targets, code := fold p.lastCode p.run.code ReservedCode.killed.code }
    begun := p.begun ++ [(target, .refused)]
    recorded := p.recorded ++ [(target, ReservedCode.killed.code)] }

end Batch

namespace BatchSite

variable {b : BatchSite} {γ γ' : Shell × BatchRecord} {s s' : Shell} {r r' : BatchRecord}
  {p : Page} {c : Child} {child : SessionId} {t : Tally} {target : String} {targets : List String}

/-! ## The accounts -/

theorem Accounts.withChild (h : b.Accounts { p with slack := p.slack + 1 } t)
    (htargets : p.run.targets = target :: targets) (hlabel : c.label = target)
    {child : BatchChild} (hchild : child.session = c.session) :
    b.Accounts (p.withChild target targets child) { t with launched := t.launched ++ [c] } := by
  obtain ⟨taken, hsent, hrecorded, hpending⟩ := h.taken
  have hmissing : (p.withChild target targets child).missing = p.missing := by
    simp [Page.missing, Page.withChild, Start.missing?]
  constructor
  case channel => exact h.channel
  case targets =>
    have := h.targets
    simp only [htargets] at this
    simp [Page.withChild, ← this]
  case launched =>
    have := h.launched
    simp only [Page.withChild, List.map_append, List.filterMap_append, this]
    simp [Start.child?, hlabel, hchild]
  case children =>
    have := h.children
    simp only [Page.withChild, List.map_append, this]
    simp [hchild]
  case senders =>
    intro x hx
    rcases h.senders x hx with hx | hx
    · exact .inl hx
    · exact .inr (by simpa using .inl (List.mem_map.mp hx))
  case missing => rw [hmissing]; exact h.missing
  case taken =>
    refine ⟨taken, hsent, ?_, ?_⟩
    · have hrefused : (p.withChild target targets child).begun.filterMap Start.refused? =
          p.begun.filterMap Start.refused? := by simp [Page.withChild, Start.refused?]
      rw [hrefused]
      exact hrecorded
    · rw [hmissing]
      simp only [Page.withChild, List.length_append, List.length_singleton] at hpending ⊢
      have : p.missing = Page.missing { p with slack := p.slack + 1 } := rfl
      rw [this]
      omega
  case lastCode => exact h.lastCode
  case code => exact h.code
  case slack =>
    have := h.slack
    simp only [Page.withChild, List.length_append, List.length_singleton]
    dsimp only at this
    omega

theorem Accounts.withMissing (h : b.Accounts p t) (htargets : p.run.targets = target :: targets) :
    b.Accounts (p.withMissing target targets)
      { t with
        sent := t.sent ++ [(b.thread, target, ReservedCode.noFile.code)]
        queue := t.queue ++ [(target, ReservedCode.noFile.code)] } := by
  obtain ⟨taken, hsent, hrecorded, hpending⟩ := h.taken
  have hmissing : (p.withMissing target targets).missing =
      p.missing ++ [(target, ReservedCode.noFile.code)] := by
    simp [Page.missing, Page.withMissing, Start.missing?]
  constructor
  case channel => exact h.channel
  case targets => simp [Page.withMissing, ← h.targets, htargets]
  case launched => simp [Page.withMissing, Start.child?, h.launched]
  case children => exact h.children
  case senders =>
    intro x hx
    rcases List.mem_append.mp hx with hx | hx
    · exact h.senders x hx
    · exact .inl (by rw [List.mem_singleton.mp hx])
  case missing => simp [hmissing, h.missing]
  case taken =>
    refine ⟨taken, by simp [hsent, Page.withMissing], ?_, ?_⟩
    · have hrefused : (p.withMissing target targets).begun.filterMap Start.refused? =
          p.begun.filterMap Start.refused? := by simp [Page.withMissing, Start.refused?]
      rw [hrefused]
      exact hrecorded
    · rw [hmissing]
      simp only [Page.withMissing, List.length_append, List.length_singleton] at hpending ⊢
      omega
  case lastCode => exact h.lastCode
  case code => exact h.code
  case slack => exact h.slack

theorem Accounts.withRefused (h : b.Accounts p t) (htargets : p.run.targets = target :: targets) :
    b.Accounts (p.withRefused target targets) t := by
  obtain ⟨taken, hsent, hrecorded, hpending⟩ := h.taken
  have hmissing : (p.withRefused target targets).missing = p.missing := by
    simp [Page.missing, Page.withRefused, Start.missing?]
  constructor
  case channel => exact h.channel
  case targets => simp [Page.withRefused, ← h.targets, htargets]
  case launched => simp [Page.withRefused, Start.child?, h.launched]
  case children => exact h.children
  case senders => exact h.senders
  case missing => rw [hmissing]; exact h.missing
  case taken =>
    refine ⟨taken, hsent, ?_, by rw [hmissing]; exact hpending⟩
    simp only [Page.withRefused, List.filterMap_append, ← List.append_assoc]
    exact hrecorded.append_right _
  case lastCode => exact h.lastCode
  case code =>
    simp only [Page.withRefused, foldAll_append_singleton, ← h.code]
  case slack => exact h.slack

/-! ## A child to be -/

structure Expecting (b : BatchSite) (p : Page) (child : SessionId) (ties : Session.Ties)
    (entered : Prop) (γ : Shell × BatchRecord) : Prop where
  housed : b.Housed [child] γ
  accounts : b.Accounts p (b.tally γ)
  notes : γ.2.Notes p.begun p.recorded
  known : child < γ.1.sessions.size
  host : child ≠ b.host
  fresh : child ∉ γ.2.launched.map Child.session
  ties : (γ.1.session child).ties = ties
  tame : (γ.1.session child).duty.IsTame child
  entered : child ∈ γ.1.registry ↔ entered

variable {ties : Session.Ties} {entered : Prop}

theorem stable_expecting : Stable b.HostRely (b.Expecting p child ties entered) := by
  intro γ γ' h hr
  refine ⟨h.housed.of_rely hr, h.accounts.of_rely h.housed.sound hr, notes_of_rely h.notes hr,
    hr.size.symm ▸ h.known, h.host, hr.launched.symm ▸ h.fresh,
    (hr.ties child h.host h.fresh).trans h.ties, hr.tame child h.tame, ?_⟩
  exact ⟨fun hin => h.entered.mp (hr.registry.subset hin),
    fun hentered => hr.registered child (h.entered.mpr hentered) h.fresh⟩

theorem Expecting.unregistered (h : b.Expecting p child ties False γ) : b.Keeps p γ := by
  refine ⟨{ h.housed with registry := fun id hid => ?_ }, h.accounts, h.notes⟩
  rcases h.housed.registry id hid with rfl | hguest | hin
  · exact .inl rfl
  · cases List.mem_singleton.mp hguest
    exact (h.entered.mp hid).elim
  · exact .inr (.inr hin)

theorem Expecting.session {s₁ : Shell} {f : Session → Session}
    (h : b.Expecting p child ties entered (s, r)) (ties' : Session.Ties) (hrim : s₁.rim = s.rim)
    (hspares : s.SparesSessions → s₁.SparesSessions) (hsessions : s₁.sessions = s.sessions)
    (hties : (f (s.session child)).ties = ties') (howner : ties'.owner = ties.owner)
    (htame : (f (s.session child)).duty.IsTame child)
    (hhooked : (s.session child).IsHooked → (f (s.session child)).IsHooked) :
    let s' := modifySession child f s₁
    b.HostGuar (s, r) (s', b.observer.notes b.thread s s' r) ∧
      b.Expecting p child ties' entered (s', b.observer.notes b.thread s s' r) := by
  intro s'
  have hrim' : s'.rim = s.rim := hrim
  rw [show b.observer.notes b.thread s s' r = r from notes_of_rim hrim']
  have hself : s'.session child = f (s.session child) := by
    rw [session_modifySession_self f (hsessions ▸ h.known), Shell.session, hsessions, Shell.session]
  have hothers : ∀ other, other ≠ child → s'.session other = s.session other := fun other ho => by
    rw [session_modifySession_of_ne f ho, Shell.session, hsessions, Shell.session]
  have hsize : s'.sessions.size = s.sessions.size := by rw [size_modifySession, hsessions]
  have hregistry : s'.registry = s.registry := congrArg (·.1.1) hrim'
  have hguar : b.HostGuar (s, r) (s', r) := by
    refine hostGuar_of_session h.housed.sound h.fresh hrim' hspares
      (Nat.le_of_eq hsize.symm) hothers
      (fun t ht => ?_) (fun hh => hself ▸ hhooked hh) fun heq => absurd heq h.host
    rw [hself] at ht
    have howner' : (f (s.session child)).owner = (s.session child).owner := by
      rw [show (f (s.session child)).owner = ties'.owner from congrArg Session.Ties.owner hties,
        howner]
      exact (congrArg Session.Ties.owner h.ties).symm
    rwa [howner'] at ht
  refine ⟨hguar, h.housed.of_guar hguar rfl (congrArg (·.2.2.1.2) hrim') (hothers _ h.host.symm)
    (hregistry.symm ▸ h.housed.host)
    (hregistry.symm ▸ h.housed.registry), ?_, h.notes, hsize.symm ▸ h.known, h.host, h.fresh,
    hself.symm ▸ hties, hself.symm ▸ htame, ?_⟩
  · rw [tally_of_rim hrim']
    exact h.accounts
  · change child ∈ s'.registry ↔ entered
    rw [hregistry]
    exact h.entered

/-! ## Making the session -/

theorem not_isHooked_default : ¬(default : Session).IsHooked := by
  rintro (h | h | h) <;> cases h

theorem hosts_newSession (name : String) (script : Option String) :
    b.Hosts (b.Keeps p) (newSession name script)
      (Fate.Returns fun child => b.Expecting p child ⟨none, false, none, none⟩ False) := by
  refine upholds_observe_step stable_books (fun child => stable_expecting) fun s r h _ => ?_
  let session := Session.new name script s.console.addMailbox.1 s.settings.escapeMode
  let s' : Shell :=
    { s with console := s.console.addMailbox.2, sessions := s.sessions.push session }
  have hself : s'.session s.sessions.size = session := by simp [s', Shell.session]
  have hothers : ∀ other, other ≠ s.sessions.size → s'.session other = s.session other :=
    fun other ho => by
    simp [s', Shell.session, Array.getElem?_push, ho]
  have hsize : s'.sessions.size = s.sessions.size + 1 := by simp [s']
  have hhost : b.host < s.sessions.size := h.housed.sound.known b.host h.housed.host
  have hfresh : s.sessions.size ∉ r.launched.map Child.session := fun hin => by
    obtain ⟨child, hchild, heq⟩ := List.mem_map.mp hin
    exact Nat.lt_irrefl _ (heq ▸ (h.housed.sound.children child hchild).1)
  have hregistry : s.sessions.size ∉ s.registry := fun hin =>
    Nat.lt_irrefl _ (h.housed.sound.known _ hin)
  have hguar : b.HostGuar (s, r) (s', r) := by
    refine hostGuar_of_session h.housed.sound hfresh rfl id (hsize ▸ Nat.le_succ _) hothers
      (fun t ht => ?_) (fun hh => ?_) fun heq => absurd heq (Nat.ne_of_gt hhost)
    · rw [hself] at ht
      cases ht
    · rw [session_of_size_le (Nat.le_refl _)] at hh
      exact (not_isHooked_default hh).elim
  have hnotes : b.observer.notes b.thread s s' r = r := notes_of_rim rfl
  have hties : (s'.session s.sessions.size).ties = ⟨none, false, none, none⟩ := by
    rw [hself]
    rfl
  have htame : (s'.session s.sessions.size).duty.IsTame s.sessions.size := by
    rw [hself]
    refine ⟨fun _ hmain => ?_, fun _ _ hin => ?_, fun _ hi => ?_⟩
    · cases hmain
    · cases hin
    · cases hi
  change b.HostGuar (s, r) (s', b.observer.notes b.thread s s' r) ∧
    b.Expecting p s.sessions.size _ False (s', b.observer.notes b.thread s s' r)
  rw [hnotes]
  refine ⟨hguar, h.housed.of_guar hguar rfl rfl (hothers _ (Nat.ne_of_lt hhost)) h.housed.host
    fun id hid => (h.housed.registry id hid).imp_right fun hin =>
      .inr (hin.resolve_left List.not_mem_nil),
    ?_, h.notes, hsize.symm ▸ Nat.lt_succ_self _, Nat.ne_of_gt hhost, hfresh, hties, htame,
    hregistry, False.elim⟩
  rw [tally_of_rim rfl]
  exact h.accounts

/-! ## The parts of its start -/

variable {hook : ExitHook}

theorem stable_expecting_and {q : Prop} :
    Stable b.HostRely fun γ => q ∧ b.Expecting p child ties entered γ :=
  fun γ γ' h hr => ⟨h.1, stable_expecting γ γ' h.2 hr⟩

theorem hosts_setMain {main : MainTask} (hmain : main.IsPlain) :
    b.Hosts (b.Expecting p child ⟨none, false, none, none⟩ entered) (setMain child main).run
      (Fate.Returns fun result γ => result = .ok () ∧
        b.Expecting p child ⟨none, false, none, none⟩ entered γ) := by
  refine upholds_observe_step stable_expecting (fun _ => stable_expecting_and) fun s r h _ => ?_
  have hlive : ¬(s.session child).disposed = true := by
    rw [show (s.session child).disposed = false from congrArg Session.Ties.disposed h.ties]
    exact Bool.false_ne_true
  dsimp only
  rw [if_neg hlive]
  obtain ⟨hguar, hnext⟩ := h.session _ (show s.rim = s.rim from rfl) id rfl
    (f := fun _ => { s.session child with main := some main }) h.ties rfl
    ⟨fun m hm => Option.some.inj hm ▸ hmain, h.tame.tasks, h.tame.hosts⟩ id
  exact ⟨hguar, rfl, hnext⟩

theorem hosts_putExitHook :
    b.Hosts (b.Expecting p child ⟨none, false, none, none⟩ entered) (putExitHook child hook).run
      (Fate.Returns fun result γ => result = .ok () ∧
        b.Expecting p child ⟨none, false, some hook, none⟩ entered γ) := by
  refine upholds_observe_step stable_expecting (fun _ => stable_expecting_and) fun s r h _ => ?_
  obtain ⟨hcode, hdisposed, hhook, howner⟩ := Session.Ties.mk.inj h.ties
  have hopen : ¬((s.session child).disposed = true ∨ (s.session child).exitCode.isSome = true) := by
    simp [hcode, hdisposed]
  have hfree : ¬(s.session child).exitHook.isSome = true := by simp [hhook]
  dsimp only
  rw [if_neg hopen, if_neg hfree]
  obtain ⟨hguar, hnext⟩ := h.session ⟨none, false, some hook, none⟩
    (show s.rim = s.rim from rfl) id rfl
    (f := fun _ => { s.session child with exitHook := some hook })
    (by simp [Session.ties, hcode, hdisposed, howner]) rfl
    ⟨h.tame.main, h.tame.tasks, h.tame.hosts⟩ fun _ => .inl rfl
  exact ⟨hguar, rfl, hnext⟩

theorem hosts_setExitHook :
    b.Hosts (b.Expecting p child ⟨none, false, none, none⟩ entered) (setExitHook child hook).run
      (Fate.Returns fun result γ => result = .ok () ∧
        b.Expecting p child ⟨none, false, some hook, none⟩ entered γ) := by
  refine Upholds.observe_bind hosts_putExitHook .refl fun result γ h => ?_
  obtain ⟨rfl, h⟩ := h
  exact upholds_observe_pure _ stable_expecting (fun _ h => ⟨rfl, h⟩) γ h

theorem Expecting.registry {entered' : Prop} (h : b.Expecting p child ties entered (s, r))
    (registry : Registry) (hnodup : registry.Nodup)
    (hhooked : child ∈ registry → (s.session child).IsHooked)
    (hothers : ∀ id, id ≠ child → (id ∈ registry ↔ id ∈ s.registry))
    (hentered : child ∈ registry ↔ entered') :
    let s' : Shell := { s with registry }
    b.HostGuar (s, r) (s', b.observer.notes b.thread s s' r) ∧
      b.Expecting p child ties entered' (s', b.observer.notes b.thread s s' r) := by
  intro s'
  have hnotes : b.observer.notes b.thread s s' r = r :=
    notes_of_quiet (by simp [newChildren, s']) (Nat.le_refl _) (Nat.le_refl _) ⟨rfl, rfl⟩
  have hhost : b.host ∈ registry := (hothers b.host h.host.symm).mpr h.housed.host
  have hsound := h.housed.sound
  rw [hnotes]
  have hguar : b.HostGuar (s, r) (s', r) := by
    refine hostGuar_of_registry (fun id hid => ?_) hnodup (fun id hid hne => ?_) (fun c hc => ?_)
      fun _ _ _ _ => hhost
    · by_cases hne : id = child
      · exact hne ▸ h.known
      · exact hsound.known id ((hothers id hne).mp hid)
    · by_cases hchild : id = child
      · subst hchild
        exact hhooked hid
      · exact hsound.hooked id ((hothers id hchild).mp hid) hne
    · exact hothers c.session fun heq => h.fresh (heq ▸ List.mem_map_of_mem hc)
  refine ⟨hguar, h.housed.of_guar hguar rfl rfl rfl hhost fun id hid => ?_, h.accounts,
    h.notes, h.known, h.host, h.fresh, h.ties, h.tame, hentered⟩
  by_cases hne : id = child
  · exact .inr (.inl (hne ▸ List.mem_singleton_self child))
  · exact h.housed.registry id ((hothers id hne).mp hid)

theorem hosts_enterRegistry :
    b.Hosts (b.Expecting p child ⟨none, false, some hook, none⟩ False) (enterRegistry child)
      (Fate.Returns fun _ => b.Expecting p child ⟨none, false, some hook, none⟩ True) := by
  refine upholds_observe_step stable_expecting (fun _ => stable_expecting) fun s r h _ => ?_
  have hnot : child ∉ s.registry := h.entered.mp
  refine h.registry (s.registry ++ [child]) ?_ (fun _ => ?_) (fun id hne => ?_) ?_
  · refine List.nodup_append.mpr ⟨h.housed.sound.registered, by simp, fun id hid id' hid' heq => ?_⟩
    exact hnot (List.mem_singleton.mp hid' ▸ heq ▸ hid)
  · exact .inl (by rw [show (s.session child).exitHook = some hook from
      congrArg Session.Ties.exitHook h.ties]; rfl)
  · simp [hne]
  · simp

theorem hosts_leaveRegistry :
    b.Hosts (b.Expecting p child ties True) (leaveRegistry child)
      (Fate.Returns fun _ => b.Expecting p child ties False) := by
  refine upholds_observe_step stable_expecting (fun _ => stable_expecting) fun s r h _ => ?_
  have hregistry : (s.registry.remove child).2 = s.registry.erase child := Registry.remove_snd
  have hnodup := h.housed.sound.registered
  refine h.registry (s.registry.remove child).2 ?_ (fun hin => ?_) (fun id hne => ?_) ?_
  · rw [hregistry]
    exact List.erase_sublist.nodup hnodup
  · rw [hregistry] at hin
    exact absurd hin hnodup.not_mem_erase
  · rw [hregistry]
    exact List.mem_erase_of_ne hne
  · rw [hregistry]
    exact iff_false_intro hnodup.not_mem_erase

/-! ## A child that cannot be started -/

theorem hosts_markDisposed {code : Option Int} {disposed : Bool} {hook? : Option ExitHook}
    {owner : Option ThreadId} :
    b.Hosts (b.Expecting p child ⟨code, disposed, hook?, owner⟩ entered) (markDisposed child)
      (Fate.Returns fun dropped? γ => dropped? = hook? ∧
        b.Expecting p child ⟨code, true, none, owner⟩ entered γ) := by
  refine upholds_observe_step stable_expecting (fun _ => stable_expecting_and) fun s r h _ => ?_
  obtain ⟨hcode, hdisposed, hhook, howner⟩ := Session.Ties.mk.inj h.ties
  obtain ⟨hrim, hsessions, hspares⟩ := frame_of_cancel s (s.session child).compiling
  obtain ⟨hguar, hnext⟩ := h.session ⟨code, true, none, owner⟩ hrim hspares hsessions
    (f := fun session => { session with
      disposed := true
      compiling := none
      interpreter := none
      main := none
      exitHook := none })
    (by simp [Session.ties, hcode, howner]) rfl
    ⟨fun _ hmain => (nomatch hmain), h.tame.tasks, fun _ hi => nomatch hi⟩ fun _ => .inr (.inr rfl)
  exact ⟨hguar, hhook, hnext⟩

theorem hosts_dropTasks :
    b.Hosts (b.Expecting p child ties entered) (dropTasks child)
      (Fate.Returns fun _ => b.Expecting p child ties entered) := by
  refine upholds_observe_step stable_expecting (fun _ => stable_expecting) fun s r h _ => ?_
  dsimp only
  rw [show (s.session child).tasks.foldl _ s = s from foldl_drop h.tame.tasks]
  exact h.session _ rfl id rfl h.ties rfl ⟨h.tame.main, by simp [Session.duty], h.tame.hosts⟩ id

theorem hosts_dropHook {label : String} :
    b.Hosts (b.Expecting { p with slack := p.slack + 1 } child ties entered)
      (dropHook? (some (.report b.channel label)))
      (Fate.Returns fun _ => b.Expecting p child ties entered) := by
  refine upholds_observe_step stable_expecting (fun _ => stable_expecting) fun s r h _ => ?_
  obtain ⟨hnotes, hguar, hhoused, haccounts⟩ := h.housed.dropSender h.accounts
  exact hnotes.symm ▸ ⟨hguar, hhoused, haccounts, h.notes, h.known, h.host, h.fresh, h.ties, h.tame,
    h.entered⟩

theorem hosts_disposal :
    b.Hosts (b.Expecting p child ties entered) (do
      cancelJobs child
      dropTasks child
      setCurrent child false
      release child) (Fate.Returns fun _ => b.Expecting p child ties entered) := by
  refine Upholds.observe_bind (hosts_of_still stable_expecting chore_cancelJobs fun _ =>
    trivial) .refl
    fun _ => Upholds.observe_bind hosts_dropTasks .refl fun _ => ?_
  exact Upholds.observe_bind
    (hosts_of_still stable_expecting (chore_setCurrent false) fun _ => trivial) .refl
    fun _ => hosts_of_still stable_expecting chore_release fun _ => trivial

theorem hosts_dispose {code : Option Int} {disposed : Bool} {owner : Option ThreadId}
    {label : String} :
    b.Hosts (b.Expecting { p with slack := p.slack + 1 } child
        ⟨code, disposed, some (.report b.channel label), owner⟩ entered) (dispose child)
      (Fate.Returns fun _ => b.Expecting p child ⟨code, true, none, owner⟩ entered) := by
  refine Upholds.observe_bind hosts_markDisposed .refl fun dropped? γ h => ?_
  obtain ⟨rfl, h⟩ := h
  exact Upholds.observe_bind hosts_dropHook .refl (fun _ => hosts_disposal) γ h

theorem hosts_dispose_again {code : Option Int} {disposed : Bool} {owner : Option ThreadId} :
    b.Hosts (b.Expecting p child ⟨code, disposed, none, owner⟩ entered) (dispose child)
      (Fate.Returns fun _ => b.Expecting p child ⟨code, true, none, owner⟩ entered) := by
  refine Upholds.observe_bind hosts_markDisposed .refl fun dropped? γ h => ?_
  obtain ⟨rfl, h⟩ := h
  exact hosts_disposal γ h

/-! ## The thread of a child -/

theorem notes_of_launch {name : ThreadName} :
    let s' := launch name (.session child .entering) s
    b.notes b.thread s s' r = { r with launched :=
      r.launched ++ [⟨child, s.threads.size, labelOf (s.session child).exitHook⟩] } := by
  intro s'
  have hchildren : newChildren s s' =
      [⟨child, s.threads.size, labelOf (s.session child).exitHook⟩] := by
    simp [newChildren, s', launch, Shell.session]
  have hcodes : newCodes b.channel s s' = [] := by simp [newCodes, codesAt, s', launch]
  have hended : newEndings s s' = [] := by simp [newEndings, endedCodes, s', launch]
  simp [notes, hchildren, hcodes, hended]

theorem Expecting.launch {name : ThreadName} {bc : BatchChild}
    (h : b.Expecting { p with slack := p.slack + 1 } child
      ⟨none, false, some (.report b.channel target), none⟩ True (s, r))
    (htargets : p.run.targets = target :: targets) (hbc : bc.session = child) :
    let s' := Shell.launch name (.session child .entering) s
    b.HostGuar (s, r) (s', b.observer.notes b.thread s s' r) ∧
      b.Books (p.withChild target targets bc) p.begun p.recorded
        (s', b.observer.notes b.thread s s' r) := by
  intro s'
  let c : Child := ⟨child, s.threads.size, target⟩
  have hhook : (s.session child).exitHook = some (.report b.channel target) :=
    congrArg Session.Ties.exitHook h.ties
  have hnotes : b.observer.notes b.thread s s' r = { r with launched := r.launched ++ [c] } := by
    refine notes_of_launch.trans ?_
    rw [hhook]
    rfl
  have hsound := h.housed.sound
  have hthread : s.threads.size ∉ r.launched.map Child.thread := fun hin => by
    obtain ⟨c', hc', heq⟩ := List.mem_map.mp hin
    exact Nat.lt_irrefl _ (heq ▸ (hsound.children c' hc').2.1)
  have hsize : s'.threads.size = s.threads.size + 1 := by simp [s', Shell.launch]
  rw [hnotes]
  have hkeeps : b.Sound (s', { r with launched := r.launched ++ [c] }) := by
    refine { hsound with
      owners := fun id t ht => hsize ▸ Nat.lt_succ_of_lt (hsound.owners id t ht)
      thread := hsize ▸ Nat.lt_succ_of_lt hsound.thread
      children := fun c' hc' => ?_
      sessions := ?_
      threads := ?_
      dropped := fun t ht => by
        rw [List.map_append]
        exact List.mem_append_left _ (hsound.dropped t ht)
      senders := ?_ }
    · rw [hsize]
      rcases List.mem_append.mp hc' with hc' | hc'
      · obtain ⟨hsession, hlt, hne⟩ := hsound.children c' hc'
        exact ⟨hsession, Nat.lt_succ_of_lt hlt, hne⟩
      · cases List.mem_singleton.mp hc'
        exact ⟨h.known, Nat.lt_succ_self _, h.host, Nat.ne_of_gt hsound.thread⟩
    · rw [List.map_append]
      exact List.nodup_append.mpr ⟨hsound.sessions, by simp, fun id hid id' hid' heq =>
        h.fresh ((show id = child from heq.trans (List.mem_singleton.mp hid')) ▸ hid)⟩
    · rw [List.map_append]
      exact List.nodup_append.mpr ⟨hsound.threads, by simp, fun t ht t' ht' heq =>
        hthread ((show t = s.threads.size from heq.trans (List.mem_singleton.mp ht')) ▸ ht)⟩
    · have hslack : r.launched.length + (p.slack + 1) ≤ sendersAt b.channel s + r.dropped.length :=
        h.accounts.slack
      change (r.launched ++ [c]).length ≤ sendersAt b.channel s + r.dropped.length
      rw [List.length_append, List.length_singleton]
      omega
  have hsent : r.sent.filter (·.1 = c.thread) = [] := by
    simp only [List.filter_eq_nil_iff, decide_eq_true_eq]
    intro x hx heq
    rcases h.accounts.senders x hx with hhost | hchild
    · exact Nat.ne_of_gt hsound.thread (heq.symm.trans hhost)
    · exact hthread ((show x.1 = s.threads.size from heq) ▸ hchild)
  have hview : Batch.view c (s', { r with launched := r.launched ++ [c] }) =
      Departure.view b.channel c none .running := by
    refine View.mk.injEq .. ▸ ⟨h.ties, eq_true (h.entered.mpr trivial), hsent, ?_⟩
    exact List.count_eq_zero.mpr fun hin => hthread (hsound.dropped _ hin)
  have hguar : b.HostGuar (s, r) (s', { r with launched := r.launched ++ [c] }) := by
    constructor
    case sound => exact fun _ => hkeeps
    case threads => exact hsize ▸ Nat.le_succ _
    case owners => exact fun _ _ ht => ht
    case view => exact fun _ _ => rfl
    case tame => exact fun _ _ ht => ht
    case size => exact Nat.le_refl _
    case hooked => exact fun _ hh => hh
    case host => exact fun _ _ _ hin => hin
    case joined =>
      exact .inr ⟨c, rfl, rfl, rfl, hkeeps, List.mem_append_right _ (List.mem_singleton_self c),
        h.tame,
        fun id ho => Nat.lt_irrefl _ (hsound.owners id _ ho), h.housed.host, hview⟩
  refine ⟨hguar, ⟨hkeeps, h.housed.live, h.housed.tame, h.housed.running, h.housed.host,
    fun id hid => ?_, fun c' hc' => ?_⟩,
    ?_, h.notes⟩
  · rw [List.map_append]
    rcases h.housed.registry id hid with hhost | hguest | hin
    · exact .inl hhost
    · exact .inr (.inr (List.mem_append_right _ (by simpa [c] using hguest)))
    · exact .inr (.inr (List.mem_append_left _ hin))
  · rcases List.mem_append.mp hc' with hc' | hc'
    · exact stands_of_view (hguar.view c' hc') (h.housed.stands c' hc')
    · cases List.mem_singleton.mp hc'
      exact ⟨.running, none, hview⟩
  · exact h.accounts.withChild htargets (show c.label = target from rfl) hbc

theorem hosts_startThread {bc : BatchChild} (htargets : p.run.targets = target :: targets)
    (hbc : bc.session = child) :
    b.Hosts (b.Expecting { p with slack := p.slack + 1 } child
        ⟨none, false, some (.report b.channel target), none⟩ True) (startThread child)
      (Fate.Returns fun started γ => if started then
          b.Books (p.withChild target targets bc) p.begun p.recorded γ
        else b.Expecting { p with slack := p.slack + 1 } child
          ⟨none, false, some (.report b.channel target), none⟩ True γ) := by
  refine upholds_observe_step stable_expecting (fun started => ?_) fun s r h _ => ?_
  · cases started with
    | true => exact stable_books
    | false => exact stable_expecting
  · by_cases hrefuses : s.refusesThreads = true
    · have hcalm : Calm (s, r) (s, b.observer.notes b.thread s s r) := calm_of_still (.refl s)
      rw [if_pos hrefuses]
      exact ⟨hostGuar_of_calm hcalm, stable_expecting _ _ h (hostRely_of_calm hcalm)⟩
    · rw [if_neg hrefuses]
      exact h.launch htargets hbc

/-- What there is of a child when it could not be started: it may be disposed of already. -/
def Stillborn (b : BatchSite) (p : Page) (child : SessionId) (target : String)
    (γ : Shell × BatchRecord) : Prop :=
  b.Expecting { p with slack := p.slack + 1 } child
      ⟨none, false, some (.report b.channel target), none⟩ False γ ∨
    b.Expecting p child ⟨none, true, none, none⟩ False γ

theorem stable_stillborn : Stable b.HostRely (b.Stillborn p child target) :=
  fun γ γ' h hr => h.imp (stable_expecting γ γ' · hr) (stable_expecting γ γ' · hr)

theorem hosts_setLanguage (language : Language) :
    b.Hosts (b.Expecting p child ties entered) (setLanguage child language).run
      (Fate.Returns fun _ => b.Expecting p child ties entered) := by
  refine upholds_observe_step stable_expecting (fun _ => stable_expecting) fun s r h _ => ?_
  dsimp only
  cases (s.session child).languageName? with
  | some name =>
    have hcalm : Calm (s, r) (s, b.observer.notes b.thread s s r) := calm_of_still (.refl s)
    exact ⟨hostGuar_of_calm hcalm, stable_expecting _ _ h (hostRely_of_calm hcalm)⟩
  | none =>
    exact h.session _ (f := fun _ => { s.session child with language := some language }) rfl
      id rfl h.ties
      rfl ⟨h.tame.main, h.tame.tasks, h.tame.hosts⟩ id

theorem still_pushBoot {id : SessionId} (language : Language) :
    Within Still (pushBoot id language) :=
  within_updateSession (fun _ => rfl) fun _ hx =>
    ⟨hx.main, fun hook code hin => (List.mem_cons.mp hin).elim (fun heq => nomatch heq)
      (hx.tasks hook code), hx.hosts⟩

theorem hosts_startWith (bc : BatchChild) (htargets : p.run.targets = target :: targets)
    (hbc : bc.session = child) (query : String) :
    b.Hosts (b.Expecting { p with slack := p.slack + 1 } child
        ⟨none, false, some (.report b.channel target), none⟩ False)
          (startWith child query false).run
      (Fate.Returns fun result γ => match result with
        | .ok () => b.Books (p.withChild target targets bc) p.begun p.recorded γ
        | .error _ => b.Stillborn p child target γ) := by
  have hthrow : ∀ e, b.Hosts (b.Stillborn p child target) (pure (.error e))
      (Fate.Returns fun result γ => match (result : Except ShellError Unit) with
        | .ok () => b.Books (p.withChild target targets bc) p.begun p.recorded γ
        | .error _ => b.Stillborn p child target γ) := fun e =>
    upholds_observe_pure _ stable_stillborn fun _ h => h
  refine Upholds.observe_run_bind
    (hosts_of_still stable_expecting chore_ensureLive neverCrashes_ensureLive)
    .refl (fun _ => ?_) fun e γ h => hthrow e γ (.inl h)
  refine Upholds.observe_lift_bind (hosts_of_still stable_expecting (chore_read _) fun _ =>
    trivial) .refl
    fun language? => ?_
  cases language? with
  | none => exact fun γ h => hthrow _ γ (.inl h)
  | some language =>
    refine Upholds.observe_run_bind (hosts_setLanguage language) .refl (fun _ => ?_)
      fun e γ h => hthrow e γ (.inl h)
    refine Upholds.observe_lift_bind
      (hosts_of_still stable_expecting (still_pushBoot language) fun _ => trivial) .refl fun _ => ?_
    refine Upholds.observe_lift_bind hosts_enterRegistry .refl fun _ => ?_
    refine Upholds.observe_lift_bind
      (hosts_of_still stable_expecting chore_drainFocus fun _ => trivial) .refl fun _ => ?_
    refine Upholds.observe_lift_bind
      (hosts_of_still stable_expecting chore_consoleStart fun _ _ _ => trivial) .refl fun _ => ?_
    refine Upholds.observe_lift_bind (hosts_startThread htargets hbc) .refl fun started => ?_
    cases started with
    | true => exact upholds_observe_pure _ stable_books fun _ h => h
    | false =>
      have hleave : b.Hosts (b.Expecting { p with slack := p.slack + 1 } child
          ⟨none, false, some (.report b.channel target), none⟩ True)
          (discard (leaveRegistry child : Checked Removal)).run (Fate.Returns fun result γ =>
            result = .ok () ∧ b.Expecting { p with slack := p.slack + 1 } child
              ⟨none, false, some (.report b.channel target), none⟩ False γ) := by
        exact Upholds.observe_lift_bind hosts_leaveRegistry .refl fun _ =>
          upholds_observe_pure _ stable_expecting fun _ h => ⟨rfl, h⟩
      refine Upholds.observe_run_bind hleave .refl (fun _ γ h => ?_) fun e γ h => ?_
      · exact Upholds.observe_lift_bind hosts_dispose .refl (fun _ γ h => hthrow _ γ (.inr h)) γ h.2
      · cases h.1

/-! ## Targets -/

variable {begun : List (String × Start)} {recorded : List (String × Int)}

theorem hosts_childMain (options : ForkOptions) :
    b.Hosts (b.Keeps p) (childMain options)
      (Fate.Returns fun main? γ => (∀ main, main? = some main → main.IsPlain) ∧ b.Keeps p γ) := by
  unfold childMain
  split
  · exact upholds_observe_pure _ stable_books fun _ h =>
      ⟨fun _ hm => Option.some.inj hm ▸ trivial, h⟩
  · refine Upholds.observe_bind (hosts_of_still stable_books (chore_read _) fun _ => trivial) .refl
      fun file? => ?_
    cases file? with
    | some file =>
      exact upholds_observe_pure _ stable_books fun _ h =>
        ⟨fun _ hm => Option.some.inj hm ▸ trivial, h⟩
    | none => exact upholds_observe_pure _ stable_books fun _ h => ⟨fun _ hm => (nomatch hm), h⟩

theorem hosts_dispose_stillborn :
    b.Hosts (b.Stillborn p child target) (dispose child) (Fate.Returns fun _ => b.Keeps p) := by
  rintro γ (h | h)
  · exact Upholds.mono hosts_dispose (fun _ _ h => h.unregistered) γ h
  · exact Upholds.mono hosts_dispose_again (fun _ _ h => h.unregistered) γ h

theorem hosts_forkWith {options : ForkOptions} {main : MainTask} (hmain : main.IsPlain)
    (htargets : p.run.targets = target :: targets)
    (hhook : childHook b.host options = some (.report b.channel target)) (interactive : Bool) :
    b.Hosts (b.Keeps { p with slack := p.slack + 1 }) (forkWith b.host options main).run
      (Fate.Returns fun result γ => match result with
        | .ok child =>
          b.Books (p.withChild target targets ⟨child, interactive⟩) p.begun p.recorded γ
        | .error _ => b.Keeps p γ) := by
  refine Upholds.observe_lift_bind (hosts_of_still stable_books (chore_read _) fun _ =>
    trivial) .refl
    fun language => ?_
  refine Upholds.observe_lift_bind (hosts_of_still stable_books (chore_read _) fun _ =>
    trivial) .refl
    fun parent => ?_
  refine Upholds.observe_lift_bind (hosts_newSession _ _) .refl fun child => ?_
  refine Upholds.observe_run_bind (hosts_setMain hmain) .refl (fun _ γ h => ?_) fun e γ h =>
    nomatch h.1
  rw [hhook]
  refine Upholds.observe_run_bind hosts_setExitHook .refl (fun _ γ h => ?_)
    (fun e γ h => nomatch h.1)
    γ h.2
  refine Upholds.observe_lift_bind
    (hosts_startWith ⟨child, interactive⟩ htargets rfl language) .refl (fun result => ?_) γ h.2
  cases result with
  | ok => exact upholds_observe_pure _ stable_books fun _ h => h
  | error e =>
    exact Upholds.observe_lift_bind hosts_dispose_stillborn .refl fun _ =>
      upholds_observe_pure _ stable_books fun _ h => h

theorem hosts_sendMissing (htargets : p.run.targets = target :: targets) :
    b.Hosts (b.Books p begun recorded) (update (modifyChannel b.channel fun c =>
        { c with queue := c.queue ++ [(target, ReservedCode.noFile.code)] }))
      (Fate.Returns fun _ => b.Books (p.withMissing target targets) begun recorded) := by
  refine upholds_observe_step stable_books (fun _ => stable_books) fun s r h _ => ?_
  let s' := modifyChannel b.channel (fun c =>
    { c with queue := c.queue ++ [(target, ReservedCode.noFile.code)] }) s
  have hcodes : codesAt b.channel s' = codesAt b.channel s ++
      [(target, ReservedCode.noFile.code)] :=
    codesAt_modifyChannel h.housed.sound.channel
  have hsenders : sendersAt b.channel s' = sendersAt b.channel s :=
    sendersAt_modifyChannel h.housed.sound.channel
  have hnotes : b.observer.notes b.thread s s' r =
      { r with sent := r.sent ++ [(b.thread, target, ReservedCode.noFile.code)] } := by
    refine (notes_of_channel [] hcodes (by simp)).trans ?_
    simp
  change b.HostGuar (s, r) (s', b.observer.notes b.thread s s' r) ∧
    b.Books (p.withMissing target targets) begun recorded (s', b.observer.notes b.thread s s' r)
  rw [hnotes]
  have hguar : b.HostGuar (s, r)
      (s', { r with sent := r.sent ++ [(b.thread, target, ReservedCode.noFile.code)] }) := by
    refine hostGuar_of_channel _ h.housed.sound rfl (by simp) ?_
    rw [show sendersAt b.channel _ = sendersAt b.channel s from hsenders]
    exact h.housed.sound.senders
  refine ⟨hguar, h.housed.of_guar hguar rfl rfl rfl h.housed.host h.housed.registry, ?_, h.notes⟩
  have haccounts := h.accounts.withMissing htargets
  have htally : b.tally (s', { r with
        sent := r.sent ++ [(b.thread, target, ReservedCode.noFile.code)] }) =
      { b.tally (s, r) with
        sent := r.sent ++ [(b.thread, target, ReservedCode.noFile.code)]
        queue := codesAt b.channel s ++ [(target, ReservedCode.noFile.code)] } := by
    simp only [tally, hcodes, hsenders]
    rfl
  rw [htally]
  exact haccounts

theorem hosts_fork {isScript : Bool} (htargets : p.run.targets = target :: targets) :
    b.Hosts (b.Keeps { p with slack := p.slack + 1 })
      (fork b.host (targetOptions target isScript (.report b.channel target))).run
      (Fate.Returns fun result γ => match result with
        | .ok (some child) =>
          b.Books (p.withChild target targets ⟨child, !isScript⟩) p.begun p.recorded γ
        | .ok none => b.Books (p.withMissing target targets) p.begun p.recorded γ
        | .error _ => b.Keeps p γ) := by
  have hhook : (targetOptions target isScript (.report b.channel target)).hook =
      some (.report b.channel target) := by cases isScript <;> rfl
  have hchild : childHook b.host (targetOptions target isScript (.report b.channel target)) =
      some (.report b.channel target) := by cases isScript <;> rfl
  refine Upholds.observe_lift_bind (R := fun session γ => session.disposed = false ∧
    b.Keeps { p with slack := p.slack + 1 } γ) ?_ HostRely.refl fun session γ h => ?_
  · exact hosts_read stable_books (fun _ => stable_and stable_const stable_books) fun γ h =>
      ⟨h.housed.live.2, h⟩
  obtain ⟨hlive, h⟩ := h
  rw [hlive]
  refine Upholds.observe_lift_bind (hosts_childMain _) .refl (fun main? γ h => ?_) γ h
  obtain ⟨hplain, h⟩ := h
  cases main? with
  | some main =>
    refine Upholds.observe_run_bind (hosts_forkWith (hplain main rfl) htargets hchild !isScript)
      .refl
      (fun child => ?_) (fun e => ?_) γ h
    · exact upholds_observe_pure _ stable_books fun _ h => h
    · exact upholds_observe_pure _ stable_books fun _ h => h
  | none =>
    refine Upholds.observe_lift_bind
      (hosts_of_still stable_books (chore_reportError _) fun _ _ => trivial) .refl (fun _ => ?_) γ h
    rw [hhook]
    refine Upholds.observe_lift_bind (Upholds.observe_bind
      (hosts_sendMissing (p := { p with slack := p.slack + 1 }) htargets) .refl fun _ =>
      hosts_dropSender (p := p.withMissing target targets)) .refl fun _ => ?_
    exact upholds_observe_pure _ stable_books fun _ h => h

theorem hosts_begin (start : Start) :
    Upholds b.HostRely b.HostGuar b.thread (b.Books p begun recorded)
      (Action.record (·.begin target start))
      (Fate.Returns fun _ => b.Books p (begun ++ [(target, start)]) recorded) :=
  hosts_record (fun _ => ⟨rfl, rfl, rfl⟩) fun r (h : r.books = _) =>
    show (r.begin target start).books = _ by
      rw [show (r.begin target start).books =
        ((r.books.1.1 ++ [(target, start)], r.books.1.2), r.books.2) from rfl, h]

theorem hosts_count (label : String) (code : Int) :
    Upholds b.HostRely b.HostGuar b.thread (b.Books p begun recorded)
      (Action.record (·.count label code))
      (Fate.Returns fun _ => b.Books p begun (recorded ++ [(label, code)])) :=
  hosts_record (fun _ => ⟨rfl, rfl, rfl⟩) fun r (h : r.books = _) =>
    show (r.count label code).books = _ by
      rw [show (r.count label code).books =
        ((r.books.1.1, r.books.1.2 ++ [(label, code)]), r.books.2) from rfl, h]

theorem neverCrashes_jumpTo {id : SessionId} (index : Nat) :
    NeverCrashes (jumpTo id index).run := by
  refine NeverCrashes.run_bind neverCrashes_ensureLive fun _ =>
    NeverCrashes.run_bind (fun _ _ => trivial) fun _ => NeverCrashes.run_bind (fun _ => trivial)
      fun target? => ?_
  cases target? with
  | none => exact fun _ _ _ => trivial
  | some target =>
    refine NeverCrashes.run_bind (fun _ => trivial) fun other => ?_
    split
    · exact fun _ _ => trivial
    · split
      · exact fun _ _ => trivial
      · exact fun _ _ _ => trivial

theorem hosts_recordNoted {run : BatchRun} {label : String} {code : Int} :
    Upholds b.HostRely b.HostGuar b.thread (b.Books p begun recorded) (b.recordNoted run label code)
      (Fate.Returns fun run' γ => run' = { run with code := fold p.lastCode run.code code } ∧
        b.Books p begun (recorded ++ [(label, code)]) γ) := by
  refine Upholds.bind (hosts_count label code) .refl fun _ => ?_
  refine Upholds.observe_bind (R := fun settings γ => settings.batch.lastCode = p.lastCode ∧
    b.Books p begun (recorded ++ [(label, code)]) γ) ?_ HostRely.refl fun settings γ h => ?_
  · exact hosts_read stable_books (fun _ => stable_and stable_const stable_books) fun γ h =>
      ⟨h.accounts.lastCode, h⟩
  obtain ⟨hlast, h⟩ := h
  have hdone : b.Hosts (b.Books p begun (recorded ++ [(label, code)]))
      (pure { run with code := fold settings.batch.lastCode run.code code })
      (Fate.Returns fun run' γ => run' = { run with code := fold p.lastCode run.code code } ∧
        b.Books p begun (recorded ++ [(label, code)]) γ) :=
    upholds_observe_pure _ stable_books fun _ h => ⟨by rw [hlast], h⟩
  cases settings.batch.messages with
  | false => exact hdone γ h
  | true =>
    exact Upholds.observe_bind
      (hosts_of_still stable_books (chore_sayLine _) (neverCrashes_sayLine _)) .refl
      (fun _ => hdone) γ h

/-! ## Starting a target -/

theorem neverCrashes_giveFocus (host child : SessionId) : NeverCrashes (giveFocus host child) := by
  refine NeverCrashes.bind (fun _ => trivial) fun session => ?_
  cases session.current with
  | false => trivial
  | true =>
    refine NeverCrashes.bind (fun _ => trivial) fun index? => ?_
    cases index? with
    | none => trivial
    | some index => exact NeverCrashes.bind (neverCrashes_jumpTo index) fun _ => trivial

theorem hosts_startTargetNoted (htargets : p.run.targets = target :: targets)
    (hchannel : p.run.channel = b.channel) :
    Upholds b.HostRely b.HostGuar b.thread (b.Keeps p)
      (b.startTargetNoted { p.run with targets } target)
      (Fate.Returns fun run γ => ∃ p' : Page, p'.run = run ∧ p'.slack = p.slack ∧ p'.held = p.held ∧
        b.Keeps p' γ) := by
  refine Upholds.bind (R := fun _ => b.Keeps { p with slack := p.slack + 1 }) ?_ .refl fun _ => ?_
  · rw [hchannel]
    exact hosts_addSender
  refine Upholds.bind (hosts_of_still stable_books (chore_read _) fun _ => trivial) .refl
    fun isScript => ?_
  refine Upholds.bind (R := fun result γ => match result with
    | .ok (some child) =>
      b.Books (p.withChild target targets ⟨child, !isScript⟩) p.begun p.recorded γ
    | .ok none => b.Books (p.withMissing target targets) p.begun p.recorded γ
    | .error _ => b.Keeps p γ) ?_ .refl fun result => ?_
  · rw [hchannel]
    exact hosts_fork htargets
  cases result with
  | ok child? =>
    cases child? with
    | none =>
      refine Upholds.bind (hosts_begin .missing) .refl fun _ => ?_
      exact upholds_pure _ stable_books fun _ h => ⟨p.withMissing target targets, rfl, rfl, rfl, h⟩
    | some child =>
      refine Upholds.bind (hosts_begin (.child child)) .refl fun _ => ?_
      have hdone : Upholds b.HostRely b.HostGuar b.thread
          (b.Keeps (p.withChild target targets ⟨child, !isScript⟩))
          (pure (p.withChild target targets ⟨child, !isScript⟩).run)
          (Fate.Returns fun run γ => ∃ p' : Page, p'.run = run ∧ p'.slack = p.slack ∧
            p'.held = p.held ∧ b.Keeps p' γ) :=
        upholds_pure _ stable_books fun _ h => ⟨_, rfl, rfl, rfl, h⟩
      cases isScript with
      | true => exact hdone
      | false =>
        exact Upholds.bind (hosts_of_still stable_books (chore_giveFocus _)
          (neverCrashes_giveFocus _ _)) .refl fun _ => hdone
  | error e =>
    refine fun γ h => Upholds.bind (P := b.Books (p.withRefused target targets) p.begun p.recorded)
      (hosts_begin .refused) .refl
      (fun _ => ?_) γ ⟨h.housed, h.accounts.withRefused htargets, h.notes⟩
    refine Upholds.bind (hosts_of_still stable_books (chore_reportError _) fun _ _ => trivial) .refl
      fun _ => ?_
    exact Upholds.mono hosts_recordNoted fun run γ h =>
      ⟨p.withRefused target targets, h.1.symm, rfl, rfl, h.2⟩

end BatchSite

end SessionShell
