import SessionShell.Proofs.Batch.Collecting

/-!
How a batch comes to its end, and its host with it.

When its children are gone, the host is the only session left. So its exit is the one that ends the
shell, with the code of the batch.
-/

namespace SessionShell

open Action Shell Batch

namespace Batch

structure Farewell where
  exitCode : Option Int
  disposed : Bool
  registered : Bool
  ended : Option Int
  endings : List (ThreadId × Int)
  closed : Bool
  deriving DecidableEq, Repr

namespace Farewell

def awaited : Farewell :=
  ⟨none, false, true, none, [], false⟩

def coded (code : Int) : Farewell :=
  { awaited with exitCode := some code }

def left (code : Int) : Farewell :=
  { coded code with registered := false }

def gone (code : Int) : Farewell :=
  { left code with disposed := true }

def told (thread : ThreadId) (code : Int) (ended : Option Int) : Farewell :=
  { gone code with ended, endings := [(thread, code)] }

def shut (thread : ThreadId) (code : Int) : Farewell :=
  { told thread code none with closed := true }

end Farewell

end Batch

namespace BatchSite

variable {b : BatchSite} {γ γ' : Shell × BatchRecord} {s s' : Shell} {r r' : BatchRecord}
  {p : Page} {e e' : Batch.Farewell} {α β ε : Type}

def farewell (b : BatchSite) (γ : Shell × BatchRecord) : Batch.Farewell where
  exitCode := (γ.1.session b.host).exitCode
  disposed := (γ.1.session b.host).disposed
  registered := decide (b.host ∈ γ.1.registry)
  ended := γ.1.ended
  endings := γ.2.endings
  closed := γ.2.closed

/-- The batch has returned with its host alive, and all its children are gone. -/
structure Ending (b : BatchSite) (p : Page) (e : Batch.Farewell) (γ : Shell × BatchRecord) :
    Prop where
  sound : b.Sound γ
  known : b.host < γ.1.sessions.size
  tame : (γ.1.session b.host).duty.IsTame b.host
  accounts : b.Accounts p (b.tally γ)
  targets : p.run.targets = []
  pending : p.run.pending = 0
  held : p.held = []
  stands : ∀ c ∈ γ.2.launched, Stands b.channel c γ
  deserted : Deserted γ
  registry : ∀ id ∈ γ.1.registry, id = b.host
  notes : (γ.2.begun, γ.2.recorded, γ.2.returned) = (p.begun, p.recorded, some p.run.code)
  farewell : b.farewell γ = e
  /-- Nobody but the host has ended the shell, and it has done so just once. -/
  once : e.endings = [] ∧ e.ended = none ∧ e.closed = false ∨
    e.endings = [(b.thread, p.run.code)] ∧ ∀ code, e.ended = some code → code = p.run.code

def Final (b : BatchSite) (γ : Shell × BatchRecord) : Prop :=
  ∀ code, γ.2.returned = some code → ∃ p e, p.run.code = code ∧ b.Ending p e γ

theorem Ending.final (h : b.Ending p e γ) : b.Final γ := by
  intro code hcode
  have hreturned : γ.2.returned = some p.run.code := congrArg (·.2.2) h.notes
  exact ⟨p, e, Option.some.inj (hreturned.symm.trans hcode), h⟩

theorem farewell_of_rely (hsound : b.Sound γ) (hr : b.HostRely γ γ') :
    b.farewell γ' = b.farewell γ := by
  have hregistered : b.host ∈ γ'.1.registry ↔ b.host ∈ γ.1.registry :=
    ⟨fun hin => hr.registry.subset hin, fun hin => hr.registered _ hin (host_not_launched hsound)⟩
  have hendings : γ'.2.endings = γ.2.endings := congrArg (·.2.2.2) hr.books
  have hclosed : γ'.2.closed = γ.2.closed := congrArg (·.2.2.1) hr.books
  simp only [BatchSite.farewell, hr.host.1, hr.host.2, hregistered, hr.ended, hendings, hclosed]

theorem Ending.of_rely (h : b.Ending p e γ) (hr : b.HostRely γ γ') : b.Ending p e γ' := by
  have hbegun : γ'.2.begun = γ.2.begun := congrArg (·.1.1) hr.books
  have hrecorded : γ'.2.recorded = γ.2.recorded := congrArg (·.1.2) hr.books
  have hreturned : γ'.2.returned = γ.2.returned := congrArg (·.2.1) hr.books
  exact {
    sound := hr.sound h.sound
    known := hr.size.symm ▸ h.known
    tame := hr.tame _ h.tame
    accounts := h.accounts.of_rely h.sound hr
    targets := h.targets
    pending := h.pending
    held := h.held
    stands := fun c hc => hr.stands h.sound c (hr.launched ▸ hc) (h.stands c (hr.launched ▸ hc))
    deserted := stable_deserted γ γ' h.deserted hr
    registry := fun id hid => h.registry id (hr.registry.subset hid)
    notes := by rw [hbegun, hrecorded, hreturned, h.notes]
    farewell := (farewell_of_rely h.sound hr).trans h.farewell
    once := h.once }

theorem stable_ending : Stable b.HostRely (b.Ending p e) :=
  fun _ _ h hr => h.of_rely hr

theorem Final.of_rely (h : b.Final γ) (hr : b.HostRely γ γ') : b.Final γ' := by
  intro code hcode
  have hreturned : γ'.2.returned = γ.2.returned := congrArg (·.2.1) hr.books
  obtain ⟨p, e, hp, hending⟩ := h code (hreturned ▸ hcode)
  exact ⟨p, e, hp, hending.of_rely hr⟩

/-- What the thread of the host guarantees: also that all is as it has to be when the batch has
returned. -/
def Leads (b : BatchSite) (γ γ' : Shell × BatchRecord) : Prop :=
  b.HostGuar γ γ' ∧ (b.Final γ → b.Final γ')

theorem Ending.leads (h : b.Ending p e γ') (hg : b.HostGuar γ γ') : b.Leads γ γ' :=
  ⟨hg, fun _ => h.final⟩

/-! ## As long as the batch has not returned -/

def Spares (γ γ' : Shell × BatchRecord) : Prop :=
  γ'.2.returned = γ.2.returned

theorem spares_observe (p : Action Shell α) : Within Spares (b.observe p) := by
  induction p with
  | done a => trivial
  | crash => trivial
  | ask act next ih =>
    refine ⟨fun me γ answer γ' hact => ?_, ih⟩
    obtain ⟨s', -, -, rfl⟩ := Observer.run_act hact
    rfl

theorem spares_recordNoted (run : BatchRun) (label : String) (code : Int) :
    Within Spares (b.recordNoted run label code) :=
  Within.bind (within_update fun _ => rfl) fun _ => spares_observe _

theorem spares_recordAllNoted (run : BatchRun) (codes : List (String × Int)) :
    Within Spares (b.recordAllNoted run codes) := by
  induction codes generalizing run with
  | nil => exact within_pure _
  | cons x codes ih => exact Within.bind (spares_recordNoted run x.1 x.2) fun run => ih run

theorem spares_startTargetNoted (run : BatchRun) (target : String) :
    Within Spares (b.startTargetNoted run target) := by
  refine Within.bind (spares_observe _) fun _ => Within.bind (spares_observe _) fun isScript =>
    Within.bind (spares_observe _) fun result => ?_
  cases result with
  | error e =>
    exact Within.bind (within_update fun _ => rfl) fun _ => Within.bind (spares_observe _) fun _ =>
      spares_recordNoted _ _ _
  | ok child? =>
    cases child? with
    | none => exact Within.bind (within_update fun _ => rfl) fun _ => within_pure _
    | some child =>
      refine Within.bind (within_update fun _ => rfl) fun _ => ?_
      cases isScript with
      | true => exact within_pure _
      | false => exact Within.bind (spares_observe _) fun _ => within_pure _

theorem spares_nextTargetNoted (run : BatchRun) : Within Spares (b.nextTargetNoted run) := by
  obtain ⟨targets, channel, pending, code, children⟩ := run
  cases targets with
  | nil => exact spares_observe _
  | cons target targets =>
    refine Within.bind (spares_observe _) fun live => ?_
    cases live with
    | false => exact spares_observe _
    | true =>
      exact Within.bind (spares_startTargetNoted _ target) fun _ =>
        Within.bind (spares_observe _) fun _ => within_pure _

theorem spares_collectNoted (run : BatchRun) (last : Bool) :
    Within Spares (b.collectNoted run last) := by
  unfold collectNoted
  split
  · exact within_pure _
  refine Within.bind (spares_observe _) fun received => ?_
  cases received with
  | code label code => exact Within.bind (spares_recordNoted _ label code) fun _ => within_pure _
  | closed => exact within_pure _
  | nothing =>
    refine Within.bind (spares_observe _) fun hostLive =>
      Within.bind (spares_observe _) fun childLive => ?_
    cases hostLive && childLive with
    | true => exact Within.bind (spares_observe _) fun _ => within_pure _
    | false =>
      exact Within.bind (spares_observe _) fun codes =>
        Within.bind (spares_recordAllNoted run codes) fun _ => within_pure _

theorem leads_of_spares {P : Shell × BatchRecord → Prop} {q : Action (Shell × BatchRecord) α}
    {Q : Fate α → Shell × BatchRecord → Prop} (h : Upholds b.HostRely b.HostGuar b.thread P q Q)
    (hq : Within Spares q) (hP : ∀ γ, P γ → γ.2.returned = none) :
    Upholds b.HostRely b.Leads b.thread P q Q := by
  intro γ hγ
  have hsafe := (h γ hγ).and_within (K := fun γ => γ.2.returned = none) hq
    (fun γ γ' hnone hr => (congrArg (·.2.1) hr.books : γ'.2.returned = γ.2.returned).trans hnone)
    (fun γ γ' hnone hspares => (show γ'.2.returned = γ.2.returned from hspares).trans hnone)
    (hP γ hγ)
  refine hsafe.guar_mono fun γ γ' hg => ⟨hg.1, fun _ code hcode => ?_⟩
  exact absurd (hg.2.2.symm.trans hcode) (Option.some_ne_none code).symm

/-! ## The exit of the host -/

abbrev Exits (b : BatchSite) (P : Shell × BatchRecord → Prop) (q : Action Shell α)
    (Q : Fate α → Shell × BatchRecord → Prop) : Prop :=
  Upholds b.HostRely b.Leads b.thread P (b.observe q) Q

theorem Ending.of_guar (h : b.Ending p e γ) (hg : b.HostGuar γ γ')
    (hlaunched : γ'.2.launched = γ.2.launched) (htally : b.tally γ' = b.tally γ)
    (hregistry : ∀ id ∈ γ'.1.registry, id ∈ γ.1.registry)
    (htame : (γ'.1.session b.host).duty.IsTame b.host)
    (hnotes : (γ'.2.begun, γ'.2.recorded, γ'.2.returned) = (γ.2.begun, γ.2.recorded, γ.2.returned))
    (hfarewell : b.farewell γ' = e')
    (honce : e'.endings = [] ∧ e'.ended = none ∧ e'.closed = false ∨
      e'.endings = [(b.thread, p.run.code)] ∧ ∀ code, e'.ended = some code → code = p.run.code) :
    b.Ending p e' γ' where
  sound := hg.sound h.sound
  known := Nat.lt_of_lt_of_le h.known hg.size
  tame := htame
  accounts := htally.symm ▸ h.accounts
  targets := h.targets
  pending := h.pending
  held := h.held
  stands c hc := stands_of_view (hg.view c (hlaunched ▸ hc)) (h.stands c (hlaunched ▸ hc))
  deserted c hc := by
    have hview := congrArg (fun v : View => v.ties.disposed) (hg.view c (hlaunched ▸ hc))
    exact hview.trans (h.deserted c (hlaunched ▸ hc))
  registry id hid := h.registry id (hregistry id hid)
  notes := hnotes.trans h.notes
  farewell := hfarewell
  once := honce

theorem Ending.still (h : b.Ending p e (s, r)) (hstill : Still s s') :
    b.Leads (s, r) (s', b.observer.notes b.thread s s' r) ∧
      b.Ending p e (s', b.observer.notes b.thread s s' r) := by
  have hcalm : Calm (s, r) (s', b.observer.notes b.thread s s' r) := calm_of_still hstill
  have h' := h.of_rely (hostRely_of_calm hcalm)
  exact ⟨h'.leads (hostGuar_of_calm hcalm), h'⟩

theorem exits_of_still {q : Action Shell α} (hq : Within Still q) (hcrash : NeverCrashes q) :
    b.Exits (b.Ending p e) q (Fate.Returns fun _ => b.Ending p e) :=
  upholds_of_within stable_ending (fun _ _ _ h hstill => h.still hstill) hq hcrash

theorem Ending.session {f : Session → Session} (h : b.Ending p e (s, r)) (s₁ : Shell)
    (e' : Batch.Farewell) (hrim : s₁.rim = s.rim) (hspares : s.SparesSessions → s₁.SparesSessions)
    (hsessions : s₁.sessions = s.sessions)
    (howner : (f (s.session b.host)).owner = (s.session b.host).owner)
    (hhook : (f (s.session b.host)).exitHook = none)
    (htame : (f (s.session b.host)).duty.IsTame b.host) (hhooked : (f (s.session b.host)).IsHooked)
    (hfarewell : { e with
      exitCode := (f (s.session b.host)).exitCode
      disposed := (f (s.session b.host)).disposed } = e') :
    let s' := modifySession b.host f s₁
    b.Leads (s, r) (s', b.observer.notes b.thread s s' r) ∧
      b.Ending p e' (s', b.observer.notes b.thread s s' r) := by
  intro s'
  have hsame : ∀ id, s₁.session id = s.session id := fun id => by
    rw [Shell.session, hsessions, Shell.session]
  have hself : s'.session b.host = f (s.session b.host) := by
    rw [session_modifySession_self f (hsessions ▸ h.known), hsame]
  have hothers : ∀ id, id ≠ b.host → s'.session id = s.session id := fun id hid =>
    (session_modifySession_of_ne f hid).trans (hsame id)
  have hrim' : s'.rim = s.rim := hrim
  have hnotes : b.observer.notes b.thread s s' r = r := notes_of_rim hrim'
  have hguar : b.HostGuar (s, r) (s', r) := by
    refine hostGuar_of_session h.sound (host_not_launched h.sound) hrim' hspares ?_ hothers ?_ ?_ ?_
    · exact Nat.le_of_eq (by rw [size_modifySession, hsessions])
    · exact fun t ht => by rwa [hself, howner] at ht
    · exact fun _ => hself ▸ hhooked
    · exact fun _ hook hin => by
        rw [hself, hhook] at hin
        cases hin
  rw [hnotes]
  have h' : b.Ending p e' (s', r) := by
    refine h.of_guar hguar rfl (tally_of_rim hrim') ?_ (hself ▸ htame) rfl ?_ ?_
    · exact fun id hid => (show s'.registry = s.registry from congrArg (·.1.1) hrim') ▸ hid
    · have hregistry : s'.registry = s.registry := congrArg (·.1.1) hrim'
      have hended : s'.ended = s.ended := congrArg (·.2.2.1.2) hrim'
      rw [← hfarewell, ← h.farewell]
      simp only [BatchSite.farewell, hself, hregistry, hended]
    · rw [← hfarewell]
      exact h.once
  exact ⟨h'.leads hguar, h'⟩

theorem exits_recordCode :
    b.Exits (b.Ending p .awaited) (recordCode b.host p.run.code).run (Fate.Returns fun hook? γ =>
      ∃ hook : Option ExitHook, hook? = .ok hook ∧ (∀ x, hook = some x → x.IsQuiet) ∧
        b.Ending p (.coded p.run.code) γ) := by
  refine upholds_observe_step stable_ending (fun hook? γ γ' h hr => ?_) fun s r h _ => ?_
  · obtain ⟨hook, hhook, hquiet, h⟩ := h
    exact ⟨hook, hhook, hquiet, h.of_rely hr⟩
  have hcode : (s.session b.host).exitCode = none := congrArg Farewell.exitCode h.farewell
  have hdisposed : (s.session b.host).disposed = false := congrArg Farewell.disposed h.farewell
  have hopen : ¬((s.session b.host).disposed = true ∨
      (s.session b.host).exitCode.isSome = true) := by
    simp [hcode, hdisposed]
  have hstep := h.session s (.coded p.run.code)
    (f := fun session => { session with exitCode := some p.run.code, exitHook := none })
    rfl id rfl rfl rfl ⟨h.tame.main, h.tame.tasks, h.tame.hosts⟩ (.inr (.inl rfl))
    (by rw [hdisposed]; rfl)
  dsimp only
  rw [if_neg hopen]
  exact ⟨hstep.1, _, rfl, h.sound.quiet, hstep.2⟩

theorem still_runHook {hook : ExitHook} (h : hook.IsQuiet) (code : Int) :
    Within Still (runHook code hook) := by
  induction hook with
  | nothing => exact within_pure _
  | note tag crashes =>
    refine Within.bind chore_currentThread fun thread => Within.bind (chore_note rfl) fun _ => ?_
    cases crashes with
    | true => trivial
    | false => exact within_pure _
  | wake latch first ih =>
    refine Within.bind (chore_step fun _ => rfl) fun _ =>
      Within.bind (ih h).attempt fun result? =>
      Within.bind (chore_step fun _ => rfl) fun _ => ?_
    cases result? with
    | none => trivial
    | some => exact within_pure _
  | report channel label => exact h.elim
  | inParent parent hook => exact h.elim

theorem frame_dropHook {hook : ExitHook} (h : hook.IsQuiet) (s : Shell) :
    (dropHook hook s).frame = s.frame := by
  induction hook generalizing s with
  | nothing => rfl
  | note => rfl
  | wake latch first ih => exact (show (dropHook first s).frame = s.frame from ih h s)
  | report channel label => exact h.elim
  | inParent parent hook => exact h.elim

theorem eq_singleton_of_nodup {registry : Registry} {id : SessionId} (hnodup : registry.Nodup)
    (hin : id ∈ registry) (hall : ∀ other ∈ registry, other = id) : registry = [id] := by
  have hsame : registry = List.replicate registry.length id := List.eq_replicate_of_mem hall
  have hle : registry.length ≤ 1 := by
    rw [hsame] at hnodup
    exact List.nodup_replicate.mp hnodup
  have hpos : 0 < registry.length := List.length_pos_of_mem hin
  rw [hsame, Nat.le_antisymm hle hpos]
  rfl

theorem exits_leaveRegistry {code : Int} :
    b.Exits (b.Ending p (.coded code)) (leaveRegistry b.host)
      (Fate.Returns fun removal γ => removal = .last ∧ b.Ending p (.left code) γ) := by
  refine upholds_observe_step stable_ending (fun _ => stable_and stable_const stable_ending)
    fun s r h _ => ?_
  have hin : b.host ∈ s.registry := of_decide_eq_true (congrArg Farewell.registered h.farewell)
  have halone : s.registry = [b.host] := eq_singleton_of_nodup h.sound.registered hin h.registry
  have hremove : s.registry.remove b.host = (.last, []) := by
    simp [halone, Registry.remove, Registry.indexOf?]
  dsimp only
  rw [hremove]
  have hguar : b.HostGuar (s, r) ({ s with registry := [] }, r) := by
    refine hostGuar_of_registry (by simp) .nil (by simp) (fun c hc => ?_) fun c hc hlive _ => ?_
    · have hne : c.session ≠ b.host := (h.sound.children c hc).2.2.1
      rw [halone]
      simpa using hne
    · exact absurd (h.deserted c hc) (Bool.eq_false_iff.mp hlive)
  have hnotes : b.observer.notes b.thread s { s with registry := [] } r = r :=
    notes_of_quiet (by simp [newChildren]) (Nat.le_refl _) (Nat.le_refl _) ⟨rfl, rfl⟩
  rw [hnotes]
  have h' : b.Ending p (.left code) ({ s with registry := [] }, r) := by
    refine h.of_guar hguar rfl rfl (by simp) h.tame rfl ?_ (.inl ⟨rfl, rfl, rfl⟩)
    obtain ⟨hcode, hdisposed, -, hended, hendings, hclosed⟩ := Farewell.mk.inj h.farewell
    exact Farewell.mk.injEq .. ▸ ⟨hcode, hdisposed, rfl, hended, hendings, hclosed⟩
  exact ⟨h'.leads hguar, rfl, h'⟩

theorem exits_leave {hook? : Option ExitHook} {code : Int}
    (hquiet : ∀ hook, hook? = some hook → hook.IsQuiet) :
    b.Exits (b.Ending p (.coded code)) (leave b.host code hook? true)
      (Fate.Returns fun wasLast γ => wasLast = true ∧ b.Ending p (.left code) γ) := by
  have hleave : b.Exits (b.Ending p (.coded code)) (leave b.host code none true)
      (Fate.Returns fun wasLast γ => wasLast = true ∧ b.Ending p (.left code) γ) := by
    refine Upholds.observe_bind (exits_of_still chore_loseFocus fun _ => trivial) .refl fun _ => ?_
    refine Upholds.observe_bind exits_leaveRegistry .refl fun removal γ h => ?_
    obtain ⟨rfl, h⟩ := h
    exact upholds_observe_pure _ stable_ending (fun _ h => ⟨rfl, h⟩) γ h
  cases hook? with
  | none => exact hleave
  | some hook =>
    have hreport : b.Exits (b.Ending p (.coded code)) (discard (runHook code hook).attempt)
        (Fate.Returns fun _ => b.Ending p (.coded code)) :=
      exits_of_still (still_runHook (hquiet hook rfl) code).attempt.discard
        ((neverCrashes_attempt _).bind fun _ => trivial)
    exact Upholds.observe_bind hreport .refl fun _ => hleave

theorem exits_markDisposed {code : Int} :
    b.Exits (b.Ending p (.left code)) (markDisposed b.host) (Fate.Returns fun hook? γ =>
      (∀ hook, hook? = some hook → hook.IsQuiet) ∧ b.Ending p (.gone code) γ) := by
  refine upholds_observe_step stable_ending (fun _ => stable_and stable_const stable_ending)
    fun s r h _ => ?_
  obtain ⟨hrim, hsessions, hspares⟩ := frame_of_cancel s (s.session b.host).compiling
  have hcode : (s.session b.host).exitCode = some code := congrArg Farewell.exitCode h.farewell
  have hstep := h.session _ (.gone code)
    (f := fun session => { session with
      disposed := true
      compiling := none
      interpreter := none
      main := none
      exitHook := none }) hrim hspares hsessions rfl rfl
    ⟨fun _ hmain => (nomatch hmain), h.tame.tasks, fun _ hi => nomatch hi⟩ (.inr (.inr rfl))
    (by rw [hcode]; rfl)
  exact ⟨hstep.1, h.sound.quiet, hstep.2⟩

theorem exits_dropTasks : b.Exits (b.Ending p e) (dropTasks b.host)
    (Fate.Returns fun _ => b.Ending p e) := by
  refine upholds_observe_step stable_ending (fun _ => stable_ending) fun s r h _ => h.still ?_
  dsimp only
  rw [show (s.session b.host).tasks.foldl _ s = s from foldl_drop h.tame.tasks]
  exact still_modifySession (by exact fun _ => rfl) fun ht =>
    ⟨ht.main, by simp [Session.duty], ht.hosts⟩

theorem exits_dispose {code : Int} :
    b.Exits (b.Ending p (.left code)) (dispose b.host)
      (Fate.Returns fun _ => b.Ending p (.gone code)) := by
  refine Upholds.observe_bind exits_markDisposed .refl fun hook? γ h => ?_
  obtain ⟨hquiet, h⟩ := h
  have hdrop : b.Exits (b.Ending p (.gone code)) (dropHook? hook?)
      (Fate.Returns fun _ => b.Ending p (.gone code)) := by
    cases hook? with
    | none => exact upholds_observe_pure _ stable_ending fun _ h => h
    | some hook =>
      exact exits_of_still (chore_step fun s => frame_dropHook (hquiet hook rfl) s) fun _ =>
        trivial
  refine Upholds.observe_bind hdrop .refl (fun _ => ?_) γ h
  refine Upholds.observe_bind (exits_of_still chore_cancelJobs fun _ => trivial) .refl fun _ => ?_
  refine Upholds.observe_bind exits_dropTasks .refl fun _ => ?_
  exact Upholds.observe_bind (exits_of_still (chore_setCurrent false) fun _ => trivial)
    .refl fun _ =>
    exits_of_still chore_release fun _ => trivial

/-! ## The end of the shell -/

theorem Ending.ends {ended : Option Int} (h : b.Ending p (.gone p.run.code) (s, r))
    (events : Array Event) (hcodes : newEndings s { s with ended, events } = [p.run.code])
    (hended : ∀ code, ended = some code → code = p.run.code) :
    let s' := { s with ended, events }
    b.Leads (s, r) (s', b.observer.notes b.thread s s' r) ∧
      b.Ending p (.told b.thread p.run.code ended) (s', b.observer.notes b.thread s s' r) := by
  intro s'
  have hendings : r.endings = [] := congrArg Farewell.endings h.farewell
  have hnotes : b.observer.notes b.thread s s' r =
      { r with endings := [(b.thread, p.run.code)] } := by
    have hsent : newCodes b.channel s s' = [] := by simp [newCodes, codesAt, s']
    have hchildren : newChildren s s' = [] := by simp [newChildren, s']
    change b.notes b.thread s s' r = _
    simp [BatchSite.notes, hsent, hchildren, hcodes, hendings, s']
  rw [hnotes]
  have hguar : b.HostGuar (s, r) (s', { r with endings := [(b.thread, p.run.code)] }) := by
    constructor
    case sound => exact fun hs => { hs with }
    case threads => exact Nat.le_refl _
    case owners => exact fun _ _ ho => ho
    case view => exact fun _ _ => rfl
    case tame => exact fun _ _ ht => ht
    case size => exact Nat.le_refl _
    case hooked => exact fun _ hid => hid
    case host => exact fun _ _ _ hin => hin
    case joined => exact .inl ⟨rfl, [], by simp [s'], by simp⟩
  have h' : b.Ending p (.told b.thread p.run.code ended)
      (s', { r with endings := [(b.thread, p.run.code)] }) := by
    refine h.of_guar hguar rfl rfl (fun _ hid => hid) h.tame rfl ?_ (.inr ⟨rfl, hended⟩)
    obtain ⟨hcode, hdisposed, hregistered, -, -, hclosed⟩ := Farewell.mk.inj h.farewell
    exact Farewell.mk.injEq .. ▸ ⟨hcode, hdisposed, hregistered, rfl, rfl, hclosed⟩
  exact ⟨h'.leads hguar, h'⟩

theorem neverCrashes_consoleSync : NeverCrashes consolePlace.sync :=
  fun _ _ _ _ _ _ => trivial

theorem exits_terminate :
    b.Exits (b.Ending p (.gone p.run.code)) (terminate p.run.code)
      (Fate.Returns fun _ => b.Ending p (.told b.thread p.run.code none)) := by
  refine Upholds.observe_bind (exits_of_still chore_consoleSync neverCrashes_consoleSync)
    .refl fun _ => ?_
  refine Upholds.observe_bind (exits_of_still (chore_read _) fun _ => trivial) .refl
    fun endsProcess => ?_
  cases endsProcess with
  | true =>
    refine Upholds.observe_bind
      (R := fun _ => b.Ending p (.told b.thread p.run.code (some p.run.code)))
      ?_ .refl fun _ => ?_
    · refine upholds_observe_step stable_ending (fun _ => stable_ending) fun s r h _ => ?_
      have hended : s.ended = none := congrArg Farewell.ended h.farewell
      exact h.ends s.events (by simp [newEndings, endedCodes, hended]) fun _ hc =>
        (Option.some.inj hc).symm
    · refine upholds_observe_await stable_ending (fun _ => stable_ending) fun s r a s' _ hact _ =>
        ?_
      cases hact
  | false =>
    refine upholds_observe_step stable_ending (fun _ => stable_ending) fun s r h _ => ?_
    have hended : s.ended = none := congrArg Farewell.ended h.farewell
    rw [← hended]
    exact h.ends (s.events.push (.ended p.run.code))
      (by simp [newEndings, endedCodes, Event.ended?]) fun _ hc => by
        rw [hended] at hc
        cases hc

theorem exits_finish :
    b.Exits (b.Ending p .awaited) (finish b.host p.run.code true true).run
      (Fate.Returns fun _ => b.Ending p (.told b.thread p.run.code none)) := by
  refine Upholds.observe_run_bind (R := fun hook? γ => ∃ hook : Option ExitHook, hook? = .ok hook ∧
    (∀ x, hook = some x → x.IsQuiet) ∧ b.Ending p (.coded p.run.code) γ) exits_recordCode .refl
    (fun hook? γ h => ?_) fun e γ h => ?_
  · obtain ⟨_, hok, hquiet, h⟩ := h
    cases hok
    refine Upholds.observe_lift_bind (exits_leave hquiet) .refl (fun wasLast γ h => ?_) γ h
    obtain ⟨rfl, h⟩ := h
    refine Upholds.observe_lift_bind exits_dispose .refl (fun _ => ?_) γ h
    exact Upholds.observe_bind exits_terminate .refl fun _ =>
      upholds_observe_pure _ stable_ending fun _ h => h
  · obtain ⟨_, herror, -⟩ := h
    cases herror

/-! ## Phases -/

theorem Books.finish (h : b.Keeps p (s, r)) (hdeserted : Deserted (s, r))
    (htargets : p.run.targets = []) (hpending : p.run.pending = 0) (hheld : p.held = []) :
    b.Ending p .awaited (s, r.finish p.run.code) := by
  have hguar : b.HostGuar (s, r) (s, r.finish p.run.code) := hostGuar_of_record rfl rfl rfl
  have hbegun : r.begun = p.begun := congrArg (·.1.1) h.notes
  have hrecorded : r.recorded = p.recorded := congrArg (·.1.2) h.notes
  have hclosed : r.closed = false := congrArg (·.2.2.1) h.notes
  have hendings : r.endings = [] := congrArg (·.2.2.2) h.notes
  exact {
    sound := hguar.sound h.housed.sound
    known := h.housed.sound.known b.host h.housed.host
    tame := h.housed.tame
    accounts := h.accounts
    targets := htargets
    pending := hpending
    held := hheld
    stands := fun c hc => stands_of_view (hguar.view c hc) (h.housed.stands c hc)
    deserted := hdeserted
    registry := fun id hid => by
      rcases h.housed.registry id hid with rfl | hguest | hchild
      · rfl
      · cases hguest
      · obtain ⟨c, hc, rfl⟩ := List.mem_map.mp hchild
        exact absurd hid (left_of_disposed (h.housed.stands c hc) (hdeserted c hc))
    notes := by simp only [BatchRecord.finish, hbegun, hrecorded]
    farewell :=
      Farewell.mk.injEq .. ▸ ⟨h.housed.live.1, h.housed.live.2, decide_eq_true h.housed.host,
      h.housed.running, hendings, hclosed⟩
    once := .inl ⟨rfl, rfl, rfl⟩ }

theorem returned_of_keeps (h : b.Keeps p γ) : γ.2.returned = none :=
  congrArg (·.2.1) h.notes

theorem leads_finishBatchNoted (htargets : p.run.targets = []) (hpending : p.run.pending = 0)
    (hheld : p.held = []) :
    Upholds b.HostRely b.Leads b.thread (fun γ => Deserted γ ∧ b.Keeps p γ)
      (b.finishBatchNoted p.run)
      (Fate.Returns fun phase γ => phase = .idle ∧ b.Ending p (.shut b.thread p.run.code) γ) := by
  have hstable : Stable b.HostRely fun γ => Deserted γ ∧ b.Keeps p γ :=
    stable_and stable_deserted stable_books
  have hlive : b.Hosts (fun γ => Deserted γ ∧ b.Keeps p γ) (isLive b.host)
      (Fate.Returns fun live γ => live = true ∧ Deserted γ ∧ b.Keeps p γ) :=
    hosts_read hstable (fun _ => stable_and stable_const hstable) fun γ h =>
      ⟨by rw [Session.isLive, h.2.housed.live.2]; rfl, h⟩
  refine Upholds.bind (leads_of_spares hlive (spares_observe _) fun γ h => returned_of_keeps h.2)
    .refl
    fun live γ h => ?_
  obtain ⟨rfl, h⟩ := h
  refine Upholds.bind (P := fun γ => Deserted γ ∧ b.Keeps p γ) (R := fun _ => b.Ending p .awaited)
    ?_ .refl (fun _ => ?_) γ h
  · refine upholds_step hstable (fun _ => stable_ending) fun γ h => ?_
    have hending := Books.finish h.2 h.1 htargets hpending hheld
    exact ⟨hending.leads (hostGuar_of_record rfl rfl rfl), hending⟩
  refine Upholds.bind (R := fun _ => b.Ending p (.told b.thread p.run.code none)) ?_ .refl fun _ =>
    ?_
  · exact Upholds.observe_bind exits_finish .refl fun _ =>
      upholds_observe_pure _ stable_ending fun _ h => h
  refine Upholds.bind (R := fun _ => b.Ending p (.shut b.thread p.run.code)) ?_ .refl fun _ => ?_
  · refine upholds_step stable_ending (fun _ => stable_ending) fun γ h => ?_
    have hguar : b.HostGuar γ (γ.1, γ.2.close) := hostGuar_of_record rfl rfl rfl
    have hending : b.Ending p (.shut b.thread p.run.code) (γ.1, γ.2.close) := by
      obtain ⟨hcode, hdisposed, hregistered, hended, hendings, -⟩ := Farewell.mk.inj h.farewell
      refine h.of_guar hguar rfl rfl (fun _ hid => hid) h.tame rfl ?_
        (.inr ⟨rfl, by rintro _ ⟨⟩⟩)
      exact Farewell.mk.injEq .. ▸ ⟨hcode, hdisposed, hregistered, hended, hendings, rfl⟩
    exact ⟨hending.leads hguar, hending⟩
  refine Upholds.observe_bind (exits_of_still still_becomeInteractive fun _ => trivial)
    .refl fun _ => ?_
  exact upholds_observe_pure _ stable_ending fun _ h => ⟨rfl, h⟩

/-- What holds where the thread of the host begins a phase, the last one included. -/
def Goes (b : BatchSite) (phase : Phase) (γ : Shell × BatchRecord) : Prop :=
  b.Begins phase γ ∨ phase = .idle ∧ ∃ p, b.Ending p (.shut b.thread p.run.code) γ

theorem stable_goes (phase : Phase) : Stable b.HostRely (b.Goes phase) := by
  rintro γ γ' (h | ⟨rfl, p, h⟩) hr
  · exact .inl (stable_begins phase γ γ' h hr)
  · exact .inr ⟨rfl, p, h.of_rely hr⟩

theorem returned_of_runs {run : BatchRun} {slack : Nat} (h : b.Runs run slack γ) :
    γ.2.returned = none := by
  obtain ⟨p, -, -, -, h⟩ := h
  exact returned_of_keeps h

theorem leads_lingerNoted {run : BatchRun} :
    Upholds b.HostRely b.Leads b.thread (b.Begins (.lingering run)) (b.lingerNoted run)
      (Fate.Returns b.Goes) := by
  rintro γ ⟨htargets, hpending, p, rfl, hslack, hheld, h⟩
  refine Upholds.bind (leads_of_spares hosts_isLive (spares_observe _) fun γ h =>
    returned_of_keeps h)
    .refl (fun live γ h => ?_) γ h
  obtain ⟨rfl, h⟩ := h
  refine Upholds.bind (leads_of_spares (hosts_anyChildLive rfl) (spares_observe _)
    fun γ h => returned_of_keeps h) .refl (fun childLive γ h => ?_) γ h
  obtain ⟨hdeserted, h⟩ := h
  cases childLive with
  | true =>
    have hsleep : b.Hosts (b.Keeps p) (worldPlace.sleep lingerStep)
        (Fate.Returns fun _ => b.Keeps p) :=
      hosts_of_still stable_books (chore_sleep _) fun _ _ _ => trivial
    refine Upholds.bind (leads_of_spares hsleep (spares_observe _) fun γ h => returned_of_keeps h)
      .refl (fun _ => upholds_pure _ stable_books fun γ h => ?_) γ h
    exact .inl ⟨htargets, hpending, p, rfl, hslack, hheld, h⟩
  | false =>
    refine (leads_finishBatchNoted htargets hpending hheld).mono (fun phase γ h => ?_) γ
      ⟨hdeserted rfl, h⟩
    exact .inr ⟨h.1, p, h.2⟩

theorem leads_advanceNoted (phase : Phase) :
    Upholds b.HostRely b.Leads b.thread (b.Goes phase) (b.advanceNoted phase)
      (Fate.Returns fun phase? γ => ∀ phase, phase? = some phase → b.Goes phase γ) := by
  have hsome : ∀ phase, Upholds b.HostRely b.Leads b.thread (b.Goes phase) (pure (some phase))
      (Fate.Returns fun phase? γ => ∀ phase, phase? = some phase → b.Goes phase γ) := fun phase =>
    upholds_pure _ (stable_goes phase) fun γ h _ heq => Option.some.inj heq ▸ h
  have hbegins : ∀ phase, Upholds b.HostRely b.Leads b.thread (b.Begins phase) (pure (some phase))
      (Fate.Returns fun phase? γ => ∀ phase, phase? = some phase → b.Goes phase γ) :=
    fun phase γ h => hsome phase γ (.inl h)
  rintro γ (h | ⟨rfl, p, h⟩)
  · cases phase with
    | batch run =>
      exact Upholds.bind (leads_of_spares hosts_nextTargetNoted (spares_nextTargetNoted run)
        fun γ h => returned_of_runs h) .refl hbegins γ h
    | collecting run last =>
      exact Upholds.bind (leads_of_spares (hosts_collectNoted last) (spares_collectNoted run last)
        fun γ h => returned_of_runs (begins_iff.mp h).2) .refl hbegins γ h
    | lingering run => exact Upholds.bind leads_lingerNoted .refl hsome γ h
    | entering | idle | reading => exact h.elim
  · refine Upholds.observe_bind (R := fun live γ => live = false ∧
      b.Ending p (.shut b.thread p.run.code) γ)
      ?_ .refl (fun live γ h => ?_) γ h
    · refine upholds_observe_step stable_ending (fun _ => stable_and stable_const stable_ending)
        fun s r h _ => ?_
      have hdisposed : (s.session b.host).disposed = true := congrArg Farewell.disposed h.farewell
      exact ⟨(h.still (Still.refl s)).1,
        by simp [Session.isLive, hdisposed], (h.still (Still.refl s)).2⟩
    · obtain ⟨rfl, h⟩ := h
      refine upholds_observe_pure _ stable_ending (fun γ' _ phase hphase => ?_) γ h
      cases hphase

end BatchSite

end SessionShell
