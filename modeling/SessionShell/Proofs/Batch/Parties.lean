import Mathlib.Data.List.Nodup
import SessionShell.Proofs.Batch.Record

/-!
The stages in which a child of a batch leaves, and what those who take part in a batch do to each
other.

A child gets its exit code, sends it, drops its sender, leaves the registry and is disposed of, in
this order. Each of these steps is taken by its own thread, and nobody else changes what can be seen
of it.
-/

namespace SessionShell

open Action Shell

/-- Is told of an exit code without anything being sent or given to a session to do. -/
def ExitHook.IsQuiet : ExitHook → Prop
  | .nothing => True
  | .note _ _ => True
  | .wake _ first => first.IsQuiet
  | .report _ _ => False
  | .inParent _ _ => False

def Session.IsHooked (s : Session) : Prop :=
  s.exitHook.isSome ∨ s.exitCode.isSome ∨ s.disposed = true

namespace Batch

structure View where
  ties : Session.Ties
  registered : Prop
  sent : List (ThreadId × String × Int)
  drops : Nat

def view (child : Child) (γ : Shell × BatchRecord) : View where
  ties := (γ.1.session child.session).ties
  registered := child.session ∈ γ.1.registry
  sent := γ.2.sent.filter (·.1 = child.thread)
  drops := γ.2.dropped.count child.thread

inductive Departure where
  | running
  | coded (code : Int)
  | sent (code : Int)
  | hushed (code : Int)
  | left (code : Int)
  | gone (code : Int)

def Departure.view (channel : Nat) (child : Child) (owner : Option ThreadId) : Departure → View
  | .running => ⟨⟨none, false, some (.report channel child.label), owner⟩, True, [], 0⟩
  | .coded code => ⟨⟨some code, false, none, owner⟩, True, [], 0⟩
  | .sent code =>
    ⟨⟨some code, false, none, owner⟩, True, [(child.thread, child.label, code)], 0⟩
  | .hushed code =>
    ⟨⟨some code, false, none, owner⟩, True, [(child.thread, child.label, code)], 1⟩
  | .left code =>
    ⟨⟨some code, false, none, owner⟩, False, [(child.thread, child.label, code)], 1⟩
  | .gone code =>
    ⟨⟨some code, true, none, owner⟩, False, [(child.thread, child.label, code)], 1⟩

def Stands (channel : Nat) (child : Child) (γ : Shell × BatchRecord) : Prop :=
  ∃ stage owner, view child γ = Departure.view channel child owner stage

end Batch

namespace BatchSite

open Batch

variable (b : BatchSite)

structure Sound (γ : Shell × BatchRecord) : Prop where
  known : ∀ id ∈ γ.1.registry, id < γ.1.sessions.size
  registered : γ.1.registry.Nodup
  hooked : ∀ id ∈ γ.1.registry, id ≠ b.host → (γ.1.session id).IsHooked
  owners : ∀ id t, (γ.1.session id).owner = some t → t < γ.1.threads.size
  channel : b.channel < γ.1.channels.size
  spares : γ.1.SparesSessions
  quiet : ∀ hook, (γ.1.session b.host).exitHook = some hook → hook.IsQuiet
  thread : b.thread < γ.1.threads.size
  children : ∀ child ∈ γ.2.launched, child.session < γ.1.sessions.size ∧
    child.thread < γ.1.threads.size ∧ child.session ≠ b.host ∧ child.thread ≠ b.thread
  sessions : (γ.2.launched.map Child.session).Nodup
  threads : (γ.2.launched.map Child.thread).Nodup
  dropped : ∀ t ∈ γ.2.dropped, t ∈ γ.2.launched.map Child.thread
  once : γ.2.dropped.Nodup
  senders : γ.2.launched.length ≤ sendersAt b.channel γ.1 + γ.2.dropped.length

inductive Party where
  | host
  | child (c : Child)
  | service (t : ThreadId)

structure ChildGuar (c : Child) (γ γ' : Shell × BatchRecord) : Prop where
  child : c ∈ γ.2.launched
  sound : b.Sound γ → b.Sound γ'
  size : γ'.1.sessions.size = γ.1.sessions.size
  settings : γ'.1.settings = γ.1.settings
  endsProcess : γ'.1.endsProcess = γ.1.endsProcess
  ended : γ'.1.ended = γ.1.ended
  threads : γ.1.threads.size ≤ γ'.1.threads.size
  joined : ∃ news : List (ThreadId × Role), γ'.1.started = γ.1.started ++ news ∧
    ∀ t role, (t, role) ∈ news → role.IsService ∧ γ.1.threads.size ≤ t ∧ t < γ'.1.threads.size
  ties : ∀ id, id ≠ c.session → id ≠ b.host → (γ'.1.session id).ties = (γ.1.session id).ties
  host : (γ'.1.session b.host).exitCode = (γ.1.session b.host).exitCode ∧
    (γ'.1.session b.host).disposed = (γ.1.session b.host).disposed
  tame : ∀ id, (γ.1.session id).duty.IsTame id → (γ'.1.session id).duty.IsTame id
  hooked : ∀ id, (γ.1.session id).IsHooked → (γ'.1.session id).IsHooked
  owners : ∀ id t, (γ'.1.session id).owner = some t →
    (γ.1.session id).owner = some t ∨ t = c.thread
  registry : γ'.1.registry.Sublist γ.1.registry
  registered : ∀ id ∈ γ.1.registry, id ≠ c.session → id ∈ γ'.1.registry
  sends : ∃ codes, γ'.2.sent = γ.2.sent ++ codes.map (c.thread, ·) ∧
    codesAt b.channel γ'.1 = codesAt b.channel γ.1 ++ codes
  drops : ∃ drops : List ThreadId, γ'.2.dropped = γ.2.dropped ++ drops ∧
    (∀ t ∈ drops, t = c.thread) ∧
    sendersAt b.channel γ'.1 + drops.length = sendersAt b.channel γ.1
  launched : γ'.2.launched = γ.2.launched
  books : γ'.2.books = γ.2.books
  stands : Stands b.channel c γ → Stands b.channel c γ'
  disposed : (γ.1.session c.session).disposed = true → (γ'.1.session c.session).disposed = true

structure ChildRely (c : Child) (γ γ' : Shell × BatchRecord) : Prop where
  sound : b.Sound γ → b.Sound γ'
  child : b.Sound γ → c ∈ γ.2.launched → c ∈ γ'.2.launched
  view : b.Sound γ → c ∈ γ.2.launched → view c γ' = view c γ
  tame : b.Sound γ → c ∈ γ.2.launched → (γ.1.session c.session).duty.IsTame c.session →
    (γ'.1.session c.session).duty.IsTame c.session
  size : γ.1.sessions.size ≤ γ'.1.sessions.size
  hooked : ∀ id, (γ.1.session id).IsHooked → (γ'.1.session id).IsHooked
  owners : b.Sound γ → c ∈ γ.2.launched → ∀ id, (γ'.1.session id).owner = some c.thread →
    (γ.1.session id).owner = some c.thread
  host : b.Sound γ → c ∈ γ.2.launched → (γ.1.session c.session).disposed = false →
    b.host ∈ γ.1.registry → b.host ∈ γ'.1.registry

structure Serves (t : ThreadId) (γ : Shell × BatchRecord) : Prop where
  sound : b.Sound γ
  thread : t < γ.1.threads.size
  children : ∀ c ∈ γ.2.launched, c.thread ≠ t
  host : b.thread ≠ t
  owners : ∀ id, (γ.1.session id).owner ≠ some t

structure HostRely (γ γ' : Shell × BatchRecord) : Prop where
  sound : b.Sound γ → b.Sound γ'
  size : γ'.1.sessions.size = γ.1.sessions.size
  settings : γ'.1.settings = γ.1.settings
  endsProcess : γ'.1.endsProcess = γ.1.endsProcess
  ended : γ'.1.ended = γ.1.ended
  threads : γ.1.threads.size ≤ γ'.1.threads.size
  ties : ∀ id, id ≠ b.host → id ∉ γ.2.launched.map Child.session →
    (γ'.1.session id).ties = (γ.1.session id).ties
  tame : ∀ id, (γ.1.session id).duty.IsTame id → (γ'.1.session id).duty.IsTame id
  host : (γ'.1.session b.host).exitCode = (γ.1.session b.host).exitCode ∧
    (γ'.1.session b.host).disposed = (γ.1.session b.host).disposed
  registry : γ'.1.registry.Sublist γ.1.registry
  registered : ∀ id ∈ γ.1.registry, id ∉ γ.2.launched.map Child.session → id ∈ γ'.1.registry
  sends : ∃ sent, γ'.2.sent = γ.2.sent ++ sent ∧
    codesAt b.channel γ'.1 = codesAt b.channel γ.1 ++ sent.map Prod.snd ∧
    ∀ x ∈ sent, x.1 ∈ γ.2.launched.map Child.thread
  drops : sendersAt b.channel γ'.1 + γ'.2.dropped.length =
    sendersAt b.channel γ.1 + γ.2.dropped.length
  launched : γ'.2.launched = γ.2.launched
  books : γ'.2.books = γ.2.books
  stands : b.Sound γ → ∀ c ∈ γ.2.launched, Stands b.channel c γ → Stands b.channel c γ'
  disposed : ∀ c ∈ γ.2.launched, (γ.1.session c.session).disposed = true →
    (γ'.1.session c.session).disposed = true

structure Boards (c : Child) (γ : Shell × BatchRecord) : Prop where
  sound : b.Sound γ
  child : c ∈ γ.2.launched
  tame : (γ.1.session c.session).duty.IsTame c.session
  owned : ∀ id, (γ.1.session id).owner ≠ some c.thread
  host : b.host ∈ γ.1.registry
  view : view c γ = Departure.view b.channel c none .running

structure HostGuar (γ γ' : Shell × BatchRecord) : Prop where
  sound : b.Sound γ → b.Sound γ'
  threads : γ.1.threads.size ≤ γ'.1.threads.size
  owners : ∀ id t, (γ'.1.session id).owner = some t → (γ.1.session id).owner = some t
  view : ∀ c ∈ γ.2.launched, Batch.view c γ' = Batch.view c γ
  tame : ∀ c ∈ γ.2.launched, (γ.1.session c.session).duty.IsTame c.session →
    (γ'.1.session c.session).duty.IsTame c.session
  size : γ.1.sessions.size ≤ γ'.1.sessions.size
  hooked : ∀ id, (γ.1.session id).IsHooked → (γ'.1.session id).IsHooked
  host : ∀ c ∈ γ.2.launched, (γ.1.session c.session).disposed = false →
    b.host ∈ γ.1.registry → b.host ∈ γ'.1.registry
  joined : (γ'.2.launched = γ.2.launched ∧
      ∃ news : List (ThreadId × Role), γ'.1.started = γ.1.started ++ news ∧
        ∀ t role, (t, role) ∈ news → role.IsService ∧ γ.1.threads.size ≤ t ∧
          t < γ'.1.threads.size) ∨
    ∃ c, γ'.2.launched = γ.2.launched ++ [c] ∧
      γ'.1.started = γ.1.started ++ [(c.thread, .session c.session .entering)] ∧
      c.thread = γ.1.threads.size ∧ b.Boards c γ'

end BatchSite

end SessionShell

/-!
Those who take part in a batch: what each does is what the others rely on.
-/

namespace SessionShell

open Action Shell Batch

namespace BatchSite

variable {b : BatchSite} {c c' : Child} {t : ThreadId} {γ γ' γ'' : Shell × BatchRecord}
  {s s' : Shell}
  {r : BatchRecord} {me : ThreadId}

/-! ## Steps by which nothing happens -/

structure Calm (γ γ' : Shell × BatchRecord) : Prop where
  still : Still γ.1 γ'.1
  record : γ'.2 = γ.2

theorem newChildren_of_services {news : List (ThreadId × Role)} (h : s'.started = s.started ++ news)
    (hservice : ∀ t role, (t, role) ∈ news → role.IsService) : newChildren s s' = [] := by
  rw [newChildren, h, List.drop_left, List.filterMap_eq_nil_iff]
  rintro ⟨t, role⟩ hx
  have hrole := hservice t role hx
  cases role with
  | session => exact hrole.elim
  | stream => rfl
  | compiler => rfl

theorem notes_of_quiet (hchildren : newChildren s s' = [])
    (hcodes : (codesAt b.channel s').length ≤ (codesAt b.channel s).length)
    (hsenders : sendersAt b.channel s ≤ sendersAt b.channel s')
    (hended : s'.endedCodes = s.endedCodes ∧ s'.ended = s.ended) : b.notes me s s' r = r := by
  have hdrop : ¬(me ≠ b.thread ∧ sendersAt b.channel s' < sendersAt b.channel s) :=
    fun h => Nat.not_lt_of_le hsenders h.2
  simp [notes, hchildren, newCodes, List.drop_of_length_le hcodes, newEndings, hended.1,
    hended.2, hdrop]

theorem notes_of_still (h : Still s s') : b.notes me s s' r = r := by
  obtain ⟨news, hnews, hservice⟩ := h.joined
  refine notes_of_quiet (newChildren_of_services hnews fun t role hin => (hservice t role hin).1) ?_
    ?_
    ⟨h.endedCodes, h.ended⟩
  · exact Nat.le_of_eq (by rw [codesAt, h.channels, codesAt])
  · exact Nat.le_of_eq (by rw [sendersAt, sendersAt, h.channels])

theorem calm_of_still (h : Still s s') : Calm (s, r) (s', b.notes me s s' r) :=
  ⟨h, notes_of_still h⟩

theorem isHooked_of_ties {x y : Session} (h : x.IsHooked) (hties : y.ties = x.ties) :
    y.IsHooked := by
  obtain ⟨hcode, hdisposed, hhook, -⟩ := Session.Ties.mk.inj hties
  rw [Session.IsHooked, hcode, hdisposed, hhook]
  exact h

theorem Sound.of_calm (h : b.Sound γ) (hcalm : Calm γ γ') : b.Sound γ' := by
  obtain ⟨hstill, hrecord⟩ := hcalm
  have howner : ∀ id, (γ'.1.session id).owner = (γ.1.session id).owner := fun id =>
    congrArg Session.Ties.owner (hstill.ties id)
  have hhook : (γ'.1.session b.host).exitHook = (γ.1.session b.host).exitHook :=
    congrArg Session.Ties.exitHook (hstill.ties b.host)
  constructor
  case known => rw [hstill.registry, hstill.size]; exact h.known
  case registered => rw [hstill.registry]; exact h.registered
  case hooked =>
    rw [hstill.registry]
    exact fun id hid hne => isHooked_of_ties (h.hooked id hid hne) (hstill.ties id)
  case owners =>
    intro id t ht
    rw [howner] at ht
    exact Nat.lt_of_lt_of_le (h.owners id t ht) hstill.threads
  case channel => rw [hstill.channels]; exact h.channel
  case spares => exact hstill.spares h.spares
  case quiet => rw [hhook]; exact h.quiet
  case thread => exact Nat.lt_of_lt_of_le h.thread hstill.threads
  case children =>
    rw [hrecord, hstill.size]
    intro child hchild
    obtain ⟨hsession, hthread, hne⟩ := h.children child hchild
    exact ⟨hsession, Nat.lt_of_lt_of_le hthread hstill.threads, hne⟩
  case sessions => rw [hrecord]; exact h.sessions
  case threads => rw [hrecord]; exact h.threads
  case dropped => rw [hrecord]; exact h.dropped
  case once => rw [hrecord]; exact h.once
  case senders =>
    have := h.senders
    rwa [hrecord, sendersAt, hstill.channels]

theorem view_of_calm (h : Calm γ γ') (c : Child) : view c γ' = view c γ := by
  simp only [view, h.still.ties, h.still.registry, h.record]

theorem childGuar_of_calm (hc : c ∈ γ.2.launched) (h : Calm γ γ') : b.ChildGuar c γ γ' := by
  have hties := h.still.ties
  constructor
  case child => exact hc
  case sound => exact fun hs => hs.of_calm h
  case size => exact h.still.size
  case settings => exact h.still.settings
  case endsProcess => exact h.still.endsProcess
  case ended => exact h.still.ended
  case threads => exact h.still.threads
  case joined => exact h.still.joined
  case ties => exact fun id _ _ => hties id
  case host =>
    exact ⟨congrArg Session.Ties.exitCode (hties b.host),
      congrArg Session.Ties.disposed (hties b.host)⟩
  case tame => exact h.still.tame
  case hooked => exact fun id hid => isHooked_of_ties hid (hties id)
  case owners =>
    intro id t ht
    exact .inl ((congrArg Session.Ties.owner (hties id)).symm.trans ht)
  case registry => exact h.still.registry ▸ .refl _
  case registered => exact fun id hid _ => h.still.registry ▸ hid
  case sends => exact ⟨[], by simp [h.record], by simp [codesAt, h.still.channels]⟩
  case drops => exact ⟨[], by simp [h.record], by simp, by simp [sendersAt, h.still.channels]⟩
  case launched => rw [h.record]
  case books => rw [h.record]
  case stands =>
    rintro ⟨stage, owner, hstage⟩
    exact ⟨stage, owner, (view_of_calm h c).trans hstage⟩
  case disposed => exact fun hd => (congrArg Session.Ties.disposed (hties c.session)).trans hd

theorem hostGuar_of_calm (h : Calm γ γ') : b.HostGuar γ γ' := by
  constructor
  case sound => exact fun hs => hs.of_calm h
  case threads => exact h.still.threads
  case owners => exact fun id t ht => (congrArg Session.Ties.owner (h.still.ties id)).symm.trans ht
  case view => exact fun c _ => view_of_calm h c
  case tame => exact fun c _ => h.still.tame c.session
  case size => exact Nat.le_of_eq h.still.size.symm
  case hooked => exact fun id hid => isHooked_of_ties hid (h.still.ties id)
  case host => exact fun _ _ _ hhost => h.still.registry ▸ hhost
  case joined => exact .inl ⟨by rw [h.record], h.still.joined⟩

/-! ## Reliance -/

theorem ChildRely.refl (c : Child) (γ : Shell × BatchRecord) : b.ChildRely c γ γ :=
  ⟨id, fun _ h => h, fun _ _ => rfl, fun _ _ h => h, Nat.le_refl _, fun _ h => h,
    fun _ _ _ h => h, fun _ _ _ h => h⟩

theorem ChildRely.trans (h : b.ChildRely c γ γ') (h' : b.ChildRely c γ' γ'') :
    b.ChildRely c γ γ'' := by
  constructor
  case sound => exact fun hs => h'.sound (h.sound hs)
  case child => exact fun hs hc => h'.child (h.sound hs) (h.child hs hc)
  case view => exact fun hs hc => (h'.view (h.sound hs) (h.child hs hc)).trans (h.view hs hc)
  case tame => exact fun hs hc ht => h'.tame (h.sound hs) (h.child hs hc) (h.tame hs hc ht)
  case size => exact Nat.le_trans h.size h'.size
  case hooked => exact fun id hid => h'.hooked id (h.hooked id hid)
  case owners =>
    exact fun hs hc id ho => h.owners hs hc id (h'.owners (h.sound hs) (h.child hs hc) id ho)
  case host =>
    intro hs hc hlive hhost
    have hsame : (γ'.1.session c.session).disposed = false :=
      (congrArg (fun v : View => v.ties.disposed) (h.view hs hc)).trans hlive
    exact h'.host (h.sound hs) (h.child hs hc) hsame (h.host hs hc hlive hhost)

theorem HostRely.refl (γ : Shell × BatchRecord) : b.HostRely γ γ :=
  ⟨id, rfl, rfl, rfl, rfl, Nat.le_refl _, fun _ _ _ => rfl, fun _ h => h, ⟨rfl, rfl⟩, .refl _,
    fun _ h _ => h, ⟨[], by simp⟩, rfl, rfl, rfl, fun _ _ _ h => h, fun _ _ h => h⟩

theorem HostRely.trans (h : b.HostRely γ γ') (h' : b.HostRely γ' γ'') : b.HostRely γ γ'' := by
  have hlaunched := h.launched
  constructor
  case sound => exact fun hs => h'.sound (h.sound hs)
  case size => exact h'.size.trans h.size
  case settings => exact h'.settings.trans h.settings
  case endsProcess => exact h'.endsProcess.trans h.endsProcess
  case ended => exact h'.ended.trans h.ended
  case threads => exact Nat.le_trans h.threads h'.threads
  case ties =>
    exact fun id hne hid => (h'.ties id hne (hlaunched ▸ hid)).trans (h.ties id hne hid)
  case tame => exact fun id ht => h'.tame id (h.tame id ht)
  case host => exact ⟨h'.host.1.trans h.host.1, h'.host.2.trans h.host.2⟩
  case registry => exact h'.registry.trans h.registry
  case registered =>
    exact fun id hin hid => h'.registered id (h.registered id hin hid) (hlaunched ▸ hid)
  case sends =>
    obtain ⟨sent, hsent, hcodes, hby⟩ := h.sends
    obtain ⟨sent', hsent', hcodes', hby'⟩ := h'.sends
    refine ⟨sent ++ sent', by simp [hsent', hsent], by simp [hcodes', hcodes], fun x hx => ?_⟩
    rcases List.mem_append.mp hx with hx | hx
    · exact hby x hx
    · exact hlaunched ▸ hby' x hx
  case drops => exact h'.drops.trans h.drops
  case launched => exact h'.launched.trans hlaunched
  case books => exact h'.books.trans h.books
  case stands =>
    exact fun hs c hc hstands => h'.stands (h.sound hs) c (hlaunched ▸ hc)
      (h.stands hs c hc hstands)
  case disposed => exact fun c hc hd => h'.disposed c (hlaunched ▸ hc) (h.disposed c hc hd)

theorem childRely_of_calm (h : Calm γ γ') : b.ChildRely c γ γ' := by
  constructor
  case sound => exact fun hs => hs.of_calm h
  case child => exact fun _ hc => h.record ▸ hc
  case view => exact fun _ _ => view_of_calm h c
  case tame => exact fun _ _ ht => h.still.tame _ ht
  case size => exact Nat.le_of_eq h.still.size.symm
  case hooked => exact fun id hid => isHooked_of_ties hid (h.still.ties id)
  case owners =>
    exact fun _ _ id ho => (congrArg Session.Ties.owner (h.still.ties id)).symm.trans ho
  case host => exact fun _ _ _ hhost => h.still.registry ▸ hhost

theorem hostRely_of_calm (h : Calm γ γ') : b.HostRely γ γ' := by
  have hties := h.still.ties
  constructor
  case sound => exact fun hs => hs.of_calm h
  case size => exact h.still.size
  case settings => exact h.still.settings
  case endsProcess => exact h.still.endsProcess
  case ended => exact h.still.ended
  case threads => exact h.still.threads
  case ties => exact fun id _ _ => hties id
  case tame => exact h.still.tame
  case host =>
    exact ⟨congrArg Session.Ties.exitCode (hties b.host),
      congrArg Session.Ties.disposed (hties b.host)⟩
  case registry => exact h.still.registry ▸ .refl _
  case registered => exact fun id hid _ => h.still.registry ▸ hid
  case sends => exact ⟨[], by simp [h.record], by simp [codesAt, h.still.channels], by simp⟩
  case drops => simp [h.record, sendersAt, h.still.channels]
  case launched => rw [h.record]
  case books => rw [h.record]
  case stands =>
    rintro - c - ⟨stage, owner, hstage⟩
    exact ⟨stage, owner, (view_of_calm h c).trans hstage⟩
  case disposed => exact fun c _ hd => (congrArg Session.Ties.disposed (hties c.session)).trans hd

theorem serves_of_calm (h : Calm γ γ') (hserves : b.Serves t γ) : b.Serves t γ' := by
  refine ⟨hserves.sound.of_calm h, Nat.lt_of_lt_of_le hserves.thread h.still.threads, ?_,
    hserves.host, fun id => ?_⟩
  · rw [h.record]
    exact hserves.children
  · rw [show (γ'.1.session id).owner = _ from congrArg Session.Ties.owner (h.still.ties id)]
    exact hserves.owners id

/-! ## Who goes together -/

theorem eq_of_session (hs : b.Sound γ) (hc : c ∈ γ.2.launched) (hc' : c' ∈ γ.2.launched)
    (h : c.session = c'.session) : c = c' :=
  List.inj_on_of_nodup_map hs.sessions hc hc' h

theorem eq_of_thread (hs : b.Sound γ) (hc : c ∈ γ.2.launched) (hc' : c' ∈ γ.2.launched)
    (h : c.thread = c'.thread) : c = c' :=
  List.inj_on_of_nodup_map hs.threads hc hc' h

theorem view_of_childGuar (hs : b.Sound γ) (h : b.ChildGuar c γ γ') (hc' : c' ∈ γ.2.launched)
    (hne : c' ≠ c) : view c' γ' = view c' γ := by
  have hsession : c'.session ≠ c.session := fun heq => hne (eq_of_session hs hc' h.child heq)
  have hthread : c'.thread ≠ c.thread := fun heq => hne (eq_of_thread hs hc' h.child heq)
  have hhost : c'.session ≠ b.host := (hs.children c' hc').2.2.1
  obtain ⟨codes, hsent, -⟩ := h.sends
  obtain ⟨drops, hdropped, hby, -⟩ := h.drops
  have hfilter : (codes.map (c.thread, ·)).filter (·.1 = c'.thread) = [] := by
    simp only [List.filter_eq_nil_iff, List.mem_map, decide_eq_true_eq]
    rintro _ ⟨code, -, rfl⟩
    exact hthread.symm
  have hcount : drops.count c'.thread = 0 :=
    List.count_eq_zero.mpr fun hin => hthread (hby _ hin)
  have hregistered : c'.session ∈ γ'.1.registry ↔ c'.session ∈ γ.1.registry :=
    ⟨fun hin => h.registry.subset hin, fun hin => h.registered _ hin hsession⟩
  simp only [view, h.ties _ hsession hhost, hregistered, hsent, hdropped,
    List.filter_append, hfilter, List.append_nil, List.count_append, hcount, Nat.add_zero]

theorem childRely_of_childGuar (h : b.ChildGuar c γ γ') (hne : c' ≠ c) : b.ChildRely c' γ γ' := by
  constructor
  case sound => exact h.sound
  case child => exact fun _ hc' => h.launched ▸ hc'
  case view => exact fun hs hc' => view_of_childGuar hs h hc' hne
  case tame => exact fun _ _ ht => h.tame _ ht
  case size => exact Nat.le_of_eq h.size.symm
  case hooked => exact h.hooked
  case owners =>
    intro hs hc' id ho
    rcases h.owners id _ ho with ho | heq
    · exact ho
    · exact absurd (eq_of_thread hs hc' h.child heq) hne
  case host =>
    exact fun hs _ _ hhost => h.registered _ hhost (hs.children c h.child).2.2.1.symm

theorem hostRely_of_childGuar (h : b.ChildGuar c γ γ') : b.HostRely γ γ' := by
  have hc : c.session ∈ γ.2.launched.map Child.session := List.mem_map_of_mem h.child
  constructor
  case sound => exact h.sound
  case size => exact h.size
  case settings => exact h.settings
  case endsProcess => exact h.endsProcess
  case ended => exact h.ended
  case threads => exact h.threads
  case ties => exact fun id hne hid => h.ties id (fun heq => hid (heq ▸ hc)) hne
  case tame => exact h.tame
  case host => exact h.host
  case registry => exact h.registry
  case registered => exact fun id hin hid => h.registered id hin fun heq => hid (heq ▸ hc)
  case sends =>
    obtain ⟨codes, hsent, hcodes⟩ := h.sends
    refine ⟨_, hsent, ?_, fun x hx => ?_⟩
    · simp [hcodes, Function.comp_def]
    · obtain ⟨code, -, rfl⟩ := List.mem_map.mp hx
      exact List.mem_map_of_mem h.child
  case drops =>
    obtain ⟨drops, hdropped, -, hsenders⟩ := h.drops
    rw [hdropped, List.length_append]
    omega
  case launched => exact h.launched
  case books => exact h.books
  case stands =>
    intro hs c' hc' hstands
    by_cases hne : c' = c
    · exact hne ▸ h.stands (hne ▸ hstands)
    · obtain ⟨stage, owner, hstage⟩ := hstands
      exact ⟨stage, owner, (view_of_childGuar hs h hc' hne).trans hstage⟩
  case disposed =>
    intro c' hc' hd
    by_cases hsession : c'.session = c.session
    · exact hsession ▸ h.disposed (hsession ▸ hd)
    · by_cases hhost : c'.session = b.host
      · rw [hhost, h.host.2]
        exact hhost ▸ hd
      · exact (congrArg Session.Ties.disposed (h.ties _ hsession hhost)).trans hd

theorem serves_of_childGuar (h : b.ChildGuar c γ γ') (hserves : b.Serves t γ) : b.Serves t γ' := by
  refine ⟨h.sound hserves.sound, Nat.lt_of_lt_of_le hserves.thread h.threads, ?_, hserves.host,
    fun id ho => ?_⟩
  · rw [h.launched]
    exact hserves.children
  · rcases h.owners id t ho with ho | heq
    · exact hserves.owners id ho
    · exact hserves.children c h.child heq.symm

theorem childRely_of_hostGuar (h : b.HostGuar γ γ') : b.ChildRely c γ γ' := by
  constructor
  case sound => exact h.sound
  case child =>
    intro _ hc
    rcases h.joined with ⟨hsame, -⟩ | ⟨new, hnew, -⟩
    · rwa [hsame]
    · rw [hnew]
      exact List.mem_append_left _ hc
  case view => exact fun _ hc => h.view c hc
  case tame => exact fun _ hc ht => h.tame c hc ht
  case size => exact h.size
  case hooked => exact h.hooked
  case owners => exact fun _ _ id ho => h.owners id _ ho
  case host => exact fun _ hc hlive hhost => h.host c hc hlive hhost

theorem serves_of_hostGuar (h : b.HostGuar γ γ') (hserves : b.Serves t γ) : b.Serves t γ' := by
  refine ⟨h.sound hserves.sound, Nat.lt_of_lt_of_le hserves.thread h.threads, fun c hc => ?_,
    hserves.host, fun id ho => hserves.owners id (h.owners id t ho)⟩
  rcases h.joined with ⟨hsame, -⟩ | ⟨new, hnew, -, hthread, -⟩
  · exact hserves.children c (hsame ▸ hc)
  · rw [hnew] at hc
    rcases List.mem_append.mp hc with hc | hc
    · exact hserves.children c hc
    · cases List.mem_singleton.mp hc
      rw [hthread]
      exact (Nat.ne_of_lt hserves.thread).symm

end BatchSite

end SessionShell
