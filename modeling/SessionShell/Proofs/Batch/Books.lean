import SessionShell.Proofs.Batch.Leaving

/-!
The books of a batch: what its thread knows of the children it has started and of the codes they
send.
-/

namespace SessionShell

open Action Shell Batch

namespace Batch

def foldAll (lastCode : Bool) (codes : List (String × Int)) : Int :=
  codes.foldl (fun aggregate x => fold lastCode aggregate x.2) 0

theorem foldAll_append_singleton (lastCode : Bool) (codes : List (String × Int))
    (x : String × Int) :
    foldAll lastCode (codes ++ [x]) = fold lastCode (foldAll lastCode codes) x.2 := by
  simp [foldAll]

/-! ## What came of the targets -/

def Start.child? : String × Start → Option (String × SessionId)
  | (target, .child id) => some (target, id)
  | _ => none

def Start.missing? : String × Start → Option (String × Int)
  | (target, .missing) => some (target, ReservedCode.noFile.code)
  | _ => none

def Start.refused? : String × Start → Option (String × Int)
  | (target, .refused) => some (target, ReservedCode.killed.code)
  | _ => none

/-! ## Tallies -/

structure Tally where
  launched : List Child
  sent : List (ThreadId × String × Int)
  queue : List (String × Int)
  senders : Nat
  lastCode : Bool

/-- What a batch has come to: the codes that were taken from the channel but are not counted in yet
are `held`. As many more senders as `slack` says are there for children that are not started yet. -/
structure Page where
  run : BatchRun
  lastCode : Bool
  slack : Nat
  held : List (String × Int)
  begun : List (String × Start)
  recorded : List (String × Int)

def Page.missing (p : Page) : List (String × Int) :=
  p.begun.filterMap Start.missing?

end Batch

namespace BatchSite

variable (b : BatchSite)

def tally (γ : Shell × BatchRecord) : Tally where
  launched := γ.2.launched
  sent := γ.2.sent
  queue := codesAt b.channel γ.1
  senders := sendersAt b.channel γ.1 + γ.2.dropped.length
  lastCode := γ.1.settings.batch.lastCode

structure Accounts (p : Page) (t : Tally) : Prop where
  channel : p.run.channel = b.channel
  targets : p.begun.map Prod.fst ++ p.run.targets = b.targets
  launched : t.launched.map (fun c => (c.label, c.session)) = p.begun.filterMap Start.child?
  children : p.run.children.map BatchChild.session = t.launched.map Child.session
  senders : ∀ x ∈ t.sent, x.1 = b.thread ∨ x.1 ∈ t.launched.map Child.thread
  missing : (t.sent.filter (·.1 = b.thread)).map Prod.snd = p.missing
  taken : ∃ taken, t.sent.map Prod.snd = taken ++ p.held ++ t.queue ∧
    p.recorded.Perm (taken ++ p.begun.filterMap Start.refused?) ∧
    p.run.pending + (taken ++ p.held).length = t.launched.length + p.missing.length
  lastCode : t.lastCode = p.lastCode
  code : p.run.code = foldAll p.lastCode p.recorded
  slack : t.launched.length + p.slack ≤ t.senders

structure Housed (guests : List SessionId) (γ : Shell × BatchRecord) : Prop where
  sound : b.Sound γ
  live : (γ.1.session b.host).exitCode = none ∧ (γ.1.session b.host).disposed = false
  tame : (γ.1.session b.host).duty.IsTame b.host
  running : γ.1.ended = none
  host : b.host ∈ γ.1.registry
  registry : ∀ id ∈ γ.1.registry, id = b.host ∨ id ∈ guests ∨ id ∈ γ.2.launched.map Child.session
  stands : ∀ c ∈ γ.2.launched, Stands b.channel c γ

end BatchSite

def BatchRecord.Notes (begun : List (String × Start)) (recorded : List (String × Int))
    (r : BatchRecord) : Prop :=
  r.books = ((begun, recorded), none, false, [])

namespace BatchSite

variable {b : BatchSite} {γ γ' γ'' : Shell × BatchRecord} {guests : List SessionId} {p : Page}
  {t : Tally} {c : Child}

structure Books (b : BatchSite) (p : Page) (begun : List (String × Start))
    (recorded : List (String × Int)) (γ : Shell × BatchRecord) : Prop where
  housed : b.Housed [] γ
  accounts : b.Accounts p (b.tally γ)
  notes : γ.2.Notes begun recorded

abbrev Keeps (b : BatchSite) (p : Page) : Shell × BatchRecord → Prop :=
  b.Books p p.begun p.recorded

/-! ## What the others do to the books -/

theorem Accounts.sends {sent : List (ThreadId × String × Int)} (h : b.Accounts p t)
    (hby : ∀ x ∈ sent, x.1 ∈ t.launched.map Child.thread)
    (hthread : b.thread ∉ t.launched.map Child.thread) :
    b.Accounts p { t with sent := t.sent ++ sent, queue := t.queue ++ sent.map Prod.snd } := by
  obtain ⟨taken, hsent, hrecorded, hpending⟩ := h.taken
  have hnone : sent.filter (·.1 = b.thread) = [] := by
    simp only [List.filter_eq_nil_iff, decide_eq_true_eq]
    exact fun x hx heq => hthread (heq ▸ hby x hx)
  refine { h with
    senders := fun x hx => ?_
    missing := by rw [List.filter_append, hnone, List.append_nil]; exact h.missing
    taken := ⟨taken, by simp [hsent], hrecorded, hpending⟩ }
  rcases List.mem_append.mp hx with hx | hx
  · exact h.senders x hx
  · exact .inr (hby x hx)

theorem thread_not_launched (h : b.Sound γ) : b.thread ∉ γ.2.launched.map Child.thread :=
  fun hin => by
  obtain ⟨child, hchild, heq⟩ := List.mem_map.mp hin
  exact (h.children child hchild).2.2.2 heq

theorem host_not_launched (h : b.Sound γ) : b.host ∉ γ.2.launched.map Child.session := fun hin => by
  obtain ⟨child, hchild, heq⟩ := List.mem_map.mp hin
  exact (h.children child hchild).2.2.1 heq

theorem Accounts.of_rely (h : b.Accounts p (b.tally γ)) (hs : b.Sound γ) (hr : b.HostRely γ γ') :
    b.Accounts p (b.tally γ') := by
  obtain ⟨sent, hsent, hcodes, hby⟩ := hr.sends
  have htally : b.tally γ' = { b.tally γ with
      sent := (b.tally γ).sent ++ sent
      queue := (b.tally γ).queue ++ sent.map Prod.snd } := by
    simp only [tally, hr.launched, hsent, hcodes, hr.drops, hr.settings]
  rw [htally]
  exact h.sends hby (thread_not_launched hs)

theorem Housed.of_rely (h : b.Housed guests γ) (hr : b.HostRely γ γ') : b.Housed guests γ' := by
  refine ⟨hr.sound h.sound, ?_, hr.tame _ h.tame, hr.ended.trans h.running,
    hr.registered _ h.host (host_not_launched h.sound), ?_, ?_⟩
  · rw [hr.host.1, hr.host.2]
    exact h.live
  · rw [hr.launched]
    exact fun id hid => h.registry id (hr.registry.subset hid)
  · rw [hr.launched]
    exact fun c hc => hr.stands h.sound c hc (h.stands c hc)

theorem notes_of_rely {begun : List (String × Start)} {recorded : List (String × Int)}
    (h : γ.2.Notes begun recorded) (hr : b.HostRely γ γ') : γ'.2.Notes begun recorded :=
  hr.books.trans h

theorem stable_books {begun : List (String × Start)} {recorded : List (String × Int)} :
    Stable b.HostRely (b.Books p begun recorded) :=
  fun _ _ h hr => ⟨h.housed.of_rely hr, h.accounts.of_rely h.housed.sound hr,
    notes_of_rely h.notes hr⟩

/-! ## All codes -/

theorem perm_of_senders {senders : List ThreadId} (hnodup : senders.Nodup)
    {sent : List (ThreadId × String × Int)} (h : ∀ x ∈ sent, x.1 ∈ senders) :
    sent.Perm (senders.flatMap fun sender => sent.filter (·.1 = sender)) := by
  induction senders generalizing sent with
  | nil =>
    cases sent with
    | nil => exact .refl _
    | cons x sent => exact absurd (h x List.mem_cons_self) List.not_mem_nil
  | cons sender senders ih =>
    obtain ⟨hnot, hnodup⟩ := List.nodup_cons.mp hnodup
    let others := sent.filter fun x => !decide (x.1 = sender)
    have hothers : others.Perm (senders.flatMap fun other => others.filter (·.1 = other)) := by
      refine ih hnodup fun x hx => ?_
      obtain ⟨hin, hne⟩ := List.mem_filter.mp hx
      have hne' : x.1 ≠ sender := by simpa using hne
      exact (List.mem_cons.mp (h x hin)).resolve_left hne'
    have hsame : (senders.flatMap fun other => others.filter (·.1 = other)) =
        senders.flatMap fun other => sent.filter (·.1 = other) := by
      refine List.flatMap_congr fun other hother => ?_
      have hne : other ≠ sender := fun heq => hnot (heq ▸ hother)
      rw [List.filter_filter]
      refine List.filter_congr fun x _ => ?_
      by_cases hx : x.1 = other
      · simp [hx, hne]
      · simp [hx]
    rw [List.flatMap_cons, ← hsame]
    exact (List.filter_append_perm _ sent).symm.trans (hothers.append_left _)

theorem sent_of_stands {channel : Nat} (h : Stands channel c γ) :
    ((γ.2.sent.filter (·.1 = c.thread)).map Prod.snd = [] ∧
        (γ.1.session c.session).disposed = false ∧ γ.2.dropped.count c.thread = 0) ∨
      ∃ code, (γ.2.sent.filter (·.1 = c.thread)).map Prod.snd = [(c.label, code)] ∧
        (γ.1.session c.session).exitCode = some code := by
  obtain ⟨stage, owner, hview⟩ := h
  obtain ⟨hties, -, hsent, hdrops⟩ := View.mk.inj hview
  obtain ⟨hcode, hdisposed, -, -⟩ := Session.Ties.mk.inj hties
  cases stage with
  | running => exact .inl ⟨by rw [show γ.2.sent.filter _ = [] from hsent]; rfl, hdisposed, hdrops⟩
  | coded code =>
    exact .inl ⟨by rw [show γ.2.sent.filter _ = [] from hsent]; rfl, hdisposed, hdrops⟩
  | sent code | hushed code | left code | gone code =>
    exact .inr ⟨code, by rw [show γ.2.sent.filter _ = _ from hsent]; rfl, hcode⟩

theorem left_of_disposed {channel : Nat} (h : Stands channel c γ)
    (hdisposed : (γ.1.session c.session).disposed = true) : c.session ∉ γ.1.registry := by
  obtain ⟨stage, owner, hview⟩ := h
  obtain ⟨hties, hregistered, -, -⟩ := View.mk.inj hview
  have hd : (γ.1.session c.session).disposed = _ := congrArg Session.Ties.disposed hties
  cases stage with
  | gone code => exact fun hin => cast hregistered hin
  | _ => exact absurd (hd.symm.trans hdisposed) Bool.false_ne_true

end BatchSite

namespace Batch

def Start.code (s : Shell) : Start → Int
  | .child id => (s.session id).exitCode.getD 0
  | .missing => ReservedCode.noFile.code
  | .refused => ReservedCode.killed.code

theorem perm_begun (s : Shell) (begun : List (String × Start)) :
    (begun.map fun x => (x.1, x.2.code s)).Perm
      ((begun.filterMap Start.child?).map (fun x => (x.1, (s.session x.2).exitCode.getD 0)) ++
        begun.filterMap Start.missing? ++ begun.filterMap Start.refused?) := by
  induction begun with
  | nil => exact .refl _
  | cons x begun ih =>
    obtain ⟨target, start⟩ := x
    cases start with
    | child id => exact ih.cons _
    | missing =>
      refine (ih.cons _).trans ?_
      simp only [List.filterMap_cons, Start.child?, Start.missing?, Start.refused?, Start.code,
        List.append_assoc, List.cons_append]
      exact List.perm_middle.symm
    | refused =>
      refine (ih.cons _).trans ?_
      simp only [List.filterMap_cons, Start.child?, Start.missing?, Start.refused?, Start.code,
        List.append_assoc]
      rw [← List.append_assoc, ← List.append_assoc]
      exact List.perm_middle.symm

end Batch

namespace BatchSite

variable {b : BatchSite} {γ γ' γ'' : Shell × BatchRecord} {guests : List SessionId} {p : Page}
  {t : Tally} {c : Child}

def sentBy (γ : Shell × BatchRecord) (c : Child) : List (String × Int) :=
  (γ.2.sent.filter (·.1 = c.thread)).map Prod.snd

theorem length_sentBy_le {channel : Nat} (h : Stands channel c γ) : (sentBy γ c).length ≤ 1 := by
  rcases sent_of_stands h with ⟨hnone, -⟩ | ⟨code, hone, -⟩
  · rw [sentBy, hnone]
    exact Nat.zero_le 1
  · rw [sentBy, hone]
    exact Nat.le_refl 1

theorem sent_perm (hsound : b.Sound γ) (h : b.Accounts p (b.tally γ)) :
    (γ.2.sent.map Prod.snd).Perm (p.missing ++ γ.2.launched.flatMap (sentBy γ)) := by
  have hnodup : (b.thread :: γ.2.launched.map Child.thread).Nodup :=
    List.nodup_cons.mpr ⟨thread_not_launched hsound, hsound.threads⟩
  have hperm := (perm_of_senders hnodup fun x hx => List.mem_cons.mpr (h.senders x hx)).map Prod.snd
  rw [List.flatMap_cons, List.map_append, List.map_flatMap, List.flatMap_map] at hperm
  rw [h.missing] at hperm
  exact hperm

theorem length_flatMap_le {channel : Nat} {children : List Child}
    (h : ∀ c ∈ children, Stands channel c γ) :
    (children.flatMap (sentBy γ)).length ≤ children.length := by
  induction children with
  | nil => exact Nat.le_refl 0
  | cons c children ih =>
    have hc := length_sentBy_le (h c List.mem_cons_self)
    have hrest := ih fun c' hc' => h c' (List.mem_cons_of_mem c hc')
    simp only [List.flatMap_cons, List.length_append, List.length_cons]
    omega

theorem flatMap_of_length_le {channel : Nat} {children : List Child}
    (h : ∀ c ∈ children, Stands channel c γ)
    (hlength : children.length ≤ (children.flatMap (sentBy γ)).length) :
    children.flatMap (sentBy γ) =
      children.map fun c => (c.label, (γ.1.session c.session).exitCode.getD 0) := by
  induction children with
  | nil => rfl
  | cons c children ih =>
    have hrest : ∀ c' ∈ children, Stands channel c' γ :=
      fun c' hc' => h c' (List.mem_cons_of_mem c hc')
    have hle := length_flatMap_le hrest
    simp only [List.flatMap_cons, List.length_append, List.length_cons] at hlength
    rw [List.flatMap_cons, List.map_cons]
    rcases sent_of_stands (h c List.mem_cons_self) with ⟨hnone, -⟩ | ⟨code, hone, hcode⟩
    · rw [sentBy, hnone, List.length_nil] at hlength
      omega
    · rw [sentBy, hone, List.length_singleton] at hlength
      rw [sentBy, hone, ih hrest (by omega), hcode]
      rfl

theorem Accounts.taken_all (h : b.Accounts p (b.tally γ)) (hsound : b.Sound γ)
    (hstands : ∀ c ∈ γ.2.launched, Stands b.channel c γ) (hpending : p.run.pending = 0) :
    codesAt b.channel γ.1 = [] ∧ ∃ taken, γ.2.sent.map Prod.snd = taken ++ p.held ∧
      p.recorded.Perm (taken ++ p.begun.filterMap Start.refused?) ∧
      γ.2.launched.length = (γ.2.launched.flatMap (sentBy γ)).length := by
  obtain ⟨taken, hsent, hrecorded, hcount⟩ := h.taken
  have hlength := (sent_perm hsound h).length_eq
  have hle := length_flatMap_le hstands
  have hsent' : γ.2.sent.map Prod.snd = taken ++ p.held ++ codesAt b.channel γ.1 := hsent
  have hcount' : p.run.pending + (taken ++ p.held).length = γ.2.launched.length +
      p.missing.length :=
    hcount
  rw [hsent'] at hlength
  simp only [List.length_append] at hlength hcount'
  have hqueue : (codesAt b.channel γ.1).length = 0 := by omega
  have hempty := List.length_eq_zero_iff.mp hqueue
  exact ⟨hempty, taken, by rw [hsent', hempty, List.append_nil], hrecorded, by omega⟩

theorem Accounts.recorded_perm (h : b.Accounts p (b.tally γ)) (hsound : b.Sound γ)
    (hstands : ∀ c ∈ γ.2.launched, Stands b.channel c γ) (hpending : p.run.pending = 0)
    (hheld : p.held = []) : p.recorded.Perm (p.begun.map fun x => (x.1, x.2.code γ.1)) := by
  obtain ⟨-, taken, hsent, hrecorded, hlength⟩ := h.taken_all hsound hstands hpending
  have hall := flatMap_of_length_le hstands (Nat.le_of_eq hlength)
  have hperm := sent_perm hsound h
  rw [hsent, hheld, List.append_nil, hall] at hperm
  have hchildren : γ.2.launched.map (fun c => (c.label, (γ.1.session c.session).exitCode.getD 0)) =
      (p.begun.filterMap Start.child?).map fun x => (x.1, (γ.1.session x.2).exitCode.getD 0) := by
    rw [← h.launched, List.map_map]
    rfl
  rw [hchildren] at hperm
  refine hrecorded.trans ((hperm.append_right _).trans ?_)
  refine List.Perm.trans ?_ (perm_begun γ.1 p.begun).symm
  exact List.perm_append_comm.append_right _

theorem exists_silent {children : List Child}
    (hlength : (children.flatMap (sentBy γ)).length < children.length) :
    ∃ c ∈ children, sentBy γ c = [] := by
  by_contra hnone
  refine Nat.not_le_of_lt hlength ?_
  have hall : ∀ c ∈ children, 1 ≤ (sentBy γ c).length := fun c hc => by
    by_contra hlt
    exact hnone ⟨c, hc, List.length_eq_zero_iff.mp (by omega)⟩
  clear hlength hnone
  induction children with
  | nil => exact Nat.le_refl 0
  | cons c children ih =>
    have hc := hall c List.mem_cons_self
    have hrest := ih fun c' hc' => hall c' (List.mem_cons_of_mem c hc')
    simp only [List.flatMap_cons, List.length_append, List.length_cons]
    omega

theorem Keeps.exists_silent (h : b.Keeps p γ) (hpending : p.run.pending ≠ 0) (hheld : p.held = [])
    (hqueue : codesAt b.channel γ.1 = []) : ∃ c ∈ γ.2.launched, sentBy γ c = [] := by
  obtain ⟨taken, hsent, -, hcount⟩ := h.accounts.taken
  have hlength := (sent_perm h.housed.sound h.accounts).length_eq
  have hsent' : γ.2.sent.map Prod.snd = taken ++ p.held ++ codesAt b.channel γ.1 := hsent
  have hcount' : p.run.pending + (taken ++ p.held).length = γ.2.launched.length +
      p.missing.length :=
    hcount
  rw [hsent', hqueue, hheld] at hlength
  rw [hheld] at hcount'
  simp only [List.length_append, List.length_nil] at hlength hcount'
  exact BatchSite.exists_silent (by omega)

theorem Keeps.not_closed (h : b.Keeps p γ) (hpending : p.run.pending ≠ 0) (hheld : p.held = [])
    (hqueue : codesAt b.channel γ.1 = []) : sendersAt b.channel γ.1 ≠ 0 := by
  obtain ⟨c, hc, hsilent⟩ := h.exists_silent hpending hheld hqueue
  rcases sent_of_stands (h.housed.stands c hc) with ⟨-, -, hdrops⟩ | ⟨code, hone, -⟩
  · exact Nat.ne_of_gt (senders_pos h.housed.sound hc (List.count_eq_zero.mp hdrops))
  · rw [sentBy, hone] at hsilent
    cases hsilent

theorem Keeps.pending_eq (h : b.Keeps p γ) (hheld : p.held = [])
    (hgone : ∀ c ∈ γ.2.launched, (γ.1.session c.session).disposed = true) :
    p.run.pending = (codesAt b.channel γ.1).length := by
  obtain ⟨taken, hsent, -, hcount⟩ := h.accounts.taken
  have hlength := (sent_perm h.housed.sound h.accounts).length_eq
  have hsent' : γ.2.sent.map Prod.snd = taken ++ p.held ++ codesAt b.channel γ.1 := hsent
  have hcount' : p.run.pending + (taken ++ p.held).length = γ.2.launched.length +
      p.missing.length :=
    hcount
  have hle := length_flatMap_le h.housed.stands
  have hall : γ.2.launched.length ≤ (γ.2.launched.flatMap (sentBy γ)).length := by
    by_contra hlt
    obtain ⟨c, hc, hsilent⟩ := BatchSite.exists_silent (Nat.lt_of_not_le hlt)
    rcases sent_of_stands (h.housed.stands c hc) with ⟨-, hlive, -⟩ | ⟨code, hone, -⟩
    · exact Bool.false_ne_true (hlive.symm.trans (hgone c hc))
    · rw [sentBy, hone] at hsilent
      cases hsilent
  rw [hsent', hheld] at hlength
  rw [hheld] at hcount'
  simp only [List.length_append, List.length_nil] at hlength hcount'
  omega

end BatchSite

end SessionShell
