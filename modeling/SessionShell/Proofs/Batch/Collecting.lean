import SessionShell.Proofs.Batch.Starting

/-!
How a batch goes on to its next target, waits for codes, and waits for its children to be gone.

No code is lost when a wait for one times out: the batch gives up only when all children have been
disposed of, and a child that was disposed of has sent its code before.
-/

namespace SessionShell

open Action Shell Batch

namespace Batch

def Page.withHeld (p : Page) (pending : Nat) (held : List (String × Int)) : Page :=
  { p with run := { p.run with pending }, held }

def Page.withCode (p : Page) (x : String × Int) (held : List (String × Int)) : Page :=
  { p with
    run := { p.run with code := fold p.lastCode p.run.code x.2 }
    held
    recorded := p.recorded ++ [x] }

end Batch

namespace BatchSite

variable {b : BatchSite} {γ γ' γ'' : Shell × BatchRecord} {s s' : Shell} {r r' : BatchRecord}
  {p : Page} {c : Child} {t : Tally} {begun : List (String × Start)}
  {recorded : List (String × Int)}
  {run : BatchRun} {slack : Nat}

/-! ## Taking codes -/

theorem Accounts.takes {codes queue : List (String × Int)} {pending : Nat} (h : b.Accounts p t)
    (hheld : p.held = []) (hqueue : t.queue = codes ++ queue)
    (hpending : pending + codes.length = p.run.pending) :
    b.Accounts (p.withHeld pending codes) { t with queue } := by
  obtain ⟨taken, hsent, hrecorded, hcount⟩ := h.taken
  refine { h with taken := ⟨taken, ?_, hrecorded, ?_⟩ }
  · rw [hsent, hheld, hqueue]
    simp [Page.withHeld]
  · have hmissing : (p.withHeld pending codes).missing = p.missing := rfl
    rw [hmissing]
    rw [hheld, List.append_nil] at hcount
    simp only [Page.withHeld, List.length_append]
    omega

theorem Accounts.counts {x : String × Int} {held : List (String × Int)} (h : b.Accounts p t)
    (hheld : p.held = x :: held) : b.Accounts (p.withCode x held) t := by
  obtain ⟨taken, hsent, hrecorded, hcount⟩ := h.taken
  refine { h with
    taken := ⟨taken ++ [x], by simpa [hheld, Page.withCode] using hsent, ?_, ?_⟩
    code := ?_ }
  · have hmore : (p.recorded ++ [x]).Perm ((taken ++ p.begun.filterMap Start.refused?) ++ [x]) :=
      hrecorded.append_right _
    refine hmore.trans ?_
    simp only [Page.withCode, List.append_assoc]
    exact List.perm_append_comm.append_left _
  · have hmissing : (p.withCode x held).missing = p.missing := rfl
    rw [hmissing, ← hcount, hheld]
    simp [Page.withCode]
  · rw [Page.withCode, foldAll_append_singleton, ← h.code]

theorem HostGuar.of_calm (h : b.HostGuar γ γ') (hcalm : Calm γ' γ'')
    (hstarted : γ''.1.started = γ'.1.started) : b.HostGuar γ γ'' := by
  have hg := hostGuar_of_calm (b := b) hcalm
  have hlaunched : γ''.2.launched = γ'.2.launched := by rw [hcalm.record]
  have hstays : ∀ c ∈ γ.2.launched, c ∈ γ'.2.launched := fun c hc => by
    rcases h.joined with ⟨hsame, -⟩ | ⟨new, hnew, -⟩
    · rwa [hsame]
    · rw [hnew]
      exact List.mem_append_left _ hc
  constructor
  case sound => exact fun hs => hg.sound (h.sound hs)
  case threads => exact Nat.le_trans h.threads hg.threads
  case owners => exact fun id t ht => h.owners id t (hg.owners id t ht)
  case view => exact fun c hc => (hg.view c (hstays c hc)).trans (h.view c hc)
  case tame => exact fun c hc ht => hg.tame c (hstays c hc) (h.tame c hc ht)
  case size => exact Nat.le_trans h.size hg.size
  case hooked => exact fun id hid => hg.hooked id (h.hooked id hid)
  case host =>
    intro c hc hlive hhost
    have hlive' : (γ'.1.session c.session).disposed = false :=
      (congrArg (fun v : View => v.ties.disposed) (h.view c hc)).trans hlive
    exact hg.host c (hstays c hc) hlive' (h.host c hc hlive hhost)
  case joined =>
    rw [hlaunched, hstarted]
    refine h.joined.imp ?_ ?_
    · rintro ⟨hsame, news, hnews, hservices⟩
      exact ⟨hsame, news, hnews, fun t role hin =>
        ⟨(hservices t role hin).1, (hservices t role hin).2.1,
          Nat.lt_of_lt_of_le (hservices t role hin).2.2 hg.threads⟩⟩
    · rintro ⟨new, hnew, hnews, hthread, hboards⟩
      exact ⟨new, hnew, hnews, hthread, stable_boards _ _ hboards (childRely_of_calm hcalm)⟩

theorem Keeps.takes {f : Channel → Channel} (h : b.Keeps p (s, r))
    (codes queue : List (String × Int))
    (pending : Nat) (hheld : p.held = []) (hqueue : codesAt b.channel s = codes ++ queue)
    (hf : ∀ ch, (f ch).senders = ch.senders)
    (hrest : (f ⟨codesAt b.channel s, sendersAt b.channel s⟩).queue = queue)
    (hpending : pending + codes.length = p.run.pending) :
    let s' := modifyChannel b.channel f s
    b.observer.notes b.thread s s' r = r ∧ b.HostGuar (s, r) (s', r) ∧
      b.Keeps (p.withHeld pending codes) (s', r) := by
  intro s'
  have hcodes : codesAt b.channel s' = queue :=
    (codesAt_modifyChannel h.housed.sound.channel).trans hrest
  have hsenders : sendersAt b.channel s' = sendersAt b.channel s :=
    (sendersAt_modifyChannel h.housed.sound.channel).trans (hf _)
  have hnotes : b.observer.notes b.thread s s' r = r := by
    refine notes_of_quiet (by simp [newChildren, s', modifyChannel]) ?_ (Nat.le_of_eq hsenders.symm)
      ⟨rfl, rfl⟩
    rw [hcodes, hqueue, List.length_append]
    exact Nat.le_add_left _ _
  have hguar : b.HostGuar (s, r) (s', r) :=
    hostGuar_of_channel [] h.housed.sound (by simp) (by simp) (hsenders ▸ h.housed.sound.senders)
  refine ⟨hnotes, hguar, h.housed.of_guar hguar rfl rfl rfl h.housed.host h.housed.registry, ?_,
    h.notes⟩
  have htally : b.tally (s', r) = { b.tally (s, r) with queue } := by
    simp only [tally, hcodes, hsenders]
    rfl
  rw [htally]
  exact h.accounts.takes hheld hqueue hpending

def Got (b : BatchSite) (p : Page) : Received → Shell × BatchRecord → Prop
  | .code label code => b.Keeps (p.withHeld (p.run.pending - 1) [(label, code)])
  | .closed => fun _ => False
  | .nothing => b.Keeps p

theorem stable_got (received : Received) : Stable b.HostRely (b.Got p received) := by
  cases received with
  | code => exact stable_books
  | closed => exact stable_const
  | nothing => exact stable_books

theorem takeCode?_of_cons {channel : Nat} {x : String × Int} {queue : List (String × Int)}
    (h : channel < s.channels.size) (hqueue : codesAt channel s = x :: queue) :
    takeCode? channel s = some (x, modifyChannel channel (fun c => { c with queue }) s) := by
  have hchannels : s.channels.setIfInBounds channel ⟨queue, sendersAt channel s⟩ =
      s.channels.modify channel fun c => { c with queue } := by
    refine Array.ext_getElem? fun i => ?_
    rw [Array.getElem?_setIfInBounds, Array.getElem?_modify]
    split
    · next heq =>
      subst heq
      rw [channel_eq h]
      rfl
    · rfl
  rw [takeCode?, channel_eq h, hqueue]
  simp only [modifyChannel, hchannels]

theorem takeCode?_of_nil {channel : Nat} (h : channel < s.channels.size)
    (hqueue : codesAt channel s = []) : takeCode? channel s = none := by
  rw [takeCode?, channel_eq h, hqueue]

theorem isClosed_of_nil {channel : Nat} (h : channel < s.channels.size)
    (hqueue : codesAt channel s = []) : isClosed channel s = decide (sendersAt channel s = 0) := by
  simp [isClosed, channel_eq h, hqueue]

theorem hosts_receive (hpending : p.run.pending ≠ 0) (hheld : p.held = []) :
    b.Hosts (b.Keeps p) (receive b.channel) (Fate.Returns (b.Got p)) := by
  refine Upholds.observe_bind
    (R := fun (received? : Option Received) => b.Got p (received?.getD .nothing))
    ?_ .refl fun received? => upholds_observe_pure _
      (stable_got (received?.getD .nothing)) fun _ h => h
  refine Upholds.observe_bind (hosts_of_still stable_books (chore_setAlarm _ _) fun _ _ =>
    trivial) .refl
    fun alarm => ?_
  refine upholds_observe_await stable_books (fun received? => stable_got _) fun s r received?
    s' h hs _ => ?_
  have hchannel : b.channel < s.channels.size := h.housed.sound.channel
  cases hqueue : codesAt b.channel s with
  | nil =>
    have hopen : isClosed b.channel s = false := by
      rw [isClosed_of_nil hchannel hqueue, decide_eq_false_iff_not]
      exact h.not_closed hpending hheld hqueue
    simp only [takeCode?_of_nil hchannel hqueue, hopen] at hs
    obtain ⟨s₁, hring, heq⟩ := Option.map_eq_some_iff.mp hs
    cases heq
    have hcalm : Calm (s, r) (s', b.observer.notes b.thread s s' r) := by
      obtain rfl := WorldAt.eq_of_ring? hring
      exact calm_of_still (.of_frame rfl)
    exact ⟨hostGuar_of_calm hcalm, stable_books _ _ h (hostRely_of_calm hcalm)⟩
  | cons x queue =>
    simp only [takeCode?_of_cons hchannel hqueue] at hs
    obtain ⟨hnotes, hguar, hkeeps⟩ := h.takes (f := fun c => { c with queue }) [x] queue
      (p.run.pending - 1) hheld hqueue (fun _ => rfl) rfl
      (Nat.succ_pred_eq_of_ne_zero hpending)
    cases hs
    let taken := modifyChannel b.channel (fun c => { c with queue }) s
    let woken := worldPlace.set ((worldPlace.get taken).clearAlarm alarm.thread) taken
    have hnotes' : b.observer.notes b.thread s woken r = r := hnotes
    have hcalm : Calm (taken, r) (woken, r) := ⟨.of_frame rfl, rfl⟩
    change b.HostGuar (s, r) (woken, b.observer.notes b.thread s woken r) ∧
      b.Keeps (p.withHeld (p.run.pending - 1) [x]) (woken, b.observer.notes b.thread s woken r)
    rw [hnotes']
    exact ⟨hguar.of_calm hcalm rfl, stable_books _ _ hkeeps (hostRely_of_calm hcalm)⟩

/-! ## Counting in -/

theorem Books.withCode {x : String × Int} {held : List (String × Int)}
    (h : b.Books p begun recorded γ) (hheld : p.held = x :: held) :
    b.Books (p.withCode x held) begun recorded γ :=
  ⟨h.housed, h.accounts.counts hheld, h.notes⟩

theorem hosts_recordAllNoted {codes : List (String × Int)} (hheld : p.held = codes)
    (hcode : run.code = p.run.code) :
    Upholds b.HostRely b.HostGuar b.thread (b.Keeps p) (b.recordAllNoted run codes)
      (Fate.Returns fun run' γ => ∃ (p' : Page) (code : Int), run' = { run with code } ∧
        p'.run = { p.run with code } ∧ p'.slack = p.slack ∧ p'.held = [] ∧ b.Keeps p' γ) := by
  induction codes generalizing p run with
  | nil =>
    exact upholds_pure _ stable_books fun γ h => ⟨p, run.code, rfl, by rw [hcode], rfl, hheld, h⟩
  | cons x codes ih =>
    refine Upholds.bind (p := b.recordNoted run x.1 x.2) hosts_recordNoted .refl fun run' γ h => ?_
    obtain ⟨rfl, h⟩ := h
    have hnext := @ih (p.withCode x codes) { run with code := fold p.lastCode run.code x.2 } rfl
      (by rw [hcode]; rfl) γ (h.withCode hheld)
    refine hnext.mono fun fate γ' hfate => ?_
    cases fate with
    | returned run' =>
      obtain ⟨p', code, hrun', hrun, hslack, hnone, hkeeps⟩ := hfate
      exact ⟨p', code, hrun', hrun, hslack, hnone, hkeeps⟩
    | crashed => exact hfate
    | halted => exact hfate

def Deserted (γ : Shell × BatchRecord) : Prop :=
  ∀ c ∈ γ.2.launched, (γ.1.session c.session).disposed = true

theorem stable_deserted : Stable b.HostRely Deserted := by
  intro γ γ' h hr c hc
  rw [hr.launched] at hc
  exact hr.disposed c hc (h c hc)

theorem hosts_takeCodes (hheld : p.held = []) :
    b.Hosts (fun γ => Deserted γ ∧ b.Keeps p γ) (takeCodes b.channel)
      (Fate.Returns fun codes => b.Keeps (p.withHeld 0 codes)) := by
  refine upholds_observe_step (stable_and stable_deserted stable_books) (fun _ => stable_books)
    fun s r h _ => ?_
  obtain ⟨hdeserted, h⟩ := h
  have hpending : p.run.pending = (codesAt b.channel s).length := h.pending_eq hheld hdeserted
  obtain ⟨hnotes, hguar, hkeeps⟩ := h.takes (f := fun c => { c with queue := [] })
    (codesAt b.channel s) [] 0 hheld (by simp) (fun _ => rfl) rfl
    (show 0 + (codesAt b.channel s).length = _ by rw [hpending, Nat.zero_add])
  dsimp only
  rw [hnotes]
  exact ⟨hguar, hkeeps⟩

/-! ## Phases -/

/-- The batch between two of its steps, with as many more senders as it may still need. -/
def Runs (b : BatchSite) (run : BatchRun) (slack : Nat) (γ : Shell × BatchRecord) : Prop :=
  ∃ p : Page, p.run = run ∧ p.slack = slack ∧ p.held = [] ∧ b.Keeps p γ

theorem stable_runs : Stable b.HostRely (b.Runs run slack) := by
  rintro γ γ' ⟨p, hrun, hslack, hheld, h⟩ hr
  exact ⟨p, hrun, hslack, hheld, stable_books γ γ' h hr⟩

/-- What holds where the batch begins one of its phases. It needs no more senders when no target is
left, and nothing is pending any more when it only waits for its children to be gone. -/
def Begins (b : BatchSite) : Phase → Shell × BatchRecord → Prop
  | .batch run => b.Runs run 1
  | .collecting run false => b.Runs run 1
  | .collecting run true => fun γ => run.targets = [] ∧ b.Runs run 0 γ
  | .lingering run => fun γ => run.targets = [] ∧ run.pending = 0 ∧ b.Runs run 0 γ
  | _ => fun _ => False

theorem stable_begins (phase : Phase) : Stable b.HostRely (b.Begins phase) := by
  cases phase with
  | batch => exact stable_runs
  | collecting run last =>
    cases last with
    | false => exact stable_runs
    | true => exact stable_and stable_const stable_runs
  | lingering => exact stable_and stable_const (stable_and stable_const stable_runs)
  | entering | idle | reading => exact stable_const

theorem hosts_isLive : b.Hosts (b.Books p begun recorded) (isLive b.host)
    (Fate.Returns fun live γ => live = true ∧ b.Books p begun recorded γ) :=
  hosts_read stable_books (fun _ => stable_and stable_const stable_books) fun γ h =>
    ⟨by rw [Session.isLive, h.housed.live.2]; rfl, h⟩

theorem hosts_finishTargets (hslack : p.slack = 1) (hheld : p.held = [])
    (htargets : p.run.targets = []) (hchannel : p.run.channel = b.channel) :
    b.Hosts (b.Keeps p) (nextTarget.finishTargets p.run) (Fate.Returns b.Begins) := by
  have hspare :
      p = { { p with slack := 0 } with slack := Page.slack { p with slack := 0 } + 1 } := by
    obtain ⟨run, lastCode, slack, held, begun, recorded⟩ := p
    cases hslack
    rfl
  refine Upholds.observe_bind (R := fun _ => b.Keeps { p with slack := 0 }) ?_ .refl fun _ =>
    upholds_observe_pure _ stable_books fun γ h =>
      ⟨htargets, { p with slack := 0 }, rfl, rfl, hheld, h⟩
  rw [hchannel]
  conv => arg 4; rw [hspare]
  exact hosts_dropSender

theorem hosts_nextTargetNoted :
    Upholds b.HostRely b.HostGuar b.thread (b.Runs run 1) (b.nextTargetNoted run)
      (Fate.Returns b.Begins) := by
  rintro γ ⟨p, rfl, hslack, hheld, h⟩
  have hchannel := h.accounts.channel
  cases htargets : p.run.targets with
  | nil =>
    simp only [nextTargetNoted, htargets]
    exact hosts_finishTargets hslack hheld htargets hchannel γ h
  | cons target targets =>
    simp only [nextTargetNoted, htargets]
    refine Upholds.bind hosts_isLive .refl (fun live γ h => ?_) γ h
    obtain ⟨rfl, h⟩ := h
    refine Upholds.bind (hosts_startTargetNoted htargets hchannel) .refl (fun run γ h => ?_) γ h
    obtain ⟨p', rfl, hslack', hheld', h⟩ := h
    have hruns : b.Runs p'.run 1 γ := ⟨p', rfl, hslack'.trans hslack, hheld'.trans hheld, h⟩
    refine Upholds.bind (hosts_of_still stable_runs (chore_read _) fun _ => trivial) .refl
      (fun settings => ?_) γ hruns
    cases settings.batch.sequential with
    | true => exact upholds_pure _ stable_runs fun _ h => h
    | false => exact upholds_pure _ stable_runs fun _ h => h

theorem begins_collected {last : Bool} (h : b.Begins (.collecting run last) γ)
    (hpending : run.pending = 0) : b.Begins (collected run last) γ := by
  cases last with
  | false => exact h
  | true => exact ⟨h.1, hpending, h.2⟩

def slackOf (last : Bool) : Nat :=
  if last then 0 else 1

theorem begins_iff {last : Bool} : b.Begins (.collecting run last) γ ↔
    (last = true → run.targets = []) ∧ b.Runs run (slackOf last) γ := by
  cases last with
  | false => exact ⟨fun h => ⟨nofun, h⟩, fun h => h.2⟩
  | true => exact ⟨fun h => ⟨fun _ => h.1, h.2⟩, fun h => ⟨h.1 rfl, h.2⟩⟩

theorem hosts_anyChildLive (hrun : p.run = run) : b.Hosts (b.Keeps p) (anyChildLive run)
    (Fate.Returns fun live γ => (live = false → Deserted γ) ∧ b.Keeps p γ) := by
  refine hosts_read stable_books (fun live => stable_and ?_ stable_books) fun γ h =>
    ⟨fun hnone c hc => ?_, h⟩
  · exact fun γ γ' h hr hlive => stable_deserted γ γ' (h hlive) hr
  have hchild : c.session ∈ run.children.map BatchChild.session := by
    rw [← hrun, h.accounts.children]
    exact List.mem_map_of_mem hc
  obtain ⟨child, hin, heq⟩ := List.mem_map.mp hchild
  have hdead := List.any_eq_false.mp hnone child hin
  rw [← heq]
  simpa [Session.isLive] using hdead

theorem neverCrashes_refocus (host : SessionId) (run : BatchRun) :
    NeverCrashes (refocus host run) := by
  refine NeverCrashes.bind (fun _ => trivial) fun session => ?_
  cases session.current with
  | false => trivial
  | true =>
    refine NeverCrashes.bind (fun _ => trivial) fun child? => ?_
    cases child? with
    | none => trivial
    | some child => exact neverCrashes_giveFocus host child.session

theorem hosts_collectNoted (last : Bool) :
    Upholds b.HostRely b.HostGuar b.thread (b.Begins (.collecting run last))
      (b.collectNoted run last)
      (Fate.Returns b.Begins) := by
  intro γ hbegins
  by_cases hpending : run.pending = 0
  · rw [collectNoted, if_pos hpending]
    exact upholds_pure _ (stable_begins _) (fun _ h => begins_collected h hpending) γ hbegins
  obtain ⟨htargets, p, rfl, hslack, hheld, h⟩ := begins_iff.mp hbegins
  have hkept : ∀ p' : Page, p'.run.targets = p.run.targets → p'.slack = p.slack → p'.held = [] →
      ∀ γ, b.Keeps p' γ → b.Begins (.collecting p'.run last) γ :=
        fun p' htargets' hslack' hheld' γ h =>
    begins_iff.mpr ⟨fun hlast => htargets'.trans (htargets hlast), p', rfl,
      hslack'.trans hslack, hheld', h⟩
  have hchannel := h.accounts.channel
  rw [collectNoted, if_neg hpending]
  refine Upholds.bind (R := b.Got p) ?_ .refl (fun received γ h => ?_) γ h
  · rw [hchannel]
    exact hosts_receive hpending hheld
  cases received with
  | closed => exact h.elim
  | code label code =>
    refine Upholds.bind hosts_recordNoted .refl (fun run' γ h => ?_) γ h
    obtain ⟨rfl, h⟩ := h
    exact upholds_pure _ stable_books
      (hkept ((p.withHeld (p.run.pending - 1) [(label, code)]).withCode (label, code) []) rfl rfl
        rfl)
      γ (h.withCode rfl)
  | nothing =>
    refine Upholds.bind hosts_isLive .refl (fun hostLive γ h => ?_) γ h
    obtain ⟨rfl, h⟩ := h
    refine Upholds.bind (hosts_anyChildLive rfl) .refl (fun childLive γ h => ?_) γ h
    obtain ⟨hdeserted, h⟩ := h
    cases childLive with
    | true =>
      refine Upholds.bind
        (hosts_of_still stable_books (chore_refocus _) (neverCrashes_refocus _ _))
        .refl (fun _ => upholds_pure _ stable_books fun γ h => ?_) γ h
      exact hkept p rfl rfl hheld γ h
    | false =>
      refine Upholds.bind (P := fun γ => Deserted γ ∧ b.Keeps p γ)
        (R := fun codes => b.Keeps (p.withHeld 0 codes)) ?_ .refl
        (fun codes => ?_) γ ⟨hdeserted rfl, h⟩
      · rw [hchannel]
        exact hosts_takeCodes hheld
      refine Upholds.bind (hosts_recordAllNoted rfl rfl) .refl fun run' γ h => ?_
      obtain ⟨p', code, rfl, hrun, hslack', hheld', h⟩ := h
      refine upholds_pure _ stable_books (fun γ h => ?_) γ h
      have hbegins := hkept p' (by rw [hrun]; rfl) hslack' hheld' γ h
      rw [hrun] at hbegins
      exact begins_collected hbegins rfl

end BatchSite

end SessionShell
