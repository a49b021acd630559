import SessionShell.CommandLine.Invocation
import SessionShell.Proofs.Dialogue.Lines
import SessionShell.Proofs.Sequence.Band

/-!
The end of a sequential batch, which can be reached from wherever it is.

From one phase of its host to the next, all children can go to their ends first, and whatever waits
can be written, and time can pass; then the host does not have to wait.
-/

namespace SessionShell.Sequence

open Action Shell

variable {o : Backdrop} {name : String} {targets : List String} {all : List Turn}
  {nearer : Nat → Prop}
  {v : Band} {s : Shell} {n : Nat} {phase : Phase} {m : Machine Shell Role}

abbrev Leads (m m' : Machine Shell Role) : Prop :=
  life.Course Unended Happens m m'

namespace Band

structure Assembled (o : Backdrop) (name : String) (targets : List String) (all : List Turn)
    (nearer : Nat → Prop) (v : Band) (s : Shell) : Prop where
  plays : v.Plays o name targets all nearer s
  joined : s.started = []

theorem leads_thread {before after : List (Thread Shell Role)} {t : Thread Shell Role}
    {t? : Option (Thread Shell Role)} {s' : Shell} (h : v.Plays o name targets all nearer s)
    (hteam : v.team = before ++ t :: after) (hstep : life.stepThread? t s = some (t?, s')) :
    Leads ⟨s, v.team⟩ ⟨s', before ++ (t?.toList ++ after)⟩ := by
  rw [hteam]
  exact .single (.thread hstep (h.ensemble.ended.trans h.ended))

namespace Assembled

/-! ## Before the host goes on -/

theorem exists_kid_through {before after : List Kid} {k : Kid}
    (h : v.Assembled o name targets all nearer s)
    (hkids : v.kids = before ++ k :: after) : ∃ k' s', k'.rest? = none ∧
      ({ v with kids := before ++ k' :: after } : Band).Assembled o name targets all nearer s' ∧
      Leads ⟨s, v.team⟩ ⟨s', ({ v with kids := before ++ k' :: after } : Band).team⟩ := by
  have hsame : ∀ {k' : Kid}, k' = k → { v with kids := before ++ k' :: after } = v := by
    rintro _ rfl
    rw [← hkids]
  cases hrest : k.rest? with
  | none =>
    refine ⟨k, s, hrest, ?_, ?_⟩
    · rwa [hsame rfl]
    · rw [hsame rfl]
      exact .refl
  | some p =>
    obtain ⟨n, hrecites⟩ := (h.plays.kids k (by simp [hkids])).recites p hrest
    -- By what is left to do for its thread.
    generalize hx : (n, p) = x
    have hacc := acc_precedes n p
    rw [hx] at hacc
    clear hsame
    induction hacc generalizing v k s n p with
    | intro x _ ih =>
      subst hx
      obtain ⟨hready, hsteps⟩ := h.plays.kid_steps hkids hrecites
      obtain ⟨⟨t?, s'⟩, hstep⟩ := Option.isSome_iff_exists.mp hready
      obtain ⟨k', rfl, hplays, hstarted, hnext⟩ := hsteps _ _ hstep
      have hjoined : ({ v with kids := before ++ k' :: after } : Band).Assembled o name targets
          all nearer s' :=
        ⟨hplays, hstarted.trans h.joined⟩
      have hleads : Leads ⟨s, v.team⟩
          ⟨s', ({ v with kids := before ++ k' :: after } : Band).team⟩ := by
        have hteam := team_kids v before after k
        rw [← hkids, Kid.thread?, hrest] at hteam
        rw [team_kids]
        exact leads_thread h.plays hteam hstep
      cases hrest' : k'.rest? with
      | none => exact ⟨k', s', hrest', hjoined, hleads⟩
      | some p' =>
        obtain ⟨n', hrecites', hprecedes⟩ := hnext p' hrest'
        obtain ⟨k'', s'', hnone, hjoined', hleads'⟩ :=
          ih _ hprecedes hjoined rfl p' hrest' n' hrecites' rfl
        exact ⟨k'', s'', hnone, hjoined', hleads.trans hleads'⟩

theorem exists_kids_through (h : v.Assembled o name targets all nearer s) : ∃ kids s',
    (∀ k ∈ kids, k.rest? = none) ∧
      ({ v with kids } : Band).Assembled o name targets all nearer s' ∧
      Leads ⟨s, v.team⟩ ⟨s', ({ v with kids } : Band).team⟩ := by
  suffices hgoal : ∀ (after before : List Kid) (v : Band) (s : Shell),
      v.Assembled o name targets all nearer s → v.kids = before ++ after →
        (∀ k ∈ before, k.rest? = none) →
      ∃ kids s', (∀ k ∈ kids, k.rest? = none) ∧
        ({ v with kids } : Band).Assembled o name targets all nearer s' ∧
        Leads ⟨s, v.team⟩ ⟨s', ({ v with kids } : Band).team⟩ from
    hgoal v.kids [] v s h rfl fun _ hk => absurd hk List.not_mem_nil
  intro after
  induction after with
  | nil =>
    intro before v s h hkids hbefore
    rw [List.append_nil] at hkids
    subst hkids
    exact ⟨v.kids, s, hbefore, h, .refl⟩
  | cons k after ih =>
    intro before v s h hkids hbefore
    obtain ⟨k', s', hnone, h', hleads⟩ := h.exists_kid_through hkids
    obtain ⟨kids, s'', hkids'', h'', hleads'⟩ := ih (before ++ [k']) _ s' h' (by simp)
      (List.forall_mem_append.mpr ⟨hbefore, List.forall_mem_singleton.mpr hnone⟩)
    exact ⟨kids, s'', hkids'', h'', hleads.trans hleads'⟩

theorem team_quill (v : Band) (k : Scribe) : ∃ before after, ∀ q : Quill,
    (v.withQuill q k).team = before ++ q.thread :: after := by
  cases k with
  | out =>
    exact ⟨[], v.err.thread :: reader :: ⟨firstThread, v.host⟩ :: v.kids.filterMap Kid.thread?,
      fun _ => rfl⟩
  | err =>
    exact ⟨[v.out.thread], reader :: ⟨firstThread, v.host⟩ :: v.kids.filterMap Kid.thread?,
      fun _ => rfl⟩

theorem withQuill_quill (v : Band) (k : Scribe) : v.withQuill (v.quill k) k = v := by
  cases k <;> rfl

theorem quill_withQuill (v : Band) (q : Quill) (k : Scribe) : (v.withQuill q k).quill k = q := by
  cases k <;> rfl

theorem withQuill_withQuill (v : Band) (q q' : Quill) (k : Scribe) :
    (v.withQuill q k).withQuill q' k = v.withQuill q' k := by
  cases k <;> rfl

theorem exists_written (k : Scribe) (h : v.Assembled o name targets all nearer s) : ∃ q s',
    q.held = none ∧ (k.sheet s'.sheets).service.queue = [] ∧
      (∀ k', k' ≠ k → k'.sheet s'.sheets = k'.sheet s.sheets) ∧
      (v.withQuill q k).Assembled o name targets all nearer s' ∧
      Leads ⟨s, v.team⟩ ⟨s', (v.withQuill q k).team⟩ := by
  induction hwork : 3 * (k.sheet s.sheets).service.queue.length + (v.quill k).steps
    using Nat.strongRecOn generalizing v s with
  | ind work ih =>
    cases hstep : life.stepThread? (v.quill k).thread s with
    | none =>
      have hstep : life.stepThread? (v.quill k).thread (s.writing s.sheets) = none := hstep
      obtain ⟨hheld, hqueue⟩ := (h.plays.quill k).resting hstep
      refine ⟨v.quill k, s, hheld, hqueue, fun _ _ => rfl, ?_, ?_⟩
      · rwa [withQuill_quill]
      · rw [withQuill_quill]
        exact .refl
    | some r =>
      obtain ⟨t?, s'⟩ := r
      obtain ⟨q, rfl, hplays, hstarted, hothers, hless⟩ := h.plays.scribe hstep
      obtain ⟨before, after, hteam⟩ := team_quill v k
      have hleads : Leads ⟨s, v.team⟩ ⟨s', (v.withQuill q k).team⟩ := by
        have hhere := hteam (v.quill k)
        rw [withQuill_quill] at hhere
        rw [hteam q]
        exact leads_thread h.plays hhere hstep
      obtain ⟨q', s'', hheld, hqueue, hothers', h', hleads'⟩ := ih _
        (by rw [quill_withQuill]; exact hwork ▸ hless) ⟨hplays, hstarted.trans h.joined⟩ rfl
      rw [withQuill_withQuill] at h' hleads'
      exact ⟨q', s'', hheld, hqueue, fun k' hk' => (hothers' k' hk').trans (hothers k' hk'), h',
        hleads.trans hleads'⟩

theorem exists_ready (tr : Dialogue.Transcript) (h : v.Assembled o name targets all nearer s) :
    ∃ kids out err s',
      (conductor o tr firstThread).ready v.stage ⟨kids, out.held, err.held⟩ s' ∧
      ({ v with kids, out, err } : Band).Assembled o name targets all nearer s' ∧
      Leads ⟨s, v.team⟩ ⟨s', ({ v with kids, out, err } : Band).team⟩ := by
  obtain ⟨kids, s₁, hthrough, h₁, hleads₁⟩ := h.exists_kids_through
  obtain ⟨out, s₂, hout, houtQueue, -, h₂, hleads₂⟩ := h₁.exists_written .out
  obtain ⟨err, s₃, herr, herrQueue, hothers, h₃, hleads₃⟩ := h₂.exists_written .err
  let s₄ : Shell := { s₃ with world := s₃.world.passTo v.stage.alarm }
  have hhappens : Happens s₃ s₄ := .time s₃ v.stage.alarm
  refine ⟨kids, out, err, s₄, ⟨fun k hk => ?_, hout, herr, ?_, herrQueue, Nat.le_max_right _ _⟩,
    ⟨{ h₃.plays with ensemble := h₃.plays.ensemble.happens hhappens }, h₃.joined⟩,
    hleads₁.trans (hleads₂.trans (hleads₃.tail (.env hhappens)))⟩
  · exact (h₁.plays.kids k hk).through (hthrough k hk)
  · exact (congrArg (·.service.queue) (hothers .out nofun)).trans houtQueue

/-! ## The host goes on -/

theorem exists_phase (ho : Plain o) (h : v.Assembled o name targets all nearer s) :
    ∃ m, Leads ⟨s, v.team⟩ m ∧ (Closed o (transcript o.settings all) m.shared ∨
      ∃ v' n phase, m.threads = v'.team ∧
        Band.Assembled o name targets all (fun _ => True) v' m.shared ∧
        v'.host = program (.session 0 phase) ∧ Stands o name targets all n phase v'.stage ∧
          nearer n) := by
  generalize hhost : v.host = p
  induction p generalizing v s with
  | crash => exact absurd h.plays.host (by rw [hhost]; exact id)
  | done role? =>
    obtain ⟨phase, n, rfl, hnearer, hstands, hplays⟩ := h.plays.host_done ho hhost
    have hteam : v.team = [v.out.thread, v.err.thread, reader] ++
        ⟨firstThread, .done (some (.session 0 phase))⟩ :: v.kids.filterMap Kid.thread? := by
      rw [team, hhost]
      rfl
    refine ⟨_, leads_thread h.plays hteam rfl,
      .inr ⟨_, n, phase, rfl, ⟨hplays, h.joined⟩, rfl, hstands, ?_⟩⟩
    exact hnearer
  | ask act next ih =>
    obtain ⟨kids, out, err, s₁, hready, h₁, hleads₁⟩ := h.exists_ready (transcript o.settings all)
    have hasks := h₁.plays.host
    rw [show ({ v with kids, out, err } : Band).host = .ask act next from hhost] at hasks
    obtain ⟨⟨answer, s₂⟩, hact⟩ := Option.isSome_iff_exists.mp
      ((hasks ⟨kids, out.held, err.held⟩ s₁ ⟨h₁.plays.ensemble, h₁.plays.ended⟩).1 hready)
    have hteam : ({ v with kids, out, err } : Band).team = [out.thread, err.thread, reader] ++
        ⟨firstThread, .ask act next⟩ :: kids.filterMap Kid.thread? := by
      rw [team, hhost]
      rfl
    have hstep : life.stepThread? ⟨firstThread, .ask act next⟩ s₁ =
        some (some ⟨firstThread, next answer⟩, s₂) :=
      congrArg (Option.map _) hact
    have hleads₂ := hleads₁.trans (leads_thread h₁.plays hteam hstep)
    rcases h₁.plays.host_ask hhost hact with hclosed | ⟨g', news, hplays, hstarted, hnews⟩
    · exact ⟨_, hleads₂, .inl hclosed⟩
    · let v₂ : Band := ⟨g', out, err, next answer, kids ++ news⟩
      have h₂ : v₂.Assembled o name targets all nearer { s₂ with started := [] } :=
        ⟨{ hplays with ensemble := { hplays.ensemble with } }, rfl⟩
      obtain ⟨m, hleads₃, hm⟩ := ih answer h₂ rfl
      refine ⟨m, (hleads₂.tail (.adopt _)).trans ?_, hm⟩
      have hadopt : life.adopt ⟨s₂, [out.thread, err.thread, reader] ++
          ((some ⟨firstThread, next answer⟩ : Option (Thread Shell Role)).toList ++
            kids.filterMap Kid.thread?)⟩ =
            ⟨{ s₂ with started := [] }, v₂.team⟩ := by
        simp [Life.adopt, life, hstarted, h₁.joined, team, v₂, hnews]
      rw [hadopt]
      exact hleads₃

theorem exists_closed (ho : Plain o) (h : v.Assembled o name targets all (fun _ => True) s)
    (hhost : v.host = program (.session 0 phase))
    (hstands : Stands o name targets all n phase v.stage) :
    ∃ m, Leads ⟨s, v.team⟩ m ∧ Closed o (transcript o.settings all) m.shared := by
  induction n using Nat.strongRecOn generalizing v s phase with
  | ind n ih =>
    obtain ⟨kids, s', hthrough, h', hleads⟩ := h.exists_kids_through
    -- When the children are gone, the host is taken to know it.
    let v' : Band := { v with kids, stage := { v.stage with gone := true } }
    have hknown : v'.Assembled o name targets all (· < n) s' := by
      have hgone : ∀ k ∈ kids, k.recital.own.disposed = true :=
        fun k hk => (h'.plays.kids k hk).through (hthrough k hk)
      refine ⟨⟨{ h'.plays.ensemble with gone := fun _ => hgone, stays := .inr rfl }, h'.plays.ended,
        h'.plays.quill, ?_, h'.plays.kids⟩, h'.joined⟩
      change Heads o name targets all (· < n) v.host { v.stage with gone := true }
      rw [hhost]
      refine (hstands.known.goes ho rfl).bind ?_
      rintro _ g' ⟨phase', rfl, n', hstands', hless⟩
      exact Vantage.does_pure ⟨phase', rfl, n', hstands', hless rfl⟩
    obtain ⟨m, hleads', hclosed | ⟨v'', n', phase', hteam, h'', hhost'', hstands'', hless⟩⟩ :=
      hknown.exists_phase ho
    · exact ⟨m, hleads.trans hleads', hclosed⟩
    · obtain ⟨m', hleads'', hclosed⟩ := ih n' hless h'' hhost'' hstands''
      obtain ⟨s'', threads⟩ := m
      obtain rfl : threads = v''.team := hteam
      exact ⟨m', hleads.trans (hleads'.trans hleads''), hclosed⟩

end Assembled

theorem On.exists_closed (ho : Plain o) (h : v.On o name targets all m) :
    ∃ m', Leads m m' ∧ Closed o (transcript o.settings all) m'.shared := by
  have hjoined : v.Assembled o name targets all (fun _ => True) { m.shared with started := [] } :=
    ⟨{ h.plays with ensemble := { h.plays.ensemble with } }, rfl⟩
  have hadopt : life.adopt m = ⟨{ m.shared with started := [] }, v.team⟩ := by
    rw [← h.crew]
    rfl
  have hleads : Leads m ⟨{ m.shared with started := [] }, v.team⟩ := hadopt ▸ .single (.adopt m)
  obtain ⟨m', hleads', hclosed | ⟨v', n, phase, hteam, h', hhost, hstands, -⟩⟩ :=
    hjoined.exists_phase ho
  · exact ⟨m', hleads.trans hleads', hclosed⟩
  · obtain ⟨m'', hleads'', hclosed⟩ := h'.exists_closed ho hhost hstands
    obtain ⟨s', threads⟩ := m'
    obtain rfl : threads = v'.team := hteam
    exact ⟨m'', hleads.trans (hleads'.trans hleads''), hclosed⟩

end Band

end SessionShell.Sequence

/-!
What comes of a program that runs a batch of scripts one after the other.

However the threads take their steps, it is the same: what all scripts write, with a line about each
of them if that is wanted, and the code that is made of theirs.
-/

namespace SessionShell

open Action Shell

namespace Sheet

variable {x : Sheet}

theorem queue_print (texts : List String) (hfifo : x.service.discipline = .fifo) :
    (x.print texts).service.queue = x.service.queue ++ texts.map .request := by
  induction texts generalizing x with
  | nil => simp [print]
  | cons text texts ih =>
    refine (ih ((x.discipline_enqueue _).trans hfifo)).trans ?_
    simp [enqueue, StreamService.enqueue, hfifo]

end Sheet

theorem Scribe.Stands.role_eq {k : Scribe} {held : Option (Queued String)} {n : Nat}
    {p : Action Shell (Option Role)} {role : Role} (h : k.Stands held n p)
    (hp : p = .done (some role)) :
    role = .stream k.stream := by
  cases h with
  | idle => cases k <;> cases hp
  | serving q => cases k <;> cases q <;> cases hp
  | through =>
    cases hp
    rfl

namespace Sequence

theorem Ink.eq_page {f : Deed → Option String} {kids : List Kid}
    {held : Option (Queued String)} {x : Sheet}
    {written : List String} {marks : Nat} (h : Ink f (.page written [] marks) kids held x) :
    x = .page written [] marks := by
  obtain ⟨c, hfifo, htrails, hprint⟩ := h
  have hqueue := Sheet.queue_print (awaited f kids) hfifo
  rw [hprint] at hqueue
  obtain ⟨hnil, htexts⟩ := List.append_eq_nil_iff.mp hqueue.symm
  rw [List.map_eq_nil_iff.mp htexts] at hprint
  exact (htrails.eq_of_queue_eq_nil hnil).2.trans hprint

/-- Everything has ended, and this was written and this code came of it. -/
structure Ends (tr : Dialogue.Transcript) (s : Shell) : Prop where
  out : s.console.outWritten.toList = tr.out
  err : s.console.errWritten.toList = tr.err
  ended : s.ended = some tr.code
  exitCode : (s.session 0).exitCode = some tr.code

theorem Closed.ends {o : Backdrop} {tr : Dialogue.Transcript} {s : Shell} (h : Closed o tr s) :
    Ends tr s := by
  obtain ⟨g, kids, out, err, hens, hfinal⟩ := h
  have hout := hens.out
  have herr := hens.err
  rw [hfinal.out] at hout
  rw [hfinal.err] at herr
  exact {
    out := congrArg (fun x : Sheet => x.written.toList) hout.eq_page
    err := congrArg (fun x : Sheet => x.written.toList) herr.eq_page
    ended := hens.ended.trans hfinal.ended
    exitCode := (congrArg Session.exitCode hens.cast.host).trans hfinal.exitCode }

/-! ## The books -/

/-- Each target is counted in once, or its code is waited for, or it has still to come. -/
def Accounts (settings : Settings) (all : List Turn) (run : BatchRun) : Prop :=
  ∃ counted awaited rest, all = counted ++ awaited ++ rest ∧
    run.code = foldCodes settings.batch.lastCode 0 counted ∧ run.pending = awaited.length ∧
    run.targets = rest.map Turn.target

/-- The batch that a session's thread is about. -/
def runOf? : Phase → Option BatchRun
  | .batch run | .collecting run _ | .lingering run => some run
  | _ => none

variable {o : Backdrop} {name : String} {targets : List String} {all done rest : List Turn}
  {run : BatchRun}
  {n : Nat} {phase : Phase} {g : Stage}

theorem Between.accounts (h : Between o name all done rest run g) : Accounts o.settings all run :=
  ⟨done, [], rest,
    by rw [h.all, List.append_nil], h.tallied.code, h.pending, (target_of_turns? h.turns).symm⟩

theorem Over.accounts (h : Over o name all run g) : Accounts o.settings all run :=
  ⟨all, [], [], by rw [List.append_nil, List.append_nil], h.tallied.code, h.pending, h.targets⟩

theorem Stands.accounts (h : Stands o name targets all n phase g) (hrun : runOf? phase = some run) :
    Accounts o.settings all run ∧
      (phase = .lingering run → run.code = (transcript o.settings all).code) := by
  cases h with
  | entering => cases hrun
  | booting => cases hrun
  | ready => cases hrun
  | between h =>
    cases hrun
    exact ⟨h.accounts, nofun⟩
  | within h =>
    cases hrun
    exact ⟨⟨_, [_], _,
      by rw [h.all, List.append_assoc, List.singleton_append], h.tallied.code, h.pending,
      (target_of_turns? h.turns).symm⟩, nofun⟩
  | counted h =>
    cases hrun
    exact ⟨h.accounts, nofun⟩
  | finished h =>
    cases hrun
    exact ⟨h.accounts, nofun⟩
  | lingering h =>
    cases hrun
    exact ⟨h.accounts, fun _ => h.tallied.code⟩

theorem Band.On.accounts {v : Band} {m : Machine Shell Role} {t : Thread Shell Role}
    (h : v.On o name targets all m) (ht : t ∈ m.threads)
    (hrest : t.rest = .done (some (.session 0 phase))) (hrun : runOf? phase = some run) :
    Accounts o.settings all run ∧
      (phase = .lingering run → run.code = (transcript o.settings all).code) := by
  have hteam : t ∈ v.team := h.crew ▸ List.mem_append_left _ ht
  have hscribe : ∀ k, t ≠ (v.quill k).thread := by
    rintro k rfl
    cases (h.plays.quill k).role_eq hrest
  simp only [Band.team, List.mem_cons, List.mem_filterMap] at hteam
  obtain rfl | rfl | rfl | rfl | ⟨k, hk, hthread⟩ := hteam
  · exact absurd rfl (hscribe .out)
  · exact absurd rfl (hscribe .err)
  · cases hrest
  · have hhost := h.plays.host
    rw [show v.host = _ from hrest] at hhost
    obtain ⟨phase', heq, n, hstands, -⟩ := hhost
    cases heq
    exact hstands.accounts hrun
  · obtain ⟨p, hp, rfl⟩ := Option.map_eq_some_iff.mp hthread
    obtain rfl : p = .done (some (.session 0 phase)) := hrest
    obtain ⟨n, hrecites⟩ := (h.plays.kids k hk).recites _ hp
    have hhost : k.id = 0 := by
      cases n with
      | zero => cases hrecites.1
      | succ n =>
        obtain ⟨phase', heq, -⟩ := hrecites
        exact (Role.session.inj (Option.some.inj heq)).1.symm
    exact absurd hhost (h.plays.ensemble.troupe.id_ne_zero hk)

/-! ## From the start -/

/-- A program that is started with a batch, and has no scripts of its own to preload. -/
structure Setup where
  settings : Settings
  directory : String
  files : FileSystem
  input : Reader
  endIsFinal : Bool
  uiThread : Option ThreadId
  name : String
  query : String
  targets : List String
  watched : Bool

namespace Setup

/-- The shell ahead of its first session. -/
def shell (p : Setup) : Shell :=
  { Shell.new p.settings (.empty p.directory) p.files p.input p.endIsFinal
    true with uiThread := p.uiThread }

def start (p : Setup) : Checked Unit :=
  startFirst p.name p.query (.batch p.targets) p.watched

/-- The scripts are run one after the other, by sessions of the one language, and only print
and exit. -/
structure Suits (p : Setup) : Prop where
  sequential : p.settings.batch.sequential = true
  language : LanguageRegistry.builtins.lookup? p.query = some .calculator
  targets : Suitable p.files p.targets

def host (p : Setup) : Session :=
  { Session.new p.name none 0 p.settings.escapeMode with
    current := true
    tasks := [.boot .calculator]
    language := some .calculator
    main := some (.batch p.targets) }

def started (p : Setup) : Shell :=
  let s := p.shell
  { s with
    sessions := #[p.host]
    registry := [0]
    console := { s.console with
      out := ⟨.fifo, [], true, 0, []⟩
      err := ⟨.fifo, [], true, 0, []⟩
      input := ⟨.lifo, [], true, 0, []⟩
      mailboxes := #[.new] }
    threads := #[.main, .service, .service, .service, .session p.name]
    started := [(1, .stream .out), (2, .stream .err), (readerThread, .stream .input),
      (firstThread, .session 0 .entering)] }

theorem runAlone?_start (p : Setup) (h : p.Suits) :
    p.start.run.runAlone? mainThread p.shell = some (.ok (), p.started) := by
  have hlanguage : ∀ s : Shell, s.languages = .builtins → s.preload = .empty p.directory →
      (languageFor p.query).runAlone? mainThread s = some (some .calculator, s) := by
    intro s hlanguages hpreload
    have hresolve : (Preload.empty p.directory).resolveAlias p.query = p.query := by
      simp [Preload.resolveAlias, Preload.follow, Preload.empty, Table.get?]
    have hlookup : s.languages.lookup? (s.preload.resolveAlias p.query) = some .calculator := by
      rw [hlanguages, hpreload, hresolve, h.language]
    rw [← hlookup]
    rfl
  refine (runAlone?_bind (a := .ok 0) rfl).trans ?_
  refine (runAlone?_bind (a := .ok ()) rfl).trans ?_
  refine (runAlone?_bind (a := .ok ()) rfl).trans ?_
  refine (runAlone?_bind (a := .ok (some .calculator)) (runAlone?_bind (hlanguage _ rfl rfl))).trans
    ?_
  rfl

def stage (p : Setup) : Stage where
  host := p.host
  count := 0
  newcomer? := none
  enrolled := false
  shares? := none
  codes := []
  out := .page [] [] 0
  err := .page [] [] 0
  present := true
  gone := false
  alarm := 0
  ended := none

def band (p : Setup) : Band where
  stage := p.stage
  out := ⟨1, none, 0, program (.stream .out)⟩
  err := ⟨2, none, 0, program (.stream .err)⟩
  host := program (.session 0 .entering)
  kids := []

theorem plain (p : Setup) (h : p.Suits) : Plain p.started.backdrop where
  languages := rfl
  preload := ⟨p.directory, rfl⟩
  started := rfl
  unasked := rfl
  threads := rfl
  ends := rfl
  sequential := h.sequential

theorem ensemble (p : Setup) : Ensemble p.started.backdrop p.stage [] none none p.started where
  backdrop := rfl
  ended := rfl
  count := rfl
  troupe := ⟨rfl, fun _ hk => absurd hk List.not_mem_nil, .nil, fun _ hk =>
    absurd hk List.not_mem_nil⟩
  cast := ⟨rfl, rfl, fun _ hx => (nomatch hx), fun _ hk => absurd hk List.not_mem_nil⟩
  mail := ⟨rfl, rfl⟩
  out := .of_trails rfl Sheet.trails_refl rfl
  err := .of_trails rfl Sheet.trails_refl rfl
  roll := ⟨List.nodup_singleton _, fun _ => List.mem_singleton_self _,
    fun _ hid => .inl (List.mem_singleton.mp hid)⟩
  gone h := nomatch h
  stays := .inl rfl

theorem on_band (p : Setup) (h : p.Suits) {all : List Turn}
    (hturns : turns? p.settings p.files p.name 1 p.targets = some all) :
    p.band.On p.started.backdrop p.name p.targets all ⟨p.started, []⟩ := by
  have hahead : Ahead p.started.backdrop p.name p.targets all p.stage := {
    session := ⟨⟨rfl, rfl, rfl, rfl, rfl, rfl, rfl, rfl⟩, rfl, rfl, rfl, rfl, rfl, rfl⟩
    codes := rfl
    count := rfl
    main := rfl
    turns := hturns }
  refine ⟨⟨p.ensemble, rfl, fun k => ?_, ?_, fun _ hk => absurd hk List.not_mem_nil⟩, rfl⟩
  · cases k <;> exact .idle
  · refine ((Stands.entering hahead rfl).goes (p.plain h) rfl).bind ?_
    rintro _ g' ⟨phase, rfl, n, hstands, -⟩
    exact Vantage.does_pure ⟨phase, rfl, n, hstands, trivial⟩

end Setup

/-- The call that starts a batch of suitable scripts returns. Behind it, however the steps of the
threads fall, and whenever time passes and input arrives, everything can still come to its end. When
it has, the transcript of the scripts is written, and nothing else, and the host and everything have
ended with its code. Until then the host keeps the books: each target is counted in once, or its
code is waited for, or it has still to come; and when it only waits for its children to be gone, the
code of the batch is that of the transcript. -/
theorem transcript_of_batch (p : Setup) (h : p.Suits) : ∃ s all,
    p.start.run.runAlone? mainThread p.shell = some (.ok (), s) ∧
      turns? p.settings p.files p.name 1 p.targets = some all ∧ all.map Turn.target = p.targets ∧
      ∀ m, Leads ⟨s, []⟩ m →
        (∃ m', Leads m m' ∧ m'.shared.ended.isSome) ∧
        (m.shared.ended.isSome → Ends (transcript p.settings all) m.shared) ∧
        ∀ t ∈ m.threads, ∀ phase run, m.shared.ended = none →
          t.rest = .done (some (.session 0 phase)) →
          runOf? phase = some run → Accounts p.settings all run ∧
            (phase = .lingering run → run.code = (transcript p.settings all).code) := by
  obtain ⟨all, hturns⟩ : ∃ all, turns? p.settings p.files p.name 1 p.targets = some all :=
    h.targets.exists_turns 1
  refine ⟨p.started, all, p.runAlone?_start h, hturns, target_of_turns? hturns, fun m hleads => ?_⟩
  have hplain := p.plain h
  rcases (p.on_band h hturns).course hplain hleads with hclosed | ⟨v, hv⟩
  · have hends : Ends (transcript p.settings all) m.shared := hclosed.ends
    have hsome : m.shared.ended.isSome := by rw [hends.ended]; rfl
    exact ⟨⟨m, .refl, hsome⟩, fun _ => hends, fun _ _ _ _ hnone =>
      nomatch hends.ended.symm.trans hnone⟩
  · have hnone : m.shared.ended = none := hv.plays.ensemble.ended.trans hv.plays.ended
    obtain ⟨m', hleads', hclosed⟩ := hv.exists_closed hplain
    have hends : Ends (transcript p.settings all) m'.shared := hclosed.ends
    refine ⟨⟨m', hleads', by rw [hends.ended]; rfl⟩, fun hsome => ?_,
      fun t ht phase run _ hrest hrun =>
      hv.accounts ht hrest hrun⟩
    rw [hnone] at hsome
    cases hsome

/-- A script that exits with a code that is not used as it is, a file that is not there, and a
script that runs to its end. -/
def threeTargets : Setup where
  settings := { Settings.default 1 with escapeMode := .none }
  directory := ""
  files := ⟨#[.directory [("a", 1), ("c", 2)],
    .file (Bytes.ofChars "print(1 + 1)\nsh.exit(95)\nprint(3)".toList),
    .file (Bytes.ofChars "print(4)\n\"x\" + 5".toList)], []⟩
  input := ⟨[], false⟩
  endIsFinal := false
  uiThread := some mainThread
  name := "sh"
  query := "calc"
  targets := ["a", "b", "c"]
  watched := false

def threeTurns : List Turn :=
  [⟨"a", [.out "2\n",
      .err "warning: exit code 0x5f is reserved; exiting with 0x2f (illegal exit code)\n"], 47⟩,
    ⟨"b", [.err "error: cannot interpret invalid script 'b'\n"], 31⟩,
    ⟨"c", [.out "4\n", .out "x5\n"], 0⟩]

theorem isScript_threeTargets : isScript threeTargets.files "a" = true ∧
    isScript threeTargets.files "b" = true ∧ isScript threeTargets.files "c" = true := by
  refine ⟨?_, ?_, ?_⟩ <;> rfl

theorem scriptAt?_threeTargets : scriptAt? threeTargets.files "a" = some 1 ∧
    scriptAt? threeTargets.files "b" = none ∧ scriptAt? threeTargets.files "c" = some 2 := by
  refine ⟨?_, ?_, ?_⟩ <;> rfl

theorem suits_threeTargets : threeTargets.Suits where
  sequential := rfl
  language := by decide
  targets := {
    scripts := by
      obtain ⟨ha, hb, hc⟩ := isScript_threeTargets
      exact List.forall_mem_cons.mpr
        ⟨ha, List.forall_mem_cons.mpr ⟨hb, List.forall_mem_singleton.mpr hc⟩⟩
    sparing := by
      obtain ⟨ha, hb, hc⟩ := scriptAt?_threeTargets
      have hsparing : ∀ target file, scriptAt? threeTargets.files target = some file →
          (scriptText threeTargets.files file).toOption.all
          (fun text => decide (Calc.Sparing text)) = true →
          ∀ file text, scriptAt? threeTargets.files target = some file →
            scriptText threeTargets.files file = .ok text → Calc.Sparing text := by
        intro target file hfile hread file' text hfile' htext
        obtain rfl := Option.some.inj (hfile.symm.trans hfile')
        rw [htext] at hread
        exact of_decide_eq_true hread
      refine List.forall_mem_cons.mpr
        ⟨?_, List.forall_mem_cons.mpr ⟨?_, List.forall_mem_singleton.mpr ?_⟩⟩
      · exact hsparing "a" 1 ha (by decide +kernel)
      · exact fun file _ hfile => nomatch hb.symm.trans hfile
      · exact hsparing "c" 2 hc (by decide +kernel) }

theorem turns_threeTargets :
    turns? threeTargets.settings threeTargets.files "sh" 1 threeTargets.targets =
    some threeTurns := by
  have ha : scriptTurn? threeTargets.settings threeTargets.files "sh" 1 "a" 1 = threeTurns[0]? := by
    decide +kernel
  have hc : scriptTurn? threeTargets.settings threeTargets.files "sh" 2 "c" 2 = threeTurns[2]? := by
    decide +kernel
  obtain ⟨hscriptA, hscriptB, hscriptC⟩ := isScript_threeTargets
  obtain ⟨hfileA, hfileB, hfileC⟩ := scriptAt?_threeTargets
  have hrest : turns? threeTargets.settings threeTargets.files "sh" 2 ["c"] = some
      (threeTurns.drop 2) := by
    rw [turns?, if_pos hscriptC, hfileC]
    dsimp only
    rw [hc]
    rfl
  have hmissing : turns? threeTargets.settings threeTargets.files "sh" 2 ["b", "c"] =
      some (threeTurns.drop 1) := by
    rw [turns?, if_pos hscriptB, hfileB]
    dsimp only
    rw [hrest]
    rfl
  change turns? threeTargets.settings threeTargets.files "sh" 1 ["a", "b", "c"] = _
  rw [turns?, if_pos hscriptA, hfileA]
  dsimp only
  rw [ha, hmissing]
  rfl

/-- All three are told about, and the code that counts is that of the file that is not there. -/
theorem transcript_of_three_targets : threeTargets.Suits ∧
    ∃ s, threeTargets.start.run.runAlone? mainThread threeTargets.shell = some (.ok (), s) ∧
      ∀ m, Leads ⟨s, []⟩ m →
        (∃ m', Leads m m' ∧ m'.shared.ended.isSome) ∧
        (m.shared.ended.isSome →
          Ends ⟨["2\n", "a: 0x2f (illegal exit code)\n", "b: 0x1f (no such file)\n",
            "4\n", "x5\n", "c: 0x00 (success)\n"], threeTurns.flatMap Turn.errs, 31⟩ m.shared) := by
  refine ⟨suits_threeTargets, ?_⟩
  obtain ⟨s, all, hstart, hturns, -, hall⟩ := transcript_of_batch threeTargets suits_threeTargets
  obtain rfl : threeTurns = all := Option.some.inj (turns_threeTargets.symm.trans hturns)
  have htranscript : transcript threeTargets.settings threeTurns =
    ⟨["2\n", "a: 0x2f (illegal exit code)\n",
      "b: 0x1f (no such file)\n", "4\n", "x5\n", "c: 0x00 (success)\n"],
        threeTurns.flatMap Turn.errs, 31⟩ := rfl
  rw [htranscript] at hall
  exact ⟨s, hstart, fun m hleads => ⟨(hall m hleads).1, (hall m hleads).2.1⟩⟩

end Sequence

end SessionShell
