import SessionShell.Proofs.ParentHook.Deeds
import SessionShell.Shell.Life

/-!
What becomes of an exit hook that a child leaves to its parent.

It is called at most once, and on the child's code. It is called once if the parent is disposed of
before the child ends, or gets through its tasks behind that. But a parent that exits drops the
tasks that are left, and a hook that is among them is lost.
-/

namespace SessionShell

open Action Shell

namespace Crowd

variable {σ α : Type} {others : σ → σ → Prop} {c c' : Crowd σ α}

theorem length_of_reaches (h : Reaches others c c') : c'.runners.length = c.runners.length := by
  induction h with
  | refl => rfl
  | tail _ hs ih =>
    cases hs with
    | act => exact List.length_set.trans ih
    | others => exact ih

end Crowd

namespace ParentHook

variable {k : ParentHook} {s : Shell} {scripts : List (ThreadId × k.Script)}
  {c c' : Crowd (Shell × Passage) Unit} {i n : Nat} {code : Int}

/-- The child was forked with the hook, and has not ended. -/
structure IsForked (k : ParentHook) (s : Shell) : Prop where
  parent : k.parent < s.sessions.size
  child : k.child < s.sessions.size
  state : (s.session k.child).exitState = ⟨none, some k.childHook, false⟩

def crowd (k : ParentHook) (s : Shell) (scripts : List (ThreadId × k.Script)) : Crowd Shell Unit :=
  ⟨s, scripts.map fun runner => (runner.1, runner.2.expand Deed.perform)⟩

/-- The same threads, with the record. -/
def crowdTold (k : ParentHook) (s : Shell) (scripts : List (ThreadId × k.Script)) :
    Crowd (Shell × Passage) Unit :=
  ⟨(s, .start), scripts.mapIdx fun i runner => (runner.1, runner.2.expand (Deed.told i))⟩

theorem exists_told {r : Crowd Shell Unit} (h : (k.crowd s scripts).Reaches k.Aside r) :
    ∃ c, (k.crowdTold s scripts).Reaches (Crowd.besides k.Aside) c ∧ c.Erases r := by
  refine Crowd.exists_noted h ⟨rfl, by simp [crowd, crowdTold], fun i me p hi => ?_⟩
  obtain ⟨runner, hrunner, heq⟩ : ∃ runner, scripts[i]? = some runner ∧
      (runner.1, runner.2.expand Deed.perform) = (me, p) := by
    simpa [crowd] using hi
  cases heq
  exact ⟨runner.2.expand (Deed.told i), by simp [crowdTold, hrunner], erases_script runner.2⟩

def parentOf (k : ParentHook) (c : Crowd (Shell × Passage) Unit) : Session :=
  c.shared.1.session k.parent

def childOf (k : ParentHook) (c : Crowd (Shell × Passage) Unit) : Session :=
  c.shared.1.session k.child

/-- The hook was called exactly once, on the child's exit code. -/
def CalledOnce (k : ParentHook) (c : Crowd (Shell × Passage) Unit) : Prop :=
  ∃ code, (k.childOf c).exitCode = some code ∧ c.shared.2.calls = [code]

/-- A thread that goes on has taken the hook off the tasks, and not called it yet. -/
def InHand (c : Crowd (Shell × Passage) Unit) : Prop :=
  ∃ (i : Nat) (code : Int) (me : ThreadId) (act : Act (Shell × Passage))
    (next : act.Answer → Action (Shell × Passage) Unit),
    c.shared.2.holder = .server i code ∧ c.runners[i]? = some (me, .ask act next)

/-- The hook waits among the tasks of the parent. -/
def Queued (k : ParentHook) (c : Crowd (Shell × Passage) Unit) : Prop :=
  ∃ code, (k.childOf c).exitCode = some code ∧ .runHook k.hook code ∈ (k.parentOf c).tasks

def Lost (k : ParentHook) (c : Crowd (Shell × Passage) Unit) : Prop :=
  (k.parentOf c).disposed = true ∧ ∃ code, c.shared.2.holder = .dropped code

structure Kept (k : ParentHook) (c : Crowd (Shell × Passage) Unit) : Prop where
  once : c.shared.2.calls.length ≤ 1
  code : ∀ code ∈ c.shared.2.calls, (k.childOf c).exitCode = some code
  /-- As long as the child has no code, the hook is its own. -/
  before : (k.childOf c).exitCode = none →
    (k.childOf c).exitHook = some k.childHook ∧ c.shared.2.calls = []
  behind : (k.childOf c).disposed = true →
    k.CalledOnce c ∨ c.shared.2.calls = [] ∧ (k.Queued c ∨ InHand c ∨ k.Lost c)

def doing : List k.Deed → k.Script
  | [] => .done ()
  | d :: ds => .ask d fun _ => doing ds

/-! ## The course of a crowd -/

def OnTheirWay (k : ParentHook) (n : Nat) (c : Crowd (Shell × Passage) Unit) : Prop :=
  c.AllSafe k.Rely (fun i => k.Change fun j => j = i ∧ i < n) fun i _ => k.At (Free i)

theorem inv_of_isForked (h : k.IsForked s) : k.Inv (s, .start) :=
  ⟨h.parent, h.child, h.state, rfl⟩

theorem onTheirWay_of_isForked (h : k.IsForked s) :
    k.OnTheirWay scripts.length (k.crowdTold s scripts) := by
  intro i me p hi
  obtain ⟨runner, hrunner, heq⟩ : ∃ runner, scripts[i]? = some runner ∧
      (runner.1, runner.2.expand (Deed.told i)) = (me, p) := by
    simpa [crowdTold] using hi
  cases heq
  have hlt : i < scripts.length := (List.getElem?_eq_some_iff.mp hrunner).1
  have hfree : k.At (Free i) (s, .start) := ⟨inv_of_isForked h, nofun⟩
  exact (upholds_script runner.2 _ hfree).guar_mono fun _ _ hg => hg.mono fun j hj => ⟨hj, hj ▸ hlt⟩

theorem change_of_besides {due : Nat → Prop} {γ γ' : Shell × Passage}
    (h : Crowd.besides k.Aside γ γ') : k.Change due γ γ' := by
  obtain ⟨haside, hsame⟩ := h
  have hchange : k.Change due γ (γ'.1, γ.2) := .of_aside haside
  rwa [← hsame] at hchange

theorem onTheirWay_of_reaches (h : k.OnTheirWay n c) (hr : c.Reaches (Crowd.besides k.Aside) c') :
    k.OnTheirWay n c' ∧ k.Change (· < n) c.shared c'.shared :=
  Crowd.allSafe_of_reaches (fun _ => Change.refl) (fun _ _ _ _ => Change.trans)
    (fun i j _ _ hij hg => hg.mono fun l hl => by rw [hl.1]; exact hij)
    (fun _ γ γ' ho => change_of_besides ho) Change.refl
    (fun _ _ _ => Change.trans) (fun _ _ _ hg => hg.mono fun _ hi => hi.1 ▸ hi.2)
    (fun γ γ' ho => change_of_besides ho) hr h

structure Underway (k : ParentHook) (n : Nat) (c : Crowd (Shell × Passage) Unit) : Prop where
  safe : k.OnTheirWay n c
  inv : k.Inv c.shared
  length : c.runners.length = n
  hands : ∀ i, c.shared.2.holder.thread? = some i → i < n

theorem underway_of_isForked (h : k.IsForked s) :
    k.Underway scripts.length (k.crowdTold s scripts) :=
  ⟨onTheirWay_of_isForked h, inv_of_isForked h, by simp [crowdTold], nofun⟩

theorem Underway.of_reaches (h : k.Underway n c) (hr : c.Reaches (Crowd.besides k.Aside) c') :
    k.Underway n c' := by
  obtain ⟨hsafe, hchange⟩ := onTheirWay_of_reaches h.safe hr
  refine ⟨hsafe, hchange.inv h.inv, (Crowd.length_of_reaches hr).trans h.length, fun i hi => ?_⟩
  by_contra hn
  exact hn (h.hands i (hchange.fresh i hi hn))

theorem Underway.inHand (h : k.Underway n c) (hserver : c.shared.2.holder = .server i code) :
    InHand c := by
  have hhand : c.shared.2.holder.thread? = some i := by rw [hserver]; rfl
  have hlt : i < c.runners.length := h.length.symm ▸ h.hands i hhand
  rcases hp : c.runners[i] with ⟨me, p⟩
  have hi : c.runners[i]? = some (me, p) := by rw [List.getElem?_eq_getElem hlt, hp]
  have hsafe := h.safe i me p hi
  cases p with
  | done a => exact absurd hhand (hsafe c.shared (Change.refl _)).2
  | crash => exact absurd hhand (hsafe c.shared (Change.refl _)).2
  | ask act next => exact ⟨i, code, me, act, next, hserver, hi⟩

theorem kept_of_uncalled (hcalls : c.shared.2.calls = [])
    (hcode : (k.childOf c).exitCode = some code)
    (hbehind : (k.childOf c).disposed = true → k.Queued c ∨ InHand c ∨ k.Lost c) : k.Kept c := by
  refine ⟨by simp [hcalls], by simp [hcalls], fun hnone => ?_, fun hd => .inr ⟨hcalls, hbehind hd⟩⟩
  rw [hcode] at hnone
  cases hnone

theorem Underway.kept (h : k.Underway n c) : k.Kept c := by
  rcases hholder : c.shared.2.holder
  all_goals
    have hfits := h.inv.fits
    rw [Fits, hholder] at hfits
  case child =>
    have hdisposed : (k.childOf c).disposed = false := congrArg ExitState.disposed hfits.1
    refine ⟨by simp [hfits.2], by simp [hfits.2],
      fun _ => ⟨congrArg ExitState.exitHook hfits.1, hfits.2⟩, fun hd => ?_⟩
    rw [hdisposed] at hd
    cases hd
  case ender who code =>
    refine kept_of_uncalled hfits.2.2.1 hfits.1 fun hd => ?_
    have hdisposed : (k.childOf c).disposed = false := hfits.2.1
    rw [hdisposed] at hd
    cases hd
  case queue ahead code =>
    exact kept_of_uncalled hfits.2.1 hfits.1 fun _ =>
      .inl ⟨code, hfits.1, List.mem_of_getElem? hfits.2.2.2⟩
  case server who code =>
    exact kept_of_uncalled hfits.2.1 hfits.1 fun _ => .inr (.inl (h.inHand hholder))
  case called code =>
    obtain ⟨hcode, hcalls⟩ := hfits
    refine ⟨by simp [hcalls], ?_, fun hnone => ?_, fun _ => .inl ⟨code, hcode, hcalls⟩⟩
    · rw [hcalls]
      rintro _ (_ | ⟨_, ⟨⟩⟩)
      exact hcode
    · exact absurd (hcode.symm.trans hnone) (Option.some_ne_none _)
  case dropped code =>
    exact kept_of_uncalled hfits.2.1 hfits.1 fun _ => .inr (.inr ⟨hfits.2.2.2, code, hholder⟩)

theorem Underway.called_or_inHand (h : k.Underway n c) (ht : c.shared.2.holder.isTaken = true) :
    k.CalledOnce c ∨ InHand c := by
  have hfits := h.inv.fits
  rw [Fits] at hfits
  cases hholder : c.shared.2.holder with
  | server who code => exact .inr (h.inHand hholder)
  | called code =>
    rw [hholder] at hfits
    exact .inl ⟨code, hfits⟩
  | child | ender | queue | dropped => rw [hholder] at ht; cases ht

theorem Underway.calledOnce_of_tooLate (h : k.Underway n c) (hlate : k.TooLate c.shared)
    (hdisposed : (k.childOf c).disposed = true) : k.CalledOnce c := by
  have hover := h.inv.isHandedOver hdisposed
  have hfits := h.inv.fits
  rw [Fits] at hfits
  have hlate : c.shared.2.late = true := by
    rcases hlate with ⟨hchild, -⟩ | ⟨-, hlate⟩
    · rw [hchild] at hover
      cases hover
    · exact hlate
  cases hholder : c.shared.2.holder with
  | called code =>
    rw [hholder] at hfits
    exact ⟨code, hfits⟩
  | queue | server | dropped =>
    rw [hholder, hlate] at hfits
    exact absurd hfits.2.2 (by simp)
  | child | ender => rw [hholder] at hover; cases hover

theorem Underway.holder_of_open (h : k.Underway n c) (hopen : (k.childOf c).exitCode = none) :
    c.shared.2.holder = .child := by
  have hfits := h.inv.fits
  rw [Fits] at hfits
  cases hholder : c.shared.2.holder with
  | child => rfl
  | ender | queue | server | called | dropped =>
    rw [hholder] at hfits
    exact absurd (hfits.1.symm.trans hopen) (Option.some_ne_none _)

/-- A hook that a live parent has no more among its tasks was taken off them, or called at once. -/
theorem Underway.isTaken (h : k.Underway n c) (hdisposed : (k.childOf c).disposed = true)
    (hparent : (k.parentOf c).disposed = false) (hqueue : ¬k.Queued c) :
    c.shared.2.holder.isTaken = true := by
  have hover := h.inv.isHandedOver hdisposed
  have hfits := h.inv.fits
  rw [Fits] at hfits
  cases hholder : c.shared.2.holder with
  | queue ahead code =>
    rw [hholder] at hfits
    exact absurd ⟨code, hfits.1, List.mem_of_getElem? hfits.2.2.2⟩ hqueue
  | dropped code =>
    rw [hholder] at hfits
    exact Bool.noConfusion (hfits.2.2.2.symm.trans hparent)
  | server | called => rfl
  | child | ender => rw [hholder] at hover; cases hover

/-- However the end of the child, that of the parent and the parent's tasks fall together, the hook
is called at most once. If the parent is disposed of before the child has ended, or is alive behind
that and the hook is not among its tasks, it is called. The record that tells so can be kept of
whatever the threads do. -/
theorem called_once_or_lost (k : ParentHook) (s : Shell) (scripts : List (ThreadId × k.Script)) :
    (∀ r, (k.crowd s scripts).Reaches k.Aside r →
      ∃ c, (k.crowdTold s scripts).Reaches (Crowd.besides k.Aside) c ∧ c.Erases r) ∧
    ∀ c, k.IsForked s → (k.crowdTold s scripts).Reaches (Crowd.besides k.Aside) c →
      k.Kept c ∧ ∀ c', c.Reaches (Crowd.besides k.Aside) c' →
        ((k.parentOf c).disposed = true → (k.childOf c).exitCode = none →
          (k.childOf c').disposed = true → k.CalledOnce c') ∧
        ((k.childOf c).disposed = true → (k.parentOf c).disposed = false → ¬k.Queued c →
          k.CalledOnce c' ∨ InHand c') := by
  refine ⟨fun _ => exists_told, fun c hforked h => ?_⟩
  have hway := (underway_of_isForked hforked).of_reaches h
  refine ⟨hway.kept, fun c' h' => ?_⟩
  have hway' := hway.of_reaches h'
  obtain ⟨-, hchange⟩ := onTheirWay_of_reaches hway.safe h'
  refine ⟨fun hparent hnone hdisposed => ?_, fun hdisposed hparent hqueue => ?_⟩
  · have hchild := hway.holder_of_open hnone
    exact hway'.calledOnce_of_tooLate (hchange.tooLate hway.inv (.inl ⟨hchild, hparent⟩)) hdisposed
  · exact hway'.called_or_inHand (hchange.taken (hway.isTaken hdisposed hparent hqueue))

/-- A parent, with another session beside it, and a child that is to tell it of its end. -/
def family : ParentHook :=
  ⟨0, 2, .note "t" false, by decide⟩

def forkedFamily : Shell :=
  let new : Shell := .new (.default 1) (.empty "") .empty ⟨[], true⟩ true false
  let made := aloneOr 0 (newSession "b" none) (aloneOr 0 (newSession "a" none) new)
  let started := aloneOr 0 (start 1 "calc").run (aloneOr 0 (start 0 "calc").run made)
  aloneOr 0 (fork 0 { hook := some (.note "t" false), hookInParent := true }).run started

theorem isForked_family : family.IsForked forkedFamily :=
  ⟨by decide, by decide, rfl⟩

/-- Offers the child another hook, and ends the session beside. -/
def bystander : family.Script :=
  doing [.aside (setExitHook 2 .nothing).run (aside_setExitHook 2 .nothing),
    .aside (finish 1 7 true true).run (aside_finish (by decide) (by decide) true true)]

/-- The child exits, the parent comes to its tasks, and exits. In another course the parent exits
first, and the child behind it. -/
theorem called_once_of_drained_and_of_late :
    let c₀ := family.crowdTold forkedFamily
      [(1, doing [.endChild 3 true]), (2, doing [.serve, .serve]),
        (3, doing [.endParent 5 true true]), (4, bystander)]
    (∃ c, c₀.Reaches (Crowd.besides family.Aside) c ∧ family.Kept c ∧ family.CalledOnce c ∧
      (family.childOf c).exitCode = some 3 ∧ (family.parentOf c).disposed = true) ∧
    ∃ c, c₀.Reaches (Crowd.besides family.Aside) c ∧ family.CalledOnce c ∧
      (family.childOf c).exitCode = some 3 ∧ (family.parentOf c).disposed = true := by
  let child : Action (Shell × Passage) Unit :=
    (doing (k := family) [.endChild 3 true]).expand (Deed.told 0)
  let serving : Action (Shell × Passage) Unit :=
    (doing (k := family) [.serve, .serve]).expand (Deed.told 1)
  let parent : Action (Shell × Passage) Unit :=
    (doing (k := family) [.endParent 5 true true]).expand (Deed.told 2)
  let beside : Action (Shell × Passage) Unit := bystander.expand (Deed.told 3)
  let ended : Shell × Passage := aloneOr 1 child (forkedFamily, .start)
  let served : Shell × Passage := aloneOr 2 serving ended
  let gone : Shell × Passage := aloneOr 3 parent served
  let left : Shell × Passage := aloneOr 3 parent (forkedFamily, .start)
  let late : Shell × Passage := aloneOr 1 child left
  have hchild : child.runAlone? 1 (forkedFamily, .start) = some ((), ended) :=
    runAlone?_eq_aloneOr_of_map (by decide)
  have hserving : serving.runAlone? 2 ended = some ((), served) :=
    runAlone?_eq_aloneOr_of_map (by decide)
  have hparent : parent.runAlone? 3 served = some ((), gone) :=
    runAlone?_eq_aloneOr_of_map (by decide)
  have hleft : parent.runAlone? 3 (forkedFamily, .start) = some ((), left) :=
    runAlone?_eq_aloneOr_of_map rfl
  have hlate : child.runAlone? 1 left = some ((), late) :=
    runAlone?_eq_aloneOr_of_map (by decide)
  have hdrained : (served.1.session 2).disposed = true ∧ (served.1.session 0).disposed = false ∧
      (served.1.session 0).tasks = [] := by decide
  have hgone : (gone.1.session 2).exitCode = some 3 ∧ (gone.1.session 0).disposed = true := by
    decide
  have hcalled : gone.2.holder = .called 3 := by decide
  have hopen : (left.1.session 0).disposed = true ∧ (left.1.session 2).exitCode = none := by decide
  have hover : (late.1.session 2).disposed = true ∧ (late.1.session 2).exitCode = some 3 ∧
      (late.1.session 0).disposed = true := by decide
  clear_value ended served gone left late
  intro c₀
  constructor
  · have hfirst :=
      @Crowd.reaches_of_runAlone? _ _ (Crowd.besides family.Aside) c₀ 0 1 child ended ()
      rfl hchild
    have hsecond := @Crowd.reaches_of_runAlone? _ _ (Crowd.besides family.Aside)
      ⟨ended, [(1, .done ()), (2, serving), (3, parent), (4, beside)]⟩ 1 2 serving served
        () rfl hserving
    have hthird := @Crowd.reaches_of_runAlone? _ _ (Crowd.besides family.Aside)
      ⟨served, [(1, .done ()), (2, .done ()), (3, parent), (4, beside)]⟩ 2 3 parent gone
        () rfl hparent
    have hreaches := hfirst.trans hsecond
    obtain ⟨-, hon⟩ := (called_once_or_lost _ _ _).2 _ isForked_family hreaches
    obtain ⟨hkept, -⟩ := (called_once_or_lost _ _ _).2 _ isForked_family (hreaches.trans hthird)
    refine ⟨_, hreaches.trans hthird, hkept, ?_, hgone⟩
    refine ((hon _ hthird).2 hdrained.1 hdrained.2.1 fun ⟨code, _, htask⟩ => ?_).resolve_right ?_
    · have htask : Task.runHook family.hook code ∈ (served.1.session 0).tasks := htask
      rw [hdrained.2.2] at htask
      cases htask
    · rintro ⟨i, code, -, -, -, hserver, -⟩
      exact Holder.noConfusion (hcalled.symm.trans hserver)
  · have hfirst :=
      @Crowd.reaches_of_runAlone? _ _ (Crowd.besides family.Aside) c₀ 2 3 parent left ()
      rfl hleft
    have hsecond := @Crowd.reaches_of_runAlone? _ _ (Crowd.besides family.Aside)
      ⟨left, [(1, child), (2, serving), (3, .done ()), (4, beside)]⟩ 0 1 child late () rfl hlate
    obtain ⟨-, hon⟩ := (called_once_or_lost _ _ _).2 _ isForked_family hfirst
    exact ⟨_, hfirst.trans hsecond, (hon _ hsecond).1 hopen.1 hopen.2 hover.1, hover.2⟩

/-- The child exits and the parent behind it, before it has come to its tasks. Both have exited, all
threads are through, and nobody was told of the child's code. -/
theorem lost_of_parent_exit : ∃ c, (family.crowdTold forkedFamily
      [(1, doing [.endChild 3 true]), (2, doing [.endParent 5 true true])]).Reaches
        (Crowd.besides family.Aside) c ∧
    c.runners = [(1, .done ()), (2, .done ())] ∧
    (family.childOf c).disposed = true ∧ (family.childOf c).exitCode = some 3 ∧
    (family.parentOf c).disposed = true ∧ (family.parentOf c).tasks = [] ∧
    c.shared.2.calls = [] ∧ c.shared.1.events = #[] := by
  let child : Action (Shell × Passage) Unit :=
    (doing (k := family) [.endChild 3 true]).expand (Deed.told 0)
  let parent : Action (Shell × Passage) Unit :=
    (doing (k := family) [.endParent 5 true true]).expand (Deed.told 1)
  let ended : Shell × Passage := aloneOr 1 child (forkedFamily, .start)
  let gone : Shell × Passage := aloneOr 2 parent ended
  have hchild : child.runAlone? 1 (forkedFamily, .start) = some ((), ended) :=
    runAlone?_eq_aloneOr_of_map (by decide)
  have hparent : parent.runAlone? 2 ended = some ((), gone) :=
    runAlone?_eq_aloneOr_of_map (by decide)
  have hgone : (gone.1.session 2).disposed = true ∧ (gone.1.session 2).exitCode = some 3 ∧
      (gone.1.session 0).disposed = true ∧ (gone.1.session 0).tasks = [] ∧
      gone.2.calls = [] ∧ gone.1.events = #[] := by decide
  clear_value ended gone
  have hfirst := @Crowd.reaches_of_runAlone? _ _ (Crowd.besides family.Aside)
    (family.crowdTold forkedFamily
      [(1, doing [.endChild 3 true]), (2, doing [.endParent 5 true true])]) 0 1 child ended
        () rfl hchild
  have hlast := @Crowd.reaches_of_runAlone? _ _ (Crowd.besides family.Aside)
    ⟨ended, [(1, .done ()), (2, parent)]⟩ 1 2 parent gone () rfl hparent
  exact ⟨⟨gone, [(1, .done ()), (2, .done ())]⟩, hfirst.trans hlast, rfl, hgone⟩

end ParentHook

end SessionShell
