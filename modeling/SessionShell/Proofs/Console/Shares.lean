import SessionShell.Proofs.Console.Press

/-!
What the threads beside a console rely on and guarantee.

There is one worker for each stream, and any number of other threads. Only the worker of an outlet
takes a text into its hand, and only the worker of the input takes a request. All else that happens
to a console leaves both alone, and only makes its record longer.
-/

namespace SessionShell

open Action Chronicle

namespace Console

def isStarted : StreamName → Console → Bool
  | .out, c => c.out.started
  | .err, c => c.err.started
  | .input, c => c.input.started

def markStarted : StreamName → Console → Console
  | .out, c => { c with out := { c.out with started := true } }
  | .err, c => { c with err := { c.err with started := true } }
  | .input, c => { c with input := { c.input with started := true } }

theorem isStarted_outlet (x : Outlet) (c : Console) :
    c.isStarted x.name = (c.stream x).started := by
  cases x <;> rfl

theorem isStarted_markStarted (stream other : StreamName) (c : Console) :
    (c.markStarted stream).isStarted other = (other == stream || c.isStarted other) := by
  cases stream <;> cases other <;> rfl

theorem accounts_markStarted {r : ConsoleRecord} {c : Console} (h : r.Accounts c)
    (stream : StreamName) : r.Accounts (c.markStarted stream) := by
  cases stream with
  | out => exact h.start (x := .out)
  | err => exact h.start (x := .err)
  | input => exact h.startInput

theorem isStarted_setStream {x : Outlet} {v : StreamService String} {c : Console}
    (h : v.started = (c.stream x).started) (stream : StreamName) :
    (c.setStream x v).isStarted stream = c.isStarted stream := by
  cases x <;> cases stream <;> first | exact h | rfl

theorem isStarted_write {x : Outlet} {text : String} {c : Console} (stream : StreamName) :
    (c.write x text).isStarted stream = c.isStarted stream := by
  cases x <;> cases stream <;> rfl

theorem isStarted_of_press {c c' : Console} (h : c'.press = c.press) (stream : StreamName) :
    c'.isStarted stream = c.isStarted stream := by
  simp only [press, Prod.mk.injEq] at h
  obtain ⟨hout, herr, hinput, -, -⟩ := h
  cases stream with
  | out => exact congrArg StreamService.started hout
  | err => exact congrArg StreamService.started herr
  | input => exact congrArg StreamService.started hinput

end Console

theorem ConsoleAt.startStream_eq {σ : Type} (place : ConsoleAt σ) (stream : StreamName) :
    place.startStream stream = Action.update fun s =>
      if (place.get s).isStarted stream then s
      else place.launch stream (place.set ((place.get s).markStarted stream) s) := by
  cases stream <;> rfl

theorem Outlet.eq_of_name {x y : Outlet} (h : x.name = y.name) : x = y := by
  cases x <;> cases y <;> first | rfl | cases h

namespace Press

variable {σ κ α : Type} {w : Press σ κ} {γ γ' γ'' : σ × ConsoleRecord} {me : ThreadId}
  {k : Option StreamName} {x : Outlet} {P : σ × ConsoleRecord → Prop}

def Inv (w : Press σ κ) (γ : σ × ConsoleRecord) : Prop :=
  γ.2.Accounts (w.place.get γ.1)

structure Grows (w : Press σ κ) (γ γ' : σ × ConsoleRecord) : Prop where
  inv : w.Inv γ → w.Inv γ'
  log : γ.2.log <+: γ'.2.log
  due : ∀ x, γ.2.due x <+: γ'.2.due x
  started : ∀ stream, (w.place.get γ.1).isStarted stream = true →
    (w.place.get γ'.1).isStarted stream = true

structure Leaves (w : Press σ κ) (k : Option StreamName) (γ γ' : σ × ConsoleRecord) : Prop
    extends w.Grows γ γ' where
  hand : ∀ x : Outlet, k = some x.name → γ'.2.hand x = γ.2.hand x
  serving : k = some .input → γ'.2.serving = γ.2.serving

/-- Who joins by a step. A worker is started by whoever starts its stream. -/
inductive Staffs (w : Press σ κ) (γ γ' : σ × ConsoleRecord) : Prop where
  | nobody (h : w.life.pending γ'.1 = w.life.pending γ.1)
  | others {news : List (ThreadId × κ)} (hroles : ∀ joined ∈ news, w.stream? joined.2 = none)
      (h : w.life.pending γ'.1 = w.life.pending γ.1 ++ news)
  | worker {id : ThreadId} {stream : StreamName}
      (hbefore : (w.place.get γ.1).isStarted stream = false)
      (hafter : (w.place.get γ'.1).isStarted stream = true)
      (h : w.life.pending γ'.1 = w.life.pending γ.1 ++ [(id, w.worker stream)])

structure Does (w : Press σ κ) (k : Option StreamName) (γ γ' : σ × ConsoleRecord) : Prop where
  grows : w.Grows γ γ'
  leaves : ∀ other, other ≠ k ∨ other = none → w.Leaves other γ γ'
  staffs : w.Staffs γ γ'

structure Serves (w : Press σ κ) (γ γ' : σ × ConsoleRecord) : Prop extends w.Grows γ γ' where
  hand : γ'.2.hand = γ.2.hand
  serving : γ'.2.serving = γ.2.serving
  staffs : w.Staffs γ γ'

theorem Grows.refl (γ : σ × ConsoleRecord) : w.Grows γ γ :=
  ⟨fun h => h, List.prefix_rfl, fun _ => List.prefix_rfl, fun _ h => h⟩

theorem Grows.trans (h : w.Grows γ γ') (h' : w.Grows γ' γ'') : w.Grows γ γ'' :=
  ⟨fun hi => h'.inv (h.inv hi), h.log.trans h'.log, fun x => (h.due x).trans (h'.due x),
    fun stream hs => h'.started stream (h.started stream hs)⟩

theorem Leaves.refl (γ : σ × ConsoleRecord) : w.Leaves k γ γ :=
  ⟨.refl γ, fun _ _ => rfl, fun _ => rfl⟩

theorem Leaves.trans (h : w.Leaves k γ γ') (h' : w.Leaves k γ' γ'') : w.Leaves k γ γ'' :=
  ⟨h.toGrows.trans h'.toGrows, fun x hx => (h'.hand x hx).trans (h.hand x hx),
    fun hk => (h'.serving hk).trans (h.serving hk)⟩

theorem Serves.leaves (h : w.Serves γ γ') : w.Leaves k γ γ' :=
  ⟨h.toGrows, fun x _ => congrFun h.hand x, fun _ => h.serving⟩

theorem Serves.does (h : w.Serves γ γ') : w.Does k γ γ' :=
  ⟨h.toGrows, fun _ _ => h.leaves, h.staffs⟩

theorem leaves_of_press (hpress : (w.place.get γ'.1).press = (w.place.get γ.1).press)
    (hr : γ'.2 = γ.2) : w.Leaves k γ γ' := by
  refine ⟨⟨fun h => ?_, ?_, fun x => ?_, fun stream h => ?_⟩, fun x _ =>
    by rw [hr], fun _ => by rw [hr]⟩
  · rw [Inv, hr]
    exact ConsoleRecord.Accounts.of_press h hpress
  · exact hr ▸ List.prefix_rfl
  · exact hr ▸ List.prefix_rfl
  · exact (Console.isStarted_of_press hpress stream).trans h

/-! ## The calls of a thread -/

theorem serves_of_spares {s : σ} (h : w.Spares γ.1 s) : w.Serves γ (s, γ.2) := by
  have hleaves : w.Leaves none γ (s, γ.2) := leaves_of_press h.1 rfl
  obtain ⟨-, news, hnews, hroles⟩ := h
  exact ⟨hleaves.toGrows, rfl, rfl, .others hroles hnews⟩

section Calls

variable (hw : w.Lawful)

include hw

theorem serves_set {c : Console} {r : ConsoleRecord} (hinv : r.Accounts c)
    (hlog : γ.2.log <+: r.log) (hdue : ∀ x, γ.2.due x <+: r.due x)
    (hstarted : ∀ stream, c.isStarted stream = (w.place.get γ.1).isStarted stream)
    (hhand : r.hand = γ.2.hand) (hserving : r.serving = γ.2.serving) :
    w.Serves γ (w.place.set c γ.1, r) := by
  refine ⟨⟨fun _ => ?_, hlog, hdue, fun stream h => ?_⟩, hhand, hserving,
    .nobody (hw.pending_set _ _)⟩
  · rwa [Inv, hw.get_set]
  · rw [hw.get_set, hstarted]
    exact h

theorem serves_print (text : String) (hi : w.Inv γ) :
    w.Serves γ ((w.place.outlet x).set (((w.place.outlet x).get γ.1).submit text) γ.1,
      γ.2.note (.printed x me text)) := by
  rw [ConsoleAt.set_outlet, ConsoleAt.get_outlet]
  refine serves_set hw (ConsoleRecord.Accounts.print hi me text) (List.prefix_append _ _)
    (fun _ => List.prefix_rfl) (Console.isStarted_setStream ?_) rfl rfl
  exact StreamService.started_enqueue

theorem serves_ask (line : LineRequest) (hi : w.Inv γ) :
    w.Serves γ (w.place.input.set ((w.place.input.get γ.1).submit line) γ.1, γ.2.ask line) := by
  refine serves_set hw (ConsoleRecord.Accounts.ask hi line) (List.prefix_append _ _)
    (fun _ => List.prefix_rfl) (fun stream => ?_) rfl rfl
  cases stream with
  | input => exact StreamService.started_enqueue
  | out | err => rfl

theorem serves_mark (hi : w.Inv γ) :
    w.Serves γ ((w.place.outlet x).set ((w.place.outlet x).get γ.1).submitMark.2 γ.1,
      γ.2.mark x ((w.place.outlet x).get γ.1).marks) := by
  have hsubmit : ((w.place.get γ.1).stream x).submitMark.2.started =
      ((w.place.get γ.1).stream x).started := StreamService.started_enqueue
  have hdue : ∀ y, γ.2.due y <+: (γ.2.mark x ((w.place.get γ.1).stream x).marks).due y :=
    fun y => by
    have hhandOut : γ.2.due y <+: (γ.2.handOut x).due y := by
      rw [ConsoleRecord.due_handOut]
      by_cases hy : y = x
      · subst hy
        simp
      · rw [Function.update_of_ne hy]
    cases x <;> exact hhandOut
  rw [ConsoleAt.set_outlet, ConsoleAt.get_outlet]
  refine serves_set hw (ConsoleRecord.Accounts.mark hi) ?_ hdue
    (Console.isStarted_setStream hsubmit)
    ?_ ?_
  · cases x with
    | out => exact List.prefix_append _ _
    | err => exact List.prefix_rfl
  · cases x <;> rfl
  · cases x <;> rfl

theorem serves_start (stream : StreamName) (hi : w.Inv γ) :
    w.Serves γ (if (w.place.get γ.1).isStarted stream then γ.1
      else w.place.launch stream (w.place.set ((w.place.get γ.1).markStarted stream) γ.1),
      γ.2) := by
  cases hstarted : (w.place.get γ.1).isStarted stream with
  | true =>
    simp only [if_true]
    exact serves_of_spares (PressSite.spares_refl _)
  | false =>
    simp only [Bool.false_eq_true, if_false]
    have hget : w.place.get
        (w.place.launch stream (w.place.set ((w.place.get γ.1).markStarted stream) γ.1)) =
          (w.place.get γ.1).markStarted stream := by rw [hw.get_launch, hw.get_set]
    obtain ⟨id, hpending⟩ :=
      hw.pending_launch stream (w.place.set ((w.place.get γ.1).markStarted stream) γ.1)
    rw [hw.pending_set] at hpending
    refine ⟨⟨fun _ => ?_, List.prefix_rfl, fun _ => List.prefix_rfl, fun other h => ?_⟩, rfl, rfl,
      .worker hstarted ?_ hpending⟩
    · rw [Inv, hget]
      exact Console.accounts_markStarted hi stream
    · rw [hget, Console.isStarted_markStarted, h, Bool.or_true]
    · rw [hget, Console.isStarted_markStarted, beq_self_eq_true, Bool.true_or]

end Calls

/-! ## What a thread does by calls of the console -/

structure Bears (w : Press σ κ) (k : Option StreamName) (P : σ × ConsoleRecord → Prop) : Prop where
  inv : ∀ γ, P γ → w.Inv γ
  stable : Stable (w.Leaves k) P

theorem Bears.serves (h : w.Bears k P) (hγ : P γ) (hs : w.Serves γ γ') : w.Does k γ γ' ∧ P γ' :=
  ⟨hs.does, h.stable γ γ' hγ hs.leaves⟩

theorem Bears.and (h : w.Bears k P) {A : σ × ConsoleRecord → Prop} (hA : Stable w.Grows A) :
    w.Bears k fun γ => P γ ∧ A γ where
  inv γ hγ := h.inv γ hγ.1
  stable γ γ' hγ hr := ⟨h.stable γ γ' hγ.1 hr, hA γ γ' hγ.2 hr.toGrows⟩

theorem upholds_serving (h : w.Bears k P) {f : σ → α × σ}
    {notes : ThreadId → σ → α → ConsoleRecord → ConsoleRecord}
    (hserves : ∀ γ, P γ → w.Serves γ ((f γ.1).2, notes me γ.1 (f γ.1).1 γ.2)) :
    Upholds (w.Leaves k) (w.Does k) me P (stepNoted f notes) (Fate.Returns fun _ => P) :=
  upholds_stepNoted h.stable (fun _ => h.stable) fun γ hγ => h.serves hγ (hserves γ hγ)

theorem upholds_silent (h : w.Bears k P) {p : Action σ α} (hp : Within w.Spares p) :
    Upholds (w.Leaves k) (w.Does k) me P (silent p) fun _ => P := by
  intro γ hγ
  induction p generalizing γ with
  | done a => exact fun γ' hr => h.stable γ γ' hγ hr
  | crash => exact fun γ' hr => h.stable γ γ' hγ hr
  | ask act next ih =>
    intro γ₁ answer γ₂ hr hrun
    obtain ⟨⟨answer', s⟩, hs, heq⟩ := Option.map_eq_some_iff.mp hrun
    cases heq
    obtain ⟨hdoes, hP⟩ := h.serves (h.stable γ γ₁ hγ hr) (serves_of_spares (hp.1 me γ₁.1 _ s hs))
    exact ⟨hdoes, ih _ (hp.2 _) _ hP⟩

/-! ## A thread that waits for both outlets -/

structure Behind (past first : List ConsoleEvent) (mark : Nat) (γ : σ × ConsoleRecord) : Prop where
  past : past <+: first
  split : ∃ last, γ.2.log = first ++ .syncing mark :: last

def Due (x : Outlet) (first : List ConsoleEvent) (mark : Nat) (γ : σ × ConsoleRecord) : Prop :=
  ∃ n, (γ.2.due x)[mark]? = some n ∧ (texts x first).length ≤ n

def Written (x : Outlet) (first : List ConsoleEvent) (γ : σ × ConsoleRecord) : Prop :=
  texts x first <+: wrote x γ.2.log

def Past (past : List ConsoleEvent) (γ : σ × ConsoleRecord) : Prop :=
  past <+: γ.2.log

theorem stable_past {past : List ConsoleEvent} : Stable w.Grows (Past past) :=
  fun _ _ h hr => h.trans hr.log

theorem stable_behind {past first : List ConsoleEvent} {mark : Nat} :
    Stable w.Grows (Behind past first mark) := by
  intro γ γ' h hr
  obtain ⟨last, hlast⟩ := h.split
  obtain ⟨more, hmore⟩ := hr.log
  exact ⟨h.past, last ++ more, by rw [← hmore, hlast]; simp⟩

theorem stable_due {first : List ConsoleEvent} {mark : Nat} :
    Stable w.Grows (Due x first mark) := by
  rintro γ γ' ⟨n, hn, hle⟩ hr
  obtain ⟨more, hmore⟩ := hr.due x
  refine ⟨n, ?_, hle⟩
  rw [← hmore, List.getElem?_append_left (List.getElem?_eq_some_iff.mp hn).1, hn]

theorem stable_written {first : List ConsoleEvent} : Stable w.Grows (Written x first) :=
  fun _ _ h hr => List.IsPrefix.trans h (wrote_mono hr.log)

theorem stable_both {rely : σ × ConsoleRecord → σ × ConsoleRecord → Prop}
    {A B : σ × ConsoleRecord → Prop} (hA : Stable rely A) (hB : Stable rely B) :
    Stable rely fun γ => A γ ∧ B γ :=
  fun γ γ' h hr => ⟨hA γ γ' h.1 hr, hB γ γ' h.2 hr⟩

theorem due_mark (hi : w.Inv γ) {first : List ConsoleEvent} (hfirst : first <+: γ.2.log) {s : σ} :
    Due x first ((w.place.outlet x).get γ.1).marks
      (s, γ.2.mark x ((w.place.outlet x).get γ.1).marks) := by
  have hmarks : ((w.place.outlet x).get γ.1).marks = (γ.2.due x).length := by
    rw [ConsoleAt.get_outlet]
    exact (ConsoleRecord.Accounts.flows hi x).marks
  refine ⟨(texts x γ.2.log).length, ?_, (texts_mono hfirst).length_le⟩
  have hdue : (γ.2.mark x ((w.place.outlet x).get γ.1).marks).due x =
      γ.2.due x ++ [(texts x γ.2.log).length] := by
    cases x <;> simp [ConsoleRecord.mark]
  rw [hdue, hmarks]
  simp

section Calls

variable (hw : w.Lawful) (h : w.Bears k P)

include hw h

theorem upholds_start (stream : StreamName) :
    Upholds (w.Leaves k) (w.Does k) me P (silent (w.place.startStream stream))
      (Fate.Returns fun _ => P) := by
  rw [ConsoleAt.startStream_eq]
  change Upholds _ _ me _ (Action.step fun γ : σ × ConsoleRecord =>
    ((), (if (w.place.get γ.1).isStarted stream then γ.1
      else w.place.launch stream (w.place.set ((w.place.get γ.1).markStarted stream) γ.1)), γ.2)) _
  exact upholds_step h.stable (fun _ => h.stable) fun γ hγ =>
    h.serves hγ (serves_start hw stream (h.inv γ hγ))

theorem upholds_mark_out (past : List ConsoleEvent) :
    Upholds (w.Leaves k) (w.Does k) me (fun γ => P γ ∧ Past past γ)
      (PressCall.markNoted w.toPressSite .out)
      (Fate.Returns fun mark γ => P γ ∧ ∃ first, Behind past first mark γ ∧
        Due .out first mark γ) := by
  refine upholds_stepNoted (h.and stable_past).stable (fun mark γ γ' hγ hr => ?_) fun γ hγ => ?_
  · obtain ⟨hP, first, hbehind, hdue⟩ := hγ
    exact ⟨h.stable γ γ' hP hr, first, stable_behind γ γ' hbehind hr.toGrows,
      stable_due γ γ' hdue hr.toGrows⟩
  · obtain ⟨hdoes, hP⟩ := h.serves hγ.1 (serves_mark (x := .out) hw (h.inv γ hγ.1))
    exact ⟨hdoes, hP, γ.2.log, ⟨hγ.2, [], rfl⟩, due_mark (h.inv γ hγ.1) List.prefix_rfl⟩

theorem upholds_mark_err {first : List ConsoleEvent} (hfirst : ∀ γ, P γ → first <+: γ.2.log) :
    Upholds (w.Leaves k) (w.Does k) me P (PressCall.markNoted w.toPressSite .err)
      (Fate.Returns fun mark γ => P γ ∧ Due .err first mark γ) := by
  refine upholds_stepNoted h.stable (fun mark γ γ' hγ hr =>
    ⟨h.stable γ γ' hγ.1 hr, stable_due γ γ' hγ.2 hr.toGrows⟩) fun γ hγ => ?_
  obtain ⟨hdoes, hP⟩ := h.serves hγ (serves_mark (x := .err) hw (h.inv γ hγ))
  exact ⟨hdoes, hP, due_mark (h.inv γ hγ) (hfirst γ hγ)⟩

omit hw in
theorem written_of_reached {first : List ConsoleEvent} {mark : Nat} (hγ : P γ)
    (hfirst : first <+: γ.2.log) (hdue : Due x first mark γ)
    (hreached : ((w.place.outlet x).get γ.1).hasReached mark = true) : Written x first γ := by
  rw [ConsoleAt.get_outlet] at hreached
  obtain ⟨n, hn, hle⟩ := hdue
  refine ConsoleRecord.Accounts.covered (h.inv γ hγ) hfirst (fun m hm => ?_) hreached
  cases hn.symm.trans hm
  exact hle

omit hw in
theorem upholds_reached_out {past first : List ConsoleEvent} {mark : Nat} :
    Upholds (w.Leaves k) (w.Does k) me
      (fun γ => P γ ∧ Behind past first mark γ ∧ Due .out first mark γ)
      (PressCall.reachedNoted w.toPressSite .out mark id)
      (Fate.Returns fun _ γ => P γ ∧ Behind past first mark γ ∧ Written .out first γ) := by
  refine upholds_awaitNoted (h.and (stable_both stable_behind stable_due)).stable
    (fun _ => (h.and (stable_both stable_behind stable_written)).stable) fun γ a s hγ hf => ?_
  obtain ⟨hP, hbehind, hdue⟩ := hγ
  split at hf
  · next hreached =>
    cases hf
    obtain ⟨last, hlast⟩ := hbehind.split
    have hfirst : first <+: γ.2.log := hlast ▸ List.prefix_append _ _
    have hserves : w.Serves γ (γ.1, id γ.2) := serves_of_spares (PressSite.spares_refl _)
    exact ⟨hserves.does, hP, hbehind, written_of_reached h hP hfirst hdue hreached⟩
  · cases hf

omit hw in
theorem upholds_reached_err {past first : List ConsoleEvent} {mark other : Nat} :
    Upholds (w.Leaves k) (w.Does k) me
      (fun γ => (P γ ∧ Behind past first mark γ ∧ Written .out first γ) ∧ Due .err first other γ)
      (PressCall.reachedNoted w.toPressSite .err other (·.note (.synced mark)))
      (Fate.Returns fun _ γ => P γ ∧ Covers past γ.2.log) := by
  have hcovers : Stable w.Grows fun γ : σ × ConsoleRecord => Covers past γ.2.log :=
    fun γ γ' hγ hr x => (hγ x).trans (wrote_mono hr.log)
  refine upholds_awaitNoted
    ((h.and (stable_both stable_behind stable_written)).and stable_due).stable
    (fun _ => (h.and hcovers).stable) fun γ a s hγ hf => ?_
  obtain ⟨⟨hP, hbehind, hout⟩, hdue⟩ := hγ
  split at hf
  · next hreached =>
    cases hf
    obtain ⟨last, hlast⟩ := hbehind.split
    have hfirst : first <+: γ.2.log := hlast ▸ List.prefix_append _ _
    have herr : Written .err first γ := written_of_reached h hP hfirst hdue hreached
    have hcovered : Covers first γ.2.log := fun x => by
      cases x with
      | out => exact hout
      | err => exact herr
    have hinv : w.Inv (γ.1, γ.2.note (.synced mark)) :=
      ConsoleRecord.Accounts.sync (h.inv γ hP) ⟨first, last, hlast, hcovered⟩
    have hserves : w.Serves γ (γ.1, γ.2.note (.synced mark)) :=
      ⟨⟨fun _ => hinv, List.prefix_append _ _, fun _ => List.prefix_rfl, fun _ hs => hs⟩, rfl, rfl,
        .nobody rfl⟩
    refine ⟨hserves.does, h.stable _ _ hP hserves.leaves, fun x => ?_⟩
    exact (texts_mono hbehind.past).trans ((hcovered x).trans (wrote_mono (List.prefix_append _ _)))
  · cases hf

theorem upholds_sync (past : List ConsoleEvent) :
    Upholds (w.Leaves k) (w.Does k) me (fun γ => P γ ∧ Past past γ)
      (PressCall.syncNoted w.toPressSite) (Fate.Returns fun _ γ => P γ ∧ Covers past γ.2.log) := by
  refine (upholds_start hw (h.and stable_past) .out).bind .refl fun _ => ?_
  refine (upholds_mark_out hw h past).bind .refl fun mark γ hγ => ?_
  obtain ⟨hP, first, hbehind, hdue⟩ := hγ
  have hbears := h.and (stable_both stable_behind stable_written :
    Stable w.Grows fun γ => Behind past first mark γ ∧ Written .out first γ)
  have hfirst : ∀ γ : σ × ConsoleRecord, P γ ∧ Behind past first mark γ ∧ Written .out first γ →
      first <+: γ.2.log := by
    rintro γ ⟨-, hbehind, -⟩
    obtain ⟨last, hlast⟩ := hbehind.split
    exact hlast ▸ List.prefix_append _ _
  refine (upholds_reached_out h γ ⟨hP, hbehind, hdue⟩).bind .refl fun _ => ?_
  refine (upholds_start hw hbears .err).bind .refl fun _ => ?_
  exact (upholds_mark_err hw hbears hfirst).bind .refl fun other => upholds_reached_err h

theorem upholds_call (call : PressCall w.toPressSite) :
    Upholds (w.Leaves k) (w.Does k) me P call.recorded fun _ => P := by
  have hreturns : ∀ {α : Type} {p : Action (σ × ConsoleRecord) α},
      Upholds (w.Leaves k) (w.Does k) me P p (Fate.Returns fun _ => P) →
      Upholds (w.Leaves k) (w.Does k) me P p fun _ => P := fun hp γ hγ =>
    (hp γ hγ).mono fun fate γ' hfate => by
      cases fate with
      | returned => exact hfate
      | crashed => exact hfate.elim
      | halted => exact hfate.elim
  cases call with
  | print x text =>
    have hprint : Upholds (w.Leaves k) (w.Does k) me P (PressCall.printNoted w.toPressSite x text)
        (Fate.Returns fun _ => P) :=
      upholds_serving h fun γ hγ => serves_print hw text (h.inv γ hγ)
    exact hreturns hprint
  | ask line =>
    have hask : Upholds (w.Leaves k) (w.Does k) me P (PressCall.askNoted w.toPressSite line)
        (Fate.Returns fun _ => P) :=
      upholds_serving h fun γ hγ => serves_ask hw line (h.inv γ hγ)
    exact hreturns hask
  | start stream => exact hreturns (upholds_start hw h stream)
  | own p hp => exact upholds_silent h hp
  | sync =>
    refine hreturns fun γ hγ => ?_
    exact (upholds_sync hw h []).mono (fun _ _ hs => hs.1) γ ⟨hγ, List.nil_prefix⟩

/-- Whatever a thread does by calls of the console, it knows what it knew, also if it crashes. -/
theorem upholds_errand (errand : PressErrand w.toPressSite α) :
    Upholds (w.Leaves k) (w.Does k) me P errand.recorded fun _ => P := by
  induction errand with
  | done a => exact fun γ hγ γ' hr => h.stable γ γ' hγ hr
  | crash => exact fun γ hγ γ' hr => h.stable γ γ' hγ hr
  | ask call next ih =>
    exact fun γ hγ => (upholds_call hw h call γ hγ).bind_fate .refl (fun a => ih a) fun _ hP => hP

end Calls

end Press

end SessionShell
