import SessionShell.Proofs.Console.Shares

/-!
What the three workers of a console do. The worker of an outlet writes what it takes, and comes to a
mark when all that was printed before is written. The worker of the input waits for both outlets
before it writes a prompt.
-/

namespace SessionShell

open Action Chronicle

namespace Press

variable {σ κ : Type} {w : Press σ κ} {γ γ' : σ × ConsoleRecord} {me : ThreadId}
  {k : Option StreamName} {x : Outlet} {text : String}

/-- A thread of its kind, with nothing in its hand if it is the worker of an outlet. -/
structure Stands (w : Press σ κ) (k : Option StreamName) (γ : σ × ConsoleRecord) : Prop where
  inv : w.Inv γ
  started : ∀ stream, k = some stream → (w.place.get γ.1).isStarted stream = true
  hand : ∀ x : Outlet, k = some x.name → γ.2.hand x = none

structure Holds (w : Press σ κ) (x : Outlet) (text : String) (γ : σ × ConsoleRecord) : Prop where
  inv : w.Inv γ
  started : (w.place.get γ.1).isStarted x.name = true
  hand : γ.2.hand x = some text

def Comes (w : Press σ κ) (x : Outlet) (mark : Nat) (γ : σ × ConsoleRecord) : Prop :=
  w.Stands (some x.name) γ ∧ ∃ n, (γ.2.due x)[mark]? = some n ∧ n ≤ (wrote x γ.2.log).length

/-- The worker of the input that has taken a request, which was asked for behind `first`. -/
structure Asked (w : Press σ κ) (first : List ConsoleEvent) (request : LineRequest)
    (γ : σ × ConsoleRecord) : Prop where
  inv : w.Inv γ
  started : (w.place.get γ.1).isStarted .input = true
  serving : γ.2.serving = some (asks first).length
  split : ∃ last, γ.2.log = first ++ .asked request :: last

theorem bears_stands : w.Bears k (w.Stands k) where
  inv _ h := h.inv
  stable _ _ h hr := ⟨hr.inv h.inv, fun stream hs => hr.started stream (h.started stream hs),
    fun x hx => (hr.hand x hx).trans (h.hand x hx)⟩

theorem bears_holds : w.Bears (some x.name) (w.Holds x text) where
  inv _ h := h.inv
  stable _ _ h hr := ⟨hr.inv h.inv, hr.started _ h.started, (hr.hand x rfl).trans h.hand⟩

theorem bears_comes {mark : Nat} : w.Bears (some x.name) (w.Comes x mark) where
  inv _ h := h.1.inv
  stable γ γ' h hr := by
    obtain ⟨hstands, n, hn, hle⟩ := h
    obtain ⟨more, hmore⟩ := hr.due x
    refine ⟨bears_stands.stable γ γ' hstands hr, n, ?_,
      Nat.le_trans hle (wrote_mono hr.log).length_le⟩
    rw [← hmore, List.getElem?_append_left (List.getElem?_eq_some_iff.mp hn).1, hn]

theorem bears_asked {first : List ConsoleEvent} {request : LineRequest} :
    w.Bears (some .input) (w.Asked first request) where
  inv _ h := h.inv
  stable γ γ' h hr := by
    obtain ⟨last, hlast⟩ := h.split
    obtain ⟨more, hmore⟩ := hr.log
    exact ⟨hr.inv h.inv, hr.started _ h.started, (hr.serving rfl).trans h.serving,
      last ++ more, by rw [← hmore, hlast]; simp⟩

/-! ## The worker of an outlet -/

section Outlets

variable (hw : w.Lawful)

include hw

theorem does_of_outlet {c : Console} {r : ConsoleRecord} (hinv : r.Accounts c)
    (hlog : γ.2.log <+: r.log) (hdue : r.due = γ.2.due)
    (hstarted : ∀ stream, c.isStarted stream = (w.place.get γ.1).isStarted stream)
    (hhand : ∀ y, y ≠ x → r.hand y = γ.2.hand y) (hserving : r.serving = γ.2.serving) :
    w.Does (some x.name) γ (w.place.set c γ.1, r) := by
  have hgrows : w.Grows γ (w.place.set c γ.1, r) := by
    refine ⟨fun _ => ?_, hlog, fun y => hdue ▸ List.prefix_rfl, fun stream h => ?_⟩
    · rwa [Inv, hw.get_set]
    · rw [hw.get_set, hstarted]
      exact h
  refine ⟨hgrows, fun other hother => ⟨hgrows, fun y hy => hhand y ?_, fun _ => hserving⟩,
    .nobody (hw.pending_set _ _)⟩
  rintro rfl
  rcases hother with hne | hnone
  · exact hne hy
  · cases hnone.symm.trans hy

theorem upholds_take :
    Upholds (w.Leaves (some x.name)) (w.Does (some x.name)) me (w.Stands (some x.name))
      (w.takeNoted x) (Fate.Returns fun q => match q with
        | .request text => w.Holds x text
        | .mark mark => w.Comes x mark) := by
  refine upholds_awaitNoted bears_stands.stable (fun q => ?_) fun γ q s hγ hf => ?_
  · cases q with
    | request text => exact bears_holds.stable
    | mark mark => exact bears_comes.stable
  obtain ⟨⟨q, v⟩, ht, heq⟩ := Option.map_eq_some_iff.mp hf
  cases heq
  rw [ConsoleAt.get_outlet] at ht
  rw [ConsoleAt.set_outlet]
  have hhand := hγ.hand x rfl
  have hstarted : ((w.place.get γ.1).stream x).started = true :=
    (Console.isStarted_outlet x _).symm.trans (hγ.started _ rfl)
  obtain ⟨queue, hqueue, rfl⟩ := StreamService.exists_of_take ht
  have hkept : ∀ stream, ((w.place.get γ.1).setStream x
      { (w.place.get γ.1).stream x with queue }).isStarted stream =
        (w.place.get γ.1).isStarted stream := Console.isStarted_setStream rfl
  cases q with
  | request text =>
    have hinv := ConsoleRecord.Accounts.take hγ.inv hhand hstarted ht
    refine ⟨does_of_outlet hw hinv List.prefix_rfl rfl hkept (fun y hy => ?_) rfl, ?_, ?_, ?_⟩
    · simp [ConsoleRecord.take, hy]
    · rwa [Inv, hw.get_set]
    · rw [hw.get_set, hkept]
      exact hγ.started _ rfl
    · simp [ConsoleRecord.take]
  | mark mark =>
    obtain ⟨hinv, hcome⟩ := ConsoleRecord.Accounts.takeMark hγ.inv hhand ht
    refine ⟨does_of_outlet hw hinv List.prefix_rfl rfl hkept (fun _ _ => rfl) rfl,
      ⟨?_, ?_, ?_⟩, hcome⟩
    · rwa [Inv, hw.get_set]
    · rintro stream ⟨⟩
      rw [hw.get_set, hkept]
      exact hγ.started _ rfl
    · exact hγ.hand

theorem upholds_write :
    Upholds (w.Leaves (some x.name)) (w.Does (some x.name)) me (w.Holds x text)
      (w.writeNoted x text)
      (Fate.Returns fun _ => w.Stands (some x.name)) := by
  refine upholds_stepNoted bears_holds.stable (fun _ => bears_stands.stable) fun γ hγ => ?_
  have hinv := ConsoleRecord.Accounts.write hγ.inv hγ.hand
  refine ⟨does_of_outlet hw hinv (List.prefix_append _ _) rfl Console.isStarted_write
    (fun y hy => by simp [hy]) rfl, ?_, ?_, ?_⟩
  · rwa [Inv, hw.get_set]
  · rintro stream ⟨⟩
    rw [hw.get_set, Console.isStarted_write]
    exact hγ.started
  · intro y hy
    obtain rfl := Outlet.eq_of_name (Option.some.inj hy)
    simp

theorem upholds_reach {mark : Nat} :
    Upholds (w.Leaves (some x.name)) (w.Does (some x.name)) me (w.Comes x mark)
      (silent (Action.update fun s =>
        (w.place.outlet x).set (((w.place.outlet x).get s).reach mark) s))
      (Fate.Returns fun _ => w.Stands (some x.name)) := by
  change Upholds _ _ me _ (Action.step fun γ : σ × ConsoleRecord =>
    ((), (w.place.outlet x).set (((w.place.outlet x).get γ.1).reach mark) γ.1, γ.2)) _
  refine upholds_step bears_comes.stable (fun _ => bears_stands.stable) fun γ hγ => ?_
  obtain ⟨hstands, hcome⟩ := hγ
  rw [ConsoleAt.set_outlet, ConsoleAt.get_outlet]
  have hinv := ConsoleRecord.Accounts.reach hstands.inv hcome
  have hkept : ∀ stream, ((w.place.get γ.1).setStream x
      (((w.place.get γ.1).stream x).reach mark)).isStarted stream =
        (w.place.get γ.1).isStarted stream := Console.isStarted_setStream rfl
  refine ⟨does_of_outlet hw hinv List.prefix_rfl rfl hkept (fun _ _ => rfl) rfl, ?_, ?_,
    hstands.hand⟩
  · rwa [Inv, hw.get_set]
  · intro stream hs
    rw [hw.get_set, hkept]
    exact hstands.started stream hs

theorem upholds_serveOutlet :
    Upholds (w.Leaves (some x.name)) (w.Does (some x.name)) me (w.Stands (some x.name))
      (w.serveOutlet x) (Fate.Returns fun _ => w.Stands (some x.name)) := by
  refine (upholds_take hw).bind .refl fun q => ?_
  cases q with
  | mark mark => exact upholds_reach hw
  | request text =>
    have hattempt : Upholds (w.Leaves (some x.name)) (w.Does (some x.name)) me (w.Holds x text)
        (w.writeNoted x text).attempt (Fate.Returns fun _ => w.Stands (some x.name)) :=
      fun γ hγ => (upholds_write hw γ hγ).attempt (fun _ _ h => h) fun _ h => h.elim
    exact hattempt.bind .refl fun _ γ hγ γ' hr => bears_stands.stable γ γ' hγ hr

/-! ## The worker of the input -/

theorem within_reply (request : LineRequest) (outcome : ReadOutcome) :
    Within w.Spares (w.reply request outcome) :=
  within_update fun s => PressSite.spares_of_nobody (by rw [hw.get_set]; rfl) (hw.pending_set _ _)

theorem within_readLine : Within w.Spares w.place.readLine := by
  refine within_await fun s outcome s' hs => ?_
  obtain ⟨⟨outcome', reader⟩, -, heq⟩ := Option.map_eq_some_iff.mp hs
  cases heq
  exact PressSite.spares_of_nobody (by rw [hw.get_set]; rfl) (hw.pending_set _ _)

theorem upholds_takeAsk :
    Upholds (w.Leaves (some .input)) (w.Does (some .input)) me (w.Stands (some .input))
      w.takeAskNoted (Fate.Returns fun q γ => ∃ request first, q = .request request ∧
        w.Asked first request γ) := by
  refine upholds_awaitNoted bears_stands.stable (fun q γ γ' hγ hr => ?_) fun γ q s hγ hf => ?_
  · obtain ⟨request, first, hq, hasked⟩ := hγ
    exact ⟨request, first, hq, bears_asked.stable γ γ' hasked hr⟩
  obtain ⟨⟨q, v⟩, ht, heq⟩ := Option.map_eq_some_iff.mp hf
  cases heq
  obtain ⟨hinv, request, n, rfl, hserving, hn⟩ := ConsoleRecord.Accounts.takeAsk hγ.inv ht
  obtain ⟨first, last, hlog, rfl⟩ := exists_asked hn
  obtain ⟨queue, -, rfl⟩ := StreamService.exists_of_take ht
  have hkept : ∀ stream, (w.place.get (w.place.input.set
      { w.place.input.get γ.1 with queue } γ.1)).isStarted stream =
        (w.place.get γ.1).isStarted stream := fun stream => by
    have hget : w.place.get (w.place.input.set { w.place.input.get γ.1 with queue } γ.1) =
        { w.place.get γ.1 with input := { (w.place.get γ.1).input with queue } } := hw.get_set _ _
    rw [hget]
    cases stream <;> rfl
  have hinv' : w.Inv (w.place.input.set { w.place.input.get γ.1 with queue } γ.1, γ.2.takeAsk) := by
    have hget : w.place.get (w.place.input.set { w.place.input.get γ.1 with queue } γ.1) =
        { w.place.get γ.1 with input := { (w.place.get γ.1).input with queue } } := hw.get_set _ _
    rw [Inv, hget]
    exact hinv
  have hgrows : w.Grows γ (w.place.input.set { w.place.input.get γ.1 with queue } γ.1,
      γ.2.takeAsk) :=
    ⟨fun _ => hinv', List.prefix_rfl, fun _ => List.prefix_rfl, fun stream hs =>
      (hkept stream).trans hs⟩
  refine ⟨⟨hgrows, fun other hother => ⟨hgrows, fun _ _ => rfl, fun hinput => ?_⟩,
    .nobody (hw.pending_set _ _)⟩, request, first, rfl, hinv', ?_, hserving, last, hlog⟩
  · rcases hother with hne | hnone
    · exact absurd hinput hne
    · cases hnone.symm.trans hinput
  · exact (hkept _).trans (hγ.started _ rfl)

theorem upholds_prompt {first : List ConsoleEvent} {request : LineRequest} :
    Upholds (w.Leaves (some .input)) (w.Does (some .input)) me
      (fun γ => w.Asked first request γ ∧ Covers first γ.2.log) (w.promptNoted request.prompt)
      (Fate.Returns fun _ => w.Asked first request) := by
  have hcovers : Stable w.Grows fun γ : σ × ConsoleRecord => Covers first γ.2.log :=
    fun γ γ' hγ hr x => (hγ x).trans (wrote_mono hr.log)
  refine upholds_stepNoted (bears_asked.and hcovers).stable (fun _ => bears_asked.stable)
    fun γ hγ => ?_
  obtain ⟨hasked, hcovered⟩ := hγ
  obtain ⟨last, hlast⟩ := hasked.split
  have hinv : (γ.2.prompt request.prompt).Accounts ((w.place.get γ.1).write .out request.prompt) :=
    ConsoleRecord.Accounts.prompt hasked.inv hasked.serving
      ⟨first, request, last, hlast, rfl, rfl, hcovered⟩
  have hprompt : γ.2.prompt request.prompt =
      γ.2.note (.prompted (asks first).length request.prompt) := by
    rw [ConsoleRecord.prompt, hasked.serving]
  rw [hprompt] at hinv ⊢
  exact bears_asked.serves hasked (serves_set hw hinv (List.prefix_append _ _)
    (fun _ => List.prefix_rfl) Console.isStarted_write rfl rfl)

theorem upholds_serveRecorded {first : List ConsoleEvent} {request : LineRequest} :
    Upholds (w.Leaves (some .input)) (w.Does (some .input)) me (w.Asked first request)
      (w.serveRecorded request) (Fate.Returns fun _ => w.Asked first request) := by
  have hbears : w.Bears (some .input) (w.Asked first request) := bears_asked
  intro γ hγ
  obtain ⟨last, hlast⟩ := hγ.split
  have hpast : first <+: γ.2.log := hlast ▸ List.prefix_append _ _
  refine (upholds_sync hw hbears first γ ⟨hγ, hpast⟩).bind .refl fun _ => ?_
  refine (upholds_prompt hw).bind .refl fun _ γ hγ => ?_
  refine ((upholds_silent bears_asked (within_readLine hw) γ hγ).returns ?_).bind .refl
    fun outcome γ hγ => ?_
  · exact neverCrashes_silent fun _ => trivial
  · exact (upholds_silent bears_asked (within_reply hw request outcome) γ hγ).returns
      (neverCrashes_silent fun _ => trivial)

theorem upholds_serveInput :
    Upholds (w.Leaves (some .input)) (w.Does (some .input)) me (w.Stands (some .input)) w.serveInput
      (Fate.Returns fun _ => w.Stands (some .input)) := by
  refine (upholds_takeAsk hw).bind .refl fun q γ hγ => ?_
  obtain ⟨request, first, rfl, hasked⟩ := hγ
  have hattempt : Safe (w.Leaves (some .input)) (w.Does (some .input)) me
      (Fate.Returns fun _ => w.Asked first request) (w.serveRecorded request).attempt γ :=
    (upholds_serveRecorded hw γ hasked).attempt (fun _ _ h => h) fun _ h => h.elim
  refine hattempt.bind .refl fun _ γ' hγ' γ'' hr => ?_
  have hγ'' := bears_asked.stable γ' γ'' hγ' hr
  refine ⟨hγ''.inv, ?_, fun x hx => ?_⟩
  · rintro stream ⟨⟩
    exact hγ''.started
  · cases x <;> cases hx

theorem upholds_work (stream : StreamName) :
    Upholds (w.Leaves (some stream)) (w.Does (some stream)) me (w.Stands (some stream))
      (w.workRecorded stream) (Fate.Returns fun _ => w.Stands (some stream)) := by
  cases stream with
  | out => exact upholds_serveOutlet (x := .out) hw
  | err => exact upholds_serveOutlet (x := .err) hw
  | input => exact upholds_serveInput hw

end Outlets

end Press

end SessionShell
