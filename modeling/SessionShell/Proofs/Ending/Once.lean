import SessionShell.Proofs.Ending.Attempts
import SessionShell.Shell.Life

/-!
A session ends once, whoever tries to end it and whenever.

The first attempt to record the exit code wins. It calls the exit hook it has found, takes the
session out of the registry, and ends the shell if that was the last session. All other attempts,
and all hooks that come later, are refused.
-/

namespace SessionShell

open Action Shell

namespace Stakes

variable {k : Stakes} {id : SessionId} {γ γ' : Shell × Ledger}

def Result (k : Stakes) (i : Nat) : Attempt → Fate (Except ShellError Unit) → Shell × Ledger → Prop
  | .exit id _ => k.Outcome i id
  | .finish id _ _ => k.Outcome i id
  | .offer id hook => Fate.Returns fun r γ => ∃ late, ⟨i, hook, late, r⟩ ∈ γ.2.offers id

/-- The sessions are there and have not ended, and nobody has done anything yet. -/
structure IsNew (k : Stakes) (c : Crowd (Shell × Ledger) (Except ShellError Unit)) : Prop where
  runners : ∀ (i : Nat) (me : ThreadId) (p : Action (Shell × Ledger) (Except ShellError Unit)),
    c.runners[i]? = some (me, p) → ∃ a, k.attempts[i]? = some a ∧ p = (a.noted i).run
  ledger : c.shared.2 = .empty
  live : ∀ id, k.Contested id → c.shared.1.exitStates id = some ⟨none, k.hook? id, false⟩

/-- Whatever else goes on leaves the states of these sessions alone. -/
def Others (k : Stakes) (s s' : Shell) : Prop :=
  ∀ id, k.Contested id → s'.exitStates id = s.exitStates id

def storedCode (id : SessionId) (c : Crowd (Shell × Ledger) (Except ShellError Unit)) :
    Option Int :=
  (c.shared.1.exitStates id).bind (·.exitCode)

structure EndsOnce (k : Stakes) (id : SessionId)
    (c : Crowd (Shell × Ledger) (Except ShellError Unit)) : Prop where
  /-- Either nobody has won, or one attempt, which has done part of its course, and found the hook
  that was accepted if any was. -/
  course : c.shared.2.course id = .empty ∨
    ∃ (w : Win) (stage : Stage), c.shared.2.course id = w.course id stage ∧ k.IsOf id w ∧
      w.hook? = (hooksOf (k.hook? id) (c.shared.2.offers id)).head?
  code : storedCode id c = (c.shared.2.course id).wins.head?.map (·.code)
  /-- An attempt that has returned has won and done its whole course, or was refused, and then
  another has won. -/
  result : ∀ (i : Nat) (a : Attempt) (me : ThreadId) (r : Except ShellError Unit),
    k.attempts[i]? = some a → a.target = id → a.code?.isSome →
    c.runners[i]? = some (me, .done r) →
      r = .ok () ∧ (∃ (w : Win) (before? : Option Registry),
        w.who = i ∧ c.shared.2.course id = w.course id (.over before?)) ∨
      (∃ name, r = .error (.hasExited name)) ∧ ∃ w ∈ (c.shared.2.course id).wins, w.who ≠ i
  oneHook : (hooksOf (k.hook? id) (c.shared.2.offers id)).length ≤ 1
  /-- A hook that comes after the code was recorded is refused. -/
  late : ∀ o ∈ c.shared.2.offers id, o.late = true → ∃ name, o.answer = .error (.hasExited name)
  early : ∀ o ∈ c.shared.2.offers id, o.late = false →
    o.answer = .ok () ∨ ∃ name, o.answer = .error (.callbackAlreadySet name)
  offer : ∀ (i : Nat) (hook : ExitHook) (me : ThreadId) (r : Except ShellError Unit),
    k.attempts[i]? = some (.offer id hook) → c.runners[i]? = some (me, .done r) →
      ∃ late, ⟨i, hook, late, r⟩ ∈ c.shared.2.offers id
  crash : ∀ (i : Nat) (a : Attempt) (me : ThreadId), k.attempts[i]? = some a → a.target = id →
    c.runners[i]? ≠ some (me, .crash)

variable {c c₀ c' : Crowd (Shell × Ledger) (Except ShellError Unit)}

theorem inv_of_isNew (h : k.IsNew c) : k.Inv c.shared := by
  intro id hid
  refine ⟨_, h.live id hid, ?_⟩
  rw [h.ledger]
  have hhooks : hooksOf (k.hook? id) [] = (k.hook? id).toList := by simp [hooksOf]
  constructor
  · simp [Ledger.empty]
  · simp [Ledger.empty]
  · simp only [Ledger.empty, hhooks]
    cases k.hook? id <;> simp
  · simp only [Ledger.empty, hhooks]
    cases k.hook? id <;> simp

theorem change_of_others {due : Nat → Prop} (h : Crowd.besides k.Others γ γ') :
    k.Change due γ γ' := by
  obtain ⟨hstates, hledger⟩ := h
  have hsame : k.Change due γ (γ.1, γ'.2) := Change.of_eq rfl hledger
  refine ⟨fun hinv id hid => ?_, hsame.kept, hsame.fresh, hsame.offers, hsame.wins⟩
  rw [hstates id hid, hledger]
  exact hinv id hid

def OnTheirWay (k : Stakes) (c : Crowd (Shell × Ledger) (Except ShellError Unit)) : Prop :=
  c.AllSafe k.Rely k.Guarantee fun i fate γ => ∀ a, k.attempts[i]? = some a → k.Result i a fate γ

theorem onTheirWay_of_isNew (h : k.IsNew c) : k.OnTheirWay c := by
  intro i me p hi
  obtain ⟨a, ha, rfl⟩ := h.runners i me p hi
  have hcontested : k.Contested a.target := ⟨a, List.mem_of_getElem? ha, rfl⟩
  have hinv := inv_of_isNew h
  have hwaiting : k.Waiting i a.target c.shared :=
    ⟨hinv, by simp [h.ledger, Ledger.empty, Course.empty]⟩
  have hresult : Safe (k.Rely i) (k.Guarantee i) me (k.Result i a) (a.noted i).run c.shared := by
    cases a with
    | exit id code => exact upholds_exitNoted hcontested (fun _ => ⟨_, ha, rfl, rfl⟩) _ hwaiting
    | finish id code handsOn =>
      exact upholds_finishNoted hcontested (fun _ => ⟨_, ha, rfl, rfl⟩) handsOn _ hwaiting
    | offer id hook => exact upholds_setExitHookNoted hcontested hook _ hinv
  exact hresult.mono fun fate γ hγ a' ha' => by
    cases ha.symm.trans ha'
    exact hγ

theorem onTheirWay_of_reaches {due : Nat → Prop} (hdue : ∀ i, due i) (h : k.OnTheirWay c)
    (hr : c.Reaches (Crowd.besides k.Others) c') :
    k.OnTheirWay c' ∧ k.Change due c.shared c'.shared :=
  Crowd.allSafe_of_reaches (fun _ => Change.refl) (fun _ _ _ _ => Change.trans)
    (fun i j _ _ hij hg => hg.mono fun l hl => by rw [hl]; exact hij)
    (fun _ _ _ => change_of_others) Change.refl (fun _ _ _ => Change.trans)
    (fun _ _ _ hg => hg.mono fun i _ => hdue i) (fun _ _ => change_of_others) hr h

theorem endsOnce_of_onTheirWay (hsafe : k.OnTheirWay c) (hinv : k.Inv c.shared)
    (hid : k.Contested id) : k.EndsOnce id c := by
  obtain ⟨e, he, hfits⟩ := hinv id hid
  have hresult : ∀ (i : Nat) (a : Attempt) (me : ThreadId) (r : Except ShellError Unit),
      k.attempts[i]? = some a → c.runners[i]? = some (me, .done r) →
      k.Result i a (.returned r) c.shared :=
    fun i a me r ha hi => hsafe i me _ hi _ (Change.refl _) a ha
  have hcrash : ∀ (i : Nat) (a : Attempt) (me : ThreadId), k.attempts[i]? = some a →
      c.runners[i]? = some (me, .crash) → k.Result i a .crashed c.shared :=
    fun i a me ha hi => hsafe i me _ hi _ (Change.refl _) a ha
  have houtcome : ∀ (i : Nat) (r : Except ShellError Unit), k.Outcome i id (.returned r) c.shared →
      r = .ok () ∧ (∃ (w : Win) (before? : Option Registry),
        w.who = i ∧ c.shared.2.course id = w.course id (.over before?)) ∨
      (∃ name, r = .error (.hasExited name)) ∧ ∃ w ∈ (c.shared.2.course id).wins, w.who ≠ i := by
    intro i r hr
    cases r with
    | ok =>
      obtain ⟨w, before?, hwho, hrunning⟩ := hr
      exact .inl ⟨rfl, w, before?, hwho, hrunning.2⟩
    | error e =>
      obtain ⟨⟨name, rfl⟩, hwaiting, hsome⟩ := hr
      obtain ⟨w, hw⟩ := List.exists_mem_of_ne_nil _ hsome
      exact .inr ⟨⟨name, rfl⟩, w, hw, hwaiting.2 w hw⟩
  constructor
  · rcases hfits.state with ⟨-, hcourse⟩ | ⟨w, stage, hof, hhook, -, -, hcourse⟩
    · exact .inl hcourse
    · exact .inr ⟨w, stage, hcourse, hof, hhook⟩
  · rw [storedCode, he]
    rcases hfits.state with ⟨rfl, hcourse⟩ | ⟨w, stage, -, -, hcode, -, hcourse⟩
    · rw [hcourse]
      rfl
    · rw [hcourse, Win.wins_course]
      exact hcode
  · intro i a me r ha htarget hends hi
    have hr := hresult i a me r ha hi
    cases a with
    | exit id' code => exact houtcome i r (htarget ▸ hr)
    | finish id' code handsOn => exact houtcome i r (htarget ▸ hr)
    | offer => simp [Attempt.code?] at hends
  · exact hfits.one
  · exact hfits.late
  · exact hfits.early
  · exact fun i hook me r ha hi => hresult i _ me r ha hi
  · intro i a me ha _ hi
    cases a <;> exact hcrash i _ me ha hi

/-- Threads that keep no ledger, each before its attempt, and sessions that have not ended. -/
structure IsOpen (k : Stakes) (r : Crowd Shell (Except ShellError Unit)) : Prop where
  runners : ∀ (i : Nat) (me : ThreadId) (p : Action Shell (Except ShellError Unit)),
    r.runners[i]? = some (me, p) → ∃ a, k.attempts[i]? = some a ∧ p = a.program.run
  live : ∀ id, k.Contested id → r.shared.exitStates id = some ⟨none, k.hook? id, false⟩

theorem exists_contest {r₀ r : Crowd Shell (Except ShellError Unit)} (hopen : k.IsOpen r₀)
    (h : r₀.Reaches k.Others r) :
    ∃ c₀ c, k.IsNew c₀ ∧ c₀.Reaches (Crowd.besides k.Others) c ∧ c.Erases r := by
  let start (i : Nat) (runner : ThreadId × Action Shell (Except ShellError Unit)) :
      ThreadId × Action (Shell × Ledger) (Except ShellError Unit) :=
    (runner.1, (k.attempts[i]?).elim .crash fun a => (a.noted i).run)
  let c₀ : Crowd (Shell × Ledger) (Except ShellError Unit) :=
    ⟨(r₀.shared, .empty), r₀.runners.mapIdx start⟩
  have hstart : ∀ (i : Nat) (me : ThreadId) (p : Action Shell (Except ShellError Unit))
    (a : Attempt),
      k.attempts[i]? = some a → r₀.runners[i]? = some (me, p) →
      c₀.runners[i]? = some (me, (a.noted i).run) := by
    intro i me p a ha hi
    simp [c₀, start, hi, ha]
  have hnew : k.IsNew c₀ := by
    refine ⟨fun i me p hi => ?_, rfl, hopen.live⟩
    obtain ⟨⟨me', p'⟩, hr, -⟩ : ∃ runner, r₀.runners[i]? = some runner ∧
      start i runner = (me, p) := by
      simpa [c₀] using hi
    obtain ⟨a, ha, -⟩ := hopen.runners i me' p' hr
    have := hstart i me' p' a ha hr
    rw [hi] at this
    cases this
    exact ⟨a, ha, rfl⟩
  have herases : c₀.Erases r₀ := by
    refine ⟨rfl, by simp [c₀], fun i me p hi => ?_⟩
    obtain ⟨a, ha, rfl⟩ := hopen.runners i me p hi
    exact ⟨_, hstart i me _ a ha hi, a.erases_noted i⟩
  obtain ⟨c, hreaches, hc⟩ := Crowd.exists_noted h herases
  exact ⟨c₀, c, hnew, hreaches, hc⟩

/-- However the attempts to end a session, and the offers of exit hooks, fall together, the session
ends once, and its code stays. The ledger that tells so can be kept of whatever the threads do. -/
theorem ends_once (k : Stakes) :
    (∀ r₀ r, k.IsOpen r₀ → r₀.Reaches k.Others r →
      ∃ c₀ c, k.IsNew c₀ ∧ c₀.Reaches (Crowd.besides k.Others) c ∧ c.Erases r) ∧
    ∀ c₀ c id, k.IsNew c₀ → c₀.Reaches (Crowd.besides k.Others) c → k.Contested id →
      k.EndsOnce id c ∧ ∀ c' code, c.Reaches (Crowd.besides k.Others) c' →
        storedCode id c = some code → storedCode id c' = some code := by
  refine ⟨fun _ _ => exists_contest, fun c₀ c id hnew h hid => ?_⟩
  obtain ⟨hsafe, hchange⟩ := onTheirWay_of_reaches (fun _ => trivial) (onTheirWay_of_isNew hnew) h
  have hinv := hchange.inv (inv_of_isNew hnew)
  have hends := endsOnce_of_onTheirWay hsafe hinv hid
  refine ⟨hends, fun c' code h' hcode => ?_⟩
  obtain ⟨hsafe', hchange'⟩ := onTheirWay_of_reaches (fun _ => trivial) hsafe h'
  have hends' := endsOnce_of_onTheirWay hsafe' (hchange'.inv hinv) hid
  rw [hends.code] at hcode
  rw [hends'.code]
  obtain ⟨w, hw, rfl⟩ := Option.map_eq_some_iff.mp hcode
  -- Whoever has won is still the only one that has.
  have hstill : w ∈ (c'.shared.2.course id).wins := hchange'.wins id (List.mem_of_mem_head? hw)
  rcases hends'.course with hempty | ⟨w', stage, hcourse, -, -⟩
  · rw [hempty] at hstill
    cases hstill
  · rw [hcourse, Win.wins_course] at hstill ⊢
    rw [List.mem_singleton.mp hstill]
    rfl

/-- A kill and an exit of the second of two sessions. The exit comes first and wins. -/
theorem ends_once_of_kill_and_exit :
    ∃ c, Stakes.EndsOnce ⟨[.finish 1 127 false, .exit 1 9], fun _ => none⟩ 1 c ∧
      storedCode 1 c = some 9 ∧ c.runners.map (·.1) = [0, 1] ∧
      c.shared.2.course 1 = ⟨[⟨1, 9, none⟩], [], [[0, 1]], []⟩ := by
  let k : Stakes := ⟨[.finish 1 127 false, .exit 1 9], fun _ => none⟩
  let new : Shell := .new (.default 1) (.empty "") .empty ⟨[], true⟩ true false
  let made : Shell := aloneOr 0 (newSession "b" none) (aloneOr 0 (newSession "a" none) new)
  let started : Shell := aloneOr 0 (start 1 "calc").run (aloneOr 0 (start 0 "calc").run made)
  let exited : Shell × Ledger := aloneOr 1 (exitNoted 1 1 9).run (started, .empty)
  have hstates : started.exitStates 1 = some ⟨none, none, false⟩ := by decide +kernel
  have hexit : (exitNoted 1 1 9).run.runAlone? 1 (started, .empty) = some (.ok (), exited) :=
    runAlone?_eq_aloneOr (by decide +kernel)
  have hcode : (exited.1.exitStates 1).bind (·.exitCode) = some 9 := by decide
  have hcourse : exited.2.course 1 = ⟨[⟨1, 9, none⟩], [], [[0, 1]], []⟩ := by decide +kernel
  clear_value exited started
  let c₀ : Crowd (Shell × Ledger) (Except ShellError Unit) :=
    ⟨(started, .empty), [(0, (finishNoted 0 1 127 false).run), (1, (exitNoted 1 1 9).run)]⟩
  have hnew : k.IsNew c₀ := by
    refine ⟨fun i me p hi => ?_, rfl, fun id hid => ?_⟩
    · rcases i with _ | _ | i
      · cases hi
        exact ⟨_, rfl, rfl⟩
      · cases hi
        exact ⟨_, rfl, rfl⟩
      · simp [c₀] at hi
    · have hone : id = 1 := by
        obtain ⟨a, ha, rfl⟩ := hid
        simp only [k, List.mem_cons, List.not_mem_nil, or_false] at ha
        rcases ha with rfl | rfl <;> rfl
      rw [hone]
      exact hstates
  have hreaches : c₀.Reaches (Crowd.besides k.Others) _ :=
    Crowd.reaches_of_runAlone? (i := 1) rfl hexit
  exact ⟨_, ((ends_once k).2 _ _ _ hnew hreaches ⟨_, List.mem_cons_self, rfl⟩).1, hcode,
    rfl, hcourse⟩

end Stakes

end SessionShell
