import SessionShell.CommandLine.Invocation
import SessionShell.Proofs.Batch.Complete
import SessionShell.Proofs.Ending.Everyone
import SessionShell.Proofs.Ending.LastTurns

/-!
What the parent process sees of a batch.

Codes are stored and folded as whole numbers, and the parent process sees the last eight bits of the
one that is left. So a batch that fails is seen to fail unless these bits are all zero, and the
signals of the shell are seen where its code is congruent to one of them.
-/

namespace SessionShell

open SessionShell.Action

namespace Batch

variable {codes : List (String × Int)}

/-- The last of these codes that is an error. -/
def lastError? (codes : List (String × Int)) : Option Int :=
  ((codes.map Prod.snd).filter (· ≠ 0)).getLast?

theorem lastError?_eq_none_iff : lastError? codes = none ↔ ∀ x ∈ codes, x.2 = 0 := by
  rw [lastError?, List.getLast?_eq_none_iff, List.filter_eq_nil_iff, List.forall_mem_map]
  simp

theorem lastError?_append_singleton (x : String × Int) :
    lastError? (codes ++ [x]) = if x.2 = 0 then lastError? codes else some x.2 := by
  by_cases hx : x.2 = 0
  · simp [lastError?, hx]
  · simp [lastError?, hx]

theorem foldAll_eq_lastError : foldAll false codes = (lastError? codes).getD 0 := by
  induction codes using List.reverseRecOn with
  | nil => rfl
  | append_singleton codes x ih =>
    rw [foldAll_append_singleton, lastError?_append_singleton, ih]
    by_cases hx : x.2 = 0
    · simp [fold, hx]
    · simp [fold, hx]

theorem foldAll_mem_range {low high : Int} (h : ∀ x ∈ codes, low ≤ x.2 ∧ x.2 < high)
    (hzero : low ≤ 0 ∧ 0 < high) : low ≤ foldAll false codes ∧ foldAll false codes < high := by
  induction codes using List.reverseRecOn with
  | nil => exact hzero
  | append_singleton codes x ih =>
    rw [foldAll_append_singleton]
    simp only [fold, Bool.false_or, decide_eq_true_eq]
    split
    · exact h x (by simp)
    · exact ih fun y hy => h y (by simp [hy])

end Batch

namespace ExitCode

variable {code : Int}

theorem status_eq_emod (code : Int) : (status code : Int) = code % 256 :=
  Int.toNat_of_nonneg (Int.emod_nonneg code (by decide))

theorem status_eq_zero_iff : status code = 0 ↔ 256 ∣ code := by
  rw [← Int.natCast_inj, status_eq_emod]
  exact (Int.dvd_iff_emod_eq_zero).symm

theorem status_of_small (h : 0 ≤ code ∧ code < 256) : (status code : Int) = code := by
  rw [status_eq_emod, Int.emod_eq_of_lt h.1 h.2]

end ExitCode

namespace Batch

variable {codes : List (String × Int)}

theorem status_foldAll_eq_zero_iff : ExitCode.status (foldAll false codes) = 0 ↔
    (∀ c ∈ codes, c.2 = 0) ∨ ∃ e, lastError? codes = some e ∧ 256 ∣ e := by
  rw [ExitCode.status_eq_zero_iff, foldAll_eq_lastError, ← lastError?_eq_none_iff]
  cases lastError? codes <;> simp

theorem status_foldAll_of_small (hsmall : ∀ c ∈ codes, 0 ≤ c.2 ∧ c.2 < 256) :
    (ExitCode.status (foldAll false codes) : Int) = foldAll false codes :=
  ExitCode.status_of_small (foldAll_mem_range hsmall (by decide))

theorem foldAll_eq_zero_iff : foldAll false codes = 0 ↔ ∀ c ∈ codes, c.2 = 0 := by
  rw [← not_iff_not, ← ne_eq, BatchSite.foldAll_ne_zero_iff]
  simp

/-- How a batch that has counted these codes in is seen to have ended. Success is seen where there
is no error, but also where the last error is a multiple of 256; and a signal of the shell is seen
where the last error is congruent to it. Of codes below 256 neither is seen in place of another. -/
structure Seen (codes : List (String × Int)) (status : Nat) : Prop where
  success : status = 0 ↔ (∀ c ∈ codes, c.2 = 0) ∨ ∃ e, lastError? codes = some e ∧ 256 ∣ e
  signal : ∀ r : ReservedCode, status = r.code ↔ (lastError? codes).getD 0 % 256 = r.code
  small : (∀ c ∈ codes, 0 ≤ c.2 ∧ c.2 < 256) → (status = 0 ↔ ∀ c ∈ codes, c.2 = 0) ∧
    ∀ r : ReservedCode, status = r.code ↔ (lastError? codes).getD 0 = r.code

theorem seen_foldAll (codes : List (String × Int)) :
    Seen codes (ExitCode.status (foldAll false codes)) where
  success := status_foldAll_eq_zero_iff
  signal r := by rw [ExitCode.status_eq_emod, foldAll_eq_lastError]
  small hsmall := by
    have hstatus := status_foldAll_of_small hsmall
    refine ⟨?_, fun r => by rw [hstatus, foldAll_eq_lastError]⟩
    rw [← foldAll_eq_zero_iff, ← Int.natCast_eq_zero, hstatus]

end Batch

namespace Shell

variable {x : Estate × BatchSettings} {me : ThreadId} {host : SessionId} {v : Estate}

def finale (s : Shell) : Estate × BatchSettings :=
  (s.estate, s.settings.batch)

theorem always_finish_last {code : Int} (hregistry : v.registry = [host]) (hknown : host < v.count)
    (hopen : (v.holding host).IsOpen) (hends : v.endsProcess = true) :
    Always estate me (finish host code true true).run v fun fate w =>
      fate = .halted ∧ w.ended = some code := by
  intro s fate s' hs hr
  obtain ⟨journal, htold⟩ := (erases_finishTold host code true).exists_runs (r := []) hr
  have hlast : Always told me (finishTold host code true).run (v, []) fun fate w =>
      w = ((v.finish host code true).conclude code,
        [] ++ EndEvent.course host (v.holding host).exitHook code ++ [.terminated code]) ∧
      fate = if v.endsProcess then .halted else .returned (.ok ()) :=
    always_finishTold_last hopen (by simp [hregistry]) (by simpa [hregistry] using hknown)
      (by simp [hregistry])
  obtain ⟨hstate, hfate⟩ := hlast (s, []) fate (s', journal) (by rw [told, hs]) htold
  have hframe : (v.finish host code true).endsProcess = v.endsProcess :=
    congrArg (·.2.2.2) Estate.frame_finish
  have hestate : s'.estate = (v.finish host code true).conclude code := congrArg Prod.fst hstate
  refine ⟨hfate.trans (if_pos hends), ?_⟩
  rw [hestate, Estate.conclude, hframe, if_pos hends]

theorem always_halted_bind {σ ω α β : Type} {view : σ → ω} {y : ω} {p : Action σ α}
    {f : α → Action σ β}
    {R : ω → Prop} (h : Always view me p y fun fate z => fate = .halted ∧ R z) :
    Always view me (p >>= f) y fun fate z => fate = .halted ∧ R z :=
  Always.bind h (fun _ _ hz => nomatch hz.1) (fun _ hz => nomatch hz.1) fun _ hz => ⟨rfl, hz.2⟩

theorem always_finishBatch_last {run : BatchRun} (hregistry : x.1.registry = [host])
    (hknown : host < x.1.count) (hopen : (x.1.holding host).IsOpen)
    (hends : x.1.endsProcess = true) :
    Always finale me (finishBatch host run) x fun fate y =>
      fate = .halted ∧ y.1.ended = some run.code := by
  unfold finishBatch
  refine Yields.bind (P := fun live y => live = true ∧ y = x) (yields_read ?_) ?_
  · rintro s rfl
    have hlive : (s.session host).disposed = false := hopen.2
    exact ⟨by simp [Session.isLive, hlive], rfl⟩
  rintro _ y ⟨rfl, rfl⟩
  rw [if_pos rfl]
  have hlast : Always (Prod.fst ∘ finale) me (finish host run.code true true).run y.1 fun fate w =>
      fate = .halted ∧ w.ended = some run.code :=
    always_finish_last hregistry hknown hopen hends
  exact always_halted_bind (always_halted_bind (Always.of_coarser Prod.fst hlast))

/-- Counts the last codes in, and ends the batch. -/
def endBatch (host : SessionId) (run : BatchRun) (codes : List (String × Int)) :
    Action Shell Phase := do
  finishBatch host (← recordAll host run codes)

theorem feasible_record (run : BatchRun) (label : String) (code : Int) :
    Feasible finale True (record host run label code) := by
  have hsay : ∀ text, Feasible finale True (sayLine host text) := by
    intro text
    exact Feasible.bind (Feasible.run_bind feasible_ensureLive fun _ =>
      Feasible.lift (feasible_update _))
      fun _ => feasible_pure _
  refine Feasible.bind (feasible_read _) fun settings => ?_
  split
  · exact (hsay _).bind fun _ => feasible_pure _
  · exact feasible_pure _

theorem feasible_endBatch (run : BatchRun) (codes : List (String × Int)) :
    Feasible finale True (endBatch host run codes) := by
  refine Feasible.bind ?_ fun run' => Feasible.bind (feasible_read _) fun live => ?_
  · unfold recordAll
    induction codes generalizing run with
    | nil => exact feasible_pure _
    | cons c codes ih =>
      rw [List.foldlM_cons]
      exact (feasible_record run c.1 c.2).bind fun run' => ih run'
  · have hsync : Feasible finale True consolePlace.sync :=
      (feasible_streamSync (fun _ _ => rfl) fun _ _ => rfl).bind fun _ =>
        feasible_streamSync (fun _ _ => rfl) fun _ _ => rfl
    have hrest : Feasible finale True (rest host) :=
      (feasible_update _).bind fun _ => feasible_pure _
    cases live with
    | false => exact hrest
    | true => exact ((feasible_finish hsync true).bind fun _ => feasible_pure _).bind fun _ => hrest

theorem always_endBatch {run : BatchRun} {counted : List (String × Int)}
    (codes : List (String × Int))
    (hrun : run.code = Batch.foldAll false counted) (hfirst : x.2.lastCode = false)
    (hregistry : x.1.registry = [host]) (hknown : host < x.1.count)
    (hopen : (x.1.holding host).IsOpen) (hends : x.1.endsProcess = true) :
    Always finale me (endBatch host run codes) x fun fate y =>
      fate = .halted ∧ y.1.ended = some (Batch.foldAll false (counted ++ codes)) := by
  refine Yields.bind (yields_recordAll_of_policy Prod.snd (fun _ => rfl) (fun _ _ => rfl) run codes)
    ?_
  rintro run' y ⟨hcode, rfl⟩
  have hfold : run'.code = Batch.foldAll false (counted ++ codes) := by
    rw [hcode, hrun, hfirst, Batch.foldAll, Batch.foldAll, List.foldl_append]
  rw [← hfold]
  exact always_finishBatch_last hregistry hknown hopen hends

theorem seen_of_ended {s : Shell} {codes : List (String × Int)}
    (h : s.ended = some (Batch.foldAll false codes)) :
    s.ended = some ((Batch.lastError? codes).getD 0) ∧
      ∃ status, s.completion.status = some status ∧ Batch.Seen codes status :=
  ⟨h.trans (congrArg some Batch.foldAll_eq_lastError), _, by rw [completion, h]; rfl,
    Batch.seen_foldAll codes⟩

theorem yields_sleep (ms : Nat) : Yields finale me (worldPlace.sleep ms) x fun _ y => y = x := by
  unfold WorldAt.sleep WorldAt.setAlarm
  rw [bind_assoc]
  refine Yields.bind (yields_self (P := fun _ y => y = x) rfl) ?_
  rintro me' _ rfl
  refine Yields.bind (P := fun _ y => y = _) (yields_step fun s hs => hs) ?_
  rintro alarm _ rfl
  refine always_await (fun s _ s' hs hring => ?_) fun s _ =>
    ⟨{ s with world := { s.world with now := alarm.time } }, ?_⟩
  · obtain ⟨s₁, hring, heq⟩ := Option.map_eq_some_iff.mp hring
    cases heq
    obtain rfl := WorldAt.eq_of_ring? hring
    exact hs
  · simp [WorldAt.ring?, worldPlace]

theorem runs_endBatch_of_linger {s s' : Shell} {run : BatchRun} {fate : Fate Phase}
    (h : Runs finale me (linger host run) s fate s') (hends : fate ≠ .returned (.lingering run)) :
    Runs finale me (endBatch host run []) s fate s' := by
  obtain ⟨hostLive, s₁, hs₁, h⟩ :=
    h.exists_of_yields (P := fun _ y => y = s.finale) (yields_read fun _ _ => rfl)
  obtain ⟨childLive, s₂, hs₂, h⟩ :=
    h.exists_of_yields (P := fun _ y => y = s₁.finale) (yields_read fun _ _ => rfl)
  split at h
  · obtain ⟨-, s₃, -, h⟩ := h.exists_of_yields (yields_sleep _)
    exact absurd h.of_pure.1 hends
  · exact .others (hs₂.trans hs₁) h

/-- What the parent process sees of a batch that ends as the last session, whatever codes were
counted in before and with the last ones. The program ends with the last error among all of them, or
else with zero, and its status are the last eight bits of that. The codes are the ones that the loop
has counted in, and it ends the batch like this once its children are gone; and so it is of every
course of the shell from where a batch begins. -/
theorem status_of_last_batch {s : Shell} {run : BatchRun} {counted codes last : List (String × Int)}
    (hrun : run.code = Batch.foldAll false counted) (hcodes : codes = counted ++ last)
    (hfirst : s.settings.batch.lastCode = false) (hregistry : s.registry = [host])
    (hknown : host < s.sessions.size) (hopen : (s.estate.holding host).IsOpen)
    (hends : s.endsProcess = true) :
    (∃ fate s', Runs finale me (endBatch host run last) s fate s') ∧
    (∀ fate s', Runs finale me (endBatch host run last) s fate s' →
      s'.ended = some ((Batch.lastError? codes).getD 0) ∧
        ∃ status, s'.completion.status = some status ∧ Batch.Seen codes status) ∧
    (∀ fate s', Runs finale me (linger host run) s fate s' → fate ≠ .returned (.lingering run) →
      Runs finale me (endBatch host run []) s fate s') ∧
    (∀ first s₀, Turns me host (.collecting first true) s₀ (.lingering run) s →
      ∃ taken, Closes me host (.collecting first true) s₀ taken run s ∧
        Folds s.policy first run taken) ∧
    ∀ (b : BatchSite) services s₀ m n code, b.Opens services s₀ →
      b.recorded.Course (fun _ _ _ => True) (Life.beside BatchSite.Passes)
        (b.recorded.machine (s₀, .new) (b.crew services)) m →
      m.shared.2.returned = some code → m.shared.1.ended = some n →
      m.shared.1.settings.batch.lastCode = false →
      n = (Batch.lastError? m.shared.2.recorded).getD 0 ∧
        ∃ status, m.shared.1.completion.status = some status ∧
          Batch.Seen m.shared.2.recorded status := by
  refine ⟨(feasible_endBatch run last).exists_runs me s, fun fate s' hr => ?_,
    fun fate s' => runs_endBatch_of_linger, fun first s₀ hturns => ?_, ?_⟩
  · obtain ⟨-, hended⟩ :=
      always_endBatch last hrun hfirst hregistry hknown hopen hends s fate s' rfl hr
    rw [← hcodes] at hended
    exact seen_of_ended hended
  · obtain ⟨taken, hcloses⟩ := hturns.exists_closes
    obtain ⟨hpolicy, hfolds⟩ := hcloses.folds (.inl rfl)
    exact ⟨taken, hcloses, hpolicy ▸ hfolds⟩
  · intro b services s₀ m n code hopens hcourse hcode hended hlast
    have hcomplete := BatchSite.complete_of_course hopens hcourse hcode
    have hn : n = Batch.foldAll false m.shared.2.recorded := by
      rw [hcomplete.last n hended, hcomplete.folded, hlast]
    obtain ⟨heq, hseen⟩ := seen_of_ended (hn ▸ hended)
    exact ⟨Option.some.inj (hended.symm.trans heq), hseen⟩

/-- The shell of a program with one session. -/
def lastHost : Shell :=
  aloneOr 0 (start 0 "calc").run
    (aloneOr 0 (newSession "a" none) (.new (.default 1) (.empty "") .empty ⟨[], true⟩ true true))

/-- One of two scripts has ended with 3, and then the other one ends as it should. -/
theorem status_of_last_batch_three :
    lastHost.settings.batch.lastCode = false ∧ lastHost.registry = [0] ∧
      0 < lastHost.sessions.size ∧
    (lastHost.estate.holding 0).IsOpen ∧ lastHost.endsProcess = true ∧
    ∃ fate s', Runs finale 0 (endBatch 0 ⟨[], 0, 0, 3, []⟩ [("c", 0)]) lastHost fate s' ∧
      s'.completion.status = some 3 := by
  have hfirst : lastHost.settings.batch.lastCode = false := rfl
  have hregistry : lastHost.registry = [0] := by decide +kernel
  have hknown : 0 < lastHost.sessions.size := by decide +kernel
  have hopen : (lastHost.estate.holding 0).IsOpen := by decide
  have hends : lastHost.endsProcess = true := by decide
  obtain ⟨⟨fate, s', hr⟩, hall, -⟩ :=
    @status_of_last_batch 0 0 lastHost ⟨[], 0, 0, 3, []⟩ [("b", 3)]
    [("b", 3), ("c", 0)] [("c", 0)] rfl rfl hfirst hregistry hknown hopen hends
  refine ⟨hfirst, hregistry, hknown, hopen, hends, fate, s', hr, ?_⟩
  rw [completion, (hall fate s' hr).1]
  rfl

/-- A script that exits with 256 has failed, and success is seen. One that exits with 287 was there,
and it is seen that a script was missing. -/
theorem status_of_256_and_287 :
    ExitCode.sanitize 256 = 256 ∧ ExitCode.sanitize 287 = 287 ∧ (∀ r : ReservedCode, r.code ≠ 287) ∧
    (∃ fate s', Runs finale 0 (endBatch 0 ⟨[], 0, 0, 0, []⟩ [("b", ExitCode.sanitize 256)])
      lastHost fate s' ∧
      s'.ended = some 256 ∧ s'.completion.status = some 0) ∧
    ∃ fate s', Runs finale 0 (endBatch 0 ⟨[], 0, 0, 0, []⟩ [("b", ExitCode.sanitize 287)])
      lastHost fate s' ∧
      s'.ended = some 287 ∧ s'.completion.status = some 31 ∧ ReservedCode.noFile.code = 31 := by
  have hends : ∀ codes : List (String × Int), ∃ fate s',
      Runs finale 0 (endBatch 0 ⟨[], 0, 0, 0, []⟩ codes) lastHost fate s' ∧
        s'.ended = some (Batch.foldAll false codes) := by
    intro codes
    obtain ⟨fate, s', hr⟩ := (feasible_endBatch ⟨[], 0, 0, 0, []⟩ codes).exists_runs 0 lastHost
    have hend : Always finale 0 (endBatch 0 ⟨[], 0, 0, 0, []⟩ codes) lastHost.finale fun fate y =>
        fate = .halted ∧ y.1.ended = some (Batch.foldAll false ([] ++ codes)) :=
      always_endBatch codes rfl (by decide) (by decide +kernel) (by decide +kernel)
        (by decide +kernel)
        (by decide +kernel)
    exact ⟨fate, s', hr, (hend lastHost fate s' rfl hr).2⟩
  refine ⟨by decide, by decide, fun r => by cases r <;> decide, ?_, ?_⟩
  · obtain ⟨fate, s', hr, hended⟩ := hends [("b", ExitCode.sanitize 256)]
    exact ⟨fate, s', hr, hended, by rw [completion, hended]; rfl⟩
  · obtain ⟨fate, s', hr, hended⟩ := hends [("b", ExitCode.sanitize 287)]
    exact ⟨fate, s', hr, hended, by rw [completion, hended]; rfl, rfl⟩

end Shell

end SessionShell
