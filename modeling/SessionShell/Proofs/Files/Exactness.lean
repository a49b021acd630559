import Mathlib.Algebra.Group.Nat.Defs
import Mathlib.Data.Sigma.Basic
import SessionShell.Proofs.Files.Compiling
import SessionShell.Proofs.Files.Piecewise
import SessionShell.Proofs.Job.Notification

/-!
What a job that copies has done, whatever pieces its source is read in.

Unless it is found cancelled, the output is the source and the shares that were told rise to the
whole. Found cancelled, it has copied a beginning. A chunk size that cannot be used is refused
before anything is touched.
-/

namespace SessionShell

open FileSystem Program

/-! ## Nobody cancels -/

namespace Desk

variable {α : Type} {world : Nat → Moment} {d : Desk}

/-- Nobody has found the job cancelled, unless its own build has cancelled it. -/
def Uncancelled (d : Desk) : Prop :=
  ⟨.cancel, ()⟩ ∈ d.asked ∨ d.cancelled = false ∧ ⟨.isCancelled, true⟩ ∉ d.asked

theorem uncancelled_answer (hworld : ∀ k, (world k).cancels = false) (call : JobCall)
    (h : d.Uncancelled) : (answer world call d).2.Uncancelled := by
  cases call with
  | now => simpa [Uncancelled, answer, hworld] using h
  | notify event => simpa [Uncancelled, answer, hworld] using h
  | work call =>
    have hasked : (answer world (.work call) d).2.asked =
        d.asked ++ [⟨call, workReply (world d.turn) d.cancelled call⟩] := by
      simp [answer, hworld]
    rcases h with hown | ⟨hset, hfound⟩
    · exact .inl (hasked ▸ List.mem_append_left _ hown)
    · by_cases hcancel : call = .cancel
      · subst hcancel
        exact .inl (hasked ▸ List.mem_append_right _ (List.mem_singleton.mpr rfl))
      · refine .inr ⟨by simp [answer, hset, hworld, hcancel], fun hmem => ?_⟩
        rw [hasked, hset] at hmem
        rcases List.mem_append.mp hmem with hmem | hmem
        · exact hfound hmem
        · cases call <;> cases List.mem_singleton.mp hmem

theorem uncancelled_run (hworld : ∀ k, (world k).cancels = false) (p : JobProgram α)
    (h : d.Uncancelled) : (run world p d).2.Uncancelled := by
  induction p generalizing d with
  | done a => exact h
  | crash => exact h
  | ask call next ih => exact ih _ (uncancelled_answer hworld call h)

end Desk

/-! ## Jobs -/

def Progress.share? (p : Progress) : Option (UInt64 × UInt64) :=
  match p.value, p.max with
  | some value, some max => some (value, max)
  | _, _ => none

namespace Desk

/-- The shares that the listener was told. -/
def shares (d : Desk) : List (UInt64 × UInt64) :=
  (d.heard.filterMap JobEvent.batch?).flatten.filterMap Progress.share?

def Found (d : Desk) : Prop :=
  ⟨.isCancelled, true⟩ ∈ d.asked

theorem not_found_of_kept {α : Type} {world : Nat → Moment}
    (hworld : ∀ k, (world k).cancels = false) {p : JobProgram α} {r : Option α} {d : Desk}
    (hrun : run world p (.new false) = (r, d)) (hkept : ⟨.cancel, ()⟩ ∉ d.asked) : ¬ d.Found := by
  have h := uncancelled_run hworld p (d := .new false) (.inr ⟨rfl, by simp [Desk.new]⟩)
  rw [hrun] at h
  exact (h.resolve_left hkept).2

end Desk

namespace JobCourse

variable {world : Nat → Moment} {task : CompileTask} {cancelled : Bool} {d : Desk} {c : JobCourse}
  {fs fs' : FileSystem}

theorem share?_reportOf? (title : String) (e : Exchange BuildCall.Reply) :
    (reportOf? title e).bind Progress.share? = RawCopy.shareOf? e := by
  obtain ⟨call, reply⟩ := e
  cases call with
  | post message share => cases share <;> rfl
  | work call => rfl

theorem IsToldOnce.shares_eq (h : c.IsToldOnce world task cancelled d) :
    d.shares = c.built.filterMap RawCopy.shareOf? := by
  unfold Desk.shares
  rw [h.progress, List.filterMap_append, List.filterMap_filterMap]
  simp only [share?_reportOf?]
  exact List.append_nil _

theorem answered_built {built : List (Exchange BuildCall.Reply)}
    (h : Answered WorkCall.servedInPieces fs (built.filterMap workOf?) fs') :
    Answered BuildCall.servedInPieces fs built fs' := by
  induction built generalizing fs with
  | nil =>
    cases h
    exact .nil _
  | cons e built ih =>
    obtain ⟨call, reply⟩ := e
    cases call with
    | post message share => exact .cons rfl (ih h)
    | work call =>
      cases h with
      | cons hserve hs => exact .cons hserve (ih hs)

theorem answered_asks (h : Answered WorkCall.servedInPieces fs c.asks fs') :
    Answered BuildCall.servedInPieces fs c.built fs' := by
  unfold asks lastLook at h
  obtain ⟨fs₁, hfirst, hlast⟩ := answered_append_iff.mp h
  have hsame : fs' = fs₁ := by
    cases hresult : c.result with
    | ok output =>
      rw [hresult] at hlast
      cases hlast
      rfl
    | error fault =>
      rw [hresult] at hlast
      cases hlast with
      | cons hserve hs =>
        cases hserve
        cases hs
        rfl
  subst hsame
  cases hfirst with
  | cons hserve hs =>
    cases hserve
    exact answered_built hs

theorem IsToldOnce.comes (h : c.IsToldOnce world task cancelled d)
    (hcrash : task.build.run.CrashFree)
    (hserved : Answered WorkCall.servedInPieces fs d.asked fs') :
    (c.early = true ∧ c.built = [] ∧ c.result = .error (Fault.of .cancelled) ∧ fs' = fs) ∨
      c.early = false ∧ Comes BuildCall.servedInPieces task.build.run fs c.built c.result fs' := by
  have hbuilt := answered_asks (h.asked ▸ hserved)
  have hbuilds := h.builds
  unfold Builds at hbuilds
  split at hbuilds
  · rename_i hearly
    obtain ⟨hnone, hresult⟩ := hbuilds
    rw [hnone] at hbuilt
    cases hbuilt
    exact .inl ⟨hearly, hnone, hresult, rfl⟩
  · rename_i hearly
    obtain ⟨result?, hgoes, hresult⟩ := hbuilds
    obtain ⟨result, rfl⟩ := hcrash.goes hgoes
    exact .inr ⟨Bool.eq_false_iff.mpr hearly, hresult ▸ hgoes, hbuilt⟩

end JobCourse

structure CopiedWhole (source output : String) (options : TargetOptions) (bytes : Bytes)
    (fs' : FileSystem) (d : Desk) (outcome : Outcome) : Prop where
  succeeded : outcome = .succeeded
  written : fs'.readBytes output = .ok bytes
  returned : ∃ course : List (Exchange BuildCall.Reply),
    course.filterMap workOf? <:+: d.asked ∧
      (RawCopy.copy source output options).run.Goes course (some (.ok bytes.length))
  last : d.shares.getLast? =
    if bytes = [] then none else some (UInt64.ofNat bytes.length, UInt64.ofNat bytes.length)

/-- A job that has copied a beginning, unless it was found cancelled before anything else. -/
structure CopiedPart (output : String) (bytes : Bytes) (fs fs' : FileSystem) (d : Desk)
    (outcome : Outcome) : Prop where
  aborted : outcome = .aborted
  written : d.asked.head? = some ⟨.isCancelled, true⟩ ∧ fs' = fs ∨
    ∃ n, fs'.readBytes output = .ok (bytes.take n)

structure CopyDone (world : Nat → Moment) (source output : String) (options : TargetOptions)
    (bytes : Bytes) (fs fs' : FileSystem) (d : Desk) (outcome : Outcome) : Prop where
  not_found : (∀ k, (world k).cancels = false) → ¬ d.Found
  whole : ¬ d.Found → CopiedWhole source output options bytes fs' d outcome
  part : d.Found → CopiedPart output bytes fs fs' d outcome
  looked : d.asked.IsChain Looked
  rising : (d.shares.map (·.1)).Pairwise (· < ·)
  bounded : ∀ share ∈ d.shares, share.1 ≤ share.2 ∧ share.2.toNat = bytes.length

/-- A job that was asked for an impossible chunk size. -/
structure CopyRefused (world : Nat → Moment) (fs fs' : FileSystem) (d : Desk) (outcome : Outcome) :
    Prop where
  not_found : (∀ k, (world k).cancels = false) → ¬ d.Found
  failed : ¬ d.Found → outcome = .failed
  untouched : fs' = fs

namespace RawCopy

variable {world : Nat → Moment} {source output : String} {options : TargetOptions} {chunk : Nat}
  {bytes : Bytes} {fs fs' : FileSystem} {d : Desk} {c : JobCourse} {src : Nat}

theorem found_of_early (htold : c.IsToldOnce world
      (CompileTarget.raw.task source output options) false d)
    (hearly : c.early = true) : d.Found ∧ ¬ ∀ k, (world k).cancels = false := by
  refine ⟨?_, fun hworld => ?_⟩
  · rw [Desk.Found, htold.asked, JobCourse.asks, hearly]
    exact List.mem_append_left _ (List.mem_cons_self ..)
  · have hcancels := htold.early
    rw [hearly, hworld] at hcancels
    cases hcancels

theorem copyDone_of_early (htold : c.IsToldOnce world
      (CompileTarget.raw.task source output options) false d)
    (hearly : c.early = true) (hbuilt : c.built = [])
    (hresult : c.result = .error (Fault.of .cancelled)) (hsame : fs' = fs) :
    CopyDone world source output options bytes fs fs' d c.outcome := by
  have hasks : d.asked = [⟨.isCancelled, true⟩, ⟨.isCancelled, c.late⟩] := by
    rw [htold.asked]
    simp [JobCourse.asks, JobCourse.lastLook, hearly, hbuilt, hresult]
  have hshares : d.shares = [] := by rw [htold.shares_eq, hbuilt]; rfl
  obtain ⟨hfound, hcancels⟩ := found_of_early htold hearly
  refine ⟨fun hworld => (hcancels hworld).elim, fun h => (h hfound).elim,
    fun _ => ⟨?_, .inl ⟨?_, hsame⟩⟩, ?_, ?_, ?_⟩
  · simp [JobCourse.outcome, hresult, Fault.isCancelled, Fault.of]
  · rw [hasks]
    rfl
  · rw [hasks]
    exact .cons_cons (by simp [Looked]) (.singleton _)
  · simp [hshares]
  · simp [hshares]

section

variable {copied : Except Fault Nat} {course closing : List (Exchange BuildCall.Reply)}
  {pieces : List Bytes} {asked : List (Exchange WorkCall.Reply)}

theorem Asks.result_eq (h : Asks chunk bytes.length pieces copied asked) :
    (copied = .ok bytes.length ∧ pieces.flatten.length = bytes.length) ∨
      copied = .error (Fault.of .cancelled) := by
  obtain ⟨src, out, opening, last, -, -, hlast⟩ := h
  cases hlast with
  | finished hcopied => exact .inl ⟨congrArg _ hcopied, hcopied⟩
  | stopped => exact .inr rfl

theorem rising_counts (hpieces : ∀ piece ∈ pieces, piece ≠ [])
    (hle : pieces.flatten.length ≤ bytes.length) (hlength : bytes.length < 2 ^ 64) :
    ((counts 0 pieces).map UInt64.ofNat).Pairwise (· < ·) ∧
      ∀ n ∈ counts 0 pieces, UInt64.ofNat n ≤ UInt64.ofNat bytes.length := by
  have hword : ∀ n ≤ bytes.length, (UInt64.ofNat n).toNat = n := fun n hn =>
    UInt64.toNat_ofNat_of_lt' (Nat.lt_of_le_of_lt hn hlength)
  have hsmall : ∀ n ∈ counts 0 pieces, n ≤ bytes.length := fun n hn => by
    have := (mem_counts hpieces hn).2
    omega
  constructor
  · refine List.pairwise_map.mpr ((pairwise_counts hpieces).imp_of_mem fun hm hn hlt => ?_)
    rw [UInt64.lt_iff_toNat_lt, hword _ (hsmall _ hm), hword _ (hsmall _ hn)]
    exact hlt
  · intro n hn
    rw [UInt64.le_iff_toNat_le, hword n (hsmall n hn), hword _ (Nat.le_refl _)]
    exact hsmall n hn

theorem getLast?_counts_of_all (hpieces : ∀ piece ∈ pieces, piece ≠ [])
    (hall : pieces.flatten.length = bytes.length) :
    (counts 0 pieces).getLast? = if bytes = [] then none else some bytes.length := by
  have hlast : (counts 0 pieces).getLast?.getD 0 = 0 + pieces.flatten.length := getLast?_counts
  rw [Nat.zero_add, hall] at hlast
  cases pieces with
  | nil =>
    obtain rfl : bytes = [] := List.length_eq_zero_iff.mp hall.symm
    rfl
  | cons piece pieces =>
    have hpiece := List.length_pos_iff.mpr (hpieces piece (List.mem_cons_self ..))
    have hbytes : bytes ≠ [] := by
      rintro rfl
      simp only [List.flatten_cons, List.length_append, List.length_nil] at hall
      omega
    rw [if_neg hbytes]
    rw [counts, List.getLast?_cons] at hlast ⊢
    exact congrArg some hlast

theorem looked_asked (hasks : Asks chunk bytes.length pieces copied (c.built.filterMap workOf?)) :
    c.asks.IsChain Looked := by
  refine List.isChain_append.mpr ⟨hasks.looked c.early, ?_, fun e _ e' he' => ?_⟩
  · unfold JobCourse.lastLook
    cases c.result
    · exact .singleton _
    · exact .nil
  · unfold JobCourse.lastLook at he'
    cases hresult : c.result with
    | ok output =>
      rw [hresult] at he'
      cases he'
    | error fault =>
      rw [hresult] at he'
      cases he'
      simp [Looked]

theorem cancel_mem_asks_iff :
    ⟨.cancel, ()⟩ ∈ c.asks ↔ ⟨.cancel, ()⟩ ∈ c.built.filterMap workOf? := by
  constructor
  · intro hmem
    rcases List.mem_append.mp hmem with hmem | hmem
    · rcases List.mem_cons.mp hmem with h | hmem
      · cases h
      · exact hmem
    · unfold JobCourse.lastLook at hmem
      cases hresult : c.result with
      | ok output =>
        rw [hresult] at hmem
        cases hmem
      | error fault =>
        rw [hresult] at hmem
        cases List.mem_singleton.mp hmem
  · exact fun hmem => List.mem_append_left _ (List.mem_cons_of_mem _ hmem)

theorem infix_asks (hbuilt : c.built = around source course closing) :
    course.filterMap workOf? <:+: c.asks := by
  refine ⟨[⟨.isCancelled, c.early⟩, ⟨.file (.isFile source), true⟩],
    closing.filterMap workOf? ++ c.lastLook, ?_⟩
  simp only [JobCourse.asks, hbuilt, around, List.filterMap_cons, workOf?, List.filterMap_append,
    List.cons_append, List.nil_append, List.append_assoc]

theorem copyDone_of_course (hlength : bytes.length < 2 ^ 64) (hasked : d.asked = c.asks)
    (hshares : d.shares = c.built.filterMap shareOf?) (hearly : c.early = false)
    (hbuilt : c.built = around source course closing)
    (hcopy : (copy source output options).run.Goes course (some copied))
    (hcourse : Course output chunk bytes course copied fs' pieces)
    (hclosing : Closing source output copied closing c.result)
    (hkept : ⟨.cancel, ()⟩ ∉ d.asked → (∀ k, (world k).cancels = false) → ¬ d.Found) :
    CopyDone world source output options bytes fs fs' d c.outcome := by
  have hasks := hcourse.asks hclosing
  rw [← hbuilt] at hasks
  have hcounts : d.shares = (counts 0 pieces).map fun n =>
      (UInt64.ofNat n, UInt64.ofNat bytes.length) := by
    rw [hshares, hbuilt, hcourse.shares hclosing]
  obtain ⟨hrising, hbounded⟩ := rising_counts hcourse.nonempty hcourse.length_le hlength
  refine ⟨hkept (hasked ▸ fun hmem => hasks.kept (cancel_mem_asks_iff.mp hmem)), fun hfound => ?_,
    fun hfound => ?_, hasked ▸ looked_asked hasks, ?_, ?_⟩
  · obtain ⟨rfl, hall⟩ | hstopped := hasks.result_eq
    · generalize hresult : c.result = result at hclosing
      cases hclosing
      refine ⟨by simp [JobCourse.outcome, hresult], ?_, ⟨course, hasked ▸ infix_asks hbuilt, hcopy⟩,
        ?_⟩
      · rw [hcourse.written, hall, List.take_length]
      · rw [hcounts, List.getLast?_map, getLast?_counts_of_all hcourse.nonempty hall]
        split <;> rfl
    · refine (hfound ?_).elim
      rw [Desk.Found, hasked]
      exact List.mem_append_left _ (List.mem_cons_of_mem _ (hasks.found_iff.mpr hstopped))
  · obtain ⟨rfl, -⟩ | rfl := hasks.result_eq
    · generalize hresult : c.result = result at hclosing
      cases hclosing
      rw [Desk.Found, hasked, JobCourse.asks, JobCourse.lastLook, hresult, hearly,
        List.append_nil] at hfound
      rcases List.mem_cons.mp hfound with hfound | hfound
      · cases hfound
      · cases hasks.found_iff.mp hfound
    · generalize hresult : c.result = result at hclosing
      cases hclosing
      exact ⟨by simp [JobCourse.outcome, hresult, Fault.isCancelled, Fault.of, Fault.context],
        .inr ⟨_, hcourse.written⟩⟩
  · rw [hcounts, List.map_map]
    exact hrising
  · rw [hcounts]
    intro share hshare
    obtain ⟨n, hn, rfl⟩ := List.mem_map.mp hshare
    exact ⟨hbounded n hn, UInt64.toNat_ofNat_of_lt' hlength⟩

theorem copyRefused_of_early (htold : c.IsToldOnce world
      (CompileTarget.raw.task source output options) false d)
    (hearly : c.early = true) (hsame : fs' = fs) : CopyRefused world fs fs' d c.outcome := by
  obtain ⟨hfound, hcancels⟩ := found_of_early htold hearly
  exact ⟨fun hworld => (hcancels hworld).elim, fun h => (h hfound).elim, hsame⟩

theorem copyRefused_of_comes (hasked : d.asked = c.asks)
    (hbuilt : ∀ e ∈ c.built.filterMap workOf?, Passing e) {fault : Fault}
    (hresult : c.result = .error fault) (hfault : fault.isCancelled = false) (hsame : fs' = fs)
    (hkept : ⟨.cancel, ()⟩ ∉ d.asked → (∀ k, (world k).cancels = false) → ¬ d.Found) :
    CopyRefused world fs fs' d c.outcome := by
  refine ⟨hkept (hasked ▸ fun hmem => (hbuilt _ (cancel_mem_asks_iff.mp hmem)).ne_cancel rfl),
    fun hfound => ?_, hsame⟩
  cases hlate : c.late with
  | false => simp [JobCourse.outcome, hresult, hlate, hfault]
  | true =>
    refine (hfound ?_).elim
    rw [Desk.Found, hasked, JobCourse.asks, JobCourse.lastLook, hresult, hlate]
    exact List.mem_append_right _ (List.mem_singleton.mpr rfl)

end

end RawCopy

/-- Whatever pieces the source is read in, a job that can make its output copies all of the
source, unless it is found cancelled, and then a beginning. With an impossible chunk size it does
nothing. -/
theorem CompileJob.copies_exactly (source output : String) (options : TargetOptions) {bytes : Bytes}
    {fs fs' : FileSystem} (hsound : fs.Sound) (hsource : fs.readBytes source = .ok bytes)
    (hlength : bytes.length < 2 ^ 64)
    (hother : ¬ (fs.withDirectoriesOf output).SameFile source output)
    {world : Nat → Moment} {r : Option (Outcome × CompileJob)} {d : Desk}
    (hrun : Desk.run world (CompileJob.new (CompileTarget.raw.task source output options)).run
      (.new false) = (r, d))
    (hserved : Answered WorkCall.servedInPieces fs d.asked fs') :
    (∀ chunk, RawCopy.HasChunk options chunk → fs.CanCreate output →
      ∃ outcome job, r = some (outcome, job) ∧
        CopyDone world source output options bytes fs fs' d outcome) ∧
    (RawCopy.InvalidChunk options →
      ∃ outcome job, r = some (outcome, job) ∧ CopyRefused world fs fs' d outcome) := by
  obtain ⟨c, job, d', hrun', -, hc⟩ := Desk.run_run world
    (.new (CompileTarget.raw.task source output options)) rfl (.new false)
  obtain ⟨rfl, rfl⟩ : r = some (c.outcome, job) ∧ d = d' := by
    simpa using hrun.symm.trans hrun'
  have htold := hc.toldOnce
  have hkept (h : ⟨.cancel, ()⟩ ∉ d.asked) (hworld : ∀ k, (world k).cancels = false) :=
    Desk.not_found_of_kept hworld hrun h
  refine ⟨fun chunk hchunk hcreate => ⟨c.outcome, job, rfl, ?_⟩,
    fun hinvalid => ⟨c.outcome, job, rfl, ?_⟩⟩
  · have hcrash : (RawCopy.build source output options).run.CrashFree :=
      RawCopy.crashFree_build fun chunk' hchunk' => by
        rw [hchunk.chunkSize_eq] at hchunk'
        cases hchunk'
        exact hchunk.small
    obtain ⟨hearly, hbuilt, hresult, hsame⟩ | ⟨hearly, hcomes⟩ := htold.comes hcrash hserved
    · exact RawCopy.copyDone_of_early htold hearly hbuilt hresult hsame
    · obtain ⟨src, hlocates, hbytes⟩ := locatesAt_of_readBytes hsource
      have hother' : ¬ (fs.withDirectoriesOf output).LocatesAt output src := fun houtput =>
        hother ⟨src, (extends_withDirectoriesOf fs output).grows.locatesAt hsound hlocates, houtput⟩
      obtain ⟨hmissing, -⟩ | ⟨-, copied, course, closing, hbuilt, hcopy, hclosing⟩ :=
        RawCopy.comes_build hcomes
      · rw [isFile_of_locatesAt hlocates hbytes] at hmissing
        cases hmissing
      · obtain ⟨pieces, hcourse⟩ :=
          RawCopy.comes_copy hsound hlocates hbytes hother' hchunk hcreate hcopy
        exact RawCopy.copyDone_of_course hlength htold.asked htold.shares_eq hearly hbuilt
          hcopy.goes hcourse hclosing hkept
  · have hcrash : (RawCopy.build source output options).run.CrashFree :=
      RawCopy.crashFree_build fun chunk hchunk => by
        obtain ⟨message, hmessage⟩ := hinvalid.chunkSize_eq
        cases hmessage.symm.trans hchunk
    obtain ⟨hearly, -, -, hsame⟩ | ⟨-, hcomes⟩ := htold.comes hcrash hserved
    · exact RawCopy.copyRefused_of_early htold hearly hsame
    · obtain ⟨hsame, ⟨fault, hresult, hfault⟩, hbuilt⟩ :=
        RawCopy.comes_build_refused hinvalid hcomes
      exact RawCopy.copyRefused_of_comes htold.asked hbuilt hresult hfault hsame hkept

instance : (call : FileCall) → DecidableEq call.Reply
  | .isFile _ => inferInstanceAs (DecidableEq Bool)
  | .size _ | .openForReading _ | .create _ => inferInstanceAs (DecidableEq (Except IoError Nat))
  | .makeDirectories _ | .write .. => inferInstanceAs (DecidableEq (Except IoError Unit))
  | .read .. => inferInstanceAs (DecidableEq (Except IoError Bytes))

instance : (call : WorkCall) → DecidableEq call.Reply
  | .isCancelled => inferInstanceAs (DecidableEq Bool)
  | .cancel | .sleep _ | .gate _ => inferInstanceAs (DecidableEq Unit)
  | .file call => inferInstanceAs (DecidableEq call.Reply)

namespace Bench

def slowly : (call : FileCall) → call.Reply
  | .isFile _ => true
  | .size _ => .ok 2
  | .openForReading _ => .ok 1
  | .makeDirectories _ => .ok ()
  | .create _ => .ok 2
  | .read _ offset _ => .ok (([104, 105] : Bytes)[offset]?.toList)
  | .write .. => .ok ()

/-- The job that is answered like that, and the desk behind it. -/
def slowCopy : Option (Outcome × CompileJob) × Desk :=
  Desk.run (fun _ => ⟨0, false, slowly⟩) (CompileJob.new (CompileTarget.raw.task "in" "out" [])).run
    (.new false)

def slowlyAsked : List (Exchange WorkCall.Reply) :=
  [⟨.isCancelled, false⟩, ⟨.file (.isFile "in"), true⟩, ⟨.file (.size "in"), .ok 2⟩,
    ⟨.file (.openForReading "in"), .ok 1⟩, ⟨.file (.makeDirectories ""), .ok ()⟩,
    ⟨.file (.create "out"), .ok 2⟩,
    ⟨.isCancelled, false⟩, ⟨.file (.read 1 0 65536), .ok [104]⟩,
    ⟨.file (.write 2 0 [104]), .ok ()⟩,
    ⟨.isCancelled, false⟩, ⟨.file (.read 1 1 65536), .ok [105]⟩,
    ⟨.file (.write 2 1 [105]), .ok ()⟩,
    ⟨.isCancelled, false⟩, ⟨.file (.read 1 2 65536), .ok []⟩]

/-- The directory, with so much in the file that was made. -/
def greetingWith (bytes : Bytes) : FileSystem :=
  ⟨#[.directory [("in", 1), ("out", 2)], .file [104, 105], .file bytes], []⟩

theorem slowCopy_asked : slowCopy.2.asked = slowlyAsked := by
  decide +kernel

theorem create_greeting : greeting.create "out" = .ok (2, greetingWith []) := by
  rw [FileSystem.create, FileSystem.createFrom]
  rfl

theorem answered_slowly :
    Answered WorkCall.servedInPieces greeting slowlyAsked (greetingWith [104, 105]) := by
  have hmade : FileCall.perform greeting (.makeDirectories "") = (.ok (), greeting) := rfl
  have hcreated : FileCall.perform greeting (.create "out") = (.ok 2, greetingWith []) := by
    rw [FileCall.perform, create_greeting]
  have hsize : FileCall.perform greeting (.size "in") = (.ok 2, greeting) := rfl
  have hopen : FileCall.perform greeting (.openForReading "in") = (.ok 1, greeting) := rfl
  have hfile : FileCall.perform greeting (.isFile "in") = ((true : Bool), greeting) := rfl
  have hread (bytes : Bytes) (offset : Nat) : (greetingWith bytes).readAt 1 offset 65536 =
      .ok ((([104, 105] : Bytes).drop offset).take 65536) := rfl
  refine .cons rfl (.cons hfile.symm (.cons hsize.symm (.cons hopen.symm (.cons hmade.symm
    (.cons hcreated.symm ?_)))))
  refine .cons rfl (.cons ⟨rfl, ?_⟩ (.cons (y := greetingWith [104]) ?_ ?_))
  · rw [hread, isPiece_ok_iff]
    exact ⟨[104], rfl, by decide, by simp⟩
  · rfl
  refine .cons rfl (.cons ⟨rfl, ?_⟩ (.cons (y := greetingWith [104, 105]) ?_ ?_))
  · rw [hread, isPiece_ok_iff]
    exact ⟨[105], rfl, by decide, by simp⟩
  · rfl
  refine .cons rfl (.cons ⟨rfl, ?_⟩ (.nil _))
  · rw [hread, isPiece_ok_iff]
    exact ⟨[], rfl, by decide, by decide⟩

/-- Two reads of one byte each, and the greeting is there. -/
theorem copies_exactly_of_slowly : ∃ outcome job, slowCopy.1 = some (outcome, job) ∧
    outcome = .succeeded ∧ slowCopy.2.shares = [(1, 2), (2, 2)] ∧
      (greetingWith [104, 105]).readBytes "out" = .ok [104, 105] := by
  have hsource : greeting.readBytes "in" = .ok [104, 105] := rfl
  have hmissing : (greeting.withDirectoriesOf "out").locate "out" = .error .notFound := rfl
  have hcreate : greeting.CanCreate "out" := by
    refine ⟨fun parent hparent => ?_, 2, greetingWith [], create_greeting⟩
    obtain rfl : "" = parent := Option.some.inj hparent
    rfl
  have hcopies := CompileJob.copies_exactly "in" "out" [] sound_greeting hsource (by decide)
    (not_sameFile_of_error hmissing) (r := slowCopy.1) (d := slowCopy.2) (by rw [slowCopy])
    (slowCopy_asked ▸ answered_slowly)
  obtain ⟨outcome, job, hrun, hdone⟩ :=
    hcopies.1 RawCopy.defaultChunk ⟨by decide, by decide, rfl⟩ hcreate
  have hwhole := hdone.whole (hdone.not_found fun _ => rfl)
  exact ⟨outcome, job, hrun, hwhole.succeeded, by decide +kernel, hwhole.written⟩

end Bench
end SessionShell
