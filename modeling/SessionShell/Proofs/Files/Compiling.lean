import SessionShell.Compile.Bench
import SessionShell.Proofs.Files.Copying

/-!
What a job that copies a file does to it.

A job leaves its source as it is and has the same bytes in its output when it succeeds, if the
output is not the source itself. Making the output empties it before anything is read, so a file
that is copied to itself is lost.
-/

namespace SessionShell

open FileSystem SessionShell.Action

def FileSystem.SameFile (fs : FileSystem) (path path' : String) : Prop :=
  ∃ id, fs.LocatesAt path id ∧ fs.LocatesAt path' id

theorem FileSystem.not_sameFile_of_error {fs : FileSystem} {path path' : String} {e : IoError}
    (h : fs.locate path' = .error e) : ¬ fs.SameFile path path' := by
  rintro ⟨id, -, found, hfound, -⟩
  rw [h] at hfound
  cases hfound

def JobCall.servedFrom : Serving JobCall.Reply FileSystem
  | .now, fs, _, fs' => fs' = fs
  | .work call, fs, reply, fs' => call.servedFrom fs reply fs'
  | .notify _, fs, _, fs' => fs' = fs

namespace CompileJob

variable {α β : Type} {fs : FileSystem}

def Idle (p : JobProgram α) : Prop :=
  ∀ fs, p.Served JobCall.servedFrom (fun _ fs' => fs' = fs) fs

theorem Idle.served_bind {Q : Option β → FileSystem → Prop} {p : JobProgram α}
    {f : α → JobProgram β} (hp : Idle p) (hnone : Q none fs)
    (hf : ∀ a, (f a).Served JobCall.servedFrom Q fs) :
    (p >>= f).Served JobCall.servedFrom Q fs :=
  (hp fs).bind (fun a _ hfs => hfs ▸ hf a) fun _ hfs => hfs ▸ hnone

theorem Idle.bind {p : JobProgram α} {f : α → JobProgram β} (hp : Idle p)
    (hf : ∀ a, Idle (f a)) : Idle (p >>= f) :=
  fun fs => hp.served_bind rfl fun a => hf a fs

theorem idle_pure (a : α) : Idle (pure a) :=
  fun _ => rfl

theorem idle_now : Idle (Program.call JobCall.now) :=
  fun _ => ⟨rfl, fun _ _ h => h⟩

theorem idle_notify (event : JobEvent) : Idle (notify event) :=
  fun _ => ⟨rfl, fun _ _ h => h⟩

theorem idle_isCancelled : Idle isCancelled :=
  fun _ => ⟨rfl, fun _ _ h => h⟩

theorem idle_post (title message : String) (share : Option (UInt64 × UInt64))
    (throttle : Throttle) : Idle (post title message share throttle) := by
  refine idle_now.bind fun now => ?_
  rcases throttle.offer now (report title message share) with ⟨batch?, throttle'⟩
  cases batch? with
  | none => exact idle_pure throttle'
  | some batch => exact (idle_notify _).bind fun _ => idle_pure throttle'

theorem idle_conclude (job : CompileJob) (outcome : Outcome) (message : String)
    (throttle : Throttle) : Idle (job.conclude outcome message throttle) :=
  idle_now.bind fun _ => (idle_notify _).bind fun _ => idle_pure _

theorem served_carryOut {Q : Option α → FileSystem → Prop} (title : String)
    {p : Program BuildCall BuildCall.Reply α} (throttle : Throttle)
    (h : p.Served BuildCall.servedFrom Q fs) :
    (carryOut title p throttle).Served JobCall.servedFrom (fun r fs' => Q (r.bind (·.1)) fs')
      fs := by
  induction p generalizing throttle fs with
  | done a => exact h
  | crash => exact h
  | ask call next ih =>
    cases call with
    | post message share =>
      exact (idle_post title message share throttle).served_bind h.1 fun throttle' =>
        ih () throttle' (h.2 () fs rfl)
    | work call => exact ⟨h.1, fun reply fs' hfs' => ih reply throttle (h.2 reply fs' hfs')⟩

variable {job : CompileJob} {K S : FileSystem → Prop}

theorem served_result (hK : K fs)
    (hbuild : job.task.build.run.Served BuildCall.servedFrom (Upkeep K S) fs) :
    job.result.Served JobCall.servedFrom (fun r fs' => Upkeep K S (r.map (·.1)) fs') fs := by
  refine idle_isCancelled.served_bind (upkeep_none hK) fun (cancelled : Bool) => ?_
  cases cancelled with
  | true => exact upkeep_error hK _
  | false =>
    refine (served_carryOut job.title job.throttle hbuild).bind (fun r fs' hr => ?_) ?_
    · obtain ⟨result?, throttle⟩ := r
      cases result? with
      | none => exact upkeep_error hr.1 _
      | some result => exact hr
    · exact fun fs' hr => upkeep_none hr.1

theorem served_run (hnew : job.outcome = none) (hK : K fs)
    (hbuild : job.task.build.run.Served BuildCall.servedFrom (Upkeep K S) fs) :
    job.run.Served JobCall.servedFrom
      (fun r fs' => K fs' ∧ (r.map (·.1) = some .succeeded → S fs')) fs := by
  have hwithout {fs' : FileSystem} (hK : K fs') (r : Option (Outcome × CompileJob))
      (hr : r.map (·.1) ≠ some .succeeded) : K fs' ∧ (r.map (·.1) = some .succeeded → S fs') :=
    ⟨hK, fun h => absurd h hr⟩
  unfold run
  rw [hnew]
  refine (served_result hK hbuild).bind (fun r fs' hr => ?_) fun fs' hr => hwithout hr.1 _ (by simp)
  obtain ⟨result, throttle⟩ := r
  cases result with
  | ok output =>
    refine (idle_conclude job _ _ throttle).served_bind (hwithout hr.1 _ (by simp)) fun job => ?_
    refine (idle_notify _).served_bind (hwithout hr.1 _ (by simp)) fun _ => ?_
    exact ⟨hr.1, fun _ => hr.2 output rfl⟩
  | error fault =>
    refine idle_isCancelled.served_bind (hwithout hr.1 _ (by simp)) fun (cancelled : Bool) => ?_
    split
    · refine (idle_conclude job _ _ throttle).served_bind (hwithout hr.1 _ (by simp)) fun job => ?_
      exact (idle_notify _).served_bind (hwithout hr.1 _ (by simp)) fun _ =>
        hwithout hr.1 _ (by simp)
    · refine (idle_notify _).served_bind (hwithout hr.1 _ (by simp)) fun _ => ?_
      exact (idle_conclude job _ _ throttle).served_bind (hwithout hr.1 _ (by simp)) fun job =>
        hwithout hr.1 _ (by simp)

end CompileJob

namespace PoolAt

variable {σ κ : Type} {slot : PoolAt σ κ} {me : ThreadId} {id : JobId}

def files (slot : PoolAt σ κ) (s : σ) : FileSystem :=
  (slot.world.get s).files

def filesAndJob (slot : PoolAt σ κ) (id : JobId) (s : σ) : FileSystem × Option CompileJob :=
  (slot.files s, (slot.get s).jobs[id]?.map (·.job))

/-- The files are a part of the state of their own, and no listener does anything to them. -/
structure KeepsFiles (slot : PoolAt σ κ) : Prop where
  set : ∀ pool s, slot.files (slot.set pool s) = slot.files s
  world_set : ∀ w s, slot.files (slot.world.set w s) = w.files
  notify : ∀ id event, Keeps slot.files (slot.notify id event)

theorem keeps_modify (h : slot.KeepsFiles) (f : Pool κ → Pool κ) :
    Keeps slot.files (slot.modify f) :=
  keeps_update fun s => h.set _ s

theorem keeps_sleep (h : slot.KeepsFiles) (ms : Nat) :
    Keeps slot.files (slot.world.sleep ms) := by
  refine (keeps_self.bind fun thread => keeps_step fun s => ?_).bind fun alarm =>
    keeps_await fun s _ s' hs => ?_
  · exact h.world_set _ s
  · obtain ⟨s₁, hring, heq⟩ := Option.map_eq_some_iff.mp hs
    cases heq
    obtain rfl := WorldAt.eq_of_ring? hring
    exact h.world_set _ s

theorem keeps_awaitGate (name : String) : Keeps slot.files (slot.world.awaitGate name) := by
  refine keeps_await fun s _ s' hs => ?_
  split at hs
  · cases hs
    rfl
  · cases hs

theorem answers_answer (h : slot.KeepsFiles) (call : JobCall) :
    Program.Answers slot.files me JobCall.servedFrom (slot.answer id call) := by
  cases call with
  | now => exact Program.answers_of_keeps (keeps_read _) fun _ _ => rfl
  | notify event => exact Program.answers_of_keeps (h.notify id event) fun _ _ => rfl
  | work call =>
    cases call with
    | isCancelled => exact Program.answers_of_keeps (keeps_read _) fun _ _ => rfl
    | cancel => exact Program.answers_of_keeps (keeps_modify h (·.cancel id)) fun _ _ => rfl
    | sleep ms => exact Program.answers_of_keeps (keeps_sleep h ms) fun _ _ => rfl
    | gate name => exact Program.answers_of_keeps (keeps_awaitGate name) fun _ _ => rfl
    | file call =>
      refine fun x => Yields.always (yields_step fun s hs => ?_) fun reply y hy => hy
      subst hs
      exact Prod.ext rfl (h.world_set _ s)

theorem always_run (h : slot.KeepsFiles) {fs : FileSystem} {job : CompileJob}
    {K S : FileSystem → Prop} (hnew : job.outcome = none) (hK : K fs)
    (hbuild : job.task.build.run.Served BuildCall.servedFrom (Upkeep K S) fs) :
    Always (slot.filesAndJob id) me (slot.run id) (fs, some job) fun fate x =>
      K x.1 ∧ (fate = .returned .succeeded → S x.1) := by
  have hjob : Always slot.files me (job.run.expand (slot.answer id)) fs fun fate fs' =>
      K fs' ∧ (fate.result?.map (·.1) = some .succeeded → S fs') :=
    (CompileJob.served_run hnew hK hbuild).always (answers_answer h)
  have hrecord : Yields (slot.filesAndJob id) me
      (read fun s => (slot.get s).jobs[id]?) (fs, some job) fun record? x =>
        record?.map (·.job) = some job ∧ x = (fs, some job) :=
    yields_read fun s hs => ⟨congrArg Prod.snd hs, rfl⟩
  refine hrecord.bind fun record? x hx => ?_
  obtain ⟨hrecord?, rfl⟩ := hx
  obtain ⟨record, rfl, rfl⟩ := Option.map_eq_some_iff.mp hrecord?
  refine Always.of_coarser Prod.fst
    (Q := fun (fate : Fate Outcome) fs' => K fs' ∧ (fate = .returned .succeeded → S fs')) ?_
  refine Always.bind hjob (fun r fs' hr => ?_) (fun fs' hr => ⟨hr.1, by simp⟩) fun fs' hr =>
    ⟨hr.1, by simp⟩
  obtain ⟨outcome, job'⟩ := r
  refine Always.bind (keeps_modify h _).always (fun _ y hy => ?_) ?_ ?_
  · subst hy
    refine always_pure _ ⟨hr.1, fun hout => hr.2 ?_⟩
    simpa [Fate.result?] using hout
  · rintro y rfl
    exact ⟨hr.1, by simp⟩
  · rintro y rfl
    exact ⟨hr.1, by simp⟩

/-- A job that copies a file to another one leaves the source as it is, however it ends and whenever
it is cancelled, and if it succeeds the output reads as the source does. -/
theorem run_raw_keeps_source (h : slot.KeepsFiles) {fs : FileSystem} (hsound : fs.Sound)
    {source output : String} {bytes : Bytes} (hsource : fs.readBytes source = .ok bytes)
    (hother : ¬ (fs.withDirectoriesOf output).SameFile source output) (options : TargetOptions)
    (me : ThreadId) (id : JobId) :
    Always (slot.filesAndJob id) me (slot.run id)
      (fs, some (.new (CompileTarget.raw.task source output options))) fun fate x =>
        x.1.readBytes source = .ok bytes ∧
          (fate = .returned .succeeded → x.1.readBytes output = .ok bytes) := by
  obtain ⟨src, hlocates, hbytes⟩ := locatesAt_of_readBytes hsource
  have hother' : ¬ (fs.withDirectoriesOf output).LocatesAt output src := fun houtput =>
    hother ⟨src, (extends_withDirectoriesOf fs output).grows.locatesAt hsound hlocates, houtput⟩
  refine (always_run h rfl (.refl (· ≠ src) fs)
    (RawCopy.served_build hsound hlocates hbytes hother' options)).mono fun fate x hx => ⟨?_, hx.2⟩
  exact readBytes_of_locatesAt (hx.1.locatesAt hsound hlocates) (hx.1.unwritten (by simp) hbytes)

end PoolAt

namespace Bench

theorem place_keepsFiles : place.KeepsFiles where
  set _ _ := rfl
  world_set _ _ := rfl
  notify _ _ := keeps_update fun _ => rfl

/-- A directory with one file in it, which says hi. -/
def greeting : FileSystem :=
  ⟨#[.directory [("in", 1)], .file [104, 105]], []⟩

theorem sound_greeting : greeting.Sound := by
  intro id entries hid entry hentry
  match id with
  | 0 =>
    cases hid
    cases List.mem_singleton.mp hentry
    decide
  | 1 => cases hid
  | n + 2 => cases hid

/-- A bench with a job that copies the file in the directory. -/
def copying (output : String) : Bench :=
  ((new 1 greeting).addJob (CompileTarget.raw.task "in" output []) false).2

theorem run_raw_keeps_greeting : greeting.Sound ∧ greeting.readBytes "in" = .ok [104, 105] ∧
    ¬ (greeting.withDirectoriesOf "out").SameFile "in" "out" ∧
      ∃ b, (place.run 0).runAlone? callerId (copying "out") = some (.succeeded, b) ∧
        b.world.files.readBytes "in" = .ok [104, 105] ∧
          b.world.files.readBytes "out" = .ok [104, 105] := by
  have hsource : greeting.readBytes "in" = .ok [104, 105] := rfl
  have hmissing : (greeting.withDirectoriesOf "out").locate "out" = .error .notFound := rfl
  have hother : ¬ (greeting.withDirectoriesOf "out").SameFile "in" "out" :=
    not_sameFile_of_error hmissing
  have hrun : (place.run 0).runAlone? callerId (copying "out") =
      some (.succeeded, aloneOr callerId (place.run 0) (copying "out")) :=
    runAlone?_eq_aloneOr_of_map (by decide +kernel)
  have hcopied := PoolAt.run_raw_keeps_source place_keepsFiles sound_greeting hsource hother []
    callerId 0 _ _ _ rfl (runs_of_runAlone? hrun)
  exact ⟨sound_greeting, hsource, hother, _, hrun, hcopied.1, hcopied.2 rfl⟩

/-- Copied to itself, the file is blank afterwards, and the job says it has succeeded. -/
theorem greeting_lost_of_copy_to_itself : greeting.readBytes "in" = .ok [104, 105] ∧
    ((place.run 0).runAlone? callerId (copying "./in")).map (fun r =>
      (r.1, r.2.world.files.readBytes "in")) = some (.succeeded, .ok []) := by
  have hfiles : ((place.run 0).runAlone? callerId (copying "./in")).map (fun r =>
      (r.1, r.2.world.files)) =
        some (.succeeded, ⟨#[.directory [("in", 1)], .file []], []⟩) := by
    decide +kernel
  refine ⟨rfl, ?_⟩
  have hread := congrArg (Option.map fun x => (x.1, x.2.readBytes "in")) hfiles
  rw [Option.map_map] at hread
  exact hread

end Bench

end SessionShell
