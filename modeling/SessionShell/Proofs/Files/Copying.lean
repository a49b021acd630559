import SessionShell.Compile.RawCopy
import SessionShell.Proofs.Files.Creating
import SessionShell.Proofs.Program.Serving

/-!
Copying between different files.

As long as the file that is written is not the one that is read, the copy reads what was there at
first, and what it has written is always a beginning of that.
-/

namespace SessionShell

open FileSystem

def WorkCall.servedFrom : Serving WorkCall.Reply FileSystem
  | .file call, fs, reply, fs' => (reply, fs') = call.perform fs
  | .isCancelled, fs, _, fs' => fs' = fs
  | .cancel, fs, _, fs' => fs' = fs
  | .sleep _, fs, _, fs' => fs' = fs
  | .gate _, fs, _, fs' => fs' = fs

def BuildCall.servedFrom : Serving BuildCall.Reply FileSystem
  | .post .., fs, _, fs' => fs' = fs
  | .work call, fs, reply, fs' => call.servedFrom fs reply fs'

namespace Build

variable {α : Type} {R : Option (Except Fault α) → FileSystem → Prop} {fs : FileSystem}

theorem served_post_bind {message : String} {share : Option (UInt64 × UInt64)}
    {f : Unit → Build α} (hnone : R none fs) (h : (f ()).run.Served BuildCall.servedFrom R fs) :
    (Build.post message share >>= f).run.Served BuildCall.servedFrom R fs := by
  refine Program.served_lift_bind hnone fun reply fs' hfs' => ?_
  cases hfs'
  exact h

theorem served_file_bind {call : FileCall} {f : call.Reply → Build α} (hnone : R none fs)
    (h : (f (call.perform fs).1).run.Served BuildCall.servedFrom R (call.perform fs).2) :
    (Build.file call >>= f).run.Served BuildCall.servedFrom R fs := by
  refine Program.served_lift_bind hnone fun reply fs' hfs' => ?_
  obtain ⟨rfl, rfl⟩ := Prod.ext_iff.mp hfs'
  exact h

theorem orFail_ok_bind {β : Type} (a : β) (f : β → Build α) : Build.orFail (.ok a) >>= f = f a :=
  rfl

theorem orFail_error_bind {β : Type} (e : IoError) (f : β → Build α) :
    (Build.orFail (.error e) >>= f).run = .done (.error (e : Fault)) :=
  rfl

theorem served_checkpoint_bind {f : Unit → Build α} (hnone : R none fs)
    (hcancelled : R (some (.error (Fault.of .cancelled))) fs)
    (h : (f ()).run.Served BuildCall.servedFrom R fs) :
    (Build.checkpoint >>= f).run.Served BuildCall.servedFrom R fs := by
  refine ⟨hnone, fun (cancelled : Bool) fs' hfs' => ?_⟩
  cases hfs'
  cases cancelled with
  | true => exact hcancelled
  | false => exact h

theorem served_within {b : Build α} {sentence : String}
    (herror : ∀ fault fault' fs', R (some (.error fault)) fs' → R (some (.error fault')) fs')
    (h : b.run.Served BuildCall.servedFrom R fs) :
    (Build.within sentence b).run.Served BuildCall.servedFrom R fs :=
  Program.Served.bind h
    (fun r fs' hr => by
      cases r with
      | ok a => exact hr
      | error fault => exact herror fault _ fs' hr)
    fun _ hr => hr

end Build

def Upkeep {α : Type} (K S : FileSystem → Prop) (r : Option (Except Fault α)) (fs : FileSystem) :
    Prop :=
  K fs ∧ ∀ a, r = some (.ok a) → S fs

section

variable {α : Type} {K S : FileSystem → Prop} {fs : FileSystem}

theorem upkeep_none (h : K fs) : Upkeep (α := α) K S none fs :=
  ⟨h, fun _ hr => by cases hr⟩

theorem upkeep_error (h : K fs) (e : Fault) : Upkeep (α := α) K S (some (.error e)) fs :=
  ⟨h, fun _ hr => by cases hr⟩

theorem upkeep_ok (hK : K fs) (hS : S fs) (a : α) : Upkeep K S (some (.ok a)) fs :=
  ⟨hK, fun _ _ => hS⟩

end

namespace RawCopy

variable {fs : FileSystem} {src out chunk total fuel copied : Nat} {bytes : Bytes}
  {source output : String}

theorem take_append_piece {piece : Bytes} (h : piece <+: bytes.drop copied) :
    bytes.take copied ++ piece = bytes.take (copied + piece.length) := by
  rw [List.take_add, ← List.prefix_iff_eq_take.mp h]

structure Halfway (src out : Nat) (bytes : Bytes) (copied : Nat) (fs : FileSystem) : Prop where
  source : fs.nodes[src]? = some (.file bytes)
  output : fs.nodes[out]? = some (.file (bytes.take copied))
  copied_le : copied ≤ bytes.length

theorem Halfway.write {piece : Bytes} (hpiece : piece <+: bytes.drop copied) (hne : src ≠ out)
    (h : Halfway src out bytes copied fs) :
    Halfway src out bytes (copied + piece.length) (fs.writeAt out copied piece) ∧
      Grows (· = out) fs (fs.writeAt out copied piece) := by
  have hwrite : fs.writeAt out copied piece =
      fs.setNode out (.file (bytes.take (copied + piece.length))) := by
    have hlength := writeAt_length piece h.output
    rw [List.length_take_of_le h.copied_le] at hlength
    rw [hlength, take_append_piece hpiece]
  have hgrows : Grows (· = out) fs (fs.writeAt out copied piece) := by
    rw [hwrite]
    exact grows_setNode h.output rfl
  refine ⟨⟨hgrows.unwritten hne h.source, ?_, ?_⟩, hgrows⟩
  · obtain ⟨hlt, -⟩ := Array.getElem?_eq_some_iff.mp h.output
    rw [hwrite]
    simp [setNode, hlt]
  · have hlength := hpiece.length_le
    rw [List.length_drop] at hlength
    have := h.copied_le
    omega

theorem served_copyChunks (hne : src ≠ out) (hchunk : 0 < chunk)
    (h : Halfway src out bytes copied fs) (hfuel : bytes.length < copied + fuel) :
    (copyChunks src out chunk total fuel copied).run.Served BuildCall.servedFrom
      (Upkeep (Grows (· = out) fs) fun fs' => fs'.nodes[out]? = some (.file bytes)) fs := by
  induction fuel generalizing copied fs with
  | zero =>
    have := h.copied_le
    omega
  | succ fuel ih =>
    have hself : Grows (· = out) fs fs := .refl _ fs
    refine Build.served_checkpoint_bind (upkeep_none hself) (upkeep_error hself _) ?_
    refine Build.served_file_bind (upkeep_none hself) ?_
    have hread : fs.readAt src copied chunk = .ok ((bytes.drop copied).take chunk) := by
      simp [readAt, h.source]
    simp only [FileCall.perform, hread, Build.orFail_ok_bind]
    cases hempty : ((bytes.drop copied).take chunk).isEmpty with
    | true =>
      refine upkeep_ok hself ?_ copied
      have hdone : chunk = 0 ∨ bytes.length ≤ copied := by simpa using hempty
      rw [h.output, List.take_of_length_le (by omega)]
    | false =>
      obtain ⟨hwritten, hgrows⟩ := h.write (List.take_prefix chunk _) hne
      have hlength : 0 < ((bytes.drop copied).take chunk).length :=
        List.length_pos_iff.mpr (by simpa [List.isEmpty_iff] using hempty)
      refine Build.served_file_bind (upkeep_none hself) ?_
      simp only [FileCall.perform, Build.orFail_ok_bind]
      refine Build.served_post_bind (upkeep_none hgrows) ?_
      exact (ih hwritten (by omega)).mono fun r fs' hr => ⟨hgrows.trans hr.1, hr.2⟩

theorem chunkSize_eq (options : TargetOptions) :
    (∃ chunk, 0 < chunk ∧ chunkSize options = pure chunk) ∨
      ∃ fault, chunkSize options = throw fault := by
  unfold chunkSize
  cases options.get? "chunk_size" with
  | none => exact .inl ⟨defaultChunk, by decide, rfl⟩
  | some value =>
    simp only
    split
    · exact .inl ⟨_, Nat.succ_pos _, rfl⟩
    · exact .inr ⟨_, rfl⟩

structure Begun (output : String) (src out : Nat) (bytes : Bytes) (fs fs' : FileSystem) :
    Prop where
  ne : src ≠ out
  halfway : Halfway src out bytes 0 fs'
  sound : fs'.Sound
  located : fs'.LocatesAt output out
  grows : Grows (· = out) fs fs'

theorem begun_of_create {fs' : FileSystem} (hsound : fs.Sound)
    (hbytes : fs.nodes[src]? = some (.file bytes)) (hother : ¬ fs.LocatesAt output src)
    (hcreate : fs.create output = .ok (out, fs')) : Begun output src out bytes fs fs' := by
  obtain ⟨hcreated, houtput, horigin⟩ := create_locates hsound hcreate
  have hne : src ≠ out := by
    rintro rfl
    rcases horigin with hnew | hold
    · have := (Array.getElem?_eq_some_iff.mp hbytes).1
      omega
    · exact hother hold
  exact ⟨hne, ⟨hcreated.grows.unwritten hne hbytes, hcreated.blank, Nat.zero_le _⟩,
    hcreated.sound, houtput, hcreated.grows⟩

theorem served_create {fs₀ : FileSystem} (total : Nat)
    (hsofar : Grows (· ≠ src) fs₀ fs) (hsound : fs.Sound)
    (hbytes : fs.nodes[src]? = some (.file bytes))
    (hother : ¬ fs.LocatesAt output src) (hchunk : 0 < chunk) :
    (show Build Nat from do
      let outputFile ← Build.orFail (← Build.file (.create output))
      if bufferLimit ≤ chunk then Build.crash
      copyChunks src outputFile chunk total (bytes.length + 1) 0).run.Served BuildCall.servedFrom
      (Upkeep (Grows (· ≠ src) fs₀) fun fs' => fs'.readBytes output = .ok bytes) fs := by
  refine Build.served_file_bind (upkeep_none hsofar) ?_
  cases hcreate : fs.create output with
  | error e =>
    simp only [FileCall.perform, hcreate, Build.orFail_error_bind]
    exact upkeep_error hsofar _
  | ok r =>
    obtain ⟨out, fs'⟩ := r
    have hbegun := begun_of_create hsound hbytes hother hcreate
    have hgrows : Grows (· ≠ src) fs₀ fs' :=
      hsofar.trans (hbegun.grows.mono fun id hid => hid ▸ hbegun.ne.symm)
    simp only [FileCall.perform, hcreate, Build.orFail_ok_bind]
    split
    · exact upkeep_none hgrows
    · refine (served_copyChunks hbegun.ne hchunk hbegun.halfway (by omega)).mono
        fun r fs'' hr => ⟨?_, ?_⟩
      · exact hgrows.trans (hr.1.mono fun id hid => hid ▸ hbegun.ne.symm)
      · intro copied hcopied
        exact readBytes_of_locatesAt (hr.1.locatesAt hbegun.sound hbegun.located)
          (hr.2 copied hcopied)

theorem served_copy (hsound : fs.Sound) (hsource : fs.LocatesAt source src)
    (hbytes : fs.nodes[src]? = some (.file bytes))
    (hother : ¬ (fs.withDirectoriesOf output).LocatesAt output src) (options : TargetOptions) :
    (copy source output options).run.Served BuildCall.servedFrom
      (Upkeep (Grows (· ≠ src) fs) fun fs' => fs'.readBytes output = .ok bytes) fs := by
  have hself : Grows (· ≠ src) fs fs := .refl _ fs
  obtain ⟨place, hlocate, rfl⟩ := hsource
  obtain ⟨chunk, hchunk, heq⟩ | ⟨fault, heq⟩ := chunkSize_eq options
  · unfold copy
    rw [heq, pure_bind]
    refine Build.served_file_bind (upkeep_none hself) ?_
    simp only [FileCall.perform, size_of_locate hlocate hbytes, Build.orFail_ok_bind]
    refine Build.served_file_bind (upkeep_none hself) ?_
    simp only [FileCall.perform, openForReading_of_locate hlocate, Build.orFail_ok_bind]
    have hextends := extends_withDirectoriesOf fs output
    have hgrows : Grows (· ≠ nodeId place) fs (fs.withDirectoriesOf output) :=
      hextends.grows.mono fun _ h => h.elim
    have hrest := served_create bytes.length hgrows (hextends.sound hsound)
      (hextends.grows.unwritten (by simp) hbytes) hother hchunk
    unfold withDirectoriesOf at hrest hgrows
    cases hparent : parentPath? output with
    | none =>
      simp only [hparent, Option.elim] at hrest
      exact hrest
    | some parent =>
      simp only [hparent, Option.elim] at hrest hgrows
      refine Build.served_file_bind (upkeep_none hself) ?_
      simp only [FileCall.perform]
      cases hmade : (fs.makeDirectories parent).1 with
      | error e =>
        rw [Build.orFail_error_bind]
        exact upkeep_error hgrows _
      | ok u =>
        rw [Build.orFail_ok_bind]
        exact hrest
  · unfold copy
    rw [heq]
    exact upkeep_error hself fault

theorem served_build (hsound : fs.Sound) (hsource : fs.LocatesAt source src)
    (hbytes : fs.nodes[src]? = some (.file bytes))
    (hother : ¬ (fs.withDirectoriesOf output).LocatesAt output src) (options : TargetOptions) :
    (build source output options).run.Served BuildCall.servedFrom
      (Upkeep (Grows (· ≠ src) fs) fun fs' => fs'.readBytes output = .ok bytes) fs := by
  have hself : Grows (· ≠ src) fs fs := .refl _ fs
  unfold build
  refine Build.served_file_bind (upkeep_none hself) ?_
  simp only [FileCall.perform, isFile_of_locatesAt hsource hbytes]
  refine Build.served_post_bind (upkeep_none hself) ?_
  refine Program.Served.run_bind
    (Build.served_within (fun _ _ _ hr => upkeep_error hr.1 _)
      (served_copy hsound hsource hbytes hother options)) ?_ ?_ ?_
  · intro written fs' hr
    exact Build.served_post_bind (upkeep_none hr.1) (upkeep_ok hr.1 (hr.2 written rfl) output)
  · exact fun fault fs' hr => upkeep_error hr.1 fault
  · exact fun fs' hr => upkeep_none hr.1

end RawCopy

end SessionShell
