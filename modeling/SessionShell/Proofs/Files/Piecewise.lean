import Mathlib.Data.List.Chain
import SessionShell.Proofs.Files.Copying
import SessionShell.Proofs.Job.Desk

/-!
Copying when a read brings less than was asked for.

Whatever pieces the source is read in, a copy asks the same in each round: whether the job was
cancelled, a piece, and that the piece be written behind those before it. So what is asked, and how
much of the source the output holds, follow from the pieces alone.
-/

namespace SessionShell

open FileSystem Program

def IsPiece : Except IoError Bytes → Except IoError Bytes → Prop
  | .ok bytes, .ok piece => piece <+: bytes ∧ (piece = [] → bytes = [])
  | .error e, .error e' => e' = e
  | _, _ => False

theorem isPiece_ok_iff {bytes : Bytes} {reply : Except IoError Bytes} : IsPiece (.ok bytes) reply ↔
    ∃ piece, reply = .ok piece ∧ piece <+: bytes ∧ (piece = [] → bytes = []) := by
  cases reply <;> simp [IsPiece]

def FileCall.isRead : FileCall → Bool
  | .read .. => true
  | _ => false

def FileCall.servedInPieces : Serving FileCall.Reply FileSystem
  | .read file offset count, fs, reply, fs' =>
    fs' = fs ∧ IsPiece (fs.readAt file offset count) reply
  | call, fs, reply, fs' => (reply, fs') = call.perform fs

theorem FileCall.servedInPieces_iff {call : FileCall} (hcall : call.isRead = false)
    {fs fs' : FileSystem} {reply : call.Reply} :
    call.servedInPieces fs reply fs' ↔ (reply, fs') = call.perform fs := by
  cases call with
  | read file offset count => cases hcall
  | _ => exact .rfl

/-- Only questions about files have to do with files. -/
def WorkCall.servedInPieces : Serving WorkCall.Reply FileSystem
  | .file call, fs, reply, fs' => call.servedInPieces fs reply fs'
  | .isCancelled, fs, _, fs' => fs' = fs
  | .cancel, fs, _, fs' => fs' = fs
  | .sleep _, fs, _, fs' => fs' = fs
  | .gate _, fs, _, fs' => fs' = fs

def BuildCall.servedInPieces : Serving BuildCall.Reply FileSystem
  | .post .., fs, _, fs' => fs' = fs
  | .work call, fs, reply, fs' => call.servedInPieces fs reply fs'

/-! ## Builds on their course -/

namespace Build

variable {α : Type} {fs fs' : FileSystem} {exchanges : List (Exchange BuildCall.Reply)}
  {r : Except Fault α}

theorem comes_post_bind {message : String} {share : Option (UInt64 × UInt64)}
    {f : Unit → Build α}
    (h : Comes BuildCall.servedInPieces (Build.post message share >>= f).run fs exchanges r fs') :
    ∃ rest, exchanges = ⟨.post message share, ()⟩ :: rest ∧
      Comes BuildCall.servedInPieces (f ()).run fs rest r fs' := by
  obtain ⟨reply, rest, fs₁, rfl, hfs₁, h⟩ := Comes.ask h
  cases hfs₁
  exact ⟨rest, rfl, h⟩

theorem comes_file_bind {call : FileCall} {f : call.Reply → Build α}
    (h : Comes BuildCall.servedInPieces (Build.file call >>= f).run fs exchanges r fs') :
    ∃ (reply : call.Reply) (rest : List (Exchange BuildCall.Reply)) (fs₁ : FileSystem),
      exchanges = ⟨.work (.file call), reply⟩ :: rest ∧ call.servedInPieces fs reply fs₁ ∧
        Comes BuildCall.servedInPieces (f reply).run fs₁ rest r fs' :=
  Comes.ask h

theorem comes_performed_bind {call : FileCall} (hcall : call.isRead = false)
    {f : call.Reply → Build α}
    (h : Comes BuildCall.servedInPieces (Build.file call >>= f).run fs exchanges r fs') :
    ∃ rest, exchanges = ⟨.work (.file call), (call.perform fs).1⟩ :: rest ∧
      Comes BuildCall.servedInPieces (f (call.perform fs).1).run (call.perform fs).2
        rest r fs' := by
  obtain ⟨reply, rest, fs₁, rfl, hserved, h⟩ := comes_file_bind h
  obtain ⟨rfl, rfl⟩ := Prod.ext_iff.mp ((FileCall.servedInPieces_iff hcall).mp hserved)
  exact ⟨rest, rfl, h⟩

theorem comes_checkpoint_bind {f : Unit → Build α}
    (h : Comes BuildCall.servedInPieces (Build.checkpoint >>= f).run fs exchanges r fs') :
    (∃ rest, exchanges = ⟨.work .isCancelled, false⟩ :: rest ∧
      Comes BuildCall.servedInPieces (f ()).run fs rest r fs') ∨
    exchanges = [⟨.work .isCancelled, true⟩] ∧ r = .error (Fault.of .cancelled) ∧ fs' = fs := by
  obtain ⟨(cancelled : Bool), rest, fs₁, rfl, hfs₁, h⟩ := Comes.ask h
  cases hfs₁
  cases cancelled with
  | false => exact .inl ⟨rest, rfl, h⟩
  | true =>
    obtain ⟨rfl, rfl, rfl⟩ := comes_pure_iff.mp h
    exact .inr ⟨rfl, rfl, rfl⟩

theorem comes_within {b : Build α} {sentence : String}
    (h : Comes BuildCall.servedInPieces (Build.within sentence b).run fs exchanges r fs') :
    ∃ r', Comes BuildCall.servedInPieces b.run fs exchanges r' fs' ∧
      r = r'.mapError (·.context sentence) := by
  obtain ⟨r', first, rest, fs₁, rfl, hb, h⟩ := Comes.bind h
  refine ⟨r', ?_⟩
  cases r' with
  | ok a =>
    obtain ⟨rfl, rfl, rfl⟩ := comes_pure_iff.mp h
    exact ⟨by rwa [List.append_nil], rfl⟩
  | error fault =>
    obtain ⟨rfl, rfl, rfl⟩ := comes_pure_iff.mp h
    exact ⟨by rwa [List.append_nil], rfl⟩

theorem crashFree_work_bind {call : WorkCall} {f : call.Reply → Build α}
    (h : ∀ reply, (f reply).run.CrashFree) : (Build.work call >>= f).run.CrashFree :=
  h

theorem crashFree_post_bind {message : String} {share : Option (UInt64 × UInt64)}
    {f : Unit → Build α} (h : (f ()).run.CrashFree) :
    (Build.post message share >>= f).run.CrashFree :=
  fun _ => h

theorem crashFree_checkpoint_bind {f : Unit → Build α} (h : (f ()).run.CrashFree) :
    (Build.checkpoint >>= f).run.CrashFree := by
  intro (cancelled : Bool)
  cases cancelled with
  | false => exact h
  | true => trivial

theorem crashFree_orFail_bind {β : Type} {result : Except IoError β} {f : β → Build α}
    (h : ∀ b, (f b).run.CrashFree) : (Build.orFail result >>= f).run.CrashFree := by
  cases result with
  | ok b => exact h b
  | error e => trivial

theorem crashFree_within {b : Build α} {sentence : String} (h : b.run.CrashFree) :
    (Build.within sentence b).run.CrashFree :=
  CrashFree.bind h fun r => by cases r <;> trivial

end Build

namespace RawCopy

variable {fs fs' : FileSystem} {src out chunk total fuel copied : Nat} {bytes : Bytes}
  {source output : String} {options : TargetOptions} {exchanges : List (Exchange BuildCall.Reply)}

def rounds (src out chunk total copied : Nat) : List Bytes → List (Exchange BuildCall.Reply)
  | [] => []
  | piece :: pieces =>
    ⟨.work .isCancelled, false⟩ :: ⟨.work (.file (.read src copied chunk)), .ok piece⟩ ::
      ⟨.work (.file (.write out copied piece)), .ok ()⟩ ::
      ⟨.post (toString (copied + piece.length) ++ " bytes") (share (copied + piece.length) total),
        ()⟩ :: rounds src out chunk total (copied + piece.length) pieces

/-- How a copy ends behind so many bytes: nothing is left to read, or it is stopped. -/
inductive LastRound (src chunk length copied : Nat) :
    List (Exchange BuildCall.Reply) → Except Fault Nat → Prop where
  | finished (h : copied = length) : LastRound src chunk length copied
      [⟨.work .isCancelled, false⟩, ⟨.work (.file (.read src copied chunk)), .ok []⟩] (.ok copied)
  | stopped : LastRound src chunk length copied
      [⟨.work .isCancelled, true⟩] (.error (Fault.of .cancelled))

/-- The course of a copy between open files, and what it makes of them. -/
structure Rounds (src out chunk total copied : Nat) (bytes : Bytes) (fs fs' : FileSystem)
    (exchanges : List (Exchange BuildCall.Reply)) (r : Except Fault Nat)
    (pieces : List Bytes) : Prop where
  nonempty : ∀ piece ∈ pieces, piece ≠ []
  halfway : Halfway src out bytes (copied + pieces.flatten.length) fs'
  grows : Grows (· = out) fs fs'
  exchanges_eq : ∃ last, exchanges = rounds src out chunk total copied pieces ++ last ∧
    LastRound src chunk bytes.length (copied + pieces.flatten.length) last r

theorem comes_copyChunks (hne : src ≠ out) (hchunk : 0 < chunk)
    (h : Halfway src out bytes copied fs) (hfuel : bytes.length < copied + fuel)
    {r : Except Fault Nat} (hcomes : Comes BuildCall.servedInPieces
      (copyChunks src out chunk total fuel copied).run fs exchanges r fs') :
    ∃ pieces, Rounds src out chunk total copied bytes fs fs' exchanges r pieces := by
  induction fuel generalizing copied fs exchanges with
  | zero =>
    have := h.copied_le
    omega
  | succ fuel ih =>
    have hself : Grows (· = out) fs fs := .refl _ fs
    obtain ⟨rest, rfl, hread⟩ | ⟨rfl, rfl, rfl⟩ := Build.comes_checkpoint_bind hcomes
    · obtain ⟨reply, rest, fs₁, rfl, ⟨rfl, hpiece⟩, hrest⟩ := Build.comes_file_bind hread
      have hbytes : fs₁.readAt src copied chunk = .ok ((bytes.drop copied).take chunk) := by
        simp [readAt, h.source]
      rw [hbytes] at hpiece
      obtain ⟨piece, rfl, hbegins, hempty⟩ := isPiece_ok_iff.mp hpiece
      rw [Build.orFail_ok_bind] at hrest
      by_cases hnil : piece = []
      · subst hnil
        obtain ⟨rfl, rfl, rfl⟩ := comes_pure_iff.mp hrest
        have hdone : chunk = 0 ∨ bytes.length ≤ copied := by simpa using hempty rfl
        have hcopied : copied = bytes.length := by
          have := h.copied_le
          omega
        exact ⟨[], by simp, h, hself, _, rfl, .finished hcopied⟩
      · rw [if_neg (by simpa [List.isEmpty_iff] using hnil)] at hrest
        obtain ⟨rest, rfl, hposts⟩ := Build.comes_performed_bind rfl hrest
        simp only [FileCall.perform, Build.orFail_ok_bind] at hposts ⊢
        obtain ⟨rest, rfl, hnext⟩ := Build.comes_post_bind hposts
        obtain ⟨hhalfway, hgrows⟩ := h.write (hbegins.trans (List.take_prefix chunk _)) hne
        have hlength := List.length_pos_iff.mpr hnil
        obtain ⟨pieces, hrounds⟩ := ih hhalfway (by omega) hnext
        obtain ⟨last, rfl, hlast⟩ := hrounds.exchanges_eq
        have hsum : copied + piece.length + pieces.flatten.length =
            copied + (piece :: pieces).flatten.length := by
          simp [Nat.add_assoc]
        refine ⟨piece :: pieces, ?_, ?_, hgrows.trans hrounds.grows, last, rfl, ?_⟩
        · exact List.forall_mem_cons.mpr ⟨hnil, hrounds.nonempty⟩
        · exact hsum ▸ hrounds.halfway
        · exact hsum ▸ hlast
    · exact ⟨[], by simp, h, hself, _, rfl, .stopped⟩

theorem crashFree_copyChunks (src out chunk total fuel copied : Nat) :
    (copyChunks src out chunk total fuel copied).run.CrashFree := by
  induction fuel generalizing copied with
  | zero => trivial
  | succ fuel ih =>
    refine Build.crashFree_checkpoint_bind (Build.crashFree_work_bind fun _ =>
      Build.crashFree_orFail_bind fun bytes => ?_)
    split
    · trivial
    · exact Build.crashFree_work_bind fun _ => Build.crashFree_orFail_bind fun _ =>
        Build.crashFree_post_bind (ih _)

/-! ## The whole copy -/

/-- The chunk size that is asked for, or else the usual one. It must be one a buffer can have. -/
structure HasChunk (options : TargetOptions) (chunk : Nat) : Prop where
  positive : 0 < chunk
  small : chunk < bufferLimit
  chosen : (options.get? "chunk_size").elim (chunk = defaultChunk) fun value =>
    Number.readWord? value = some chunk

theorem HasChunk.chunkSize_eq (h : HasChunk options chunk) : chunkSize options = pure chunk := by
  have hchosen := h.chosen
  unfold chunkSize
  cases hvalue : options.get? "chunk_size" with
  | none =>
    rw [hvalue] at hchosen
    exact congrArg pure (Eq.symm hchosen)
  | some value =>
    rw [hvalue] at hchosen
    obtain ⟨n, rfl⟩ := Nat.exists_eq_succ_of_ne_zero (Nat.ne_of_gt h.positive)
    simp only [show Number.readWord? value = some (n + 1) from hchosen]

/-- What is asked for is not a number, or no number of bytes to copy at a time. -/
def InvalidChunk (options : TargetOptions) : Prop :=
  ∃ value, options.get? "chunk_size" = some value ∧
    ∀ n, Number.readWord? value = some n → n = 0

theorem InvalidChunk.chunkSize_eq (h : InvalidChunk options) :
    ∃ message, chunkSize options = throw (Fault.plain message) := by
  obtain ⟨value, hvalue, hzero⟩ := h
  unfold chunkSize
  rw [hvalue]
  simp only
  split
  · rename_i n hn
    cases hzero _ hn
  · exact ⟨_, rfl⟩

def IsOpening (exchange : Exchange BuildCall.Reply) : Prop :=
  ∃ (call : FileCall) (reply : call.Reply), exchange = ⟨.work (.file call), reply⟩ ∧
    call.isRead = false

structure Course (output : String) (chunk : Nat) (bytes : Bytes)
    (exchanges : List (Exchange BuildCall.Reply)) (r : Except Fault Nat) (fs' : FileSystem)
    (pieces : List Bytes) : Prop where
  nonempty : ∀ piece ∈ pieces, piece ≠ []
  length_le : pieces.flatten.length ≤ bytes.length
  written : fs'.readBytes output = .ok (bytes.take pieces.flatten.length)
  exchanges_eq : ∃ (src out : Nat) (opening last : List (Exchange BuildCall.Reply)),
    exchanges = opening ++ (rounds src out chunk bytes.length 0 pieces ++ last) ∧
      (∀ e ∈ opening, IsOpening e) ∧
        LastRound src chunk bytes.length pieces.flatten.length last r

theorem Course.cons {e : Exchange BuildCall.Reply} {r : Except Fault Nat} {pieces : List Bytes}
    (he : IsOpening e) (h : Course output chunk bytes exchanges r fs' pieces) :
    Course output chunk bytes (e :: exchanges) r fs' pieces := by
  obtain ⟨src, out, opening, last, rfl, hopening, hlast⟩ := h.exchanges_eq
  exact ⟨h.nonempty, h.length_le, h.written, src, out, e :: opening, last, rfl,
    List.forall_mem_cons.mpr ⟨he, hopening⟩, hlast⟩

theorem comes_create (hsound : fs.Sound) (hbytes : fs.nodes[src]? = some (.file bytes))
    (hother : ¬ fs.LocatesAt output src) (hchunk : 0 < chunk) (hlimit : chunk < bufferLimit)
    {fs₁ : FileSystem} (hcreate : fs.create output = .ok (out, fs₁)) {r : Except Fault Nat}
    (hcomes : Comes BuildCall.servedInPieces (show Build Nat from do
      let outputFile ← Build.orFail (← Build.file (.create output))
      if bufferLimit ≤ chunk then Build.crash
      copyChunks src outputFile chunk bytes.length (bytes.length + 1) 0).run fs exchanges r fs') :
    ∃ pieces, Course output chunk bytes exchanges r fs' pieces := by
  obtain ⟨rest, rfl, hrest⟩ := Build.comes_performed_bind rfl hcomes
  simp only [FileCall.perform, hcreate, Build.orFail_ok_bind] at hrest ⊢
  rw [if_neg (Nat.not_le.mpr hlimit)] at hrest
  have hbegun := begun_of_create hsound hbytes hother hcreate
  obtain ⟨pieces, hrounds⟩ := comes_copyChunks hbegun.ne hchunk hbegun.halfway (by omega) hrest
  obtain ⟨last, rfl, hlast⟩ := hrounds.exchanges_eq
  have hhalfway := hrounds.halfway
  rw [Nat.zero_add] at hhalfway hlast
  refine ⟨pieces, hrounds.nonempty, hhalfway.copied_le, ?_,
    src, out, [⟨.work (.file (.create output)), .ok out⟩], last, rfl, ?_, hlast⟩
  · exact readBytes_of_locatesAt (hrounds.grows.locatesAt hbegun.sound hbegun.located)
      hhalfway.output
  · exact List.forall_mem_singleton.mpr ⟨_, _, rfl, rfl⟩

theorem comes_copy (hsound : fs.Sound) (hsource : fs.LocatesAt source src)
    (hbytes : fs.nodes[src]? = some (.file bytes))
    (hother : ¬ (fs.withDirectoriesOf output).LocatesAt output src)
    (hchunk : HasChunk options chunk) (hcreate : fs.CanCreate output) {r : Except Fault Nat}
    (hcomes : Comes BuildCall.servedInPieces (copy source output options).run fs exchanges r fs') :
    ∃ pieces, Course output chunk bytes exchanges r fs' pieces := by
  obtain ⟨place, hlocate, rfl⟩ := hsource
  obtain ⟨hmakes, out, fs₁, hout⟩ := hcreate
  unfold copy at hcomes
  rw [hchunk.chunkSize_eq, pure_bind] at hcomes
  obtain ⟨rest, rfl, hsized⟩ := Build.comes_performed_bind rfl hcomes
  simp only [FileCall.perform, size_of_locate hlocate hbytes, Build.orFail_ok_bind] at hsized ⊢
  obtain ⟨rest, rfl, hopen⟩ := Build.comes_performed_bind rfl hsized
  simp only [FileCall.perform, openForReading_of_locate hlocate, Build.orFail_ok_bind] at hopen ⊢
  have hextends := extends_withDirectoriesOf fs output
  have hend {exchanges : List (Exchange BuildCall.Reply)} (hrest : Comes BuildCall.servedInPieces
      (show Build Nat from do
        let outputFile ← Build.orFail (← Build.file (.create output))
        if bufferLimit ≤ chunk then Build.crash
        copyChunks (nodeId place) outputFile chunk bytes.length (bytes.length + 1) 0).run
      (fs.withDirectoriesOf output) exchanges r fs') :=
    comes_create (hextends.sound hsound) (hextends.grows.unwritten (by simp) hbytes) hother
      hchunk.positive hchunk.small hout hrest
  have hopened {exchanges : List (Exchange BuildCall.Reply)} {pieces : List Bytes}
      (h : Course output chunk bytes exchanges r fs' pieces) :
      Course output chunk bytes (⟨.work (.file (.size source)), .ok bytes.length⟩ ::
        ⟨.work (.file (.openForReading source)), .ok (nodeId place)⟩ :: exchanges) r fs' pieces :=
    (h.cons ⟨.openForReading source, _, rfl, rfl⟩).cons ⟨.size source, _, rfl, rfl⟩
  unfold withDirectoriesOf at hend
  cases hparent : parentPath? output with
  | none =>
    simp only [hparent, Option.elim] at hopen hend
    exact (hend hopen).imp fun _ h => hopened h
  | some parent =>
    simp only [hparent, Option.elim] at hopen hend
    obtain ⟨rest, rfl, hmade⟩ := Build.comes_performed_bind rfl hopen
    simp only [FileCall.perform, hmakes parent hparent, Build.orFail_ok_bind] at hmade ⊢
    exact (hend hmade).imp fun _ h =>
      hopened (h.cons ⟨.makeDirectories parent, _, rfl, rfl⟩)

theorem crashFree_copy (h : ∀ chunk, chunkSize options = pure chunk → chunk < bufferLimit) :
    (copy source output options).run.CrashFree := by
  unfold copy
  obtain ⟨chunk, -, heq⟩ | ⟨fault, heq⟩ := chunkSize_eq options
  · have hend (src total : Nat) : (show Build Nat from do
        let outputFile ← Build.orFail (← Build.file (.create output))
        if bufferLimit ≤ chunk then Build.crash
        copyChunks src outputFile chunk total (total + 1) 0).run.CrashFree := by
      refine Build.crashFree_work_bind fun _ => Build.crashFree_orFail_bind fun out => ?_
      rw [if_neg (Nat.not_le.mpr (h chunk heq))]
      exact crashFree_copyChunks ..
    rw [heq, pure_bind]
    refine Build.crashFree_work_bind fun _ => Build.crashFree_orFail_bind fun total => ?_
    refine Build.crashFree_work_bind fun _ => Build.crashFree_orFail_bind fun src => ?_
    cases parentPath? output with
    | none => exact hend src total
    | some parent =>
      exact Build.crashFree_work_bind fun _ => Build.crashFree_orFail_bind fun _ =>
        hend src total
  · rw [heq]
    trivial

theorem crashFree_build (h : ∀ chunk, chunkSize options = pure chunk → chunk < bufferLimit) :
    (build source output options).run.CrashFree := by
  refine Build.crashFree_work_bind fun (found : Bool) => ?_
  cases found with
  | false => trivial
  | true =>
    exact Build.crashFree_post_bind (CrashFree.run_bind (Build.crashFree_within (crashFree_copy h))
      fun _ => Build.crashFree_post_bind trivial)

end RawCopy

/-! ## What is asked on the way -/

/-- Nothing is read but directly behind a check that found the job uncancelled. -/
def Looked (before e : Exchange WorkCall.Reply) : Prop :=
  (∃ file offset count, e.1 = .file (.read file offset count)) → before = ⟨.isCancelled, false⟩

namespace RawCopy

variable {fs fs' : FileSystem} {src out chunk total copied length : Nat} {bytes : Bytes}
  {pieces : List Bytes} {source output : String} {options : TargetOptions}
  {exchanges last : List (Exchange BuildCall.Reply)} {r : Except Fault Nat}

def shareOf? : Exchange BuildCall.Reply → Option (UInt64 × UInt64)
  | ⟨.post _ share, _⟩ => share
  | ⟨.work _, _⟩ => none

def counts : Nat → List Bytes → List Nat
  | _, [] => []
  | copied, piece :: pieces =>
    (copied + piece.length) :: counts (copied + piece.length) pieces

theorem filterMap_shareOf?_rounds : (rounds src out chunk total copied pieces).filterMap shareOf? =
    (counts copied pieces).map fun n => (UInt64.ofNat n, UInt64.ofNat total) := by
  induction pieces generalizing copied with
  | nil => rfl
  | cons piece pieces ih => exact congrArg (_ :: ·) ih

theorem mem_counts (hpieces : ∀ piece ∈ pieces, piece ≠ []) {n : Nat}
    (h : n ∈ counts copied pieces) : copied < n ∧ n ≤ copied + pieces.flatten.length := by
  induction pieces generalizing copied with
  | nil => cases h
  | cons piece pieces ih =>
    have hlength := List.length_pos_iff.mpr (hpieces piece (List.mem_cons_self ..))
    rw [List.flatten_cons, List.length_append]
    rcases List.mem_cons.mp h with rfl | h
    · omega
    · have := ih (fun piece hpiece => hpieces piece (List.mem_cons_of_mem _ hpiece)) h
      omega

theorem pairwise_counts (hpieces : ∀ piece ∈ pieces, piece ≠ []) :
    (counts copied pieces).Pairwise (· < ·) := by
  induction pieces generalizing copied with
  | nil => exact .nil
  | cons piece pieces ih =>
    have hrest := fun piece hpiece => hpieces piece (List.mem_cons_of_mem _ hpiece)
    exact .cons (fun n hn => (mem_counts hrest hn).1) (ih hrest)

theorem getLast?_counts : (counts copied pieces).getLast?.getD copied =
    copied + pieces.flatten.length := by
  induction pieces generalizing copied with
  | nil => simp [counts]
  | cons piece pieces ih => simp [counts, List.getLast?_cons, ih, Nat.add_assoc]

theorem looked_rounds (hlast : LastRound src chunk length (copied + pieces.flatten.length) last r) :
    ((rounds src out chunk total copied pieces ++ last).filterMap workOf?).IsChain Looked ∧
      ∃ found rest, (rounds src out chunk total copied pieces ++ last).filterMap workOf? =
        ⟨.isCancelled, found⟩ :: rest := by
  induction pieces generalizing copied with
  | nil =>
    cases hlast with
    | finished hcopied =>
      exact ⟨.cons_cons (fun _ => rfl) (.singleton _), false, _, rfl⟩
    | stopped => exact ⟨.singleton _, true, _, rfl⟩
  | cons piece pieces ih =>
    rw [List.flatten_cons, List.length_append, ← Nat.add_assoc] at hlast
    obtain ⟨hchain, found, rest, hrest⟩ := ih hlast
    refine ⟨?_, false, _, rfl⟩
    simp only [rounds, List.cons_append, List.filterMap_cons, workOf?]
    rw [hrest] at hchain ⊢
    exact .cons_cons (fun _ => rfl) (.cons_cons (by simp [Looked]) (.cons_cons (by simp [Looked])
      hchain))

def Passing (e : Exchange WorkCall.Reply) : Prop :=
  (∃ (call : FileCall) (reply : call.Reply), e = ⟨.file call, reply⟩) ∨ e = ⟨.isCancelled, false⟩

theorem Passing.ne_found {e : Exchange WorkCall.Reply} (h : Passing e) :
    e ≠ ⟨.isCancelled, true⟩ := by
  rintro rfl
  obtain ⟨call, reply, h⟩ | h := h <;> cases h

theorem Passing.ne_cancel {e : Exchange WorkCall.Reply} (h : Passing e) : e ≠ ⟨.cancel, ()⟩ := by
  rintro rfl
  obtain ⟨call, reply, h⟩ | h := h <;> cases h

theorem passing_rounds : ∀ e ∈ (rounds src out chunk total copied pieces).filterMap workOf?,
    Passing e := by
  induction pieces generalizing copied with
  | nil => simp [rounds]
  | cons piece pieces ih =>
    simp only [rounds, List.filterMap_cons, workOf?, List.forall_mem_cons]
    exact ⟨.inr rfl, .inl ⟨_, _, rfl⟩, .inl ⟨_, _, rfl⟩, ih⟩

/-- What a copy comes to, and what the build around it makes of that. -/
inductive Closing (source output : String) : Except Fault Nat → List (Exchange BuildCall.Reply) →
    Except Fault String → Prop where
  | written (n : Nat) : Closing source output (.ok n)
      [⟨.post (toString n ++ " bytes written") none, ()⟩] (.ok output)
  | failed (fault : Fault) : Closing source output (.error fault) []
      (.error (fault.context ("compiling " ++ source ++ " to " ++ output)))

theorem comes_compiling {result : Except Fault String}
    (h : Comes BuildCall.servedInPieces (show Build String from do
      Build.post ("compiling " ++ source) none
      let written ← Build.within ("compiling " ++ source ++ " to " ++ output)
        (copy source output options)
      Build.post (toString written ++ " bytes written") none
      return output).run fs exchanges result fs') :
    ∃ (copied : Except Fault Nat) (course closing : List (Exchange BuildCall.Reply)),
      exchanges = ⟨.post ("compiling " ++ source) none, ()⟩ :: (course ++ closing) ∧
        Comes BuildCall.servedInPieces (copy source output options).run fs course copied fs' ∧
          Closing source output copied closing result := by
  obtain ⟨rest, rfl, hrest⟩ := Build.comes_post_bind h
  obtain ⟨written, course, closing, fs₁, rfl, hcopy, hlast⟩ | ⟨fault, rfl, hcopy⟩ :=
    Comes.run_bind hrest
  · obtain ⟨copied, hcomes, hcopied⟩ := Build.comes_within hcopy
    obtain ⟨rest, rfl, hend⟩ := Build.comes_post_bind hlast
    obtain ⟨rfl, rfl, rfl⟩ := comes_pure_iff.mp hend
    cases copied with
    | ok n =>
      cases hcopied
      exact ⟨_, course, _, rfl, hcomes, .written written⟩
    | error fault => cases hcopied
  · obtain ⟨copied, hcomes, hcopied⟩ := Build.comes_within hcopy
    cases copied with
    | ok n => cases hcopied
    | error fault =>
      cases hcopied
      exact ⟨_, rest, [], by rw [List.append_nil], hcomes, .failed fault⟩

theorem comes_build {result : Except Fault String}
    (h : Comes BuildCall.servedInPieces (build source output options).run fs exchanges result fs') :
    (fs.isFile source = false ∧ fs' = fs ∧
      exchanges = [⟨.work (.file (.isFile source)), false⟩] ∧
        result = .error (Fault.plain ("no such source file: " ++ source))) ∨
    fs.isFile source = true ∧
      ∃ (copied : Except Fault Nat) (course closing : List (Exchange BuildCall.Reply)),
        exchanges = ⟨.work (.file (.isFile source)), true⟩ ::
          ⟨.post ("compiling " ++ source) none, ()⟩ :: (course ++ closing) ∧
        Comes BuildCall.servedInPieces (copy source output options).run fs course copied fs' ∧
          Closing source output copied closing result := by
  obtain ⟨(found : Bool), rest, fs₁, rfl, hserved, hrest⟩ := Build.comes_file_bind h
  obtain ⟨hfound, rfl⟩ : found = fs.isFile source ∧ fs₁ = fs := Prod.ext_iff.mp hserved
  rw [← hfound]
  cases found with
  | false =>
    obtain ⟨rfl, rfl, rfl⟩ := comes_pure_iff.mp hrest
    exact .inl ⟨rfl, rfl, rfl, rfl⟩
  | true =>
    obtain ⟨copied, course, closing, rfl, hcopy, hclosing⟩ := comes_compiling hrest
    exact .inr ⟨rfl, copied, course, closing, rfl, hcopy, hclosing⟩

theorem isChain_looked_append {asked rest : List (Exchange WorkCall.Reply)}
    (hfiles : ∀ e ∈ asked, ∀ before, Looked before e) (hrest : rest.IsChain Looked)
    (hhead : ∃ found rest', rest = ⟨.isCancelled, found⟩ :: rest') :
    (asked ++ rest).IsChain Looked := by
  refine List.isChain_append.mpr ⟨?_, hrest, ?_⟩
  · exact (List.pairwise_iff_getElem.mpr fun i j _ hj _ =>
      hfiles _ (List.getElem_mem hj) _).isChain
  · obtain ⟨found, rest', rfl⟩ := hhead
    rintro e - e' he'
    cases he'
    simp [Looked]

def Asks (chunk length : Nat) (pieces : List Bytes) (r : Except Fault Nat)
    (asked : List (Exchange WorkCall.Reply)) : Prop :=
  ∃ (src out : Nat) (opening : List (Exchange WorkCall.Reply))
    (last : List (Exchange BuildCall.Reply)),
    asked = opening ++ (rounds src out chunk length 0 pieces ++ last).filterMap workOf? ∧
      (∀ e ∈ opening, ∃ (call : FileCall) (reply : call.Reply),
        e = ⟨.file call, reply⟩ ∧ call.isRead = false) ∧
      LastRound src chunk length pieces.flatten.length last r

section

variable {asked : List (Exchange WorkCall.Reply)}

theorem Asks.looked (h : Asks chunk length pieces r asked) (found : Bool) :
    (⟨.isCancelled, found⟩ :: asked).IsChain Looked := by
  obtain ⟨src, out, opening, last, rfl, hopening, hlast⟩ := h
  rw [← Nat.zero_add pieces.flatten.length] at hlast
  obtain ⟨hchain, hhead⟩ := looked_rounds hlast
  rw [← List.cons_append]
  refine isChain_looked_append ?_ hchain hhead
  refine List.forall_mem_cons.mpr ⟨by simp [Looked], fun e he before => ?_⟩
  obtain ⟨call, reply, rfl, hcall⟩ := hopening e he
  rintro ⟨file, offset, count, h⟩
  cases h
  cases hcall

theorem Asks.passing (h : Asks chunk length pieces r asked) : ∃ first last, asked = first ++ last ∧
    (∀ e ∈ first, Passing e) ∧ ((∃ n, r = .ok n) ∧ (∀ e ∈ last, Passing e) ∨
      r = .error (Fault.of .cancelled) ∧ last = [⟨.isCancelled, true⟩]) := by
  obtain ⟨src, out, opening, last, rfl, hopening, hlast⟩ := h
  rw [List.filterMap_append, ← List.append_assoc]
  refine ⟨_, _, rfl, fun e he => ?_, ?_⟩
  · rcases List.mem_append.mp he with he | he
    · obtain ⟨call, reply, rfl, -⟩ := hopening e he
      exact .inl ⟨call, reply, rfl⟩
    · exact passing_rounds e he
  · cases hlast with
    | finished hcopied =>
      refine .inl ⟨⟨_, rfl⟩, List.forall_mem_cons.mpr ⟨.inr rfl, ?_⟩⟩
      exact List.forall_mem_singleton.mpr (.inl ⟨_, _, rfl⟩)
    | stopped => exact .inr ⟨rfl, rfl⟩

theorem Asks.kept (h : Asks chunk length pieces r asked) : ⟨.cancel, ()⟩ ∉ asked := by
  obtain ⟨first, last, rfl, hfirst, hlast⟩ := h.passing
  intro hmem
  rcases List.mem_append.mp hmem with hmem | hmem
  · exact (hfirst _ hmem).ne_cancel rfl
  · obtain ⟨-, hlast⟩ | ⟨-, rfl⟩ := hlast
    · exact (hlast _ hmem).ne_cancel rfl
    · cases List.mem_singleton.mp hmem

theorem Asks.found_iff (h : Asks chunk length pieces r asked) :
    ⟨.isCancelled, true⟩ ∈ asked ↔ r = .error (Fault.of .cancelled) := by
  obtain ⟨first, last, rfl, hfirst, hlast⟩ := h.passing
  obtain ⟨⟨n, rfl⟩, hlast⟩ | ⟨rfl, rfl⟩ := hlast
  · refine ⟨fun hmem => ?_, fun h => by cases h⟩
    rcases List.mem_append.mp hmem with hmem | hmem
    · exact ((hfirst _ hmem).ne_found rfl).elim
    · exact ((hlast _ hmem).ne_found rfl).elim
  · exact ⟨fun _ => rfl, fun _ => List.mem_append_right _ (List.mem_singleton.mpr rfl)⟩

end

def around (source : String) (course closing : List (Exchange BuildCall.Reply)) :
    List (Exchange BuildCall.Reply) :=
  ⟨.work (.file (.isFile source)), true⟩ :: ⟨.post ("compiling " ++ source) none, ()⟩ ::
    (course ++ closing)

section

variable {course closing : List (Exchange BuildCall.Reply)} {result : Except Fault String}

theorem Course.asks (h : Course output chunk bytes course r fs' pieces)
    (hclosing : Closing source output r closing result) :
    Asks chunk bytes.length pieces r ((around source course closing).filterMap workOf?) := by
  obtain ⟨src, out, opening, last, rfl, hopening, hlast⟩ := h.exchanges_eq
  have hclosed : closing.filterMap workOf? = [] := by cases hclosing <;> rfl
  refine ⟨src, out, ⟨.file (.isFile source), true⟩ :: opening.filterMap workOf?, last, ?_,
    List.forall_mem_cons.mpr ⟨⟨.isFile source, true, rfl, rfl⟩, fun e he => ?_⟩, hlast⟩
  · simp only [around, List.filterMap_cons, workOf?, List.filterMap_append, hclosed,
      List.append_nil, List.cons_append]
  · obtain ⟨e', he', hwork⟩ := List.mem_filterMap.mp he
    obtain ⟨call, reply, rfl, hcall⟩ := hopening e' he'
    cases hwork
    exact ⟨call, reply, rfl, hcall⟩

theorem Course.shares (h : Course output chunk bytes course r fs' pieces)
    (hclosing : Closing source output r closing result) :
    (around source course closing).filterMap shareOf? =
      (counts 0 pieces).map fun n => (UInt64.ofNat n, UInt64.ofNat bytes.length) := by
  obtain ⟨src, out, opening, last, rfl, hopening, hlast⟩ := h.exchanges_eq
  have hclosed : closing.filterMap shareOf? = [] := by cases hclosing <;> rfl
  have hlastNone : last.filterMap shareOf? = [] := by cases hlast <;> rfl
  have hnone : opening.filterMap shareOf? = [] := by
    refine List.filterMap_eq_nil_iff.mpr fun e he => ?_
    obtain ⟨call, reply, rfl, -⟩ := hopening e he
    rfl
  simp only [around, List.filterMap_cons, shareOf?, List.filterMap_append, hclosed, hlastNone,
    hnone, List.append_nil, List.nil_append, filterMap_shareOf?_rounds]

end

theorem comes_build_refused (hchunk : InvalidChunk options) {result : Except Fault String}
    (h : Comes BuildCall.servedInPieces (build source output options).run fs exchanges result fs') :
    fs' = fs ∧ (∃ fault, result = .error fault ∧ fault.isCancelled = false) ∧
      ∀ e ∈ exchanges.filterMap workOf?, Passing e := by
  obtain ⟨-, rfl, rfl, rfl⟩ | ⟨-, copied, course, closing, rfl, hcopy, hclosing⟩ := comes_build h
  · exact ⟨rfl, ⟨_, rfl, rfl⟩, List.forall_mem_singleton.mpr (.inl ⟨_, _, rfl⟩)⟩
  · obtain ⟨message, hmessage⟩ := hchunk.chunkSize_eq
    unfold copy at hcopy
    rw [hmessage] at hcopy
    obtain ⟨rfl, rfl, rfl⟩ := comes_pure_iff.mp hcopy
    cases hclosing
    exact ⟨rfl, ⟨_, rfl, rfl⟩, List.forall_mem_singleton.mpr (.inl ⟨_, _, rfl⟩)⟩

end RawCopy

end SessionShell
