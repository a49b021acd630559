import Mathlib.Data.List.Forall2
import Mathlib.Data.List.Induction
import SessionShell.Proofs.Shell.Reading
import SessionShell.Shell.Life

/-!
The library path over any number of calls.

There are four reasons not to link a file. They are stated apart from one another, each from the
files and the path alone, and a call is refused for the first that applies. So a file is on the path
from its first successful call on, once, and whatever other path leads to it is refused from then
on. It is all the same which sessions call: one that has exited is refused before the path is looked
at, and the others share the path.
-/

namespace SessionShell

namespace FileView

/-- A regular file has one full path, whatever path leads to it. -/
structure OnePathPerFile {ι : Type} (files : FileView) (file : String → Option ι) : Prop where
  isFile : ∀ path, files.isFile path = (file path).isSome
  canonical : ∀ path path', file path = file path' → (file path).isSome →
    files.canonical path = files.canonical path'

end FileView

namespace LibraryPath

variable (files : FileView) (entries : LibraryPath) (path : String)

/-! ## Reasons -/

def missing? : Option LinkError :=
  if files.isFile path then none else some (.missing path)

def unreadable? : Option LinkError :=
  match files.canonical path with
  | .error e => some (.unreadable path e)
  | .ok full =>
    match files.start full 4 with
    | .error e => some (.unreadable full e)
    | .ok _ => none

def notArchive? : Option LinkError :=
  match files.canonical path with
  | .error _ => none
  | .ok full =>
    match files.start full 4 with
    | .error _ => none
    | .ok start => if start ∈ signatures then none else some (.notArchive full)

def alreadyLinked? : Option LinkError :=
  match files.canonical path with
  | .error _ => none
  | .ok full => if full ∈ entries then some (.alreadyLinked full) else none

def refusal? : Option LinkError :=
  [missing? files path, unreadable? files path, notArchive? files path,
    alreadyLinked? files entries path].findSome? id

variable {files entries path}

/-- A call is refused for the first reason that applies, and adds the full path of an archive if
none does. -/
theorem link_cases :
    (∃ e, refusal? files entries path = some e ∧ entries.link files path = .error e) ∨
      ∃ full, refusal? files entries path = none ∧
        entries.link files path = .ok (full, entries ++ [full]) ∧
        files.isFile path = true ∧ files.canonical path = .ok full ∧ full ∉ entries ∧
        ∃ start ∈ signatures, files.start full 4 = .ok start := by
  cases hfile : files.isFile path with
  | false => exact .inl ⟨.missing path, by simp [refusal?, missing?, hfile], by simp [link, hfile]⟩
  | true =>
    have hmissing : missing? files path = none := if_pos hfile
    cases hfull : files.canonical path with
    | error e =>
      exact .inl ⟨.unreadable path e,
        by simp [refusal?, hmissing, unreadable?, hfull], by simp [link, hfile, hfull]⟩
    | ok full =>
      cases hstart : files.start full 4 with
      | error e =>
        have harchive : isArchive files full = .error e := by rw [isArchive, hstart]; rfl
        exact .inl ⟨.unreadable full e, by simp [refusal?, hmissing, unreadable?, hfull, hstart],
          by simp [link, hfile, hfull, harchive]⟩
      | ok start =>
        have hreadable : unreadable? files path = none := by simp [unreadable?, hfull, hstart]
        have harchive : isArchive files full = .ok (signatures.contains start) := by
          rw [isArchive, hstart]; rfl
        by_cases hsignature : start ∈ signatures
        · rw [List.contains_iff_mem.mpr hsignature] at harchive
          have hgood : notArchive? files path = none := by
            simp [notArchive?, hfull, hstart, hsignature]
          by_cases hlinked : full ∈ entries
          · exact .inl ⟨.alreadyLinked full,
              by simp [refusal?, hmissing, hreadable, hgood, alreadyLinked?, hfull, hlinked],
              by simp [link, hfile, hfull, harchive, hlinked]⟩
          · exact .inr ⟨full,
              by simp [refusal?, hmissing, hreadable, hgood, alreadyLinked?, hfull, hlinked],
              by simp [link, hfile, hfull, harchive, hlinked], rfl, rfl, hlinked, start,
              hsignature, hstart⟩
        · have hnot : signatures.contains start = false := by simpa using hsignature
          rw [hnot] at harchive
          exact .inl ⟨.notArchive full,
            by simp [refusal?, hmissing, hreadable, notArchive?, hfull, hstart, hsignature],
            by simp [link, hfile, hfull, harchive]⟩

/-! ## Any number of calls -/

/-- Calls one after the other: what each of them answers, and what the path is in the end. -/
structure Record where
  answers : List (Except LinkError String)
  entries : LibraryPath

namespace Record

def call (files : FileView) (r : Record) (path : String) : Record :=
  match r.entries.link files path with
  | .ok (full, entries) => ⟨r.answers ++ [.ok full], entries⟩
  | .error e => ⟨r.answers ++ [.error e], r.entries⟩

def ofCalls (files : FileView) (paths : List String) : Record :=
  paths.foldl (call files) ⟨[], []⟩

/-- The full paths of the calls that were successful. -/
def linked (r : Record) : List String :=
  r.answers.filterMap Except.toOption

variable {r : Record} {paths : List String}

theorem call_of_refused {e : LinkError} (h : refusal? files r.entries path = some e) :
    r.call files path = ⟨r.answers ++ [.error e], r.entries⟩ := by
  rcases @link_cases files r.entries path with ⟨e', he, hlink⟩ | ⟨full, hnone, -⟩
  · obtain rfl := Option.some.inj (h.symm.trans he)
    simp [call, hlink]
  · cases h.symm.trans hnone

theorem call_of_not_refused (h : refusal? files r.entries path = none) :
    ∃ full, files.isFile path = true ∧ files.canonical path = .ok full ∧ full ∉ r.entries ∧
      (∃ start ∈ signatures, files.start full 4 = .ok start) ∧
      r.call files path = ⟨r.answers ++ [.ok full], r.entries ++ [full]⟩ := by
  rcases @link_cases files r.entries path with
    ⟨e, he, -⟩ | ⟨full, -, hlink, hfile, hfull, hnew, hstart⟩
  · cases h.symm.trans he
  · exact ⟨full, hfile, hfull, hnew, hstart, by simp [call, hlink]⟩

theorem ofCalls_append_singleton (files : FileView) (paths : List String) (path : String) :
    ofCalls files (paths ++ [path]) = (ofCalls files paths).call files path := by
  simp [ofCalls]

theorem answers_call (files : FileView) (r : Record) (path : String) :
    ∃ answer, (r.call files path).answers = r.answers ++ [answer] := by
  unfold call
  split
  · exact ⟨_, rfl⟩
  · exact ⟨_, rfl⟩

theorem answers_foldl_call (files : FileView) (r : Record) (paths : List String) :
    ∃ more, (paths.foldl (call files) r).answers = r.answers ++ more := by
  induction paths generalizing r with
  | nil => exact ⟨[], by simp⟩
  | cons path paths ih =>
    obtain ⟨answer, hanswer⟩ := answers_call files r path
    obtain ⟨more, hmore⟩ := ih (r.call files path)
    exact ⟨answer :: more, by rw [List.foldl_cons, hmore, hanswer, List.append_assoc]; rfl⟩

structure Sound (files : FileView) (paths : List String) (r : Record) : Prop where
  entries : r.entries = r.linked
  nodup : r.entries.Nodup
  archives : ∀ entry ∈ r.entries, ∃ start ∈ signatures, files.start entry 4 = .ok start
  answers : List.Forall₂ (fun path answer => ∀ full, answer = .ok full →
    files.isFile path = true ∧ files.canonical path = .ok full) paths r.answers

theorem Sound.call (h : Sound files paths r) (path : String) :
    Sound files (paths ++ [path]) (r.call files path) := by
  cases hrefusal : refusal? files r.entries path with
  | some e =>
    rw [call_of_refused hrefusal]
    refine ⟨?_, h.nodup, h.archives, ?_⟩
    · simp [linked, Except.toOption, h.entries]
    · exact List.rel_append h.answers (.cons (fun full hfull => nomatch hfull) .nil)
  | none =>
    obtain ⟨full, hfile, hfull, hnew, hstart, hcall⟩ := call_of_not_refused hrefusal
    rw [hcall]
    refine ⟨?_, ?_, fun entry hentry => ?_, ?_⟩
    · simp [linked, Except.toOption, h.entries]
    · refine List.nodup_append.mpr ⟨h.nodup, by simp, ?_⟩
      rintro entry hentry _ hnext rfl
      exact hnew (List.mem_singleton.mp hnext ▸ hentry)
    · rcases List.mem_append.mp hentry with hentry | hentry
      · exact h.archives entry hentry
      · obtain rfl := List.mem_singleton.mp hentry
        exact hstart
    · refine List.rel_append h.answers (.cons (fun full' hfull' => ?_) .nil)
      obtain rfl := Except.ok.inj hfull'
      exact ⟨hfile, hfull⟩

theorem sound_ofCalls (files : FileView) (paths : List String) :
    Sound files paths (ofCalls files paths) := by
  induction paths using List.reverseRecOn with
  | nil => exact ⟨rfl, .nil, by simp [ofCalls], .nil⟩
  | append_singleton paths path ih =>
    rw [ofCalls_append_singleton]
    exact ih.call path

theorem answer_ofCalls {before behind : List String} {answer : Except LinkError String}
    (h : ((ofCalls files before).call files path).answers =
      (ofCalls files before).answers ++ [answer]) :
    (ofCalls files (before ++ path :: behind)).answers[before.length]? = some answer := by
  obtain ⟨more, hmore⟩ := answers_foldl_call files ((ofCalls files before).call files path) behind
  have hall : ofCalls files (before ++ path :: behind) =
      behind.foldl (call files) ((ofCalls files before).call files path) := by
    simp [ofCalls]
  have hlength : (ofCalls files before).answers.length = before.length :=
    (sound_ofCalls files before).answers.length_eq.symm
  rw [hall, hmore, h]
  simp [← hlength]

end Record

end LibraryPath

/-! ## Calls of sessions -/

namespace Shell

open Action LibraryPath

/-- A session's call, made from a thread. -/
structure LinkCall where
  thread : ThreadId
  session : SessionId
  path : String

/-- Calls one after the other: whether each of them added its library, and the shell in the end. -/
def linkInTurn (s : Shell) (calls : List LinkCall) : Option (List Bool × Shell) :=
  calls.foldlM (fun (added, s) call => do
    let (answer, s) ← (link call.session call.path).runAlone? call.thread s
    return (added ++ [answer], s)) ([], s)

/-- The paths that live sessions ask for. -/
def askedPaths (s : Shell) (calls : List LinkCall) : List String :=
  (calls.filter fun call => (s.session call.session).isLive).map (·.path)

def refusalText (settings : Settings) : LinkError → String
  | .alreadyLinked full =>
    Markup.paint settings.escapeMode ("warning: " ++ (LinkError.alreadyLinked full).message)
      .warning ++ "\n"
  | e => faultText settings (Fault.of (.link e))

/-- What a session writes about a call that adds nothing. -/
def report? (s : Shell) (entries : LibraryPath) (call : LinkCall) : Option String :=
  if (s.session call.session).isLive then
    (refusal? s.world.files entries call.path).map (refusalText s.settings)
  else some (faultText s.settings (ShellError.hasExited (s.session call.session).name : Fault))

/-- The shell when some texts were printed as errors and the library path has some entries. -/
def withLibraries (s : Shell) (texts : List String) (entries : LibraryPath) : Shell :=
  { s with
    console := { s.console with err := texts.foldl (fun err text => err.submit text) s.console.err }
    libraries := entries }

variable {s : Shell} {id : SessionId}

theorem withLibraries_withLibraries (s : Shell) (texts more : List String)
    (entries entries' : LibraryPath) :
    (s.withLibraries texts entries).withLibraries more entries' = s.withLibraries
    (texts ++ more) entries' := by
  simp [withLibraries]

theorem runAlone?_link_of_exited (h : (s.session id).isLive = false) (me : ThreadId)
    (path : String) :
    (link id path).runAlone? me s =
      some (false,
        s.withLibraries [faultText s.settings (ShellError.hasExited (s.session id).name : Fault)]
        s.libraries) := by
  refine (runAlone?_bind (runAlone?_ensureLive_of_exited h me)).trans ?_
  rfl

theorem runAlone?_link_of_linked (hlive : (s.session id).isLive)
    (me : ThreadId) {path full : String}
    {entries : LibraryPath} (h : s.libraries.link s.world.files.view path = .ok (full, entries)) :
    (link id path).runAlone? me s = some (true, s.withLibraries [] entries) := by
  refine (runAlone?_bind (runAlone?_ensureLive hlive me)).trans ?_
  refine (runAlone?_bind (runAlone?_ask rfl)).trans ?_
  simp only [h]
  rfl

theorem runAlone?_link_of_refused (hlive : (s.session id).isLive) (me : ThreadId) {path : String}
    {e : LinkError} (h : s.libraries.link s.world.files.view path = .error e) :
    (link id path).runAlone? me s = some
    (false, s.withLibraries [refusalText s.settings e] s.libraries) := by
  refine (runAlone?_bind (runAlone?_ensureLive hlive me)).trans ?_
  refine (runAlone?_bind (runAlone?_ask rfl)).trans ?_
  simp only [h]
  cases e <;> rfl

theorem runAlone?_link (s : Shell) (texts : List String) (r : Record) (call : LinkCall) :
    (link call.session call.path).runAlone? call.thread (s.withLibraries texts r.entries) = some
      (match s.report? r.entries call with
      | some text => (false, s.withLibraries (texts ++ [text]) r.entries)
      | none => (true, s.withLibraries texts (r.call s.world.files call.path).entries)) := by
  cases hlive : (s.session call.session).isLive with
  | false =>
    refine (runAlone?_link_of_exited (s := s.withLibraries texts r.entries) hlive _ _).trans ?_
    rw [withLibraries_withLibraries]
    simp only [report?, hlive]
    rfl
  | true =>
    rcases @LibraryPath.link_cases s.world.files r.entries call.path with
      ⟨e, he, hlink⟩ | ⟨full, hnone, hlink, -⟩
    · refine (runAlone?_link_of_refused (s := s.withLibraries texts r.entries) hlive _ hlink).trans
        ?_
      rw [withLibraries_withLibraries]
      simp only [report?, hlive, he]
      rfl
    · refine (runAlone?_link_of_linked (s := s.withLibraries texts r.entries) hlive _ hlink).trans
        ?_
      rw [withLibraries_withLibraries]
      simp [report?, hlive, hnone, Record.call, hlink]

/-- A call that reports something leaves the entries, and one that reports nothing is a call for
its path. -/
theorem entries_ofCalls_askedPaths (s : Shell) (calls : List LinkCall) (call : LinkCall) :
    (Record.ofCalls s.world.files (s.askedPaths (calls ++ [call]))).entries =
      match s.report? (Record.ofCalls s.world.files (s.askedPaths calls)).entries call with
      | some _ => (Record.ofCalls s.world.files (s.askedPaths calls)).entries
      | none =>
        ((Record.ofCalls s.world.files (s.askedPaths calls)).call s.world.files
          call.path).entries := by
  cases hlive : (s.session call.session).isLive with
  | false => simp [askedPaths, report?, hlive]
  | true =>
    have hpaths : s.askedPaths (calls ++ [call]) = s.askedPaths calls ++ [call.path] := by
      simp [askedPaths, hlive]
    rw [hpaths, Record.ofCalls_append_singleton]
    cases hrefusal : refusal? s.world.files
      (Record.ofCalls s.world.files (s.askedPaths calls)).entries
        call.path with
    | none => simp [report?, hlive, hrefusal]
    | some e => simp [report?, hlive, hrefusal, Record.call_of_refused hrefusal]

/-- Calls of sessions leave the path as the paths they ask for do, and print what they report. -/
theorem exists_linkInTurn (h : s.libraries = []) (calls : List LinkCall) :
    ∃ added texts, linkInTurn s calls =
      some (added,
        s.withLibraries texts (Record.ofCalls s.world.files (s.askedPaths calls)).entries) := by
  induction calls using List.reverseRecOn with
  | nil => exact ⟨[], [], congrArg (fun entries => some ([], s.withLibraries [] entries)) h⟩
  | append_singleton calls call ih =>
    obtain ⟨added, texts, hrun⟩ := ih
    have hcall := runAlone?_link s texts (Record.ofCalls s.world.files (s.askedPaths calls)) call
    have hentries := entries_ofCalls_askedPaths s calls call
    rw [linkInTurn] at hrun
    rw [linkInTurn, List.foldlM_append, hrun, hentries]
    cases hreport : s.report? (Record.ofCalls s.world.files (s.askedPaths calls)).entries call with
    | none =>
      rw [hreport] at hcall
      exact ⟨added ++ [true], texts, by simp [hcall]⟩
    | some text =>
      rw [hreport] at hcall
      exact ⟨added ++ [false], texts ++ [text], by simp [hcall]⟩

end Shell

/-! ## The files of the shell -/

namespace FileSystem

/-- The place of the regular file that a path leads to. -/
def fileAt? (fs : FileSystem) (path : String) : Option Place :=
  match fs.locate path with
  | .error _ => none
  | .ok place =>
    match fs.node? place with
    | some (.file _) => some place
    | _ => none

variable {fs : FileSystem} {path : String} {place : Place}

theorem fileAt?_eq_some_iff : fs.fileAt? path = some place ↔
    fs.locate path = .ok place ∧ ∃ bytes, fs.node? place = some (.file bytes) := by
  unfold fileAt?
  grind

theorem onePathPerFile (fs : FileSystem) : fs.view.OnePathPerFile fs.fileAt? where
  isFile path := by
    simp only [view, isFile, lookup?, fileAt?]
    grind
  canonical path path' h hfile := by
    obtain ⟨place, hplace⟩ := Option.isSome_iff_exists.mp hfile
    have hlocate := (fileAt?_eq_some_iff.mp hplace).1
    have hlocate' := (fileAt?_eq_some_iff.mp (h ▸ hplace)).1
    simp only [view, canonical, hlocate, hlocate']

theorem start_view (fs : FileSystem) (path : String) (count : Nat) :
    fs.view.start path count = (fs.readBytes path).map (List.take count) := by
  simp only [view, readBytes]
  cases fs.openForReading path with
  | error e => rfl
  | ok id =>
    have hread : fs.readAt id 0 count = (fs.contents id).map (List.take count) := by
      unfold readAt contents
      split <;> rfl
    exact hread

theorem exists_readBytes_of_start {count : Nat} {start : Bytes}
    (h : fs.view.start path count = .ok start) :
    ∃ bytes, fs.readBytes path = .ok bytes ∧ start <+: bytes := by
  rw [start_view] at h
  cases hbytes : fs.readBytes path with
  | error e => simp [hbytes, Except.map] at h
  | ok bytes =>
    rw [hbytes] at h
    exact ⟨bytes, rfl, Except.ok.inj h ▸ List.take_prefix count bytes⟩

end FileSystem

namespace LibraryPath

open Record

variable {files : FileView} {ι : Type} {file : String → Option ι}

theorem refusal?_of_linked (h : files.OnePathPerFile file) {paths : List String}
    {path earlier full : String}
    (hlinked : (earlier, Except.ok full) ∈ paths.zip (ofCalls files paths).answers)
    (hsame : file earlier = file path) :
    refusal? files (ofCalls files paths).entries path = some (.alreadyLinked full) := by
  have hsound := sound_ofCalls files paths
  obtain ⟨hfile, hfull⟩ := List.forall₂_iff_zip.mp hsound.answers |>.2 hlinked full rfl
  have hentry : full ∈ (ofCalls files paths).entries := by
    rw [hsound.entries]
    exact List.mem_filterMap.mpr ⟨.ok full, (List.of_mem_zip hlinked).2, rfl⟩
  obtain ⟨start, hsignature, hstart⟩ := hsound.archives full hentry
  have hsome : (file earlier).isSome := h.isFile earlier ▸ hfile
  have hfile' : files.isFile path = true := by rw [h.isFile, ← hsame, hsome]
  have hfull' : files.canonical path = .ok full :=
    (h.canonical earlier path hsame hsome).symm.trans hfull
  simp [refusal?, missing?, unreadable?, notArchive?, alreadyLinked?, hfile', hfull', hstart,
    hsignature, hentry]

/-- The path is a record of the archives that were linked: each by its full path, in order and once.
A call is refused for the first reason that applies, which leaves the path as it is. -/
theorem records_archives (h : files.OnePathPerFile file) (paths : List String) :
    (ofCalls files paths).entries = (ofCalls files paths).linked ∧
      (ofCalls files paths).entries.Nodup ∧
      (∀ entry ∈ (ofCalls files paths).entries, ∃ start ∈ signatures,
        files.start entry 4 = .ok start) ∧
      (∀ before path behind, paths = before ++ path :: behind →
        (∀ e, refusal? files (ofCalls files before).entries path = some e →
          (ofCalls files paths).answers[before.length]? = some (.error e) ∧
            (ofCalls files (before ++ [path])).entries = (ofCalls files before).entries) ∧
        (refusal? files (ofCalls files before).entries path = none →
          ∃ full, files.isFile path = true ∧ files.canonical path = .ok full ∧
            (ofCalls files paths).answers[before.length]? = some (.ok full) ∧
            (ofCalls files (before ++ [path])).entries = (ofCalls files before).entries ++ [full]) ∧
        ∀ earlier full, (earlier, .ok full) ∈ before.zip (ofCalls files before).answers →
          file earlier = file path →
          (ofCalls files paths).answers[before.length]? = some (.error (.alreadyLinked full))) ∧
      ∀ (s : Shell) (calls : List Shell.LinkCall), s.world.files.view = files → s.libraries = [] →
        s.askedPaths calls = paths →
        (∀ entry ∈ (ofCalls files paths).entries, ∃ bytes,
          s.world.files.readBytes entry = .ok bytes ∧
          ∃ start ∈ signatures, start <+: bytes) ∧
        ∃ added texts, s.linkInTurn calls = some
          (added, s.withLibraries texts (ofCalls files paths).entries) ∧
          ∀ next : Shell.LinkCall, (Shell.link next.session next.path).runAlone? next.thread
            (s.withLibraries texts (ofCalls files paths).entries) = some
              (match s.report? (ofCalls files paths).entries next with
              | some text =>
                (false, s.withLibraries (texts ++ [text]) (ofCalls files paths).entries)
              | none =>
                (true, s.withLibraries texts
                  ((ofCalls files paths).call files next.path).entries)) := by
  have hsound := sound_ofCalls files paths
  refine ⟨hsound.entries, hsound.nodup, hsound.archives, ?calls, ?sessions⟩
  case calls =>
    rintro before path behind rfl
    have hrefused : ∀ e, refusal? files (ofCalls files before).entries path = some e →
        (ofCalls files (before ++ path :: behind)).answers[before.length]? = some (.error e) ∧
          (ofCalls files (before ++ [path])).entries = (ofCalls files before).entries := by
      intro e he
      have hcall := call_of_refused he
      exact ⟨answer_ofCalls (congrArg Record.answers hcall),
        by rw [ofCalls_append_singleton, hcall]⟩
    refine ⟨hrefused, fun hnone => ?_, fun earlier full hlinked hsame => ?_⟩
    · obtain ⟨full, hfile, hfull, -, -, hcall⟩ := call_of_not_refused hnone
      exact ⟨full, hfile, hfull, answer_ofCalls (congrArg Record.answers hcall),
        by rw [ofCalls_append_singleton, hcall]⟩
    · exact (hrefused _ (refusal?_of_linked h hlinked hsame)).1
  case sessions =>
    rintro s calls rfl hempty rfl
    refine ⟨fun entry hentry => ?_, ?_⟩
    · obtain ⟨start, hsignature, hstart⟩ := hsound.archives entry hentry
      obtain ⟨bytes, hbytes, hbegins⟩ := FileSystem.exists_readBytes_of_start hstart
      exact ⟨bytes, hbytes, start, hsignature, hbegins⟩
    · obtain ⟨added, texts, hrun⟩ := Shell.exists_linkInTurn hempty calls
      exact ⟨added, texts, hrun, Shell.runAlone?_link s texts _⟩

/-- An archive, a link to it and a text. -/
def shelf : FileSystem where
  nodes := #[.directory [("a", 1), ("b", 2), ("c", 3)],
    .file [0x50, 0x4B, 0x03, 0x04, 0x00], .link "a",
    .file [0x68, 0x69]]
  workingDirectory := []

/-- Two sessions ahead of the archive. -/
def readers : Shell :=
  { Shell.new default default shelf default true true with sessions := #[default, default] }

theorem records_archives_shelf :
    shelf.view.OnePathPerFile shelf.fileAt? ∧
      (ofCalls shelf ["a", "c", "b"]).answers[2]? = some (.error (.alreadyLinked "/a")) ∧
      ∃ added texts, readers.linkInTurn [⟨0, 0, "a"⟩, ⟨1, 1, "c"⟩, ⟨0, 0, "b"⟩] =
        some (added, readers.withLibraries texts (ofCalls shelf ["a", "c", "b"]).entries) := by
  have harchive : link [] shelf "a" = .ok ("/a", ["/a"]) := rfl
  have htext : link ["/a"] shelf "c" = .error (.notArchive "/c") := rfl
  have hlinked : ("a", Except.ok "/a") ∈ ["a", "c"].zip (ofCalls shelf ["a", "c"]).answers := by
    simp [ofCalls, call, harchive, htext]
  have hsame : shelf.fileAt? "a" = shelf.fileAt? "b" := rfl
  have hfile := shelf.onePathPerFile
  obtain ⟨-, -, -, hcalls, hsessions⟩ := records_archives hfile ["a", "c", "b"]
  obtain ⟨-, added, texts, hrun, -⟩ :=
    hsessions readers [⟨0, 0, "a"⟩, ⟨1, 1, "c"⟩, ⟨0, 0, "b"⟩] rfl rfl rfl
  exact ⟨hfile, (hcalls ["a", "c"] "b" [] rfl).2.2 "a" "/a" hlinked hsame, added, texts, hrun⟩

end LibraryPath

end SessionShell
