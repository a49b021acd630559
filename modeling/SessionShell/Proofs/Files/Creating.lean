import SessionShell.FileSystem.Call

/-!
File systems that only grow.

Entries are added to directories and files are written, but nothing is taken away. Whatever a path
led to it leads to still.
-/

namespace SessionShell.FileSystem

variable {fs fs' fs'' : FileSystem} {may may' : Nat → Prop} {id links left : Nat}
  {place found : Place} {names rest : List String} {path : String}

/-- No directory has an entry for a node that is not there. -/
def Sound (fs : FileSystem) : Prop :=
  ∀ (id : Nat) (entries : List (String × Nat)), fs.nodes[id]? = some (.directory entries) →
    ∀ entry ∈ entries, entry.2 < fs.nodes.size

theorem sound_empty : empty.Sound := by
  intro id entries hid entry hentry
  obtain ⟨hlt, hnode⟩ := Array.getElem?_eq_some_iff.mp hid
  obtain rfl : id = 0 := by simpa [empty] using hlt
  cases hnode
  cases hentry

/-- Nothing is lost from one file system to the other, and only such files are written. -/
structure Grows (may : Nat → Prop) (fs fs' : FileSystem) : Prop where
  workingDirectory : fs'.workingDirectory = fs.workingDirectory
  directory : ∀ (id : Nat) (entries : List (String × Nat)),
    fs.nodes[id]? = some (.directory entries) →
      ∃ added, fs'.nodes[id]? = some (.directory (entries ++ added))
  link : ∀ (id : Nat) (target : String), fs.nodes[id]? = some (.link target) →
    fs'.nodes[id]? = some (.link target)
  file : ∀ (id : Nat) (bytes : Bytes), fs.nodes[id]? = some (.file bytes) →
    ∃ bytes', fs'.nodes[id]? = some (.file bytes') ∧ (¬ may id → bytes' = bytes)

theorem Grows.refl (may : Nat → Prop) (fs : FileSystem) : Grows may fs fs :=
  ⟨rfl, fun _ entries h => ⟨[], by rwa [List.append_nil]⟩, fun _ _ h => h,
    fun _ bytes h => ⟨bytes, h, fun _ => rfl⟩⟩

theorem Grows.trans (h : Grows may fs fs') (h' : Grows may fs' fs'') : Grows may fs fs'' := by
  refine ⟨h'.workingDirectory.trans h.workingDirectory, fun id entries hid => ?_,
    fun id target hid => h'.link id target (h.link id target hid), fun id bytes hid => ?_⟩
  · obtain ⟨added, hid'⟩ := h.directory id entries hid
    obtain ⟨added', hid''⟩ := h'.directory id _ hid'
    exact ⟨added ++ added', by rwa [← List.append_assoc]⟩
  · obtain ⟨bytes', hid', hsame⟩ := h.file id bytes hid
    obtain ⟨bytes'', hid'', hsame'⟩ := h'.file id bytes' hid'
    exact ⟨bytes'', hid'', fun hmay => (hsame' hmay).trans (hsame hmay)⟩

theorem Grows.mono (h : Grows may fs fs') (hmay : ∀ id, may id → may' id) : Grows may' fs fs' := by
  refine ⟨h.workingDirectory, h.directory, h.link, fun id bytes hid => ?_⟩
  obtain ⟨bytes', hid', hsame⟩ := h.file id bytes hid
  exact ⟨bytes', hid', fun hnot => hsame fun hid => hnot (hmay id hid)⟩

theorem Grows.unwritten {bytes : Bytes} (h : Grows may fs fs') (hid : ¬ may id)
    (hbytes : fs.nodes[id]? = some (.file bytes)) : fs'.nodes[id]? = some (.file bytes) := by
  obtain ⟨bytes', hbytes', hsame⟩ := h.file id bytes hbytes
  rw [hbytes', hsame hid]

/-! ## Steps -/

theorem grows_setNode {old new : Bytes} (hid : fs.nodes[id]? = some (.file old)) (hmay : may id) :
    Grows may fs (fs.setNode id (.file new)) := by
  obtain ⟨hlt, -⟩ := Array.getElem?_eq_some_iff.mp hid
  have hother (other : Nat) (node : Node) (hother : fs.nodes[other]? = some node)
      (hnode : ∀ bytes, node ≠ .file bytes) :
      (fs.setNode id (.file new)).nodes[other]? = some node := by
    have hne : id ≠ other := by
      rintro rfl
      exact hnode old (Option.some.inj (hother.symm.trans hid))
    simpa [setNode, Array.getElem?_setIfInBounds_ne hne] using hother
  refine ⟨rfl, fun other entries h => ⟨[], ?_⟩, fun other target h => ?_, fun other bytes h => ?_⟩
  · rw [List.append_nil]
    exact hother other _ h (by simp)
  · exact hother other _ h (by simp)
  · by_cases heq : id = other
    · subst heq
      exact ⟨new, by simp [setNode, hlt], fun hnot => absurd hmay hnot⟩
    · exact ⟨bytes, by simpa [setNode, Array.getElem?_setIfInBounds_ne heq] using h, fun _ => rfl⟩

theorem sound_setNode (h : fs.Sound) (bytes : Bytes) : (fs.setNode id (.file bytes)).Sound := by
  intro other entries hother entry hentry
  have hkept : fs.nodes[other]? = some (.directory entries) := by
    by_cases heq : id = other
    · subst heq
      obtain ⟨hlt, hnode⟩ := Array.getElem?_eq_some_iff.mp hother
      simp [setNode] at hnode
    · simpa [setNode, Array.getElem?_setIfInBounds_ne heq] using hother
  simpa [setNode] using h other entries hkept entry hentry

section Adding

variable {entries : List (String × Nat)} {name : String} {node : Node}

theorem addEntry_eq (hplace : fs.node? place = some (.directory entries)) :
    (fs.addEntry place name node).nodes =
      (fs.nodes.setIfInBounds (nodeId place)
        (.directory (entries ++ [(name, fs.nodes.size)]))).push node := by
  simp [addEntry, hplace, setNode]

theorem getElem?_addEntry_self (hplace : fs.node? place = some (.directory entries)) :
    (fs.addEntry place name node).nodes[nodeId place]? =
      some (.directory (entries ++ [(name, fs.nodes.size)])) := by
  obtain ⟨hlt, -⟩ := Array.getElem?_eq_some_iff.mp hplace
  rw [addEntry_eq hplace, Array.getElem?_push_lt (by simpa using hlt)]
  simp

theorem getElem?_addEntry_size (name : String) (node : Node)
    (hplace : fs.node? place = some (.directory entries)) :
    (fs.addEntry place name node).nodes[fs.nodes.size]? = some node := by
  simp [addEntry_eq hplace, Array.getElem_push]

theorem getElem?_addEntry_of_ne (hplace : fs.node? place = some (.directory entries))
    (hne : nodeId place ≠ id) (hlt : id < fs.nodes.size) :
    (fs.addEntry place name node).nodes[id]? = fs.nodes[id]? := by
  rw [addEntry_eq hplace, Array.getElem?_push_lt (by simpa using hlt)]
  simp [hne, hlt]

theorem grows_addEntry (hplace : fs.node? place = some (.directory entries)) :
    Grows may fs (fs.addEntry place name node) := by
  have hother (other : Nat) (found : Node) (hother : fs.nodes[other]? = some found)
      (hfound : ∀ entries, found ≠ .directory entries) :
      (fs.addEntry place name node).nodes[other]? = some found := by
    have hne : nodeId place ≠ other := by
      rintro rfl
      exact hfound entries (Option.some.inj (hother.symm.trans hplace))
    rw [getElem?_addEntry_of_ne hplace hne (Array.getElem?_eq_some_iff.mp hother).1, hother]
  refine ⟨by simp [addEntry, hplace, setNode], fun other old h => ?_,
    fun other target h => hother other _ h (by simp), fun other bytes h =>
      ⟨bytes, hother other _ h (by simp), fun _ => rfl⟩⟩
  by_cases heq : nodeId place = other
  · subst heq
    obtain rfl : entries = old := by simpa using hplace.symm.trans h
    exact ⟨_, getElem?_addEntry_self hplace⟩
  · refine ⟨[], ?_⟩
    rw [List.append_nil, getElem?_addEntry_of_ne hplace heq (Array.getElem?_eq_some_iff.mp h).1, h]

theorem sound_addEntry (h : fs.Sound) (hplace : fs.node? place = some (.directory entries))
    (hnode : ∀ entries, node = .directory entries → entries = []) :
    (fs.addEntry place name node).Sound := by
  intro other found hother entry hentry
  have hsize : (fs.addEntry place name node).nodes.size = fs.nodes.size + 1 := by
    simp [addEntry_eq hplace]
  rw [hsize]
  obtain ⟨hlt, -⟩ := Array.getElem?_eq_some_iff.mp hother
  by_cases heq : nodeId place = other
  · subst heq
    obtain rfl := Node.directory.inj (Option.some.inj
      ((getElem?_addEntry_self hplace).symm.trans hother))
    rcases List.mem_append.mp hentry with hold | hnew
    · exact Nat.lt_succ_of_lt (h _ _ hplace entry hold)
    · simp [List.mem_singleton.mp hnew]
  · by_cases hnew : other = fs.nodes.size
    · subst hnew
      have hfound := Option.some.inj ((getElem?_addEntry_size name node hplace).symm.trans hother)
      rw [hnode found hfound] at hentry
      cases hentry
    · rw [getElem?_addEntry_of_ne hplace heq (by omega)] at hother
      exact Nat.lt_succ_of_lt (h _ _ hother entry hentry)

end Adding

/-! ## Looking up -/

section Walking

variable {entries : List (String × Nat)} {name target : String} {next : Nat}
  {follow follow' : Place → List String → Except IoError (Nat × Place)}

structure IsEntryName (name : String) : Prop where
  not_dots : isDots name = false
  short : name.utf8ByteSize ≤ maxNameBytes

theorem walkWith_stay (hplace : fs.node? place = some (.directory entries))
    (hname : name = "" ∨ name = ".") :
    fs.walkWith links follow place (name :: rest) = fs.walkWith links follow place rest := by
  simp [walkWith, hplace, hname]

theorem walkWith_up (hplace : fs.node? place = some (.directory entries)) :
    fs.walkWith links follow place (".." :: rest) =
      fs.walkWith links follow place.tail rest := by
  simp [walkWith, hplace]

theorem walkWith_follow (hplace : fs.node? place = some (.directory entries))
    (hname : IsEntryName name) (hnext : entries.lookup name = some next)
    (hlink : fs.nodes[next]? = some (.link target)) :
    fs.walkWith links follow place (name :: rest) =
      follow (if Path.isAbsolute target then [] else place)
        (Text.split '/' target ++ rest) := by
  have hdots := hname.not_dots
  simp only [isDots, Bool.or_eq_false_iff, decide_eq_false_iff_not] at hdots
  simp [walkWith, hplace, hdots, Nat.not_lt.mpr hname.short, hnext, hlink]

theorem walkWith_enter (hplace : fs.node? place = some (.directory entries))
    (hname : IsEntryName name) (hnext : entries.lookup name = some next)
    (hlink : ∀ target, fs.nodes[next]? ≠ some (.link target)) :
    fs.walkWith links follow place (name :: rest) =
      fs.walkWith links follow ((name, next) :: place) rest := by
  have hdots := hname.not_dots
  simp only [isDots, Bool.or_eq_false_iff, decide_eq_false_iff_not] at hdots
  simp only [walkWith, hplace, hdots, Nat.not_lt.mpr hname.short, hnext, or_self, if_false]

theorem walkWith_append
    (hwalk : ∀ place names, fs.walk links place names = fs.walkWith links follow place names)
    (hfollow : ∀ place names, follow place (names ++ rest) =
      (follow place names).bind fun r => fs.walk r.1 r.2 rest) :
    fs.walkWith links follow place (names ++ rest) =
      (fs.walkWith links follow place names).bind fun r => fs.walk r.1 r.2 rest := by
  fun_induction walkWith fs links follow place names <;> grind [walkWith, Except.bind]

theorem walk_append (fs : FileSystem) (links : Nat) (place : Place) (names rest : List String) :
    fs.walk links place (names ++ rest) =
      (fs.walk links place names).bind fun r => fs.walk r.1 r.2 rest := by
  induction links generalizing place names with
  | zero => exact walkWith_append (fun _ _ => rfl) fun _ _ => rfl
  | succ links ih => exact walkWith_append (fun _ _ => rfl) ih

theorem lt_size_of_entry (hsound : fs.Sound) {entries : List (String × Nat)} {name : String}
    {next : Nat} (hplace : fs.node? place = some (.directory entries))
    (hnext : entries.lookup name = some next) : next < fs.nodes.size := by
  obtain ⟨l₁, l₂, rfl, -⟩ := List.lookup_eq_some_iff.mp hnext
  exact hsound _ _ hplace (name, next) (by simp)

theorem Grows.not_link (h : Grows may fs fs') (hlt : id < fs.nodes.size)
    (hlink : ∀ target, fs.nodes[id]? ≠ some (.link target)) (target : String) :
    fs'.nodes[id]? ≠ some (.link target) := by
  cases hnode : fs.nodes[id] with
  | file bytes =>
    obtain ⟨bytes', hfile, -⟩ := h.file id bytes (by simp [hlt, hnode])
    simp [hfile]
  | directory entries =>
    obtain ⟨added, hdirectory⟩ := h.directory id entries (by simp [hlt, hnode])
    simp [hdirectory]
  | link target' => exact absurd (by simp [hlt, hnode]) (hlink target')

theorem lookup_append_of_some {entries : List (String × Nat)} {name : String}
    (added : List (String × Nat)) (hid : entries.lookup name = some id) :
    (entries ++ added).lookup name = some id := by
  simp [List.lookup_append, hid]

theorem Grows.walkWith_eq (h : Grows may fs fs') (hsound : fs.Sound) {r : Nat × Place}
    (hfollow : ∀ place names, follow place names = .ok r → follow' place names = .ok r)
    (hwalk : fs.walkWith links follow place names = .ok r) :
    fs'.walkWith links follow' place names = .ok r := by
  fun_induction walkWith fs links follow place names with
  | case1 => simpa [walkWith] using hwalk
  | case2 place name rest entries hplace hname ih =>
    obtain ⟨added, hplace'⟩ := h.directory _ _ hplace
    rw [walkWith_stay hplace' hname, ih hwalk]
  | case3 place rest entries hplace _ ih =>
    obtain ⟨added, hplace'⟩ := h.directory _ _ hplace
    rw [walkWith_up hplace', ih hwalk]
  | case6 place name rest entries hplace hblank hup hshort next hnext target hlink =>
    obtain ⟨added, hplace'⟩ := h.directory _ _ hplace
    have hname : IsEntryName name := ⟨by simp_all [isDots], by omega⟩
    rw [walkWith_follow hplace' hname (lookup_append_of_some added hnext) (h.link _ _ hlink)]
    exact hfollow _ _ hwalk
  | case7 place name rest entries hplace hblank hup hshort next hnext hlink ih =>
    obtain ⟨added, hplace'⟩ := h.directory _ _ hplace
    have hname : IsEntryName name := ⟨by simp_all [isDots], by omega⟩
    have hlink' := h.not_link (lt_size_of_entry hsound hplace hnext) fun target => hlink target
    rw [walkWith_enter hplace' hname (lookup_append_of_some added hnext) hlink', ih hwalk]
  | _ => cases hwalk

end Walking

theorem Grows.walk_eq (h : Grows may fs fs') (hsound : fs.Sound) {r : Nat × Place}
    (hwalk : fs.walk links place names = .ok r) : fs'.walk links place names = .ok r := by
  induction links generalizing place names with
  | zero => exact h.walkWith_eq hsound (fun _ _ hfail => hfail) hwalk
  | succ links ih => exact h.walkWith_eq hsound (fun _ _ hnext => ih hnext) hwalk

theorem locate_eq_ok_iff : fs.locate path = .ok place ↔ checked path = .ok () ∧
    ∃ left, fs.walk maxLinks (fs.startOf path) (Text.split '/' path) = .ok (left, place) := by
  unfold locate
  cases checked path with
  | error e => simp [bind, Except.bind]
  | ok u =>
    cases fs.walk maxLinks (fs.startOf path) (Text.split '/' path) with
    | error e => simp [bind, Except.bind]
    | ok r => simp [bind, Except.bind, pure, Except.pure, Prod.ext_iff]

theorem Grows.startOf_eq (h : Grows may fs fs') (path : String) :
    fs'.startOf path = fs.startOf path := by
  rw [startOf, startOf, h.workingDirectory]

theorem Grows.locate_eq (h : Grows may fs fs') (hsound : fs.Sound)
    (hlocate : fs.locate path = .ok place) : fs'.locate path = .ok place := by
  obtain ⟨hchecked, left, hwalk⟩ := locate_eq_ok_iff.mp hlocate
  refine locate_eq_ok_iff.mpr ⟨hchecked, left, ?_⟩
  rw [h.startOf_eq]
  exact h.walk_eq hsound hwalk

end SessionShell.FileSystem

/-!
What it does to make files and directories.

A created file is blank, its path leads to it, and it is either new or the file its path led to
before. Nothing else is written.
-/

namespace SessionShell.FileSystem

variable {fs fs' : FileSystem} {may : Nat → Prop} {id links : Nat} {place : Place}
  {names : List String} {path : String}

theorem eq_of_lastName (hslash : (lastName names).slash = false) :
    names = (lastName names).before ++ [(lastName names).name] := by
  unfold lastName at *
  cases hrest : names.reverse.dropWhile (· = "") with
  | nil => simp [hrest] at hslash
  | cons name before =>
    simp only [hrest, decide_eq_false_iff_not] at hslash
    have hwhole : names.reverse.dropWhile (· = "") = names.reverse := by
      cases hnames : names.reverse with
      | nil => rfl
      | cons last init =>
        have hlast : names.getLast? = some last := by simp [← List.head?_reverse, hnames]
        rw [hlast] at hslash
        simp [show last ≠ "" from fun h => hslash (h ▸ rfl)]
    have hnames := congrArg List.reverse (hwhole.symm.trans hrest)
    simpa using hnames

theorem eq_of_proper (h : ¬((lastName names).slash || isDots (lastName names).name) = true)
    (hshort : ¬maxNameBytes < (lastName names).name.utf8ByteSize) :
    names = (lastName names).before ++ [(lastName names).name] ∧
      IsEntryName (lastName names).name := by
  rw [Bool.not_eq_true, Bool.or_eq_false_iff] at h
  exact ⟨eq_of_lastName h.1, h.2, Nat.not_lt.mp hshort⟩

theorem isFile_of_entry (hsound : fs.Sound) {entries : List (String × Nat)} {name : String}
    (hplace : fs.node? place = some (.directory entries)) (hid : entries.lookup name = some id)
    (hdirectory : ∀ entries, fs.nodes[id]? = some (.directory entries) → False)
    (hlink : ∀ target, fs.nodes[id]? = some (.link target) → False) :
    ∃ bytes, fs.nodes[id]? = some (.file bytes) := by
  have hlt := lt_size_of_entry hsound hplace hid
  cases hnode : fs.nodes[id] with
  | file bytes => exact ⟨bytes, by simp [hlt, hnode]⟩
  | directory entries => exact (hdirectory entries (by simp [hlt, hnode])).elim
  | link target => exact (hlink target (by simp [hlt, hnode])).elim

def LeadsTo (fs : FileSystem) (links : Nat) (place : Place) (names : List String) (id : Nat) :
    Prop :=
  ∃ left found, fs.walk links place names = .ok (left, found) ∧ nodeId found = id

section Leading

variable {left : Nat} {parent : Place} {entries : List (String × Nat)} {before : List String}
  {name target : String}

theorem leadsTo_of_enter (hbefore : fs.walk links place before = .ok (left, parent))
    (hparent : fs.node? parent = some (.directory entries)) (hname : IsEntryName name)
    (hid : entries.lookup name = some id) (hlink : ∀ target, fs.nodes[id]? ≠ some (.link target)) :
    fs.LeadsTo links place (before ++ [name]) id := by
  have hstep : fs.walk left parent [name] = .ok (left, (name, id) :: parent) := by
    cases left <;> exact walkWith_enter hparent hname hid hlink
  exact ⟨left, (name, id) :: parent, by rw [walk_append, hbefore, Except.bind, hstep], rfl⟩

theorem leadsTo_of_follow (hbefore : fs.walk links place before = .ok (left + 1, parent))
    (hparent : fs.node? parent = some (.directory entries)) (hname : IsEntryName name) {next : Nat}
    (hnext : entries.lookup name = some next) (hlink : fs.nodes[next]? = some (.link target))
    (h : fs.LeadsTo left (if Path.isAbsolute target then [] else parent) (Text.split '/' target) id)
      :
    fs.LeadsTo links place (before ++ [name]) id := by
  obtain ⟨rest, found, hwalk, hfound⟩ := h
  have hstep : fs.walk (left + 1) parent [name] = .ok (rest, found) := by
    rw [← hwalk, ← List.append_nil (Text.split '/' target)]
    exact walkWith_follow hparent hname hnext hlink
  exact ⟨rest, found, by rw [walk_append, hbefore, Except.bind, hstep], hfound⟩

end Leading

structure Created (links : Nat) (place : Place) (names : List String) (fs : FileSystem) (id : Nat)
    (fs' : FileSystem) : Prop where
  grows : Grows (· = id) fs fs'
  sound : fs'.Sound
  blank : fs'.nodes[id]? = some (.file [])
  leads : fs'.LeadsTo links place names id
  origin : id = fs.nodes.size ∨ fs.LeadsTo links place names id

theorem created_of_createFrom (hsound : fs.Sound)
    (h : fs.createFrom links place names = .ok (id, fs')) :
    Created links place names fs id fs' := by
  fun_induction createFrom fs links place names with
  | case4 links place names last left parent hbefore entries hparent hproper hshort hnew =>
    obtain ⟨hnames, hname⟩ := eq_of_proper hproper hshort
    cases h
    have hgrows : Grows (· = fs.nodes.size) fs (fs.addEntry parent last.name (.file [])) :=
      grows_addEntry hparent
    have hblank := getElem?_addEntry_size last.name (.file []) hparent
    refine ⟨hgrows, sound_addEntry hsound hparent (by simp), hblank, ?_, .inl rfl⟩
    rw [hnames]
    have hentry : (entries ++ [(last.name, fs.nodes.size)]).lookup last.name =
        some fs.nodes.size := by
      rw [List.lookup_append, hnew]
      simp
    exact leadsTo_of_enter (hgrows.walk_eq hsound hbefore) (getElem?_addEntry_self hparent) hname
      hentry (by simp [hblank])
  | case6 links place names last left parent hbefore entries hparent hproper hshort next hnext
      target hlink hleft ih =>
    obtain ⟨hnames, hname⟩ := eq_of_proper hproper hshort
    have hcreated := ih h
    obtain ⟨left, rfl⟩ := Nat.exists_eq_succ_of_ne_zero (Nat.ne_of_gt hleft.1)
    obtain ⟨added, hparent'⟩ := hcreated.grows.directory _ _ hparent
    refine ⟨hcreated.grows, hcreated.sound, hcreated.blank, ?_, hcreated.origin.imp_right ?_⟩
    · rw [hnames]
      exact leadsTo_of_follow (hcreated.grows.walk_eq hsound hbefore) hparent' hname
        (lookup_append_of_some added hnext) (hcreated.grows.link _ _ hlink) hcreated.leads
    · rw [hnames]
      exact leadsTo_of_follow hbefore hparent hname hnext hlink
  | case8 links place names last left parent hbefore entries hparent hproper hshort next hnext
      hdirectory hlink =>
    obtain ⟨hnames, hname⟩ := eq_of_proper hproper hshort
    cases h
    obtain ⟨bytes, hfile⟩ := isFile_of_entry hsound hparent hnext hdirectory hlink
    have hlead := leadsTo_of_enter hbefore hparent hname hnext fun target => hlink target
    rw [← hnames] at hlead
    have hgrows : Grows (· = id) fs (fs.setNode id (.file [])) := grows_setNode hfile rfl
    obtain ⟨hlt, -⟩ := Array.getElem?_eq_some_iff.mp hfile
    refine ⟨hgrows, sound_setNode hsound [], by simp [setNode, hlt], ?_, .inr hlead⟩
    obtain ⟨rest, found, hwalk, hfound⟩ := hlead
    exact ⟨rest, found, hgrows.walk_eq hsound hwalk, hfound⟩
  | _ => cases h

def LocatesAt (fs : FileSystem) (path : String) (id : Nat) : Prop :=
  ∃ place, fs.locate path = .ok place ∧ nodeId place = id

theorem create_eq_ok_iff : fs.create path = .ok (id, fs') ↔ checked path = .ok () ∧
    fs.createFrom maxLinks (fs.startOf path) (Text.split '/' path) = .ok (id, fs') := by
  unfold create
  cases checked path <;> simp [bind, Except.bind]

theorem locatesAt_of_leadsTo (hchecked : checked path = .ok ())
    (h : fs.LeadsTo maxLinks (fs.startOf path) (Text.split '/' path) id) :
      fs.LocatesAt path id := by
  obtain ⟨left, found, hwalk, hfound⟩ := h
  exact ⟨found, locate_eq_ok_iff.mpr ⟨hchecked, left, hwalk⟩, hfound⟩

theorem Grows.locatesAt (h : Grows may fs fs') (hsound : fs.Sound) (hpath : fs.LocatesAt path id) :
    fs'.LocatesAt path id := by
  obtain ⟨place, hlocate, hid⟩ := hpath
  exact ⟨place, h.locate_eq hsound hlocate, hid⟩

theorem openForReading_of_locate (h : fs.locate path = .ok place) :
    fs.openForReading path = .ok (nodeId place) := by
  simp [openForReading, h, bind, Except.bind, pure, Except.pure]

theorem size_of_locate {bytes : Bytes} (h : fs.locate path = .ok place)
    (hbytes : fs.nodes[nodeId place]? = some (.file bytes)) :
    fs.size path = .ok bytes.length := by
  simp [size, h, node?, hbytes, bind, Except.bind, pure, Except.pure]

theorem isFile_of_locatesAt {bytes : Bytes} (h : fs.LocatesAt path id)
    (hbytes : fs.nodes[id]? = some (.file bytes)) : fs.isFile path = true := by
  obtain ⟨place, hlocate, rfl⟩ := h
  simp [isFile, lookup?, hlocate, node?, hbytes]

theorem readBytes_of_locatesAt {bytes : Bytes} (hpath : fs.LocatesAt path id)
    (hid : fs.nodes[id]? = some (.file bytes)) : fs.readBytes path = .ok bytes := by
  obtain ⟨place, hlocate, rfl⟩ := hpath
  simp [readBytes, openForReading, contents, hlocate, hid, bind, Except.bind, pure, Except.pure]

theorem locatesAt_of_readBytes {bytes : Bytes} (h : fs.readBytes path = .ok bytes) :
    ∃ id, fs.LocatesAt path id ∧ fs.nodes[id]? = some (.file bytes) := by
  cases hlocate : fs.locate path with
  | error e => simp [readBytes, openForReading, hlocate, bind, Except.bind] at h
  | ok place =>
    refine ⟨nodeId place, ⟨place, hlocate, rfl⟩, ?_⟩
    simp only [readBytes, openForReading, hlocate, contents, bind, Except.bind, pure,
      Except.pure] at h
    split at h
    · cases h
      assumption
    · cases h
    · cases h

theorem create_locates (hsound : fs.Sound) (h : fs.create path = .ok (id, fs')) :
    Created maxLinks (fs.startOf path) (Text.split '/' path) fs id fs' ∧ fs'.LocatesAt path id ∧
      (id = fs.nodes.size ∨ fs.LocatesAt path id) := by
  obtain ⟨hchecked, hfrom⟩ := create_eq_ok_iff.mp h
  have hcreated := created_of_createFrom hsound hfrom
  refine ⟨hcreated, ?_, hcreated.origin.imp_right (locatesAt_of_leadsTo hchecked)⟩
  have hleads := hcreated.leads
  rw [← hcreated.grows.startOf_eq path] at hleads
  exact locatesAt_of_leadsTo hchecked hleads

/-! ## Directories -/

/-- Directories were added to the file system, and nothing else was done to it. -/
structure Extends (fs fs' : FileSystem) : Prop where
  grows : Grows (fun _ => False) fs fs'
  sound : fs.Sound → fs'.Sound

theorem Extends.refl (fs : FileSystem) : Extends fs fs :=
  ⟨.refl _ fs, id⟩

theorem Extends.trans {fs'' : FileSystem} (h : Extends fs fs') (h' : Extends fs' fs'') :
    Extends fs fs'' :=
  ⟨h.grows.trans h'.grows, fun hsound => h'.sound (h.sound hsound)⟩

theorem extends_makeDirectory (h : fs.makeDirectory path = .ok fs') : Extends fs fs' := by
  simp only [makeDirectory, bind, Except.bind] at h
  split at h
  · cases h
  · split at h
    · cases h
    · split at h
      · rename_i hparent
        split at h
        · cases h
        · split at h
          · cases h
          · cases h
            exact ⟨grows_addEntry hparent, fun hsound =>
              sound_addEntry hsound hparent fun _ h => (Node.directory.inj h).symm⟩
      · cases h

theorem extends_of_makeDirectory (path : String)
    (hok : ∀ made, fs.makeDirectory path = .ok made → fs' = made)
    (herror : ∀ e, fs.makeDirectory path = .error e → fs' = fs) : Extends fs fs' := by
  cases hmade : fs.makeDirectory path with
  | ok made => exact hok made hmade ▸ extends_makeDirectory hmade
  | error e => exact herror e hmade ▸ .refl fs

theorem extends_makeDirectoriesFrom (fuel : Nat) (fs : FileSystem) (path : String) :
    Extends fs (fs.makeDirectoriesFrom fuel path).2 := by
  induction fuel generalizing fs path with
  | zero => exact .refl fs
  | succ fuel ih =>
    simp only [makeDirectoriesFrom]
    split
    · exact .refl fs
    · split
      · rename_i parent _ _
        have hparent := ih fs parent
        split
        · rename_i hmade
          rw [hmade] at hparent
          exact hparent.trans
            (extends_of_makeDirectory path (by simp +contextual) (by simp +contextual))
        · rename_i hmade
          rwa [hmade] at hparent
      · exact extends_of_makeDirectory path (by simp +contextual) (by simp +contextual)

/-- The files once the directories above a path have been made, as far as that can be done. -/
def withDirectoriesOf (fs : FileSystem) (path : String) : FileSystem :=
  (parentPath? path).elim fs fun parent => (fs.makeDirectories parent).2

theorem extends_withDirectoriesOf (fs : FileSystem) (path : String) :
    Extends fs (fs.withDirectoriesOf path) := by
  unfold withDirectoriesOf
  cases parentPath? path with
  | none => exact .refl fs
  | some parent => exact extends_makeDirectoriesFrom _ fs parent

/-- The directories above a path can be made, and then the file at the path. -/
def CanCreate (fs : FileSystem) (path : String) : Prop :=
  (∀ parent, parentPath? path = some parent → (fs.makeDirectories parent).1 = .ok ()) ∧
    ∃ id fs', (fs.withDirectoriesOf path).create path = .ok (id, fs')

/-! ## Bytes -/

theorem writeAt_length {old : Bytes} (bytes : Bytes) (hid : fs.nodes[id]? = some (.file old)) :
    fs.writeAt id old.length bytes = fs.setNode id (.file (old ++ bytes)) := by
  have hdrop : old.drop (old.length + bytes.length) = [] := List.drop_eq_nil_of_le (by omega)
  simp [writeAt, hid, hdrop]

end SessionShell.FileSystem
