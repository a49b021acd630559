import Mathlib.Data.List.Induction
import Mathlib.Data.List.TakeWhile
import SessionShell.CommandLine.Arguments

/-!
Options and targets between one another.

An option stands among the arguments together with its values. Reading takes all of that at once and
goes on behind it, and it takes a target alone. So what is read depends on the options in their
order and on the targets in theirs, and not on how the two lie between one another.
-/

namespace SessionShell

/-- The values a flag is content with. None can stand behind a flag that ends the reading. -/
inductive Flag.Takes : Flag → List String → Prop
  | switch (s : Switch) : Takes (.switch s) []
  | language (value : String) : Takes (.value .language) [value]
  | name (value : String) : Takes (.value .name) [value]
  | escape {text : String} {mode : EscapeMode} (h : EscapeMode.read text = .ok mode) :
      Takes (.value .escape) [text]
  | target (value : String) : Takes (.value .target) [value]
  | pair {text : String} (h : '=' ∈ text.toList) : Takes (.value .pair) [text]
  | compile (source output : String) : Takes .compile [source, output]

/-- An option with its values, as they are written. -/
structure OptionGroup where
  spelling : String
  flag : Flag
  values : List String
  spelled : Flag.ofArgument? spelling = some flag
  taken : flag.Takes values

def IsTarget (arg : String) : Prop :=
  arg = "-" ∨ arg.toList.head? ≠ some '-'

namespace OptionGroup

def words (g : OptionGroup) : List String :=
  g.spelling :: g.values

/-! ## What a group says -/

def value? (o : ValueOption) (g : OptionGroup) : Option String :=
  if g.flag = .value o then g.values.head? else none

def files? (g : OptionGroup) : Option (String × String) :=
  match g.flag, g.values with
  | .compile, [source, output] => some (source, output)
  | _, _ => none

def keyOf (text : String) : String :=
  Text.trim (String.ofList (text.toList.takeWhile (· ≠ '=')))

def valueOf (text : String) : String :=
  Text.trim (String.ofList (text.toList.dropWhile (· ≠ '=')).tail)

def pairValue? (key : String) (g : OptionGroup) : Option String :=
  (g.value? .pair).bind fun text => if keyOf text = key then some (valueOf text) else none

def last? {α : Type} (f : OptionGroup → Option α) (groups : List OptionGroup) : Option α :=
  groups.reverse.findSome? f

theorem last?_append_singleton {α : Type} (f : OptionGroup → Option α) (groups : List OptionGroup)
    (g : OptionGroup) :
    last? f (groups ++ [g]) = (f g).or (last? f groups) := by
  cases h : f g <;> simp [last?, h]

theorem isSome_last?_iff {α : Type} {f : OptionGroup → Option α} {groups : List OptionGroup} :
    (last? f groups).isSome ↔ ∃ g ∈ groups, (f g).isSome := by
  simp [last?, List.findSome?_isSome_iff]

theorem isSome_files?_iff {g : OptionGroup} : g.files?.isSome ↔ g.flag = .compile := by
  obtain ⟨spelling, flag, values, hspelled, htaken⟩ := g
  cases htaken <;> simp [files?]

end OptionGroup

/-- Groups and targets in their orders, with the ones anywhere between the others. -/
inductive Interleaved : List OptionGroup → List String → List String → Prop
  | nil : Interleaved [] [] []
  | group {groups : List OptionGroup} {targets args : List String} (g : OptionGroup)
      (rest : Interleaved groups targets args) : Interleaved (g :: groups) targets (g.words ++ args)
  | target {groups : List OptionGroup} {targets args : List String} {t : String} (h : IsTarget t)
      (rest : Interleaved groups targets args) : Interleaved groups (t :: targets) (t :: args)

/-! ## Flags and targets -/

theorem CommandLine.looksLikeOption_of_ofArgument? {arg : String} {flag : Flag}
    (h : Flag.ofArgument? arg = some flag) :
    looksLikeOption arg = true := by
  have hall : ∀ entry ∈ Flag.spellings, looksLikeOption entry.1 = true :=
    List.all_eq_true.mp (by decide)
  obtain ⟨before, behind, hmem, -⟩ := List.lookup_eq_some_iff.mp h
  exact hall (arg, flag) (hmem ▸ List.mem_append_right _ List.mem_cons_self)

theorem IsTarget.looksLikeOption_eq_false {arg : String} (h : IsTarget arg) :
    CommandLine.looksLikeOption arg = false := by
  rcases h with rfl | h
  · rfl
  · unfold CommandLine.looksLikeOption
    split
    · next heq => simp [heq] at h
    · rfl

theorem IsTarget.ofArgument?_eq_none {arg : String} (h : IsTarget arg) :
    Flag.ofArgument? arg = none := by
  cases hflag : Flag.ofArgument? arg with
  | none => rfl
  | some flag =>
    cases h.looksLikeOption_eq_false.symm.trans (CommandLine.looksLikeOption_of_ofArgument? hflag)

/-! ## One reading only -/

theorem Flag.Takes.length_eq {flag : Flag} {values values' : List String} (h : flag.Takes values)
    (h' : flag.Takes values') : values.length = values'.length := by
  cases h <;> cases h' <;> rfl

theorem OptionGroup.eq_of_words_append {g g' : OptionGroup} {args args' : List String}
    (h : g.words ++ args = g'.words ++ args') : g = g' ∧ args = args' := by
  obtain ⟨spelling, flag, values, hspelled, htaken⟩ := g
  obtain ⟨spelling', flag', values', hspelled', htaken'⟩ := g'
  obtain ⟨rfl, hvalues⟩ := List.cons.inj h
  obtain rfl := Option.some.inj (hspelled.symm.trans hspelled')
  obtain ⟨rfl, hargs⟩ := List.append_inj hvalues (htaken.length_eq htaken')
  exact ⟨rfl, hargs⟩

theorem OptionGroup.words_append_ne_of_isTarget {g : OptionGroup} {t : String}
    {args args' : List String} (h : IsTarget t) : g.words ++ args ≠ t :: args' := by
  intro heq
  obtain rfl := (List.cons.inj heq).1
  cases h.ofArgument?_eq_none.symm.trans g.spelled

theorem Interleaved.unique {groups groups' : List OptionGroup} {targets targets' args : List String}
    (h : Interleaved groups targets args) (h' : Interleaved groups' targets' args) :
    groups' = groups ∧ targets' = targets := by
  induction h generalizing groups' targets' with
  | nil =>
    generalize hargs : ([] : List String) = args' at h'
    cases h' with
    | nil => exact ⟨rfl, rfl⟩
    | group g rest => cases hargs
    | target ht rest => cases hargs
  | @group groups targets args g rest ih =>
    generalize hargs : g.words ++ args = args' at h'
    cases h' with
    | nil => cases hargs
    | group g' rest' =>
      obtain ⟨rfl, rfl⟩ := OptionGroup.eq_of_words_append hargs
      obtain ⟨rfl, rfl⟩ := ih rest'
      exact ⟨rfl, rfl⟩
    | target ht rest' => exact absurd hargs (OptionGroup.words_append_ne_of_isTarget ht)
  | @target groups targets args t ht rest ih =>
    generalize hargs : t :: args = args' at h'
    cases h' with
    | nil => cases hargs
    | group g' rest' => exact absurd hargs.symm (OptionGroup.words_append_ne_of_isTarget ht)
    | target ht' rest' =>
      obtain ⟨rfl, rfl⟩ := List.cons.inj hargs
      obtain ⟨rfl, rfl⟩ := ih rest'
      exact ⟨rfl, rfl⟩

namespace CommandLine

variable {line : CommandLine} {rest : List String}

theorem readPair_of_mem {text : String} (h : '=' ∈ text.toList) :
    readPair text = .ok (OptionGroup.keyOf text, OptionGroup.valueOf text) := by
  have hsign : (fun c => !isEqualsSign c) = fun c : Char => decide (c ≠ '=') := by
    funext c
    rw [isEqualsSign, beq_eq_decide, decide_not]
  have hbehind : text.toList.dropWhile (fun c : Char => decide (c ≠ '=')) ≠ [] := by
    simpa [List.dropWhile_eq_nil_iff] using h
  obtain ⟨sign, value, hvalue⟩ := List.exists_cons_of_ne_nil hbehind
  simp only [readPair, hsign, hvalue, OptionGroup.keyOf, OptionGroup.valueOf, List.tail_cons]

def addGroup (line : CommandLine) (g : OptionGroup) : CommandLine :=
  match g.flag, g.values with
  | .switch s, _ => line.addSwitch s
  | .value .language, [value] => { line with language := some value }
  | .value .name, [value] => { line with name := some value }
  | .value .escape, [text] => { line with escape := (EscapeMode.read text).toOption }
  | .value .target, [value] => { line with target := some value }
  | .value .pair, [text] =>
    { line with options := line.options.insert (OptionGroup.keyOf text) (OptionGroup.valueOf text) }
  | .compile, [source, output] => { line with compile := some (source, output) }
  | _, _ => line

/-- A line with some groups and targets more. -/
def extended (line : CommandLine) (groups : List OptionGroup) (targets : List String) :
    CommandLine :=
  targets.foldl addTarget (groups.foldl addGroup line)

/-! ## One step -/

theorem readFrom_target {t : String} (h : IsTarget t) (line : CommandLine) (rest : List String) :
    readFrom line (t :: rest) = readFrom (line.addTarget t) rest := by
  rw [readFrom.eq_def]
  simp [h.ofArgument?_eq_none, h.looksLikeOption_eq_false]

/-- A group is read with all its values, whatever they look like, and nothing behind them is. -/
theorem readFrom_group (g : OptionGroup) (line : CommandLine) (rest : List String) :
    readFrom line (g.words ++ rest) = readFrom (line.addGroup g) rest := by
  obtain ⟨spelling, flag, values, hspelled, htaken⟩ := g
  rw [OptionGroup.words, List.cons_append, readFrom.eq_def]
  simp only [hspelled]
  cases htaken with
  | switch s => rfl
  | language value => rfl
  | name value => rfl
  | escape h =>
    simp only [addGroup, addValue, h, List.singleton_append]
    rfl
  | target value => rfl
  | pair h =>
    simp only [addGroup, addValue, readPair_of_mem h, List.singleton_append]
    rfl
  | compile source output => rfl

theorem readFrom_cut {g : OptionGroup} {count : Nat} (h : count < g.values.length)
    (line : CommandLine) :
    readFrom line (g.words.take (count + 1)) = .error (missingValue g.spelling) := by
  obtain ⟨spelling, flag, values, hspelled, htaken⟩ := g
  rw [OptionGroup.words, List.take_succ_cons, readFrom.eq_def]
  simp only [hspelled]
  cases htaken with
  | switch s => cases h
  | compile source output =>
    -- The source may be there, but then the output is not.
    match count, h with
    | 0, _ => rfl
    | 1, _ => rfl
  | _ =>
    obtain rfl := Nat.lt_one_iff.mp h
    rfl

/-! ## All arguments -/

theorem addGroup_addTarget (line : CommandLine) (g : OptionGroup) (t : String) :
    (line.addTarget t).addGroup g = (line.addGroup g).addTarget t := by
  obtain ⟨spelling, flag, values, hspelled, htaken⟩ := g
  cases htaken <;> rfl

theorem foldl_addGroup_addTarget (groups : List OptionGroup) (line : CommandLine) (t : String) :
    groups.foldl addGroup (line.addTarget t) = (groups.foldl addGroup line).addTarget t := by
  induction groups generalizing line with
  | nil => rfl
  | cons g groups ih => rw [List.foldl_cons, addGroup_addTarget, ih, List.foldl_cons]

theorem foldl_addTarget (targets : List String) (line : CommandLine) :
    targets.foldl addTarget line = { line with targets := line.targets ++ targets } := by
  induction targets generalizing line with
  | nil => simp
  | cons t targets ih => simp [ih, addTarget]

theorem readFrom_interleaved {groups : List OptionGroup} {targets args : List String}
    (h : Interleaved groups targets args) (line : CommandLine) (rest : List String) :
    readFrom line (args ++ rest) = readFrom (line.extended groups targets) rest := by
  induction h generalizing line with
  | nil => simp [extended]
  | group g _ ih =>
    rw [List.append_assoc, readFrom_group, ih]
    rfl
  | target h _ ih =>
    rw [List.cons_append, readFrom_target h, ih, extended, foldl_addGroup_addTarget]
    rfl

/-! ## What a line holds -/

/-- What a line holds behind some groups and targets. Where an option has one value, the last one
counts. -/
structure Holds (line : CommandLine) (groups : List OptionGroup) (targets : List String) :
    Prop where
  targets : line.targets = targets
  language : line.language = OptionGroup.last? (·.value? .language) groups
  name : line.name = OptionGroup.last? (·.value? .name) groups
  escape : line.escape = (OptionGroup.last? (·.value? .escape) groups).bind fun text =>
    (EscapeMode.read text).toOption
  target : line.target = OptionGroup.last? (·.value? .target) groups
  compile : line.compile = OptionGroup.last? OptionGroup.files? groups
  options : ∀ key, line.options.get? key = OptionGroup.last? (·.pairValue? key) groups
  switches : ∀ s, line.has s = true ↔ ∃ g ∈ groups, g.flag = .switch s

section

variable (line : CommandLine) (g : OptionGroup)

theorem addGroup_targets : (line.addGroup g).targets = line.targets := by
  obtain ⟨spelling, flag, values, hspelled, htaken⟩ := g
  cases htaken <;> rfl

theorem addGroup_language : (line.addGroup g).language = (g.value? .language).or line.language := by
  obtain ⟨spelling, flag, values, hspelled, htaken⟩ := g
  cases htaken <;> rfl

theorem addGroup_name : (line.addGroup g).name = (g.value? .name).or line.name := by
  obtain ⟨spelling, flag, values, hspelled, htaken⟩ := g
  cases htaken <;> rfl

theorem addGroup_target : (line.addGroup g).target = (g.value? .target).or line.target := by
  obtain ⟨spelling, flag, values, hspelled, htaken⟩ := g
  cases htaken <;> rfl

theorem addGroup_compile : (line.addGroup g).compile = g.files?.or line.compile := by
  obtain ⟨spelling, flag, values, hspelled, htaken⟩ := g
  cases htaken <;> rfl

theorem addGroup_has (s : Switch) : (line.addGroup g).has s = true ↔ g.flag = .switch s ∨
    line.has s = true := by
  obtain ⟨spelling, flag, values, hspelled, htaken⟩ := g
  cases htaken with
  | switch s' => simp [addGroup, addSwitch, has, @eq_comm _ s]
  | _ => simp [addGroup, has]

theorem addGroup_options (key : String) :
    (line.addGroup g).options.get? key = (g.pairValue? key).or (line.options.get? key) := by
  obtain ⟨spelling, flag, values, hspelled, htaken⟩ := g
  cases htaken with
  | @pair text h =>
    show (Table.insert line.options (OptionGroup.keyOf text) (OptionGroup.valueOf text)).get? key =
      _
    by_cases hkey : OptionGroup.keyOf text = key
    · subst hkey
      simp [OptionGroup.pairValue?, OptionGroup.value?, Table.get?_insert_self]
    · simp [OptionGroup.pairValue?, OptionGroup.value?, hkey,
        Table.get?_insert_of_ne _ _ (Ne.symm hkey)]
  | _ => rfl

theorem addGroup_escape {text? : Option String}
    (h : line.escape = text?.bind fun text => (EscapeMode.read text).toOption) :
    (line.addGroup g).escape =
      ((g.value? .escape).or text?).bind fun text => (EscapeMode.read text).toOption := by
  obtain ⟨spelling, flag, values, hspelled, htaken⟩ := g
  cases htaken with
  | escape hmode => rfl
  | _ => exact h

end

variable {groups : List OptionGroup} {targets : List String}

theorem Holds.addGroup (h : line.Holds groups targets) (g : OptionGroup) :
    (line.addGroup g).Holds (groups ++ [g]) targets where
  targets := (addGroup_targets line g).trans h.targets
  language := by rw [addGroup_language, h.language, OptionGroup.last?_append_singleton]
  name := by rw [addGroup_name, h.name, OptionGroup.last?_append_singleton]
  escape := by rw [addGroup_escape line g h.escape, OptionGroup.last?_append_singleton]
  target := by rw [addGroup_target, h.target, OptionGroup.last?_append_singleton]
  compile := by rw [addGroup_compile, h.compile, OptionGroup.last?_append_singleton]
  options key := by rw [addGroup_options, h.options, OptionGroup.last?_append_singleton]
  switches s := by simp [addGroup_has, h.switches, or_comm]

theorem holds_extended (groups : List OptionGroup) (targets : List String) :
    (extended {} groups targets).Holds groups targets := by
  have hgroups : (groups.foldl CommandLine.addGroup {}).Holds groups [] := by
    induction groups using List.reverseRecOn with
    | nil => exact ⟨rfl, rfl, rfl, rfl, rfl, rfl, fun _ => rfl, fun s => by simp [has]⟩
    | append_singleton groups g ih =>
      rw [List.foldl_append]
      exact ih.addGroup g
  rw [extended, foldl_addTarget, hgroups.targets, List.nil_append]
  exact { hgroups with targets := rfl }

/-! ## Reading all arguments -/

theorem Holds.isSome_compile_iff (h : line.Holds groups targets) :
    line.compile.isSome ↔ ∃ g ∈ groups, g.flag = .compile := by
  simp only [h.compile, OptionGroup.isSome_last?_iff, OptionGroup.isSome_files?_iff]

theorem Holds.checked_eq (h : line.Holds groups targets)
    [Decidable ((∃ g ∈ groups, g.flag = .compile) ∧ targets ≠ [])] :
    line.checked =
      if (∃ g ∈ groups, g.flag = .compile) ∧ targets ≠ [] then
        .error "--compile cannot be combined with scripts"
      else .ok (.run line) := by
  simp [checked, h.isSome_compile_iff, h.targets]

/-- Options and targets are read the same in every interleaving, each to its end and nothing twice.
Only a file to compile does not go with targets, and an option that is cut off lacks a value. -/
theorem read_interleaved {args : List String} (h : Interleaved groups targets args) :
    (∀ args', Interleaved groups targets args' → read args' = read args) ∧
      (∀ line rest, readFrom line (args ++ rest) = readFrom (extended line groups targets) rest) ∧
      (∀ groups' targets', Interleaved groups' targets' args →
        groups' = groups ∧ targets' = targets) ∧
      ((∃ g ∈ groups, g.flag = .compile) ∧ targets ≠ [] →
        read args = .error "--compile cannot be combined with scripts") ∧
      (¬((∃ g ∈ groups, g.flag = .compile) ∧ targets ≠ []) →
        ∃ line, read args = .ok (.run line) ∧ line.Holds groups targets) ∧
      ∀ (g : OptionGroup) (count : Nat), count < g.values.length →
        read (args ++ g.words.take (count + 1)) = .error (missingValue g.spelling) := by
  have hread : ∀ {args}, Interleaved groups targets args →
      read args = (extended {} groups targets).checked := by
    intro args h
    rw [read, ← List.append_nil args]
    exact readFrom_interleaved h {} []
  have hholds := holds_extended groups targets
  refine ⟨fun args' h' => (hread h').trans (hread h).symm, readFrom_interleaved h,
    fun _ _ h' => h.unique h',
    fun hboth => ?_, fun hnot => ⟨extended {} groups targets, ?_, hholds⟩, fun g count hcount => ?_⟩
  · rw [hread h, hholds.checked_eq, if_pos hboth]
  · rw [hread h, hholds.checked_eq, if_neg hnot]
  · exact (readFrom_interleaved h {} _).trans (readFrom_cut hcount _)

/-- A language that looks like a switch. -/
def languageGroup : OptionGroup :=
  ⟨"--language", .value .language, ["-q"], rfl, .language "-q"⟩

def pairGroup : OptionGroup :=
  ⟨"-o", .value .pair, ["k =1"], rfl, .pair (by decide)⟩

def compileGroup : OptionGroup :=
  ⟨"-c", .compile, ["in", "out"], rfl, .compile "in" "out"⟩

theorem read_interleaved_of_two :
    Interleaved [languageGroup, pairGroup] ["x", "-"] ["x", "--language", "-q", "-", "-o", "k =1"] ∧
      (∃ line, read ["x", "--language", "-q", "-", "-o", "k =1"] = .ok (.run line) ∧
        line.Holds [languageGroup, pairGroup] ["x", "-"]) ∧
      read ["x", "--language", "-q", "-", "-o", "k =1", "-c", "in"] = .error
        (missingValue "-c") := by
  have h : Interleaved [languageGroup, pairGroup] ["x", "-"] ["x", "--language", "-q", "-",
      "-o", "k =1"] :=
    .target (.inr (by decide)) (.group languageGroup (.target (.inl rfl) (.group pairGroup .nil)))
  obtain ⟨-, -, -, -, hholds, hcut⟩ := read_interleaved h
  exact ⟨h, hholds (by decide), hcut compileGroup 1 (by decide)⟩

end CommandLine

end SessionShell
