import Mathlib.Data.List.Chain
import Mathlib.Data.List.TakeWhile
import Mathlib.Data.String.Basic
import Mathlib.Logic.Relation
import SessionShell.Preload

/-!
A text split at a mark: the split that goes by positions in the text gives what the split of its
list of characters does.
-/

namespace SessionShell.Text

open String

/-- What has been split off so far is `acc`, and `m` is what has been read since the last mark. -/
theorem splitOnAux_singleton (mark : Char) (l m r : List Char) (acc : List String) :
    splitOnAux (ofList (l ++ m ++ r)) (singleton mark) ⟨utf8Len l⟩ ⟨utf8Len l + utf8Len m⟩ 0 acc =
      acc.reverse ++ (List.splitOnPPrepend (· == mark) r m.reverse).map ofList := by
  have hget : (0 : Pos.Raw).get (singleton mark) = mark := by
    simpa using get_of_valid [] [mark]
  have hnext : (0 : Pos.Raw).next (singleton mark) = ⟨mark.utf8Size⟩ := by
    simpa using next_of_valid [] mark []
  have hend : (singleton mark).rawEndPos ≤ ⟨mark.utf8Size⟩ := by
    simp [rawEndPos]
  have hhere : ∀ i : Pos.Raw, i.unoffsetBy 0 = i := fun i => by simp [Pos.Raw.unoffsetBy]
  rw [splitOnAux]
  simp only [List.append_assoc, atEnd_iff, rawEndPos_ofList, utf8Len_append, Pos.Raw.mk_le_mk,
    Nat.add_le_add_iff_left, (by omega : utf8Len m + utf8Len r ≤ utf8Len m ↔ utf8Len r = 0),
    utf8Len_eq_zero, List.reverse_cons]
  split
  · subst r
    simpa using extract_of_valid l m []
  · obtain ⟨c, r, rfl⟩ := r.exists_cons_of_ne_nil ‹_›
    have hc : Pos.Raw.get (ofList (l ++ (m ++ c :: r))) ⟨utf8Len l + utf8Len m⟩ = c := by
      simpa [-ofList_append] using get_of_valid (l ++ m) (c :: r)
    have hbehind : Pos.Raw.next (ofList (l ++ (m ++ c :: r))) ⟨utf8Len l + utf8Len m⟩ =
        ⟨utf8Len l + utf8Len m + c.utf8Size⟩ := by
      simpa [-ofList_append] using next_of_valid (l ++ m) c r
    have hread : Pos.Raw.extract (ofList (l ++ (m ++ c :: r))) ⟨utf8Len l⟩
        ⟨utf8Len l + utf8Len m⟩ = ofList m := by
      simpa [-ofList_append] using extract_of_valid l m (c :: r)
    rw [hc, hget, hbehind, hhere, hbehind, hnext]
    by_cases h : c = mark
    · subst h
      have hback : Pos.Raw.unoffsetBy ⟨utf8Len l + utf8Len m + c.utf8Size⟩ ⟨c.utf8Size⟩ =
          ⟨utf8Len l + utf8Len m⟩ := by
        simp [Pos.Raw.unoffsetBy]
      rw [if_pos (by simp), if_pos hend, hback, hread]
      simpa [Nat.add_assoc, List.splitOnPPrepend_cons_eq_if] using
        splitOnAux_singleton c (l ++ m ++ [c]) [] r (ofList m :: acc)
    · rw [if_neg (by simpa using h)]
      simpa [List.splitOnPPrepend_cons_eq_if, h, Nat.add_assoc] using
        splitOnAux_singleton mark l (m ++ [c]) r acc
  termination_by r.length

theorem splitOn_singleton (mark : Char) (s : String) :
    s.splitOn (singleton mark) = split mark s := by
  have hmark : (singleton mark == "") = false := by
    simp
  rw [splitOn, hmark]
  simpa [split, List.splitOn] using splitOnAux_singleton mark [] [] s.toList []

end SessionShell.Text

/-!
Other names of languages.

A configuration says with some of its lines that a language has another name, and the last line that
says so of a name holds, however the name is spelled in upper and lower case. A name is followed
from line to line until one is met that stands for no other, or that was met before. That comes to
an end, since each round meets another key of the table. Where the names lead into a circle, the
search stops at the spelling that closes the circle: followed once more, that spelling goes round
the circle and stops at itself.
-/

namespace SessionShell.Preload

open Relation Text

/-! ### What the text says -/

def IsAliasLine (raw name target : String) : Prop :=
  ∃ (key : List Char) (sign : Char) (value : List Char),
    (trim raw).toList = key ++ sign :: value ∧ isAssignment sign ∧ (∀ c ∈ key, ¬isAssignment c) ∧
      key.head? ≠ some '#' ∧ key.head? ≠ some '!' ∧
      trim (String.ofList key) = "Preload.alias." ++ name ∧ trim (String.ofList value) = target

/-- Of the lines that give another name to what is this one up to case, the last gives this
target. -/
def IsLast (lines : List String) (name target : String) : Prop :=
  ∃ before raw after spelled, lines = before ++ raw :: after ∧ IsAliasLine raw spelled target ∧
    toLowercase spelled = toLowercase name ∧
      ∀ later ∈ after, ∀ other elsewhere, IsAliasLine later other elsewhere →
        toLowercase other ≠ toLowercase name

/-- The text says that a name stands for another. -/
def Defines (content name target : String) : Prop :=
  IsLast (content.splitOn "\n") name target

/-- From a name the names lead to another: all that are met before it differ up to case, and it
either leads to no further name or is, up to case, one that was met. -/
def EndsAt (leads : String → String → Prop) (name last : String) : Prop :=
  ∃ met : List String, (met ++ [last]).head? = some name ∧ (met ++ [last]).IsChain leads ∧
    (met.map toLowercase).Nodup ∧
    ((∀ next, ¬leads last next) ∨ toLowercase last ∈ met.map toLowercase)

/-! ### What is read of it -/

theorem behind?_eq_some_iff {start s rest : String} :
    behind? start s = some rest ↔ s = start ++ rest := by
  unfold behind?
  constructor
  · intro h
    split at h
    · next hstarts =>
      obtain ⟨tail, htail⟩ := String.startsWith_string_iff.mp hstarts
      have hdrop : s.toList.drop start.length = tail := by
        rw [← htail, ← String.length_toList, List.drop_left]
      cases h
      rw [← String.toList_inj, hdrop]
      simp [htail]
    · cases h
  · rintro rfl
    have hdrop : (start ++ rest).toList.drop start.length = rest.toList := by
      rw [String.toList_append, ← String.length_toList, List.drop_left]
    rw [if_pos (String.startsWith_string_iff.mpr (by simp)), hdrop, String.ofList_toList]

theorem Entry.ofKey?_eq_alias_iff {key value name target : String} :
    Entry.ofKey? key value = some (.alias name target) ↔
      ∃ spelled, key = "Preload.alias." ++ spelled ∧ toLowercase spelled = name ∧
        value = target := by
  unfold Entry.ofKey?
  split
  · next spelled hbehind =>
    rw [behind?_eq_some_iff] at hbehind
    subst hbehind
    simp
  · next hnone =>
    have hno : ∀ spelled, key ≠ "Preload.alias." ++ spelled := fun spelled hkey => by
      rw [behind?_eq_some_iff.mpr hkey] at hnone
      cases hnone
    constructor
    · intro h
      split at h
      · cases h
      · obtain ⟨_, _, hentry⟩ := Option.map_eq_some_iff.mp h
        cases hentry
    · rintro ⟨spelled, hkey, -⟩
      exact absurd hkey (hno spelled)

theorem cut_iff {line key value : List Char} {sign : Char} :
    line.takeWhile (!isAssignment ·) = key ∧ line.dropWhile (!isAssignment ·) = sign :: value ↔
      line = key ++ sign :: value ∧ isAssignment sign ∧ ∀ c ∈ key, ¬isAssignment c := by
  constructor
  · rintro ⟨rfl, hdrop⟩
    refine ⟨?_, ?_, fun c hc => ?_⟩
    · rw [← hdrop, List.takeWhile_append_dropWhile]
    · simpa [hdrop] using List.head?_dropWhile_not (!isAssignment ·) line
    · simpa using List.mem_takeWhile_imp hc
  · rintro ⟨rfl, hsign, hkey⟩
    have hkey' : ∀ c ∈ key, (!isAssignment c) = true := fun c hc => by simpa using hkey c hc
    rw [List.takeWhile_append_of_pos hkey', List.dropWhile_append_of_pos hkey']
    simp [hsign]

theorem Entry.ofLine?_eq_alias_iff {raw name target : String} :
    Entry.ofLine? raw = some (.alias name target) ↔
      ∃ spelled, IsAliasLine raw spelled target ∧ toLowercase spelled = name := by
  have hhead : ∀ {key value : List Char} {sign c : Char}, isAssignment sign → ¬isAssignment c →
      ((key ++ sign :: value).head? = some c ↔ key.head? = some c) := by
    intro key value sign c hsign hc
    cases key with
    | nil =>
      have : sign ≠ c := fun h => hc (h ▸ hsign)
      simpa
    | cons => simp
  unfold Entry.ofLine?
  constructor
  · intro h
    dsimp only at h
    split at h
    · cases h
    · next hshape =>
      simp only [Bool.or_eq_true, List.isEmpty_iff, beq_iff_eq, not_or] at hshape
      split at h
      · cases h
      · next sign value hcut =>
        obtain ⟨spelled, hkey, hname, hvalue⟩ := Entry.ofKey?_eq_alias_iff.mp h
        obtain ⟨hline, hsign, hfree⟩ := cut_iff.mp ⟨rfl, hcut⟩
        rw [hline, hhead hsign (by decide), hhead hsign (by decide)] at hshape
        exact ⟨spelled, ⟨_, sign, value, hline, hsign, hfree, hshape.1.2, hshape.2, hkey, hvalue⟩,
          hname⟩
  · rintro ⟨spelled, ⟨key, sign, value, hline, hsign, hfree, hhash, hbang, hkey, hvalue⟩, hname⟩
    obtain ⟨htake, hdrop⟩ := cut_iff.mpr ⟨hline, hsign, hfree⟩
    have hshape : ¬(((trim raw).toList.isEmpty || (trim raw).toList.head? == some '#' ||
        (trim raw).toList.head? == some '!') = true) := by
      simp only [Bool.or_eq_true, List.isEmpty_iff, beq_iff_eq, not_or]
      rw [hline, hhead hsign (by decide), hhead hsign (by decide)]
      exact ⟨⟨by simp, hhash⟩, hbang⟩
    dsimp only
    rw [if_neg hshape, hdrop, htake]
    exact Entry.ofKey?_eq_alias_iff.mpr ⟨spelled, hkey, hname, hvalue⟩

theorem isLast_append_singleton_iff {lines : List String} {raw name target : String} :
    IsLast (lines ++ [raw]) name target ↔
      Entry.ofLine? raw = some (.alias (toLowercase name) target) ∨
        (∀ elsewhere, Entry.ofLine? raw ≠ some (.alias (toLowercase name) elsewhere)) ∧
          IsLast lines name target := by
  constructor
  · rintro ⟨before, line, after, spelled, hlines, hline, hname, hlater⟩
    obtain rfl | ⟨after, last, rfl⟩ := after.eq_nil_or_concat
    · obtain ⟨rfl, rfl⟩ : lines = before ∧ raw = line := by simpa using hlines
      exact .inl (Entry.ofLine?_eq_alias_iff.mpr ⟨spelled, hline, hname⟩)
    · obtain ⟨rfl, rfl⟩ : lines = before ++ line :: after ∧ raw = last := by
        rw [List.concat_eq_append, ← List.cons_append, ← List.append_assoc] at hlines
        simpa using List.append_inj' hlines rfl
      refine .inr ⟨fun elsewhere helse => ?_, before, line, after, spelled, rfl, hline, hname,
        fun later hmem => hlater later (by simp [hmem])⟩
      obtain ⟨other, hother, heq⟩ := Entry.ofLine?_eq_alias_iff.mp helse
      exact hlater raw (by simp) other elsewhere hother heq
  · rintro (hraw | ⟨hraw, before, line, after, spelled, rfl, hline, hname, hlater⟩)
    · obtain ⟨spelled, hline, hname⟩ := Entry.ofLine?_eq_alias_iff.mp hraw
      exact ⟨lines, raw, [], spelled, rfl, hline, hname, by simp⟩
    · refine ⟨before, line, after ++ [raw], spelled, by simp, hline, hname, fun later hmem => ?_⟩
      obtain hmem | rfl := (List.mem_append.mp hmem).imp_right List.mem_singleton.mp
      · exact hlater later hmem
      · exact fun other elsewhere hother heq =>
          hraw elsewhere (Entry.ofLine?_eq_alias_iff.mpr ⟨other, hother, heq⟩)

theorem get?_aliases_enter_iff {p : Preload} {entry : Entry} {key target : String} :
    (p.enter entry).aliases.get? key = some target ↔
      entry = .alias key target ∨ (∀ elsewhere, entry ≠ .alias key elsewhere) ∧
        p.aliases.get? key = some target := by
  obtain ⟨name, value⟩ | _ | _ := entry
  · by_cases hkey : key = name
    · subst hkey
      simp [enter, Table.get?_insert_self]
    · simp [enter, Table.get?_insert_of_ne p.aliases value hkey, Ne.symm hkey]
  · simp [enter]
  · simp [enter]

theorem get?_foldl_enter_iff {lines : List String} {dir name target : String} :
    ((lines.filterMap Entry.ofLine?).foldl enter (empty dir)).aliases.get? (toLowercase name) =
      some target ↔ IsLast lines name target := by
  induction lines using List.reverseRecOn with
  | nil => simp [empty, Table.get?, IsLast]
  | append_singleton lines raw ih =>
    rw [isLast_append_singleton_iff, ← ih, List.filterMap_append]
    cases hraw : Entry.ofLine? raw with
    | none => simp [hraw]
    | some entry => simp [hraw, get?_aliases_enter_iff]

theorem get?_aliases_parse_iff {dir content name target : String} :
    (parse dir content).aliases.get? (toLowercase name) = some target ↔
      Defines content name target := by
  rw [Defines, show "\n" = String.singleton '\n' from rfl, splitOn_singleton]
  exact get?_foldl_enter_iff

/-! ### The search -/

/-- A search: the keys of the names that were met, and the name it has come to. -/
structure Search where
  seen : List String
  current : String
  deriving DecidableEq, Repr

namespace Search

variable {t : Table String} {s s' : Search} {name last : String}

/-- One more round, unless the name was met before or stands for no other. -/
def next? (t : Table String) (s : Search) : Option Search :=
  if toLowercase s.current ∈ s.seen then none
  else (t.get? (toLowercase s.current)).map (⟨toLowercase s.current :: s.seen, ·⟩)

def start (name : String) : Search :=
  ⟨[], name⟩

theorem next?_eq_some_iff :
    s.next? t = some s' ↔ toLowercase s.current ∉ s.seen ∧
      s'.seen = toLowercase s.current :: s.seen ∧ t.get? (toLowercase s.current) =
        some s'.current := by
  unfold next?
  obtain ⟨seen, current⟩ := s'
  split
  · next hmet => simp [hmet]
  · next hnew => simp [hnew, eq_comm, and_comm]

theorem next?_eq_none_iff :
    s.next? t = none ↔ toLowercase s.current ∈ s.seen ∨ t.get? (toLowercase s.current) = none := by
  unfold next?
  split
  · next hmet => simp [hmet]
  · next hnew => simp [hnew]

def left (t : Table String) (s : Search) : Nat :=
  (t.filter (·.1 ∉ s.seen)).length

theorem left_lt (h : s.next? t = some s') : s'.left t < s.left t := by
  obtain ⟨hnew, hseen, hget⟩ := next?_eq_some_iff.mp h
  have hmem : (toLowercase s.current, s'.current) ∈ t := by
    obtain ⟨before, after, rfl, -⟩ := List.lookup_eq_some_iff.mp hget
    simp
  have hsub : (t.filter (·.1 ∉ s'.seen)).Sublist (t.filter (·.1 ∉ s.seen)) :=
    List.monotone_filter_right t fun entry => by simp +contextual [hseen]
  refine lt_of_le_of_ne hsub.length_le fun heq => ?_
  have hin : (toLowercase s.current, s'.current) ∈ t.filter (·.1 ∉ s'.seen) := by
    rw [hsub.eq_of_length heq]
    simpa using ⟨hmem, hnew⟩
  simp [hseen] at hin

theorem wellFounded_next? : WellFounded fun s' s : Search => s.next? t = some s' :=
  Subrelation.wf left_lt (measure (left t)).wf

theorem follow_succ (fuel : Nat) :
    follow t (fuel + 1) s.seen s.current = match s.next? t with
      | none => s.current
      | some s' => follow t fuel s'.seen s'.current := by
  unfold next?
  rw [follow]
  split
  · rfl
  · cases t.get? (toLowercase s.current) <;> rfl

theorem exists_over (fuel : Nat) (s : Search) (h : s.left t < fuel) :
    ∃ s', ReflTransGen (fun s s' => s.next? t = some s') s s' ∧ s'.next? t = none ∧
      follow t fuel s.seen s.current = s'.current := by
  induction fuel generalizing s with
  | zero => omega
  | succ fuel ih =>
    rw [follow_succ]
    cases hnext : s.next? t with
    | none => exact ⟨s, .refl, hnext, rfl⟩
    | some s₁ =>
      have hleft := left_lt hnext
      obtain ⟨s', hreach, hover, hfollow⟩ := ih s₁ (by omega)
      exact ⟨s', .head hnext hreach, hover, hfollow⟩

theorem eq_of_over {s₁ s₂ : Search} (h₁ : ReflTransGen (fun s s' => s.next? t = some s') s s₁)
    (h₂ : ReflTransGen (fun s s' => s.next? t = some s') s s₂) (hover₁ : s₁.next? t = none)
    (hover₂ : s₂.next? t = none) : s₁ = s₂ := by
  have hunique : Relator.RightUnique fun s s' : Search => s.next? t = some s' :=
    fun _ _ _ h h' => Option.some.inj (h.symm.trans h')
  obtain h | h := h₁.total_of_right_unique hunique h₂
  · obtain rfl | ⟨_, hnext, -⟩ := h.cases_head
    · rfl
    · rw [hover₁] at hnext
      cases hnext
  · obtain rfl | ⟨_, hnext, -⟩ := h.cases_head
    · rfl
    · rw [hover₂] at hnext
      cases hnext

end Search

def Leads (t : Table String) (name next : String) : Prop :=
  t.get? (toLowercase name) = some next

namespace Search

variable {t : Table String} {s s' : Search} {name last : String}

def Met (t : Table String) (name : String) (met : List String) (s : Search) : Prop :=
  s.seen = (met.map toLowercase).reverse ∧ (met ++ [s.current]).head? = some name ∧
    (met ++ [s.current]).IsChain (Leads t) ∧ (met.map toLowercase).Nodup

theorem met_start : Met t name [] (start name) := by
  simp [Met, start]

theorem Met.next {met : List String} (h : Met t name met s) (hnext : s.next? t = some s') :
    Met t name (met ++ [s.current]) s' := by
  obtain ⟨hseen, hhead, hchain, hnodup⟩ := h
  obtain ⟨hnew, hseen', hget⟩ := next?_eq_some_iff.mp hnext
  refine ⟨by simp [hseen', hseen], ?_, ?_, ?_⟩
  · rw [List.head?_append, hhead]
    rfl
  · rw [List.append_assoc, List.singleton_append, List.isChain_append_cons_cons]
    exact ⟨hchain, hget, .singleton _⟩
  · rw [hseen, List.mem_reverse] at hnew
    simpa [List.nodup_append, hnodup] using hnew

theorem exists_met (h : ReflTransGen (fun s s' => s.next? t = some s') (start name) s) :
    ∃ met, Met t name met s := by
  induction h with
  | refl => exact ⟨[], met_start⟩
  | tail _ hnext ih =>
    obtain ⟨met, hmet⟩ := ih
    exact ⟨_, hmet.next hnext⟩

theorem Met.reaches {met : List String} (h : Met t name met s) :
    ReflTransGen (fun s s' => s.next? t = some s') (start name) s := by
  induction met using List.reverseRecOn generalizing s with
  | nil =>
    obtain ⟨seen, current⟩ := s
    obtain ⟨rfl, hhead, -⟩ := h
    cases hhead
    exact .refl
  | append_singleton met last ih =>
    obtain ⟨hseen, hhead, hchain, hnodup⟩ := h
    rw [List.append_assoc, List.singleton_append, List.isChain_append_cons_cons] at hchain
    rw [List.map_append, List.nodup_append] at hnodup
    obtain ⟨hnodup, -, hnew⟩ := hnodup
    have hmet : Met t name met ⟨(met.map toLowercase).reverse, last⟩ :=
      ⟨rfl, by rw [List.head?_append, Option.or_of_isSome (by
        simp)] at hhead; exact hhead, hchain.1, hnodup⟩
    refine .tail (ih hmet) (next?_eq_some_iff.mpr ⟨fun hmem => ?_, by simp [hseen], hchain.2.1⟩)
    rw [List.mem_reverse] at hmem
    exact hnew _ hmem _ (by simp) rfl

theorem Met.over_iff {met : List String} (h : Met t name met s) :
    s.next? t = none ↔
      (∀ next, ¬Leads t s.current next) ∨ toLowercase s.current ∈ met.map toLowercase := by
  rw [next?_eq_none_iff, h.1, List.mem_reverse, or_comm, Option.eq_none_iff_forall_ne_some]
  rfl

end Search

section Following

variable {t : Table String} {name last : String}

theorem endsAt_iff_over : EndsAt (Leads t) name last ↔
    ∃ s, ReflTransGen (fun s s' => s.next? t = some s') (Search.start name) s ∧
      s.next? t = none ∧ s.current = last := by
  constructor
  · rintro ⟨met, hhead, hchain, hnodup, hend⟩
    have hmet : Search.Met t name met ⟨(met.map toLowercase).reverse, last⟩ :=
      ⟨rfl, hhead, hchain, hnodup⟩
    exact ⟨_, hmet.reaches, hmet.over_iff.mpr hend, rfl⟩
  · rintro ⟨s, hreach, hover, rfl⟩
    obtain ⟨met, hmet⟩ := Search.exists_met hreach
    exact ⟨met, hmet.2.1, hmet.2.2.1, hmet.2.2.2, hmet.over_iff.mp hover⟩

theorem EndsAt.again (h : EndsAt (Leads t) name last) : EndsAt (Leads t) last last := by
  obtain ⟨met, -, hchain, hnodup, hstop | hmet⟩ := h
  · exact ⟨[], rfl, .singleton _, .nil, .inl hstop⟩
  · -- The way round the circle begins at the name that was met with this key.
    obtain ⟨first, hfirst, hkey⟩ := List.mem_map.mp hmet
    obtain ⟨before, after, rfl⟩ := List.append_of_mem hfirst
    rw [List.append_assoc, List.cons_append, List.isChain_split] at hchain
    rw [List.map_append, List.nodup_append, List.map_cons, hkey] at hnodup
    refine ⟨last :: after, rfl, ?_, ?_, .inr (by simp)⟩
    · exact hchain.2.imp_head fun hnext => by rwa [Leads, ← hkey]
    · exact hnodup.2.1

theorem EndsAt.of_spelling {other next : String} (h : EndsAt (Leads t) name last)
    (hcase : toLowercase other = toLowercase name) (hnext : Leads t name next) :
    EndsAt (Leads t) other last := by
  obtain ⟨met, hhead, hchain, hnodup, hend⟩ := h
  cases met with
  | nil =>
    cases hhead
    obtain hstop | hmem := hend
    · exact absurd hnext (hstop next)
    · cases hmem
  | cons first met =>
    cases hhead
    refine ⟨other :: met, rfl, ?_, ?_, ?_⟩
    · exact hchain.imp_head fun hnext => by rwa [Leads, hcase]
    · simpa [hcase] using hnodup
    · simpa [hcase] using hend

end Following

variable {dir content name : String}

theorem leads_aliases_parse : Leads (parse dir content).aliases = Defines content := by
  funext name target
  exact propext get?_aliases_parse_iff

theorem resolveAlias_eq_iff {p : Preload} {name last : String} :
    p.resolveAlias name = last ↔ EndsAt (Leads p.aliases) name last := by
  have hleft : (Search.start name).left p.aliases < p.aliases.length + 1 :=
    Nat.lt_succ_of_le (List.length_filter_le ..)
  obtain ⟨s, hreach, hover, hfollow⟩ := Search.exists_over _ _ hleft
  rw [endsAt_iff_over]
  constructor
  · rintro rfl
    exact ⟨s, hreach, hover, hfollow.symm⟩
  · rintro ⟨s', hreach', hover', rfl⟩
    rw [Search.eq_of_over hreach' hreach hover' hover]
    exact hfollow

/-- The circle closes with the spelling of the entry that leads back into it. -/
example : resolveAlias ⟨"", [("b", "a"), ("a", "B"), ("tail", "A")], [], []⟩ "TAIL" = "a" := by
  decide +kernel

/-- Whatever the text says, every search for a name comes to an end; it has followed the last
definition of each name up to the first that stands for no other or repeats one up to case; searched
for again, that is found itself; and a name that stands for another may be spelled in any case. -/
theorem resolveAlias_ends (dir content name : String) :
    (WellFounded fun s' s : Search => s.next? (parse dir content).aliases = some s') ∧
      (∃ s, ReflTransGen (fun s s' => s.next? (parse dir content).aliases = some s')
        (Search.start name) s ∧
        s.next? (parse dir content).aliases = none ∧
          s.current = (parse dir content).resolveAlias name) ∧
      (∀ last, (parse dir content).resolveAlias name = last ↔ EndsAt (Defines content) name last) ∧
      (parse dir content).resolveAlias ((parse dir content).resolveAlias name) =
        (parse dir content).resolveAlias name ∧
      ∀ other target, toLowercase other = toLowercase name → Defines content name target →
        (parse dir content).resolveAlias other = (parse dir content).resolveAlias name := by
  have hends : EndsAt (Leads (parse dir content).aliases) name
      ((parse dir content).resolveAlias name) :=
    resolveAlias_eq_iff.mp rfl
  refine ⟨Search.wellFounded_next?, endsAt_iff_over.mp hends, fun last => ?_, ?_,
    fun other target hcase hdef => ?_⟩
  · rw [resolveAlias_eq_iff, leads_aliases_parse]
  · exact resolveAlias_eq_iff.mpr hends.again
  · exact resolveAlias_eq_iff.mpr (hends.of_spelling hcase (get?_aliases_parse_iff.mpr hdef))

end SessionShell.Preload
