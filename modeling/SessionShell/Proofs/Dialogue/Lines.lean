import Mathlib.Data.List.TakeWhile
import SessionShell.Console.Reader

/-!
The lines of an input that is text: however it comes in chunks, it is read line by line, and then it
is at its end for good.
-/

namespace SessionShell

namespace Bytes

def ofChars (cs : List Char) : Bytes :=
  cs.flatMap String.utf8EncodeChar

theorem ofChars_append (cs ds : List Char) : ofChars (cs ++ ds) = ofChars cs ++ ofChars ds :=
  List.flatMap_append

theorem text?_ofChars (cs : List Char) : (ofChars cs).text? = some (String.ofList cs) := by
  have hbytes : (⟨(ofChars cs).toArray⟩ : ByteArray) = cs.utf8Encode :=
    ByteArray.ext (by simp [List.utf8Encode, ofChars])
  rw [text?, hbytes, String.fromUTF8?, dif_pos ByteArray.isValidUTF8_utf8Encode]
  exact congrArg some (String.toByteArray_inj.mp String.toByteArray_ofList.symm)

theorem eq_ofChars_of_text? {b : Bytes} {s : String} (h : b.text? = some s) :
    b = ofChars s.toList := by
  rw [text?, String.fromUTF8?] at h
  split at h
  · cases h
    have hbytes := String.utf8Encode_toList (b := String.fromUTF8 ⟨b.toArray⟩ ‹_›)
    have hdata := congrArg (fun bytes => bytes.data.toList) hbytes
    simpa [List.utf8Encode, ofChars, String.fromUTF8] using hdata.symm
  · cases h

theorem toNat_of_eq_lineEnd {n : Nat} (h : Reader.lineEnd = UInt8.ofNat n) : n % 256 = 10 := by
  have htoNat := congrArg UInt8.toNat h
  simpa [Reader.lineEnd, eq_comm] using htoNat

theorem eq_of_lineEnd_mem {c : Char} (h : Reader.lineEnd ∈ String.utf8EncodeChar c) : c = '\n' := by
  rw [String.utf8EncodeChar.eq_1] at h
  split_ifs at h with hone
  · have hval := toNat_of_eq_lineEnd (List.mem_singleton.mp h)
    have hsmall : c.val.toNat = 10 := by omega
    exact Char.ext (UInt32.toNat_inj.mp hsmall)
  -- All bytes of a longer character are at least 128.
  all_goals
    simp only [List.mem_cons, List.not_mem_nil, or_false] at h
  · rcases h with h | h <;> have hval := toNat_of_eq_lineEnd h <;> omega
  · rcases h with h | h | h <;> have hval := toNat_of_eq_lineEnd h <;> omega
  · rcases h with h | h | h | h <;> have hval := toNat_of_eq_lineEnd h <;> omega

theorem lineEnd_not_mem_ofChars {cs : List Char} (h : '\n' ∉ cs) : Reader.lineEnd ∉ ofChars cs := by
  intro hin
  obtain ⟨c, hc, hbyte⟩ := List.mem_flatMap.mp hin
  exact h (eq_of_lineEnd_mem hbyte ▸ hc)

theorem ofChars_line (line rest : List Char) :
    ofChars (line ++ '\n' :: rest) = ofChars line ++ Reader.lineEnd :: ofChars rest := by
  rw [ofChars_append]
  rfl

theorem ofChars_eq_nil {cs : List Char} : ofChars cs = [] ↔ cs = [] := by
  cases cs with
  | nil => simp [ofChars]
  | cons c cs =>
    have hlength := String.length_utf8EncodeChar c
    have hpos := Char.utf8Size_pos c
    simp only [ofChars, List.flatMap_cons, List.append_eq_nil_iff, reduceCtorEq, iff_false, not_and]
    intro hnil
    simp [hnil] at hlength
    omega

end Bytes

namespace Reader

variable {front rest : Bytes} {line : List Char}

/-! ## Bytes up to a line end -/

theorem notLineEnd_of_mem {b : UInt8} (h : lineEnd ∉ front) (hb : b ∈ front) :
    notLineEnd b = true := by
  rw [notLineEnd, bne_iff_ne]
  rintro rfl
  exact h hb

theorem takeWhile_front (h : lineEnd ∉ front) :
    (front ++ lineEnd :: rest).takeWhile notLineEnd = front := by
  rw [List.takeWhile_append_of_pos fun b hb => notLineEnd_of_mem h hb]
  simp [notLineEnd]

theorem dropWhile_front (h : lineEnd ∉ front) :
    (front ++ lineEnd :: rest).dropWhile notLineEnd = lineEnd :: rest := by
  rw [List.dropWhile_append_of_pos fun b hb => notLineEnd_of_mem h hb]
  simp [notLineEnd]

theorem dropWhile_eq_nil (h : lineEnd ∉ front) : front.dropWhile notLineEnd = [] :=
  List.dropWhile_eq_nil_iff.mpr fun _ hb => notLineEnd_of_mem h hb

theorem takeFrom?_line {chunks : List Bytes} (read : Bytes) (hchunks : ∀ chunk ∈ chunks, chunk ≠ [])
    (hbytes : chunks.flatten = front ++ lineEnd :: rest) (hfront : lineEnd ∉ front) :
    ∃ chunks', takeFrom? true read chunks = some (read ++ front ++ [lineEnd], chunks') ∧
      chunks'.flatten = rest ∧ ∀ chunk ∈ chunks', chunk ≠ [] := by
  induction chunks generalizing read front with
  | nil => simp at hbytes
  | cons chunk chunks ih =>
    have hchunk : chunk.isEmpty = false := by
      simpa using hchunks chunk List.mem_cons_self
    have hothers : ∀ chunk ∈ chunks, chunk ≠ [] := fun c hc => hchunks c (List.mem_cons_of_mem _ hc)
    rw [takeFrom?, if_neg (by simp [hchunk])]
    rcases List.append_eq_append_iff.mp (List.flatten_cons ▸ hbytes) with
      ⟨more, rfl, hmore⟩ | ⟨tail, rfl, htail⟩
    -- The line end is in a later chunk.
    · rw [List.mem_append, not_or] at hfront
      rw [dropWhile_eq_nil hfront.1]
      obtain ⟨chunks', htake, hrest⟩ := ih (read ++ chunk) hothers hmore hfront.2
      exact ⟨chunks', by simpa using htake, hrest⟩
    · cases tail with
      | nil =>
        rw [List.append_nil, dropWhile_eq_nil hfront]
        obtain ⟨chunks', htake, hrest⟩ :=
          ih (read ++ front) hothers (List.nil_append _ ▸ htail.symm) List.not_mem_nil
        exact ⟨chunks', by simpa using htake, hrest⟩
      | cons b tail =>
        obtain ⟨rfl, rfl⟩ := List.cons.inj htail
        rw [dropWhile_front hfront, takeWhile_front hfront]
        refine ⟨_, rfl, ?_⟩
        cases tail with
        | nil => exact ⟨rfl, hothers⟩
        | cons b tail =>
          refine ⟨rfl, fun chunk hc => ?_⟩
          rcases List.mem_cons.mp hc with rfl | hc
          · exact List.cons_ne_nil _ _
          · exact hothers chunk hc

theorem takeFrom?_rest {chunks : List Bytes} (read : Bytes) (hchunks : ∀ chunk ∈ chunks, chunk ≠ [])
    (hbytes : lineEnd ∉ chunks.flatten) :
    takeFrom? true read chunks = some (read ++ chunks.flatten, []) := by
  induction chunks generalizing read with
  | nil => simp [takeFrom?]
  | cons chunk chunks ih =>
    have hchunk : chunk.isEmpty = false := by
      simpa using hchunks chunk List.mem_cons_self
    rw [List.flatten_cons, List.mem_append, not_or] at hbytes
    rw [takeFrom?, if_neg (by simp [hchunk]), dropWhile_eq_nil hbytes.1]
    refine (ih (read ++ chunk) (fun c hc => hchunks c (List.mem_cons_of_mem _ hc)) hbytes.2).trans
      ?_
    simp

/-! ## Lines -/

def Holds : Reader → List String → Prop
  | r, [] => r = ⟨[], true⟩
  | r, line :: lines => ∃ r' : Reader, r.takeLine? = some (.line line, r') ∧ r'.Holds lines

theorem Holds.takeLine?_nil {r : Reader} (h : r.Holds []) :
    r.takeLine? = some (.endOfInput, r) := by
  cases h
  rfl

end Reader

namespace Text

/-- A line without the carriage returns at its end. -/
def trimLine (line : List Char) : String :=
  String.ofList (line.reverse.dropWhile (· = '\r')).reverse

/-- The lines of a text, of whose first line something was read before. What stands behind the last
line end is a line if it is not empty. -/
def linesFrom (line : List Char) : List Char → List String
  | [] => if line = [] then [] else [trimLine line]
  | c :: text =>
    if c = '\n' then trimLine line :: linesFrom [] text else linesFrom (line ++ [c]) text

def lines (text : List Char) : List String :=
  linesFrom [] text

theorem linesFrom_line (before : List Char) {line : List Char} (rest : List Char)
    (h : '\n' ∉ line) :
    linesFrom before (line ++ '\n' :: rest) = trimLine (before ++ line) :: lines rest := by
  induction line generalizing before with
  | nil => simp [linesFrom, lines]
  | cons c line ih =>
    rw [List.mem_cons, not_or] at h
    rw [List.cons_append, linesFrom, if_neg (Ne.symm h.1), ih _ h.2]
    simp

theorem linesFrom_rest (before : List Char) {line : List Char} (h : '\n' ∉ line) :
    linesFrom before line = if before ++ line = [] then [] else [trimLine (before ++ line)] := by
  induction line generalizing before with
  | nil => simp [linesFrom]
  | cons c line ih =>
    rw [List.mem_cons, not_or] at h
    rw [linesFrom, if_neg (Ne.symm h.1), ih _ h.2]
    simp

end Text

namespace Reader

variable {line : List Char}

theorem dropWhile_isLineMark (h : '\n' ∉ line) :
    line.reverse.dropWhile isLineMark = line.reverse.dropWhile (· = '\r') := by
  have hsame : ∀ cs : List Char, '\n' ∉ cs →
      cs.dropWhile isLineMark = cs.dropWhile fun c => decide (c = '\r') := by
    intro cs hcs
    induction cs with
    | nil => rfl
    | cons c cs ih =>
      rw [List.mem_cons, not_or] at hcs
      have hmark : isLineMark c = decide (c = '\r') := by
        simp [isLineMark, Ne.symm hcs.1, beq_eq_decide]
      rw [List.dropWhile_cons, List.dropWhile_cons, hmark, ih hcs.2]
  exact hsame _ (by simpa using h)

theorem outcomeOf_ofChars {cs : List Char} (hne : cs ≠ []) : outcomeOf (Bytes.ofChars cs) =
    .line (String.ofList (cs.reverse.dropWhile isLineMark).reverse) := by
  have hbytes : (Bytes.ofChars cs).isEmpty = false := by
    simpa [Bytes.ofChars_eq_nil] using hne
  rw [outcomeOf, if_neg (by simp [hbytes]), Bytes.text?_ofChars]
  simp

theorem outcomeOf_line (h : '\n' ∉ line) :
    outcomeOf (Bytes.ofChars line ++ [lineEnd]) = .line (Text.trimLine line) := by
  have hbytes : Bytes.ofChars line ++ [lineEnd] = Bytes.ofChars (line ++ ['\n']) := by
    simp [Bytes.ofChars_line]
    rfl
  rw [hbytes, outcomeOf_ofChars (by simp), Text.trimLine, ← dropWhile_isLineMark h]
  simp [isLineMark]

theorem outcomeOf_rest (hne : line ≠ []) (h : '\n' ∉ line) :
    outcomeOf (Bytes.ofChars line) = .line (Text.trimLine line) := by
  rw [outcomeOf_ofChars hne, dropWhile_isLineMark h, Text.trimLine]

theorem holds_lines {chunks : List Bytes} {text : List Char}
    (hchunks : ∀ chunk ∈ chunks, chunk ≠ [])
    (hbytes : chunks.flatten = Bytes.ofChars text) : Holds ⟨chunks, true⟩ (Text.lines text) := by
  induction hlength : text.length using Nat.strongRecOn generalizing chunks text with
  | ind n ih =>
    by_cases hin : '\n' ∈ text
    · obtain ⟨line, rest, rfl, hline⟩ := List.eq_append_cons_of_mem hin
      rw [Bytes.ofChars_line] at hbytes
      obtain ⟨chunks', htake, hrest, hchunks'⟩ :=
        takeFrom?_line [] hchunks hbytes (Bytes.lineEnd_not_mem_ofChars hline)
      rw [Text.lines, Text.linesFrom_line [] rest hline]
      refine ⟨⟨chunks', true⟩, ?_, ih rest.length (by simp [← hlength]; omega) hchunks' hrest rfl⟩
      simp [takeLine?, takeBytes?, htake, outcomeOf_line hline]
    · have hend := takeFrom?_rest [] hchunks (hbytes ▸ Bytes.lineEnd_not_mem_ofChars hin)
      rw [Text.lines, Text.linesFrom_rest [] hin]
      by_cases hempty : text = []
      · have hnone : chunks = [] := by
          cases chunks with
          | nil => rfl
          | cons chunk chunks =>
            simp [hempty, Bytes.ofChars, hchunks chunk List.mem_cons_self] at hbytes
        simp [hempty, hnone, Holds]
      · rw [if_neg (by simpa using hempty)]
        refine ⟨⟨[], true⟩, ?_, rfl⟩
        rw [hbytes] at hend
        simp [takeLine?, takeBytes?, hend, outcomeOf_rest hempty hin]

end Reader

end SessionShell
