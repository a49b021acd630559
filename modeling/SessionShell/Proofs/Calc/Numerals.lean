import Mathlib.Data.List.TakeWhile
import Mathlib.Tactic.SplitIfs
import SessionShell.Calc.Lexer

/-!
The numbers of a source.

What the lexer takes for a number are digits, at least one of them, and if there is a point behind
them at least one more digit. All such texts read as numbers, so no number of a source is a bad one.
-/

namespace SessionShell.Calc

variable {c : Char} {cs whole digits : List Char}

theorem toNat_of_isDigit (h : Number.isDigit c = true) : 48 ≤ c.toNat ∧ c.toNat ≤ 57 := by
  simpa [Number.isDigit, Char.le_def, UInt32.le_iff_toNat_le] using h

theorem isBlank_of_isDigit (h : Number.isDigit c = true) : Text.isBlank c = false := by
  have := toNat_of_isDigit h
  simp [Text.isBlank, Text.inRanges, Text.blankRanges]
  omega

theorem ne_of_isDigit (h : Number.isDigit c = true) : c ≠ '\n' ∧ c ≠ ';' ∧ c ≠ '#' := by
  refine ⟨?_, ?_, ?_⟩
  · rintro rfl
    revert h
    decide
  · rintro rfl
    revert h
    decide
  · rintro rfl
    revert h
    decide

theorem toLower_of_isDigit (h : Number.isDigit c = true) : c.toLower = c := by
  have := toNat_of_isDigit h
  have hval : c.toNat = c.val.toNat := rfl
  unfold Char.toLower
  split
  · next hupper =>
    simp [UInt32.le_iff_toNat_le] at hupper
    omega
  · rfl

theorem namedFloat?_of_isDigit (h : Number.isDigit c = true) :
    Number.namedFloat? (String.ofList ((c :: cs).map Char.toLower)) = none := by
  have hne : ∀ s : String, s.toList.head? = some 'i' ∨ s.toList.head? = some 'n' →
      String.ofList ((c :: cs).map Char.toLower) ≠ s := by
    rintro s hs rfl
    rw [String.toList_ofList, List.map_cons, List.head?_cons, toLower_of_isDigit h] at hs
    rcases hs with hs | hs
    · cases hs
      revert h
      decide
    · cases hs
      revert h
      decide
  unfold Number.namedFloat?
  rw [if_neg, if_neg]
  · exact hne "nan" (.inr rfl)
  · rintro (hs | hs)
    · exact hne "inf" (.inl rfl) hs
    · exact hne "infinity" (.inl rfl) hs

theorem unsigned?_pointed (hne : whole ≠ []) (hwhole : ∀ d ∈ whole, Number.isDigit d = true)
    (hdigits : ∀ d ∈ digits, Number.isDigit d = true) :
    Number.unsigned? (whole ++ pointed digits) = some (Number.ofDigits whole digits) := by
  have hstop : (pointed digits).takeWhile Number.isDigit = [] ∧
      (pointed digits).dropWhile Number.isDigit = pointed digits := by
    cases digits with
    | nil => exact ⟨rfl, rfl⟩
    | cons d ds => exact ⟨rfl, rfl⟩
  have htake : (whole ++ pointed digits).takeWhile Number.isDigit = whole := by
    rw [List.takeWhile_append_of_pos hwhole, hstop.1, List.append_nil]
  have hdrop : (whole ++ pointed digits).dropWhile Number.isDigit = pointed digits := by
    rw [List.dropWhile_append_of_pos hwhole, hstop.2]
  have hempty : whole.isEmpty = false := by simpa using hne
  unfold Number.unsigned?
  simp only [htake, hdrop, hempty, Bool.false_and]
  cases digits with
  | nil => simp [pointed, Number.ofDigits]
  | cons d ds =>
    have htakeDigits : (d :: ds).takeWhile Number.isDigit = d :: ds := by
      simpa using hdigits
    have hdropDigits : (d :: ds).dropWhile Number.isDigit = [] :=
      List.dropWhile_eq_nil_iff.mpr hdigits
    simp [pointed, Number.ofDigits, htakeDigits, hdropDigits]

theorem read?_pointed (hne : whole ≠ []) (hwhole : ∀ d ∈ whole, Number.isDigit d = true)
    (hdigits : ∀ d ∈ digits, Number.isDigit d = true) :
    Number.read? (String.ofList (whole ++ pointed digits)) = some
      (Number.ofDigits whole digits) := by
  have hunsigned := unsigned?_pointed hne hwhole hdigits
  obtain ⟨c, cs, rfl⟩ := List.exists_cons_of_ne_nil hne
  have hc : Number.isDigit c = true := hwhole c (by simp)
  have hsign : c ≠ '-' ∧ c ≠ '+' := by
    constructor
    · rintro rfl
      revert hc
      decide
    · rintro rfl
      revert hc
      decide
  rw [List.cons_append] at hunsigned ⊢
  unfold Number.read?
  rw [String.toList_ofList]
  split
  next negative behind heq =>
    split at heq
    · next hminus => cases hminus; exact absurd rfl hsign.1
    · next hplus => cases hplus; exact absurd rfl hsign.2
    · cases heq
      rw [namedFloat?_of_isDigit hc, hunsigned]
      rfl
theorem isDigit_of_mem_fraction : ∀ d ∈ (fraction cs).1, Number.isDigit d = true := by
  unfold fraction
  split
  · next d rest =>
    split
    · next hd => simpa [hd] using fun _ => List.mem_takeWhile_imp
    · simp
  · simp

theorem read?_of_isDigit (hc : Number.isDigit c = true) (cs : List Char) :
    Number.read? (String.ofList (c :: cs.takeWhile Number.isDigit ++
      pointed (fraction (cs.dropWhile Number.isDigit)).1)) =
      some (Number.ofDigits (c :: cs.takeWhile Number.isDigit)
        (fraction (cs.dropWhile Number.isDigit)).1) := by
  refine read?_pointed (by simp) (fun d hd => ?_) isDigit_of_mem_fraction
  rcases List.mem_cons.mp hd with rfl | hd
  · exact hc
  · exact List.mem_takeWhile_imp hd

theorem lexFrom_of_isDigit (hc : Number.isDigit c = true) (line : Nat) (read : Array Lexeme)
    (cs : List Char) :
    lexFrom line read (c :: cs) =
      lexFrom line (read.push ⟨.num (Number.ofDigits (c :: cs.takeWhile Number.isDigit)
        (fraction (cs.dropWhile Number.isDigit)).1), line⟩)
          (fraction (cs.dropWhile Number.isDigit)).2 := by
  obtain ⟨hend, hsemi, hmark⟩ := ne_of_isDigit hc
  have hblank : ¬Text.isBlank c = true := by simp [isBlank_of_isDigit hc]
  rw [lexFrom, if_neg hend, if_neg hsemi, if_neg hmark, if_neg hblank, if_pos hc]
  dsimp only
  rw [read?_of_isDigit hc]

end SessionShell.Calc
