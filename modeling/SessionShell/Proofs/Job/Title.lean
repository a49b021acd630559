import Mathlib.Algebra.Group.Nat.Defs
import Mathlib.Tactic.ByContra
import SessionShell.Compile.Progress

/-!
The share that a window title shows.

The share is computed in words of 64 bits, and the product with 100 may be more than a word holds.
The title shows the share that there is exactly as long as the product fits, and whenever it does
not fit the title shows another one.
-/

namespace SessionShell.Progress

/-- The share that is done, in hundredths rounded down. -/
def share (value max : Nat) : Nat :=
  min value max * 100 / max

variable {value value' max : Nat}

theorem share_le (value max : Nat) : share value max ≤ 100 := by
  rcases Nat.eq_zero_or_pos max with rfl | hmax
  · simp [share]
  · apply Nat.div_le_of_le_mul
    have := Nat.min_le_right value max
    omega

theorem share_mono (h : value ≤ value') : share value max ≤ share value' max := by
  apply Nat.div_le_div_right
  omega

theorem share_eq_hundred_iff (hmax : 0 < max) : share value max = 100 ↔ max ≤ value := by
  have hwhole : max * 100 / max = 100 := Nat.mul_div_cancel_left 100 hmax
  constructor
  · intro hshare
    by_contra hless
    have hlt : min value max * 100 / max < 100 := by
      apply Nat.div_lt_of_lt_mul
      omega
    unfold share at hshare
    omega
  · intro hle
    rw [share, Nat.min_eq_right hle, hwhole]

section

variable {v m : UInt64}

theorem toNat_percent (v m : UInt64) :
    (percent v m).toNat = min v.toNat m.toNat * 100 % 2 ^ 64 / m.toNat := by
  have hpercent : percent v m = (if v ≤ m then v else m) * 100 / m := rfl
  have hmin : (if v ≤ m then v else m).toNat = min v.toNat m.toNat := by
    by_cases hle : v ≤ m
    · rw [if_pos hle, Nat.min_eq_left (UInt64.le_iff_toNat_le.mp hle)]
    · rw [if_neg hle, Nat.min_eq_right]
      exact Nat.le_of_lt (UInt64.lt_iff_toNat_lt.mp (UInt64.not_le.mp hle))
  rw [hpercent, UInt64.toNat_div, UInt64.toNat_mul, hmin]
  rfl

/-- A product that does not fit loses at least one word, which is more than the whole of the job. -/
theorem toNat_percent_eq_share_iff (hm : 0 < m) :
    (percent v m).toNat = share v.toNat m.toNat ↔ min v.toNat m.toNat * 100 < 2 ^ 64 := by
  rw [toNat_percent, share]
  generalize min v.toNat m.toNat * 100 = product
  have hpos : 0 < m.toNat := by simpa [UInt64.lt_iff_toNat_lt] using hm
  have hword : m.toNat < 2 ^ 64 := m.toNat_lt
  constructor
  · intro hsame
    by_contra hlarge
    have hless : product % 2 ^ 64 + m.toNat ≤ product := by
      have := Nat.mod_lt product (show 0 < 2 ^ 64 by decide)
      have := Nat.mod_add_div product (2 ^ 64)
      have : 1 ≤ product / 2 ^ 64 := by
        apply Nat.div_pos <;> omega
      omega
    have hlt : product % 2 ^ 64 / m.toNat + 1 ≤ product / m.toNat := by
      rw [← Nat.add_div_right _ hpos]
      exact Nat.div_le_div_right hless
    omega
  · intro hfits
    rw [Nat.mod_eq_of_lt hfits]

/-- What a title looks like while a share of its job is known. -/
def shareTitle (title : String) (share : Nat) : String :=
  "[" ++ title ++ "] " ++ (toString share ++ "%")

theorem shareTitle_inj {title : String} {share share' : Nat} :
    shareTitle title share = shareTitle title share' ↔ share = share' := by
  simp only [shareTitle, String.append_right_inj, String.append_left_inj]
  refine ⟨fun hrepr => ?_, fun heq => by rw [heq]⟩
  -- the digits of a number lead back to it
  have hdigits : Nat.toDigits 10 share = Nat.toDigits 10 share' := by
    simpa using congrArg String.toList hrepr
  simpa using congrArg (Nat.ofDigitChars 10 · 0) hdigits

theorem setTitle_inj {title title' : String} : setTitle title = setTitle title' ↔
    title = title' := by
  simp [setTitle]

/-- What is written for a batch whose last report tells a share and is not the last of its job: a
title with the percentage, whatever it was computed to. -/
theorem showTitle_of_share {batch : List Progress} {latest : Progress}
    (hlast : batch.getLast? = some latest) (hvalue : latest.value = some v)
    (hmax : latest.max = some m) (hrunning : latest.terminal = false) (hm : 0 < m) :
    showTitle batch = setTitle (shareTitle latest.title (percent v m).toNat) := by
  simp [showTitle, hlast, titleText, hvalue, hmax, hrunning, hm, shareTitle]

/-- The title shows the share that is done, a number from 0 to 100 that is 100 only where all is
done and that never falls as the value rises, exactly as long as the product of the value, up to the
maximum, and 100 fits into a word. -/
theorem shows_share_iff {batch : List Progress} {latest : Progress}
    (hlast : batch.getLast? = some latest) (hvalue : latest.value = some v)
    (hmax : latest.max = some m) (hrunning : latest.terminal = false) (hm : 0 < m) :
    (showTitle batch = setTitle (shareTitle latest.title (share v.toNat m.toNat)) ↔
      min v.toNat m.toNat * 100 < 2 ^ 64) ∧
    share v.toNat m.toNat ≤ 100 ∧
    (share v.toNat m.toNat = 100 ↔ m ≤ v) ∧
    ∀ v' : UInt64, v ≤ v' → share v.toNat m.toNat ≤ share v'.toNat m.toNat := by
  refine ⟨?_, share_le _ _, ?_, ?_⟩
  · rw [showTitle_of_share hlast hvalue hmax hrunning hm, setTitle_inj, shareTitle_inj,
      toNat_percent_eq_share_iff hm]
  · rw [share_eq_hundred_iff (UInt64.lt_iff_toNat_lt.mp hm), UInt64.le_iff_toNat_le]
  · intro v' hv
    exact share_mono (UInt64.le_iff_toNat_le.mp hv)

/-- The greatest value of which the product fits, all of it done. -/
theorem shows_share_of_greatest :
    let latest : Progress :=
      ⟨"raw a", "copying", some 184467440737095516, some 184467440737095516, false⟩
    [.new "raw a" "begun", latest].getLast? = some latest ∧ (0 : UInt64) < 184467440737095516 ∧
      showTitle [.new "raw a" "begun", latest] = setTitle "[raw a] 100%" := by
  intro latest
  have hlast : [Progress.new "raw a" "begun", latest].getLast? = some latest := rfl
  have hm : (0 : UInt64) < 184467440737095516 := by decide
  have hshown := (shows_share_iff hlast rfl rfl rfl hm).1
  exact ⟨hlast, hm, hshown.mpr (by decide)⟩

/-- A job of as many steps as a word can count shows 0 when all of them are done. -/
theorem shows_nothing_of_all_done :
    let latest : Progress := ⟨"t", "m", some 18446744073709551615, some 18446744073709551615, false⟩
    showTitle [latest] = setTitle "[t] 0%" ∧
      showTitle [latest] ≠ setTitle
        (shareTitle "t" (share 18446744073709551615 18446744073709551615)) := by
  refine ⟨by decide +kernel, by decide +kernel⟩

end

end SessionShell.Progress
