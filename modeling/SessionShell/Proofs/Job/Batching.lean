import Mathlib.Data.List.DropRight
import SessionShell.Compile.Throttle

/-!
A throttle over time.

What is shown is about histories: the uses of a throttle in order, each with the batch that came of
it. A history alone tells when the last batch was taken and what was offered since, and the throttle
keeps just that.
-/

namespace SessionShell.Throttle

/-- A use of a throttle, with what the clock shows then: when a report comes, and when what is
buffered is taken. -/
inductive Use where
  | offer (seen taken : Nat) (p : Progress)
  | drain (taken : Nat)
  deriving DecidableEq, Repr

namespace Use

def report? : Use → Option Progress
  | .offer _ _ p => some p
  | .drain _ => none

def taken : Use → Nat
  | .offer _ taken _ => taken
  | .drain taken => taken

/-- What the clock shows, look by look. -/
def times : Use → List Nat
  | .offer seen taken _ => [seen, taken]
  | .drain taken => [taken]

theorem taken_mem_times (u : Use) : u.taken ∈ u.times := by
  cases u <;> simp [taken, times]

end Use

/-- A use that was made, and the batch it gave. -/
structure Delivery where
  use : Use
  batch? : Option (List Progress)
  deriving DecidableEq, Repr

def Delivery.taken? (d : Delivery) : Option Nat :=
  d.batch?.map fun _ => d.use.taken

def use (t : Throttle) : Use → Option (List Progress) × Throttle
  | .offer seen taken p => t.offerAt seen taken p
  | .drain taken =>
    let (batch, t) := t.drain taken
    (some batch, t)

def history (t : Throttle) : List Use → List Delivery × Throttle
  | [] => ([], t)
  | u :: uses =>
    let (batch?, t) := t.use u
    let (rest, t) := t.history uses
    (⟨u, batch?⟩ :: rest, t)

def takenTimes (h : List Delivery) : List Nat :=
  h.filterMap Delivery.taken?

def sinceTaken (h : List Delivery) : List Progress :=
  (h.rtakeWhile (·.batch?.isNone)).filterMap (·.use.report?)

variable {t : Throttle} {interval : Nat} {past : List Delivery} {u : Use}

theorem sinceTaken_concat_none : sinceTaken (past ++ [⟨u, none⟩]) =
    sinceTaken past ++ u.report?.toList := by
  cases h : u.report? <;> simp [sinceTaken, h]

theorem sinceTaken_concat_some (batch : List Progress) :
    sinceTaken (past ++ [⟨u, some batch⟩]) = [] := by
  simp [sinceTaken]

theorem takenTimes_concat_none : takenTimes (past ++ [⟨u, none⟩]) = takenTimes past := by
  simp [takenTimes, Delivery.taken?]

theorem takenTimes_concat_some (batch : List Progress) :
    takenTimes (past ++ [⟨u, some batch⟩]) = takenTimes past ++ [u.taken] := by
  simp [takenTimes, Delivery.taken?]

theorem takenTimes_sublist (h : List Delivery) :
    (takenTimes h).Sublist ((h.map (·.use)).flatMap Use.times) := by
  induction h with
  | nil => exact .slnil
  | cons d h ih =>
    rw [takenTimes, List.filterMap_cons, List.map_cons, List.flatMap_cons]
    cases hd : d.taken? with
    | none => exact ih.trans (List.sublist_append_right ..)
    | some taken =>
      obtain ⟨batch, -, rfl⟩ := Option.map_eq_some_iff.mp hd
      exact (List.singleton_sublist.mpr d.use.taken_mem_times).append ih

/-! ## The throttle behind a history -/

structure Fits (interval : Nat) (past : List Delivery) (t : Throttle) : Prop where
  interval_eq : t.interval = interval
  lastFlush : t.lastFlush = (takenTimes past).getLast?
  pending : t.pending.toList = sinceTaken past

theorem fits_new (interval : Nat) : Fits interval [] (new interval) :=
  ⟨rfl, rfl, rfl⟩

theorem Fits.isDue_iff (h : Fits interval past t) (seen : Nat) :
    t.isDue seen = true ↔
      ∀ last, (takenTimes past).getLast? = some last → interval ≤ seen - last := by
  simp [isDue, h.lastFlush, h.interval_eq, Option.all_eq_true_iff_get, Option.eq_some_iff_get_eq]

theorem offerAt_of_due {seen : Nat} (h : t.isDue seen = true) (taken : Nat) (p : Progress) :
    t.offerAt seen taken p =
      (some (t.pending.toList ++ [p]), { t with lastFlush := some taken, pending := #[] }) := by
  have hdue : { t with pending := t.pending.push p }.isDue seen = true := h
  simp [offerAt, hdue, drain]

theorem offerAt_of_not_due {seen : Nat} (h : t.isDue seen = false) (taken : Nat) (p : Progress) :
    t.offerAt seen taken p = (none, { t with pending := t.pending.push p }) := by
  have hdue : { t with pending := t.pending.push p }.isDue seen = false := h
  simp [offerAt, hdue]

theorem Fits.use_fst (h : Fits interval past t) (u : Use) : (t.use u).1 =
    match u with
    | .offer seen _ p => if t.isDue seen then some (sinceTaken past ++ [p]) else none
    | .drain _ => some (sinceTaken past) := by
  cases u with
  | drain taken => exact congrArg some h.pending
  | offer seen taken p =>
    cases hdue : t.isDue seen with
    | true => simp [Throttle.use, offerAt_of_due hdue, hdue, h.pending]
    | false => simp [Throttle.use, offerAt_of_not_due hdue, hdue]

theorem Fits.use (h : Fits interval past t) (u : Use) :
    Fits interval (past ++ [⟨u, (t.use u).1⟩]) (t.use u).2 := by
  cases u with
  | drain taken =>
    refine ⟨h.interval_eq, ?_, ?_⟩
    · simp [Throttle.use, drain, takenTimes_concat_some, Use.taken]
    · simp [Throttle.use, drain, sinceTaken_concat_some]
  | offer seen taken p =>
    cases hdue : t.isDue seen with
    | true =>
      simp only [Throttle.use, offerAt_of_due hdue]
      exact ⟨h.interval_eq, by simp [takenTimes_concat_some, Use.taken],
        by simp [sinceTaken_concat_some]⟩
    | false =>
      simp only [Throttle.use, offerAt_of_not_due hdue]
      exact ⟨h.interval_eq, by simp [takenTimes_concat_none, h.lastFlush],
        by simp [sinceTaken_concat_none, h.pending, Use.report?]⟩

theorem history_append (t : Throttle) (first rest : List Use) :
    t.history (first ++ rest) = ((t.history first).1 ++ ((t.history first).2.history rest).1,
      ((t.history first).2.history rest).2) := by
  induction first generalizing t with
  | nil => rfl
  | cons u first ih => simp only [List.cons_append, history, ih]

theorem history_uses (t : Throttle) (uses : List Use) :
    (t.history uses).1.map (·.use) = uses := by
  induction uses generalizing t with
  | nil => rfl
  | cons u uses ih => simp [history, ih]

theorem Fits.history (h : Fits interval past t) (uses : List Use) :
    Fits interval (past ++ (t.history uses).1) (t.history uses).2 := by
  induction uses generalizing t past with
  | nil => simpa [Throttle.history] using h
  | cons u uses ih =>
    have hrest := ih (h.use u)
    rwa [List.append_assoc] at hrest

theorem exists_fits {uses : List Use} {before after : List Delivery}
    {batch? : Option (List Progress)}
    (h : ((new interval).history uses).1 = before ++ ⟨u, batch?⟩ :: after) :
    ∃ t, Fits interval before t ∧ batch? = (t.use u).1 := by
  have huses : uses = before.map (·.use) ++ u :: after.map (·.use) := by
    have hall := history_uses (new interval) uses
    rw [h] at hall
    simpa using hall.symm
  have hbefore := (fits_new interval).history (before.map (·.use))
  rw [huses, history_append] at h
  obtain ⟨hfirst, hrest⟩ := List.append_inj h (by
    simpa using congrArg List.length (history_uses (new interval) (before.map (·.use))))
  rw [List.nil_append, hfirst] at hbefore
  refine ⟨_, hbefore, ?_⟩
  rw [Throttle.history] at hrest
  exact (congrArg Delivery.batch? (List.cons.inj hrest).1).symm

theorem delivered_append_pending (t : Throttle) (uses : List Use) :
    ((t.history uses).1.filterMap (·.batch?)).flatten ++ (t.history uses).2.pending.toList =
      t.pending.toList ++ uses.filterMap Use.report? := by
  induction uses generalizing t with
  | nil => simp [history]
  | cons u uses ih =>
    have hrest := ih (t.use u).2
    cases u with
    | drain taken =>
      simp only [history, Throttle.use, drain, List.filterMap_cons, Use.report?] at hrest ⊢
      simpa using hrest
    | offer seen taken p =>
      cases hdue : t.isDue seen with
      | true =>
        simp only [history, Throttle.use, offerAt_of_due hdue, List.filterMap_cons,
          Use.report?] at hrest ⊢
        simpa using hrest
      | false =>
        simp only [history, Throttle.use, offerAt_of_not_due hdue, List.filterMap_cons,
          Use.report?] at hrest ⊢
        simpa using hrest

/-! ## Spacing -/

theorem le_last_of_mem {h : List Delivery} {last time : Nat}
    (hclock : ((h.map (·.use)).flatMap Use.times).Pairwise (· ≤ ·))
    (hlast : (takenTimes h).getLast? = some last) (htime : time ∈ takenTimes h) : time ≤ last := by
  obtain ⟨before, hbefore⟩ := List.getLast?_eq_some_iff.mp hlast
  have hsorted := hclock.sublist (takenTimes_sublist h)
  rw [hbefore] at hsorted htime
  rcases List.mem_append.mp htime with htime | htime
  · exact (List.pairwise_append.mp hsorted).2.2 time htime last (by simp)
  · exact (List.mem_singleton.mp htime).le

/-- What holds of the history of a throttle on a clock that never goes back. -/
structure Batched (interval : Nat) (uses : List Use) (h : List Delivery) (t : Throttle) : Prop where
  uses_eq : h.map (·.use) = uses
  kept : (h.filterMap (·.batch?)).flatten ++ t.pending.toList = uses.filterMap Use.report?
  first : ∀ {seen taken p batch? rest}, h = ⟨.offer seen taken p, batch?⟩ :: rest →
    batch? = some [p]
  /-- An offer gives a batch when none was taken yet or the interval has passed since. -/
  due : ∀ {before after seen taken p batch?}, h = before ++ ⟨.offer seen taken p, batch?⟩ :: after →
    (batch?.isSome ↔ ∀ last, (takenTimes before).getLast? = some last → last + interval ≤ seen)
  /-- A batch is all that was offered since the last one. -/
  batch : ∀ {before after u batch}, h = before ++ ⟨u, some batch⟩ :: after →
    batch = sinceTaken before ++ u.report?.toList
  spaced : ∀ {before between after seen taken p batch seen' taken' p' batch'},
    h = before ++ ⟨.offer seen taken p, some batch⟩ ::
      (between ++ ⟨.offer seen' taken' p', some batch'⟩ :: after) → taken + interval ≤ seen'

/-- However a throttle is used, it delivers all that it is offered, in order, in batches that come
as soon as the interval has passed since the last one, and no sooner. -/
theorem batches_by_time (interval : Nat) (uses : List Use)
    (hclock : (uses.flatMap Use.times).Pairwise (· ≤ ·)) :
    Batched interval uses ((new interval).history uses).1 ((new interval).history uses).2 := by
  have huses := history_uses (new interval) uses
  have hdue {before after : List Delivery} {seen taken : Nat} {p : Progress}
      {batch? : Option (List Progress)}
      (h : ((new interval).history uses).1 = before ++ ⟨.offer seen taken p, batch?⟩ :: after) :
      batch?.isSome ↔
        ∀ last, (takenTimes before).getLast? = some last → last + interval ≤ seen := by
    obtain ⟨t, hfits, hbatch⟩ := exists_fits h
    have hnow {last : Nat} (hlast : (takenTimes before).getLast? = some last) : last ≤ seen := by
      rw [← huses, h, List.map_append, List.flatMap_append] at hclock
      have hmem := (takenTimes_sublist before).subset (List.mem_of_getLast? hlast)
      exact (List.pairwise_append.mp hclock).2.2 last hmem seen (by simp [Use.times])
    have hsome : batch?.isSome ↔ t.isDue seen = true := by
      rw [hbatch, hfits.use_fst]
      cases hseen : t.isDue seen <;> simp [hseen]
    rw [hsome, hfits.isDue_iff]
    refine forall₂_congr fun last hlast => ?_
    have := hnow hlast
    omega
  refine ⟨huses, ?_, ?_, hdue, ?_, ?_⟩
  · simpa [new] using delivered_append_pending (new interval) uses
  · intro seen taken p batch? rest h
    obtain ⟨t, hfits, hbatch⟩ := exists_fits (h.trans (List.nil_append _).symm)
    rw [hbatch, hfits.use_fst]
    have hfirst : t.isDue seen = true := (hfits.isDue_iff seen).mpr (by simp [takenTimes])
    simp [hfirst, sinceTaken]
  · intro before after u batch h
    obtain ⟨t, hfits, hbatch⟩ := exists_fits h
    rw [hfits.use_fst] at hbatch
    cases u with
    | drain taken => simpa [Use.report?] using hbatch
    | offer seen taken p =>
      cases hdue : t.isDue seen with
      | true => simpa [hdue, Use.report?] using hbatch
      | false => simp [hdue] at hbatch
  · intro before between after seen taken p batch seen' taken' p' batch' h
    set past := before ++ ⟨.offer seen taken p, some batch⟩ :: between with hpast
    have hsplit : ((new interval).history uses).1 =
        past ++ ⟨.offer seen' taken' p', some batch'⟩ :: after := by
      rw [h, hpast, List.append_assoc, List.cons_append]
    have hmem : taken ∈ takenTimes past := by
      simp [hpast, takenTimes, Delivery.taken?, Use.taken]
    obtain ⟨last, hlast⟩ : ∃ last, (takenTimes past).getLast? = some last := by
      exact Option.isSome_iff_exists.mp (by simpa using List.ne_nil_of_mem hmem)
    have hpastClock : ((past.map (·.use)).flatMap Use.times).Pairwise (· ≤ ·) := by
      rw [← huses, hsplit, List.map_append, List.flatMap_append] at hclock
      exact (List.pairwise_append.mp hclock).1
    have hle := le_last_of_mem hpastClock hlast hmem
    have hspace := (hdue hsplit).mp rfl last hlast
    omega

/-- The third batch is a drain's, and the fourth comes later than the second would have allowed. -/
theorem batches_by_time_of_burst :
    let report := Progress.new "job"
    let uses : List Use := [.offer 0 0 (report "a"), .offer 100 100 (report "b"), .drain 250,
      .offer 500 500 (report "c"), .offer 590 600 (report "d")]
    (uses.flatMap Use.times).Pairwise (· ≤ ·) ∧
      ((new 340).history uses).1.map (·.batch?) =
        [some [report "a"], none, some [report "b"], none, some [report "c", report "d"]] ∧
      Batched 340 uses ((new 340).history uses).1 ((new 340).history uses).2 :=
  ⟨by decide, by decide, batches_by_time 340 _ (by decide)⟩

end SessionShell.Throttle
