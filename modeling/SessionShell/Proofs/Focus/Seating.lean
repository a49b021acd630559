import Mathlib.Data.List.Count
import Mathlib.Data.List.Nodup
import Mathlib.Logic.Function.Basic
import SessionShell.Registry

/-!
Who is registered, who is in focus, and where the permits are.

The seating of a shell is all that the focus depends on. It is accounted for when every permit of a
registered session is in its semaphore or with one of its prompts, and only the session in focus has
one. What the shell does to the focus is put together here from changes of single seats, and each of
them is shown to keep the account.
-/

namespace SessionShell

structure Seat where
  current : Bool
  permits : Nat
  started : Bool
  exited : Bool
  disposed : Bool
  deriving DecidableEq, Repr

namespace Seat

def fresh : Seat :=
  ⟨false, 1, false, false, false⟩

def IsOpen (c : Seat) : Prop :=
  c.started = true ∧ c.exited = false ∧ c.disposed = false

def setCurrent (current : Bool) (c : Seat) : Seat :=
  { c with current }

def take (c : Seat) : Seat :=
  { c with permits := c.permits - 1 }

def give (c : Seat) : Seat :=
  { c with permits := c.permits + 1 }

def start (c : Seat) : Seat :=
  { c with started := true }

def drain (c : Seat) : Seat :=
  { c with permits := 0 }

def exit (c : Seat) : Seat :=
  { c with exited := true }

def dispose (c : Seat) : Seat :=
  { c with disposed := true, current := false, permits := c.permits + 1 }

/-- The account of one session, `asking` of whose prompts have a permit. -/
structure Accounted (registered : Prop) (asking : Nat) (c : Seat) : Prop where
  isOpen : registered → c.IsOpen
  permits : registered → c.permits + asking = if c.current then 1 else 0
  away : ¬registered → c.current = false
  left : ¬registered → c.started = true → c.disposed = true
  fresh : ¬registered → c.started = false → c.disposed = false →
    c.permits = 1 ∧ asking = 0 ∧ c.exited = false

end Seat

structure Seating where
  registry : Registry
  count : Nat
  seat : SessionId → Seat

namespace Seating

variable {v : Seating} {prompts : List SessionId} {id other : SessionId}

def modify (v : Seating) (id : SessionId) (f : Seat → Seat) : Seating :=
  { v with seat := Function.update v.seat id (f (v.seat id)) }

@[simp] theorem registry_modify (f : Seat → Seat) : (v.modify id f).registry = v.registry := rfl

@[simp] theorem seat_modify_self (f : Seat → Seat) :
    (v.modify id f).seat id = f (v.seat id) := by
  simp [modify]

theorem seat_modify_of_ne (f : Seat → Seat) (h : other ≠ id) :
    (v.modify id f).seat other = v.seat other := by
  simp [modify, h]

theorem modify_modify (f g : Seat → Seat) :
    (v.modify id f).modify id g = v.modify id fun c => g (f c) := by
  simp [modify]

theorem modify_comm (f g : Seat → Seat) (h : other ≠ id) :
    (v.modify id f).modify other g = (v.modify other g).modify id f := by
  simp [modify, h, h.symm, Function.update_comm h.symm]

/-! ## The account -/

/-- Every permit of a registered session is in its semaphore or with a prompt in progress, and only
the session in focus has one. -/
structure Accounted (v : Seating) (prompts : List SessionId) : Prop where
  nodup : v.registry.Nodup
  known : ∀ id ∈ v.registry, id < v.count
  seats : ∀ id, (v.seat id).Accounted (id ∈ v.registry) (prompts.count id)
  one : ∀ id other, (v.seat id).current = true → (v.seat other).current = true → id = other

def Held (v : Seating) : Prop :=
  ∃ id ∈ v.registry, (v.seat id).current = true

def Vacant (v : Seating) : Prop :=
  ∀ id, (v.seat id).current = false

namespace Accounted

theorem mem_of_started (h : v.Accounted prompts) (hs : (v.seat id).started = true)
    (hd : (v.seat id).disposed = false) : id ∈ v.registry := by
  by_contra hid
  have := (h.seats id).left hid hs
  simp [hd] at this

theorem not_mem_of_not_started (h : v.Accounted prompts) (hs : (v.seat id).started = false) :
    id ∉ v.registry := fun hin => by
  have := ((h.seats id).isOpen hin).1
  simp [hs] at this

theorem mem_of_current (h : v.Accounted prompts) (hc : (v.seat id).current = true) :
    id ∈ v.registry := by
  by_contra hid
  have := (h.seats id).away hid
  simp [hc] at this

theorem current_of_permit (h : v.Accounted prompts) (hid : id ∈ v.registry)
    (hp : 0 < (v.seat id).permits) :
    (v.seat id).current = true ∧ (v.seat id).permits = 1 ∧ prompts.count id = 0 := by
  have := (h.seats id).permits hid
  cases hc : (v.seat id).current
  · simp only [hc, Bool.false_eq_true, if_false] at this
    omega
  · simp only [hc, if_true] at this
    exact ⟨rfl, by omega, by omega⟩

theorem empty_of_not_current (h : v.Accounted prompts) (hid : id ∈ v.registry)
    (hc : (v.seat id).current = false) : (v.seat id).permits = 0 ∧ prompts.count id = 0 := by
  have := (h.seats id).permits hid
  simp only [hc, Bool.false_eq_true, if_false] at this
  omega

theorem not_current_of_ne (h : v.Accounted prompts) (hc : (v.seat id).current = true)
    (hne : other ≠ id) : (v.seat other).current = false := by
  cases ho : (v.seat other).current with
  | false => rfl
  | true => exact absurd (h.one other id ho hc) hne

theorem count_le_one (h : v.Accounted prompts) (hid : id ∈ v.registry) : prompts.count id ≤ 1 := by
  have hpermits := (h.seats id).permits hid
  have hle : (if (v.seat id).current then 1 else 0) ≤ 1 := by
    split <;> omega
  omega

theorem permits_add_prompt (h : v.Accounted prompts) (hid : id ∈ v.registry) :
    (v.seat id).permits + (if id ∈ prompts then 1 else 0) =
      if (v.seat id).current then 1 else 0 := by
  have hcount : prompts.count id = if id ∈ prompts then 1 else 0 := by
    split
    · next hin => exact Nat.le_antisymm (h.count_le_one hid) (List.count_pos_iff.mpr hin)
    · next hout => exact List.count_eq_zero.mpr hout
  rw [← hcount]
  exact (h.seats id).permits hid

end Accounted

/-- A change to a single seat keeps the account if the account of that seat is kept and the focus
does not come to it from elsewhere. -/
theorem accounted_modify {f : Seat → Seat} {prompts' : List SessionId} (h : v.Accounted prompts)
    (hseat : (f (v.seat id)).Accounted (id ∈ v.registry) (prompts'.count id))
    (hcount : ∀ other, other ≠ id → prompts'.count other = prompts.count other)
    (hcurrent : (f (v.seat id)).current = true → (v.seat id).current = true ∨ v.Vacant) :
    (v.modify id f).Accounted prompts' := by
  constructor
  · exact h.nodup
  · exact h.known
  · intro other
    by_cases ho : other = id
    · subst ho
      simpa using hseat
    · simpa only [seat_modify_of_ne f ho, hcount other ho, registry_modify] using h.seats other
  · have hold : ∀ a, a ≠ id → ((v.modify id f).seat a).current = true →
        (v.seat a).current = true := by
      intro a ha hcur
      rwa [seat_modify_of_ne f ha] at hcur
    have hself : ∀ b, b ≠ id → (f (v.seat id)).current = true → (v.seat b).current = false := by
      intro b hb hcur
      rcases hcurrent hcur with hid | hvacant
      · cases hbc : (v.seat b).current
        · rfl
        · exact absurd (h.one b id hbc hid) hb
      · exact hvacant b
    intro a b ha hb
    by_cases hai : a = id <;> by_cases hbi : b = id
    · rw [hai, hbi]
    · subst hai
      rw [seat_modify_self] at ha
      have := hself b hbi ha
      simp [hold b hbi hb] at this
    · subst hbi
      rw [seat_modify_self] at hb
      have := hself a hai hb
      simp [hold a hai ha] at this
    · exact h.one a b (hold a hai ha) (hold b hbi hb)

theorem Vacant.modify {f : Seat → Seat} (h : v.Vacant) (hc : (f (v.seat id)).current = false) :
    (v.modify id f).Vacant := by
  intro other
  by_cases ho : other = id
  · subst ho
    simpa using hc
  · rw [seat_modify_of_ne f ho]
    exact h other

/-! ## The focus comes and goes -/

def yield (v : Seating) (id : SessionId) : Seating :=
  v.modify id fun c => c.take.setCurrent false

def grant (v : Seating) (id : SessionId) : Seating :=
  v.modify id fun c => (c.setCurrent true).give

theorem accounted_yield (h : v.Accounted prompts) (hin : id ∈ v.registry)
    (hp : 0 < (v.seat id).permits) : (v.yield id).Accounted prompts := by
  obtain ⟨hc, hp1, ha⟩ := h.current_of_permit hin hp
  have hs := h.seats id
  refine accounted_modify h ⟨hs.isOpen, fun _ => ?_, fun hout => absurd hin hout,
    fun hout => absurd hin hout, fun hout => absurd hin hout⟩ (fun _ _ => rfl) ?_
  · simp [Seat.setCurrent, Seat.take, hp1, ha]
  · simp [Seat.setCurrent]

theorem vacant_yield (h : v.Accounted prompts) (hc : (v.seat id).current = true) :
    (v.yield id).Vacant := by
  intro other
  by_cases ho : other = id
  · subst ho
    simp [yield, Seat.setCurrent]
  · rw [yield, seat_modify_of_ne _ ho]
    exact h.not_current_of_ne hc ho

theorem accounted_grant (h : v.Accounted prompts) (hv : v.Vacant) (hin : id ∈ v.registry) :
    (v.grant id).Accounted prompts := by
  obtain ⟨hp, ha⟩ := h.empty_of_not_current hin (hv id)
  have hs := h.seats id
  refine accounted_modify h ⟨hs.isOpen, fun _ => ?_, fun hout => absurd hin hout,
    fun hout => absurd hin hout, fun hout => absurd hin hout⟩ (fun _ _ => rfl) fun _ => .inr hv
  simp [Seat.setCurrent, Seat.give, hp, ha]

theorem held_grant (hin : id ∈ v.registry) : (v.grant id).Held :=
  ⟨id, hin, by simp [grant, Seat.setCurrent, Seat.give]⟩

/-! ## Prompts -/

theorem accounted_take (h : v.Accounted prompts) (hin : id ∈ v.registry)
    (hp : 0 < (v.seat id).permits) : (v.modify id Seat.take).Accounted (id :: prompts) := by
  obtain ⟨hc, hp1, ha⟩ := h.current_of_permit hin hp
  have hs := h.seats id
  refine accounted_modify h ⟨hs.isOpen, fun _ => ?_, fun hout => absurd hin hout,
    fun hout => absurd hin hout, fun hout => absurd hin hout⟩ ?_ fun _ => .inl hc
  · simp [Seat.take, hp1, ha, hc]
  · intro other ho
    simp [Ne.symm ho]

theorem accounted_give (h : v.Accounted prompts) (hin : id ∈ prompts) :
    (v.modify id Seat.give).Accounted (prompts.erase id) := by
  have hs := h.seats id
  have hcount : 0 < prompts.count id := List.count_pos_iff.mpr hin
  refine accounted_modify h ⟨hs.isOpen, fun hreg => ?_, hs.away, hs.left, fun hout hst hd => ?_⟩ ?_
    .inl
  · have := hs.permits hreg
    have hpermits : (v.seat id).give.permits = (v.seat id).permits + 1 := rfl
    have hcurrent : (v.seat id).give.current = (v.seat id).current := rfl
    rw [hcurrent, ← this, hpermits, List.count_erase_self]
    omega
  · have := (hs.fresh hout hst hd).2.1
    omega
  · intro other ho
    exact List.count_erase_of_ne ho

/-! ## Starting -/

def join (v : Seating) (id : SessionId) : Seating :=
  { v.modify id fun c => c.start.drain with registry := v.registry ++ [id] }

def joinCurrent (v : Seating) (id : SessionId) : Seating :=
  { v.modify id fun c => c.start.setCurrent true with registry := v.registry ++ [id] }

theorem lt_count_of_mem_append (h : v.Accounted prompts) (hid : id < v.count)
    (hother : other ∈ v.registry ++ [id]) : other < v.count := by
  rcases List.mem_append.mp hother with hin | hin
  · exact h.known other hin
  · exact List.mem_singleton.mp hin ▸ hid

theorem accounted_register {f : Seat → Seat} (h : v.Accounted prompts) (hid : id < v.count)
    (hout : id ∉ v.registry) (hseat : (f (v.seat id)).Accounted True (prompts.count id))
    (hcurrent : (f (v.seat id)).current = true → v.Vacant) :
    ({ v.modify id f with registry := v.registry ++ [id] } : Seating).Accounted prompts := by
  have hmodify : ∀ other, other ≠ id → ((v.modify id f).seat other) = v.seat other :=
    fun other ho => seat_modify_of_ne f ho
  constructor
  · refine List.nodup_append.mpr ⟨h.nodup, List.nodup_singleton id, ?_⟩
    rintro a ha b hb rfl
    exact hout (List.mem_singleton.mp hb ▸ ha)
  · intro other hother
    exact lt_count_of_mem_append (v := v) h hid hother
  · intro other
    by_cases ho : other = id
    · subst ho
      simpa using hseat
    · have hmem : other ∈ v.registry ++ [id] ↔ other ∈ v.registry := by simp [ho]
      simpa only [hmodify other ho, hmem] using h.seats other
  · intro a b ha hb
    by_cases hai : a = id <;> by_cases hbi : b = id
    · rw [hai, hbi]
    · subst hai
      have hv := hcurrent (by simpa using ha) b
      simp [hmodify b hbi, hv] at hb
    · subst hbi
      have hv := hcurrent (by simpa using hb) a
      simp [hmodify a hai, hv] at ha
    · exact h.one a b (by simpa [hmodify a hai] using ha) (by simpa [hmodify b hbi] using hb)

theorem accounted_join (h : v.Accounted prompts) (hid : id < v.count)
    (hs : (v.seat id).started = false) (hd : (v.seat id).disposed = false) :
    (v.join id).Accounted prompts := by
  have hout := h.not_mem_of_not_started hs
  obtain ⟨hp, ha, he⟩ := (h.seats id).fresh hout hs hd
  have hc := (h.seats id).away hout
  refine accounted_register h hid hout ?_ ?_
  · constructor <;> simp [Seat.start, Seat.drain, Seat.IsOpen, hc, ha, he, hd]
  · simp [Seat.start, Seat.drain, hc]

theorem accounted_joinCurrent (h : v.Accounted prompts) (hv : v.Vacant) (hid : id < v.count)
    (hs : (v.seat id).started = false) (hd : (v.seat id).disposed = false) :
    (v.joinCurrent id).Accounted prompts := by
  have hout := h.not_mem_of_not_started hs
  obtain ⟨hp, ha, he⟩ := (h.seats id).fresh hout hs hd
  refine accounted_register h hid hout ?_ fun _ => hv
  constructor <;> simp [Seat.start, Seat.setCurrent, Seat.IsOpen, hp, ha, he, hd]

theorem find?_current_append (hc : (v.seat id).current = false) :
    (v.registry ++ [id]).find? (fun other => ((v.modify id .start).seat other).current) =
      v.registry.find? fun other => (v.seat other).current := by
  have hsame : (fun other => ((v.modify id .start).seat other).current) =
      fun other => (v.seat other).current := by
    funext other
    by_cases ho : other = id
    · subst ho
      simp [Seat.start]
    · rw [seat_modify_of_ne _ ho]
  rw [hsame, List.find?_append]
  simp [hc]

theorem yield_joinCurrent (hne : other ≠ id) :
    (({ v.modify id .start with registry := v.registry ++ [id] } : Seating).yield other).modify id
      (.setCurrent true) = (v.yield other).joinCurrent id := by
  calc _ = { ((v.modify id .start).yield other).modify id (.setCurrent true) with
          registry := v.registry ++ [id] } := rfl
    _ = { ((v.yield other).modify id .start).modify id (.setCurrent true) with
          registry := v.registry ++ [id] } := by
        rw [yield, modify_comm _ _ hne]
        rfl
    _ = (v.yield other).joinCurrent id := by
        rw [modify_modify]
        rfl

theorem held_join (h : v.Held) (hout : id ∉ v.registry) : (v.join id).Held := by
  obtain ⟨holder, hin, hcur⟩ := h
  have hne : holder ≠ id := fun he => hout (he ▸ hin)
  exact ⟨holder, List.mem_append_left _ hin, by simpa [join, seat_modify_of_ne _ hne] using hcur⟩

theorem vacant_join (h : v.Vacant) : (v.join id).Vacant :=
  h.modify (f := fun c => c.start.drain) (h id)

theorem held_joinCurrent : (v.joinCurrent id).Held :=
  ⟨id, List.mem_append_right _ (List.mem_singleton_self id), by
    simp [joinCurrent, Seat.setCurrent]⟩

/-! ## Leaving -/

def remove (v : Seating) (id : SessionId) (f : Seat → Seat) : Seating :=
  { v.modify id f with registry := v.registry.erase id }

theorem seat_remove_of_ne (f : Seat → Seat) (h : other ≠ id) :
    (v.remove id f).seat other = v.seat other :=
  seat_modify_of_ne f h

theorem accounted_remove {f : Seat → Seat} (h : v.Accounted prompts)
    (hd : (f (v.seat id)).disposed = true) (hc : (f (v.seat id)).current = false) :
    (v.remove id f).Accounted prompts := by
  have hout : id ∉ v.registry.erase id := fun hin => (h.nodup.mem_erase_iff.mp hin).1 rfl
  constructor
  · exact h.nodup.erase id
  · intro other hother
    exact h.known other (List.mem_of_mem_erase hother)
  · intro other
    by_cases ho : other = id
    · subst ho
      constructor <;> simp [remove, hout, hd, hc]
    · have hmem : other ∈ v.registry.erase id ↔ other ∈ v.registry := List.mem_erase_of_ne ho
      simpa only [remove, seat_modify_of_ne f ho, hmem] using h.seats other
  · have hold : ∀ a, ((v.remove id f).seat a).current = true → (v.seat a).current = true := by
      intro a ha
      by_cases ho : a = id
      · subst ho
        simp [remove, hc] at ha
      · rwa [seat_remove_of_ne f ho] at ha
    intro a b ha hb
    exact h.one a b (hold a ha) (hold b hb)

theorem vacant_remove {f : Seat → Seat} (h : v.Accounted prompts)
    (hcurrent : (v.seat id).current = true) (hc : (f (v.seat id)).current = false) :
    (v.remove id f).Vacant := by
  intro other
  by_cases ho : other = id
  · subst ho
    simpa [remove] using hc
  · rw [seat_remove_of_ne f ho]
    exact h.not_current_of_ne hcurrent ho

theorem held_remove {f : Seat → Seat} (h : v.Held) (hc : (v.seat id).current = false) :
    (v.remove id f).Held := by
  obtain ⟨holder, hin, hcur⟩ := h
  have hne : holder ≠ id := fun he => by simp [he ▸ hcur] at hc
  exact ⟨holder, (List.mem_erase_of_ne hne).mpr hin, by rwa [seat_remove_of_ne f hne]⟩

theorem accounted_dispose (h : v.Accounted prompts) (hout : id ∉ v.registry) :
    (v.modify id Seat.dispose).Accounted prompts := by
  refine accounted_modify h ⟨fun hin => absurd hin hout, fun hin => absurd hin hout,
    fun _ => rfl, fun _ _ => rfl, fun _ _ hd => ?_⟩ (fun _ _ => rfl) fun hc => ?_
  · simp [Seat.dispose] at hd
  · simp [Seat.dispose] at hc

end Seating

/-! ## The session that the focus is handed to -/

namespace Registry

variable {r : Registry} {id : SessionId}

theorem indexOf?_eq_none (h : id ∉ r) : r.indexOf? id = none :=
  List.findIdx?_eq_none_iff.mpr fun _ ha => beq_false_of_ne fun hid => h (hid ▸ ha)

theorem exists_indexOf? (h : id ∈ r) :
    ∃ index, r.indexOf? id = some index ∧ r.eraseIdx index = r.erase id := by
  cases hi : r.indexOf? id with
  | none =>
    have := List.findIdx?_eq_none_iff.mp hi id h
    simp at this
  | some index =>
    refine ⟨index, rfl, ?_⟩
    rw [List.erase_eq_eraseIdx]
    have hidx : r.idxOf? id = some index := hi
    rw [hidx]

theorem remove_of_not_mem (h : id ∉ r) : r.remove id = (.absent, r) := by
  simp [remove, indexOf?_eq_none h]

theorem remove_of_mem (h : id ∈ r) : ∃ index, r.remove id =
    (if (r.erase id).isEmpty then .last else .removed index (r.erase id).length, r.erase id) := by
  obtain ⟨index, hi, he⟩ := exists_indexOf? h
  exact ⟨index, by simp [remove, hi, he]⟩

theorem remove_snd : (r.remove id).2 = r.erase id := by
  by_cases h : id ∈ r
  · obtain ⟨index, hr⟩ := remove_of_mem h
    rw [hr]
  · rw [remove_of_not_mem h, List.erase_of_not_mem h]

def heir? (r : Registry) (id : SessionId) : Option SessionId :=
  match r.remove id with
  | (.removed index remaining, rest) => rest.get? ((index + 1) % remaining)
  | _ => none

theorem heir?_of_removed {index remaining : Nat} (h : (r.remove id).1 = .removed index remaining) :
    r.heir? id = get? (r.erase id) ((index + 1) % remaining) := by
  have hr : r.remove id = (.removed index remaining, r.erase id) := Prod.ext h remove_snd
  simp only [heir?, hr]

theorem heir?_eq_none (h : ∀ index remaining, (r.remove id).1 ≠ .removed index remaining) :
    r.heir? id = none := by
  simp only [heir?]
  split
  · next hr => exact absurd (congrArg Prod.fst hr) (h _ _)
  · rfl

theorem erase_of_last (h : (r.remove id).1 = .last) : r.erase id = [] := by
  by_cases hid : id ∈ r
  · obtain ⟨index, hr⟩ := remove_of_mem hid
    by_cases hempty : (r.erase id).isEmpty
    · simpa using hempty
    · simp [hr, hempty] at h
  · simp [remove_of_not_mem hid] at h

theorem mem_of_heir? {heir : SessionId} (h : r.heir? id = some heir) : heir ∈ r.erase id := by
  cases hr : (r.remove id).1 with
  | removed index remaining =>
    rw [heir?_of_removed hr] at h
    exact List.mem_of_getElem? h
  | last =>
    rw [heir?_eq_none (by simp [hr])] at h
    cases h
  | absent =>
    rw [heir?_eq_none (by simp [hr])] at h
    cases h

theorem rest_of_removed {index remaining : Nat} (h : (r.remove id).1 = .removed index remaining) :
    id ∈ r ∧ r.erase id ≠ [] := by
  by_cases hid : id ∈ r
  · obtain ⟨index, hr⟩ := remove_of_mem hid
    refine ⟨hid, fun hempty => ?_⟩
    simp [hr, hempty] at h
  · simp [remove_of_not_mem hid] at h

theorem exists_heir (h : id ∈ r) (hrest : r.erase id ≠ []) :
    ∃ heir ∈ r.erase id, r.heir? id = some heir := by
  obtain ⟨index, hr⟩ := remove_of_mem h
  have hpos : 0 < (r.erase id).length := List.length_pos_iff.mpr hrest
  have hlt := Nat.mod_lt (index + 1) hpos
  refine ⟨_, List.getElem_mem hlt, ?_⟩
  simp [heir?, hr, hrest, get?, hlt]

end Registry

end SessionShell
