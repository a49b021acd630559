/-!
Finite maps from names, kept as a list with one entry per name.
-/

namespace SessionShell

abbrev Table (α : Type) := List (String × α)

namespace Table

variable {α : Type}

def get? (t : Table α) (name : String) : Option α :=
  t.lookup name

def erase (t : Table α) (name : String) : Table α :=
  t.filter fun entry => entry.1 != name

/-- Takes the place of an earlier entry of the same name. -/
def insert (t : Table α) (name : String) (a : α) : Table α :=
  (name, a) :: erase t name

theorem get?_nil (name : String) : get? ([] : Table α) name = none := rfl

theorem get?_insert_self (t : Table α) (name : String) (a : α) :
    get? (insert t name a) name = some a := by
  simp [get?, insert]

theorem get?_erase_of_ne (t : Table α) {name other : String} (h : other ≠ name) :
    get? (erase t name) other = get? t other := by
  induction t with
  | nil => rfl
  | cons entry t ih =>
    obtain ⟨key, a⟩ := entry
    by_cases hk : key = name
    · have ho : (other == key) = false := by simp [hk, h]
      have he : erase ((key, a) :: t) name = erase t name := by simp [erase, hk]
      rw [he, ih]
      simp [get?, List.lookup_cons, ho]
    · have he : erase ((key, a) :: t) name = (key, a) :: erase t name := by simp [erase, hk]
      rw [he]
      simp only [get?, List.lookup_cons] at ih ⊢
      rw [ih]

theorem get?_insert_of_ne (t : Table α) {name other : String} (a : α) (h : other ≠ name) :
    get? (insert t name a) other = get? t other := by
  have ho : (other == name) = false := by simp [h]
  have := get?_erase_of_ne t h
  simpa [get?, insert, List.lookup_cons, ho] using this

end Table

end SessionShell
