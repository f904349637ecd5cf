/-! Tables that hold one value per key. Every operation is described by what it does to `get?`:
inserting changes the value of one key and erasing removes it. -/

namespace ParseKit

/-- Values by key, the newest first. A key occurs at most once when the table is built by
`insert`. -/
structure Table (κ α : Type) where
  entries : List (κ × α) := []

namespace Table

variable {κ α : Type} [DecidableEq κ]

instance : EmptyCollection (Table κ α) := ⟨{}⟩

instance : Inhabited (Table κ α) := ⟨∅⟩

def get? (t : Table κ α) (key : κ) : Option α :=
  (t.entries.find? fun entry => entry.1 = key).map (·.2)

def contains (t : Table κ α) (key : κ) : Bool :=
  (t.get? key).isSome

def erase (t : Table κ α) (key : κ) : Table κ α where
  entries := t.entries.filter fun entry => entry.1 ≠ key

def insert (t : Table κ α) (key : κ) (value : α) : Table κ α where
  entries := (key, value) :: (t.erase key).entries

def insertIfNew (t : Table κ α) (key : κ) (value : α) : Table κ α :=
  if t.contains key then t else t.insert key value

def size (t : Table κ α) : Nat :=
  t.entries.length

def isEmpty (t : Table κ α) : Bool :=
  t.entries.isEmpty

def keys (t : Table κ α) : List κ :=
  t.entries.map (·.1)

@[simp] theorem get?_empty (key : κ) : (∅ : Table κ α).get? key = none := rfl

theorem exists_mem_of_get? {t : Table κ α} {key : κ} {value : α} (h : t.get? key = some value) :
    ∃ entry ∈ t.entries, entry.2 = value := by
  obtain ⟨entry, hfound, hvalue⟩ := Option.map_eq_some_iff.1 h
  exact ⟨entry, List.mem_of_find?_eq_some hfound, hvalue⟩

@[simp] theorem get?_insert_self (t : Table κ α) (key : κ) (value : α) :
    (t.insert key value).get? key = some value := by
  simp [get?, insert]

theorem get?_erase_of_ne (t : Table κ α) {key other : κ} (h : other ≠ key) :
    (t.erase key).get? other = t.get? other := by
  simp only [get?, erase, List.find?_filter]
  congr 2
  funext entry
  by_cases he : entry.1 = other <;> simp [he, h]

theorem get?_insert_of_ne (t : Table κ α) {key other : κ} (value : α) (h : other ≠ key) :
    (t.insert key value).get? other = t.get? other := by
  rw [← get?_erase_of_ne t h]
  simp [get?, insert, Ne.symm h]

@[simp] theorem contains_insertIfNew_self (t : Table κ α) (key : κ) (value : α) :
    (t.insertIfNew key value).contains key = true := by
  unfold insertIfNew
  split
  · assumption
  · simp [contains]

theorem contains_insertIfNew {t : Table κ α} {other : κ} (h : t.contains other = true) (key : κ)
    (value : α) : (t.insertIfNew key value).contains other = true := by
  unfold insertIfNew
  split
  · exact h
  · by_cases heq : other = key
    · simp [contains, heq]
    · rw [contains, get?_insert_of_ne t value heq]
      exact h

@[simp] theorem get?_erase_self (t : Table κ α) (key : κ) : (t.erase key).get? key = none := by
  simp [get?, erase]

end Table

end ParseKit
