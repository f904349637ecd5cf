/-! Lists of values by key. Writing a value keeps the place of the key, or puts it at the end. -/

namespace ParseKit.Entries

variable {α : Type}

def get? (key : String) : List (String × α) → Option α
  | [] => none
  | (name, value) :: rest => if name = key then some value else get? key rest

def set (key : String) (value : α) : List (String × α) → List (String × α)
  | [] => [(key, value)]
  | (name, old) :: rest =>
    if name = key then (key, value) :: rest else (name, old) :: set key value rest

/-- Removes a key. The others keep their order. -/
def erase (key : String) (entries : List (String × α)) : List (String × α) :=
  entries.filter fun entry => entry.1 ≠ key

@[simp] theorem get?_set_self (key : String) (value : α) (entries : List (String × α)) :
    get? key (set key value entries) = some value := by
  induction entries with
  | nil => simp [set, get?]
  | cons entry rest ih => by_cases h : entry.1 = key <;> simp [set, get?, h, ih]

theorem get?_set_of_ne {key other : String} (h : other ≠ key) (value : α)
    (entries : List (String × α)) : get? other (set key value entries) = get? other entries := by
  induction entries with
  | nil => simp [set, get?, Ne.symm h]
  | cons entry rest ih =>
    by_cases hk : entry.1 = key
    · simp [set, get?, hk, Ne.symm h]
    · by_cases ho : entry.1 = other <;> simp [set, get?, hk, ho, ih, h]

end ParseKit.Entries
