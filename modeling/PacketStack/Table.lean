/-!
Finite maps that keep their keys in the order in which they were first set.

Main statements: `get?_set` and `get?_erase` say what a map holds afterwards, `keys_set` what
becomes of the order.
-/

namespace PacketStack

/-- Pairs of a key and a value. Where a key stands twice the first pair counts. -/
abbrev Table (κ α : Type) := List (κ × α)

namespace Table

variable {κ α : Type} [DecidableEq κ]

def get? (key : κ) : Table κ α → Option α
  | [] => none
  | (first, value) :: rest => if first = key then some value else get? key rest

def contains (key : κ) (table : Table κ α) : Bool := (get? key table).isSome

/-- The table with the value of a key replaced in its place, or with the key added at the end. -/
def set (key : κ) (value : α) : Table κ α → Table κ α
  | [] => [(key, value)]
  | (first, old) :: rest =>
      if first = key then (key, value) :: rest else (first, old) :: set key value rest

def erase (key : κ) (table : Table κ α) : Table κ α := table.filter fun entry => entry.1 ≠ key

def keys (table : Table κ α) : List κ := table.map (·.1)

def values (table : Table κ α) : List α := table.map (·.2)

theorem get?_set (key other : κ) (value : α) (table : Table κ α) :
    get? other (set key value table) = if key = other then some value else get? other table := by
  induction table with
  | nil => rfl
  | cons entry rest ih => grind [get?, set]

theorem get?_erase (key other : κ) (table : Table κ α) :
    get? other (erase key table) = if key = other then none else get? other table := by
  induction table with
  | nil => simp [erase, get?]
  | cons entry rest ih => grind [get?, erase]

theorem get?_isSome_iff (key : κ) (table : Table κ α) :
    (get? key table).isSome ↔ key ∈ keys table := by
  induction table with
  | nil => simp [get?, keys]
  | cons entry rest ih => grind [get?, keys]

theorem keys_set (key : κ) (value : α) (table : Table κ α) :
    keys (set key value table) = if key ∈ keys table then keys table else keys table ++ [key] := by
  induction table with
  | nil => simp [keys, set]
  | cons entry rest ih => grind [keys, set]

theorem contains_eq_true_iff (key : κ) (table : Table κ α) :
    contains key table = true ↔ key ∈ keys table := get?_isSome_iff key table

theorem contains_set (key other : κ) (value : α) (table : Table κ α) :
    contains other (set key value table) = (decide (key = other) || contains other table) := by
  rw [contains, get?_set]
  by_cases same : key = other <;> simp [same, contains]

theorem contains_erase (key other : κ) (table : Table κ α) :
    contains other (erase key table) = (decide (key ≠ other) && contains other table) := by
  rw [contains, get?_erase]
  by_cases same : key = other <;> simp [same, contains]

theorem eq_nil_of_contains {table : Table κ α}
    (absent : ∀ key, contains key table = false) : table = [] := by
  cases table with
  | nil => rfl
  | cons entry rest =>
      have present := absent entry.1
      rw [contains, get?, if_pos rfl] at present
      cases present

theorem mem_of_get? {key : κ} {value : α} {table : Table κ α}
    (found : get? key table = some value) : (key, value) ∈ table := by
  induction table with
  | nil => cases found
  | cons entry rest ih => grind [get?]

theorem mem_set {key : κ} {value : α} {entry : κ × α} {table : Table κ α}
    (member : entry ∈ set key value table) : entry = (key, value) ∨ entry ∈ table := by
  induction table with
  | nil => grind [set]
  | cons first rest ih => grind [set]

theorem set_of_absent {key : κ} {table : Table κ α} (absent : contains key table = false)
    (value : α) : set key value table = table ++ [(key, value)] := by
  induction table with
  | nil => rfl
  | cons entry rest ih => grind [set, contains, get?]

theorem map_values_set {β : Type} {key : κ} {old value : α} {table : Table κ α}
    (found : get? key table = some old) (property : α → β) (same : property value = property old) :
    (values (set key value table)).map property = (values table).map property := by
  induction table with
  | nil => cases found
  | cons entry rest ih => grind [set, get?, values]

omit [DecidableEq κ] in
theorem length_keys (table : Table κ α) : (keys table).length = table.length := List.length_map _

theorem get?_drop_one {table : Table κ α} (distinct : (keys table).Nodup) (key : κ) :
    get? key (table.drop 1) = if (keys table).head? = some key then none else get? key table := by
  cases table with
  | nil => rfl
  | cons entry rest =>
      have absent : entry.1 ∉ keys rest := (List.nodup_cons.mp distinct).1
      by_cases same : entry.1 = key
      · rw [← get?_isSome_iff, same] at absent
        have missing : get? key rest = none := by simpa using absent
        simp [keys, same, missing]
      · simp [keys, get?, same]

end Table

end PacketStack
