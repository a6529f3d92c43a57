/-!
# Tables

A table holds one row for each key. Rows stay in the order in which their keys
were first put, and putting a key again replaces its row in place. The view of a
table is `get?`: `get?_put` says all about it that an operation changes.
-/

namespace Prepaid

/-- The rows after a row is put: replaced in place, or added behind all others. -/
def putRow {κ α : Type} [DecidableEq κ] (key : κ) (row : α) : List (κ × α) → List (κ × α)
  | [] => [(key, row)]
  | (other, held) :: rest =>
    if other = key then (key, row) :: rest else (other, held) :: putRow key row rest

/-- The row of a key. -/
def findRow {κ α : Type} [DecidableEq κ] (key : κ) : List (κ × α) → Option α
  | [] => none
  | (other, held) :: rest => if other = key then some held else findRow key rest

/-- The row found under a key is the one put there last. -/
theorem findRow_putRow {κ α : Type} [DecidableEq κ] (key wanted : κ) (row : α)
    (rows : List (κ × α)) :
    findRow wanted (putRow key row rows) =
      if key = wanted then some row else findRow wanted rows := by
  induction rows with
  | nil => simp [putRow, findRow]
  | cons first rest ih =>
    obtain ⟨other, held⟩ := first
    by_cases same : other = key
    · by_cases found : key = wanted <;> simp_all [putRow, findRow]
    · by_cases found : other = wanted
      · have apart : key ≠ wanted := fun equal => same (found.trans equal.symm)
        simp only [putRow, findRow, if_neg same, if_neg apart, if_pos found]
      · simp [putRow, findRow, same, found, ih]

/-- The keys after a row is put are its own and those that were there. -/
theorem mem_keys_putRow {κ α : Type} [DecidableEq κ] (key wanted : κ) (row : α)
    (rows : List (κ × α)) :
    wanted ∈ (putRow key row rows).map Prod.fst ↔ wanted = key ∨ wanted ∈ rows.map Prod.fst := by
  induction rows with
  | nil => simp [putRow]
  | cons first rest ih =>
    obtain ⟨other, held⟩ := first
    by_cases same : other = key
    · simp [putRow, same]
    · simp only [putRow, same, if_false, List.map_cons, List.mem_cons, ih]
      constructor
      · rintro (found | found | found)
        · exact .inr (.inl found)
        · exact .inl found
        · exact .inr (.inr found)
      · rintro (found | found | found)
        · exact .inr (.inl found)
        · exact .inl found
        · exact .inr (.inr found)

/-- No key is listed twice. -/
theorem nodup_keys_putRow {κ α : Type} [DecidableEq κ] (key : κ) (row : α) {rows : List (κ × α)}
    (distinct : (rows.map Prod.fst).Nodup) : ((putRow key row rows).map Prod.fst).Nodup := by
  induction rows with
  | nil => simp [putRow]
  | cons first rest ih =>
    obtain ⟨other, held⟩ := first
    simp only [List.map_cons, List.nodup_cons] at distinct
    by_cases same : other = key
    · subst same
      simpa [putRow] using distinct
    · simp only [putRow, same, if_false, List.map_cons, List.nodup_cons, mem_keys_putRow,
        false_or]
      exact ⟨distinct.1, ih distinct.2⟩

/-- Rows by their keys. -/
structure Table (κ α : Type) where
  rows : List (κ × α)
  distinct : (rows.map Prod.fst).Nodup

namespace Table

variable {κ α : Type}

/-- The table without rows. -/
def empty : Table κ α := ⟨[], .nil⟩

instance : Inhabited (Table κ α) := ⟨empty⟩

/-- The number of rows. -/
def size (table : Table κ α) : Nat :=
  table.rows.length

/-- The keys, in the order in which they were first put. -/
def keys (table : Table κ α) : List κ :=
  table.rows.map Prod.fst

/-- The rows, in the order of their keys. -/
def values (table : Table κ α) : List α :=
  table.rows.map Prod.snd

/-- The rows whose keys and contents pass a test. -/
def filter (keep : κ → α → Bool) (table : Table κ α) : Table κ α :=
  ⟨table.rows.filter fun row => keep row.1 row.2,
    table.distinct.sublist ((List.filter_sublist).map Prod.fst)⟩

variable [DecidableEq κ]

/-- The row of a key, if there is one. -/
def get? (key : κ) (table : Table κ α) : Option α :=
  findRow key table.rows

/-- Whether there is a row for a key. -/
def contains (key : κ) (table : Table κ α) : Bool :=
  (table.get? key).isSome

/-- Puts a row: in place of the one that has its key, or behind all others. -/
def put (key : κ) (row : α) (table : Table κ α) : Table κ α :=
  ⟨putRow key row table.rows, nodup_keys_putRow key row table.distinct⟩

/-- Nothing is found in an empty table. -/
@[simp] theorem get?_empty (key : κ) : (empty : Table κ α).get? key = none := rfl

/-- What is found under a key is what was put there last. -/
@[simp] theorem get?_put (key wanted : κ) (row : α) (table : Table κ α) :
    (table.put key row).get? wanted = if key = wanted then some row else table.get? wanted :=
  findRow_putRow key wanted row table.rows

end Table

end Prepaid
