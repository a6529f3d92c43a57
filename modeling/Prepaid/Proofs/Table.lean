import Mathlib.Algebra.Order.BigOperators.Group.List
import Mathlib.Algebra.Order.Group.Int
import Mathlib.Algebra.Ring.Int.Defs
import Prepaid.Table

/-!
# Laws of tables

What `put` does to the rows of a table as a list: a row under a new key is added
behind all others, and a row under a known key replaces the old one in place. Sums
over all rows, and rows picked out by a test, follow from these two laws.
-/

namespace Prepaid

section Rows

variable {κ α : Type} [DecidableEq κ]

/-- Under distinct keys a row is found exactly if it is there. -/
theorem findRow_eq_some_iff {key : κ} {row : α} {rows : List (κ × α)}
    (distinct : (rows.map Prod.fst).Nodup) :
    findRow key rows = some row ↔ (key, row) ∈ rows := by
  induction rows with
  | nil => simp [findRow]
  | cons first rest ih =>
    obtain ⟨other, held⟩ := first
    simp only [List.map_cons, List.nodup_cons] at distinct
    by_cases same : other = key
    · subst same
      have elsewhere : (other, row) ∉ rest := fun member =>
        distinct.1 (List.mem_map_of_mem (f := Prod.fst) member)
      simp [findRow, elsewhere, eq_comm]
    · have apart : key ≠ other := fun equal => same equal.symm
      simp [findRow, same, apart, ih distinct.2]

/-- Under a new key a row is added behind all others. -/
theorem putRow_of_none {key : κ} (row : α) {rows : List (κ × α)}
    (absent : findRow key rows = none) : putRow key row rows = rows ++ [(key, row)] := by
  induction rows with
  | nil => rfl
  | cons first rest ih =>
    obtain ⟨other, held⟩ := first
    by_cases same : other = key
    · simp [findRow, same] at absent
    · rw [findRow, if_neg same] at absent
      rw [putRow, if_neg same, ih absent, List.cons_append]

/-- Under a known key a row takes the place of the old one. -/
theorem putRow_of_some {key : κ} {old : α} (new : α) {rows : List (κ × α)}
    (found : findRow key rows = some old) :
    ∃ front back, rows = front ++ (key, old) :: back ∧
      putRow key new rows = front ++ (key, new) :: back := by
  induction rows with
  | nil => simp [findRow] at found
  | cons first rest ih =>
    obtain ⟨other, held⟩ := first
    by_cases same : other = key
    · subst same
      simp only [findRow, if_true] at found
      cases found
      exact ⟨[], rest, rfl, by simp [putRow]⟩
    · rw [findRow, if_neg same] at found
      obtain ⟨front, back, before, after⟩ := ih found
      refine ⟨(other, held) :: front, back, by rw [before, List.cons_append], ?_⟩
      rw [putRow, if_neg same, after, List.cons_append]

/-- Of two rows put under a key the later one stays. -/
theorem putRow_putRow (key : κ) (old new : α) (rows : List (κ × α)) :
    putRow key new (putRow key old rows) = putRow key new rows := by
  induction rows with
  | nil => simp [putRow]
  | cons first rest ih =>
    obtain ⟨other, held⟩ := first
    by_cases same : other = key
    · simp [putRow, same]
    · simp only [putRow, if_neg same, ih]

/-- A known key keeps its place, so its row may be put before or after another one. -/
theorem putRow_comm {key other : κ} (apart : key ≠ other) {old : α} (row new : α)
    {rows : List (κ × α)} (found : findRow key rows = some old) :
    putRow key row (putRow other new rows) = putRow other new (putRow key row rows) := by
  induction rows with
  | nil => simp [findRow] at found
  | cons first rest ih =>
    obtain ⟨name, held⟩ := first
    by_cases same : name = key
    · subst same
      simp [putRow, apart]
    · rw [findRow, if_neg same] at found
      by_cases taken : name = other
      · subst taken
        simp [putRow, same]
      · simp only [putRow, if_neg same, if_neg taken, ih found]

/-- Without the rows of a key nothing is found under it, and all else is. -/
theorem findRow_filter (key wanted : κ) (rows : List (κ × α)) :
    findRow wanted (rows.filter fun row => decide (row.1 ≠ key)) =
      if key = wanted then none else findRow wanted rows := by
  induction rows with
  | nil => simp [findRow]
  | cons first rest ih =>
    obtain ⟨other, held⟩ := first
    by_cases same : other = key
    · subst same
      rw [List.filter_cons, if_neg (by simp), ih, findRow]
      split <;> rfl
    · rw [List.filter_cons, if_pos (by simp [same]), findRow, findRow, ih]
      by_cases found : other = wanted
      · have apart : key ≠ wanted := fun equal => same (found.trans equal.symm)
        rw [if_pos found, if_pos found, if_neg apart]
      · rw [if_neg found, if_neg found]

/-- A row that is put is left out with its key. -/
theorem filter_putRow (key : κ) (row : α) (rows : List (κ × α)) :
    (putRow key row rows).filter (fun row => decide (row.1 ≠ key)) =
      rows.filter fun row => decide (row.1 ≠ key) := by
  induction rows with
  | nil => simp [putRow]
  | cons first rest ih =>
    obtain ⟨other, held⟩ := first
    by_cases same : other = key
    · simp [putRow, same]
    · rw [putRow, if_neg same, List.filter_cons, List.filter_cons, ih]

/-- Putting what is there changes nothing. -/
theorem putRow_self {key : κ} {row : α} {rows : List (κ × α)}
    (found : findRow key rows = some row) :
    putRow key row rows = rows := by
  obtain ⟨front, back, before, after⟩ := putRow_of_some row found
  rw [after, before]

end Rows

namespace Table

variable {κ α : Type}

/-- Tables with the same rows are the same. -/
@[ext] theorem ext {left right : Table κ α} (rows : left.rows = right.rows) : left = right := by
  cases left
  cases right
  cases rows
  rfl

@[simp] theorem values_empty : (empty : Table κ α).values = [] := rfl

/-- The sum of a quantity over all rows. -/
def total (quantity : α → Int) (table : Table κ α) : Int :=
  (table.values.map quantity).sum

/-- Quantities that are not negative have no negative total. -/
theorem total_nonneg {quantity : α → Int} {table : Table κ α}
    (nonneg : ∀ row ∈ table.values, 0 ≤ quantity row) : 0 ≤ table.total quantity := by
  apply List.sum_nonneg
  rintro _ member
  obtain ⟨row, present, rfl⟩ := List.mem_map.mp member
  exact nonneg row present

/-- Where every row counts for nothing, so do all of them. -/
theorem total_eq_zero {quantity : α → Int} {table : Table κ α}
    (nothing : ∀ row ∈ table.values, quantity row = 0) : table.total quantity = 0 := by
  apply List.sum_eq_zero
  rintro _ member
  obtain ⟨row, present, rfl⟩ := List.mem_map.mp member
  exact nothing row present

/-- A total depends on what the rows count for. -/
theorem total_congr {left right : α → Int} {table : Table κ α}
    (same : ∀ row ∈ table.values, left row = right row) : table.total left = table.total right := by
  simp only [total, List.map_congr_left same]

/-- One row counts for no more than all of them together. -/
theorem le_total {quantity : α → Int} {table : Table κ α}
    (nonneg : ∀ row ∈ table.values, 0 ≤ quantity row) {row : α} (member : row ∈ table.values) :
    quantity row ≤ table.total quantity := by
  refine List.single_le_sum ?_ _ (List.mem_map_of_mem member)
  rintro _ present
  obtain ⟨other, inside, rfl⟩ := List.mem_map.mp present
  exact nonneg other inside

variable [DecidableEq κ]

/-- A row is found exactly if it is there under its key. -/
theorem get?_eq_some_iff {key : κ} {row : α} {table : Table κ α} :
    table.get? key = some row ↔ (key, row) ∈ table.rows :=
  findRow_eq_some_iff table.distinct

/-- Nothing has to be shown of the row of a key that has none. -/
theorem forall_of_none {key : κ} {table : Table κ α} (absent : table.get? key = none)
    {property : α → Prop} : ∀ row, table.get? key = some row → property row := by
  intro row found
  rw [absent] at found
  cases found

/-- What is found is among the values. -/
theorem mem_values {key : κ} {row : α} {table : Table κ α} (found : table.get? key = some row) :
    row ∈ table.values :=
  List.mem_map.mpr ⟨(key, row), get?_eq_some_iff.mp found, rfl⟩

/-- Each value is found under some key. -/
theorem exists_key {row : α} {table : Table κ α} (member : row ∈ table.values) :
    ∃ key, table.get? key = some row := by
  obtain ⟨⟨key, held⟩, present, rfl⟩ := List.mem_map.mp member
  exact ⟨key, get?_eq_some_iff.mpr present⟩

/-- Rows that tell their own keys are found by them. -/
theorem mem_values_of_named {table : Table κ α} {name : α → κ}
    (named : ∀ key row, table.get? key = some row → name row = key) {row : α} :
    row ∈ table.values ↔ table.get? (name row) = some row := by
  constructor
  · intro member
    obtain ⟨key, found⟩ := exists_key member
    rw [named key row found, found]
  · exact mem_values

/-- Rows that tell their own keys tell different ones. -/
theorem nodup_map_values {table : Table κ α} {name : α → κ}
    (named : ∀ key row, table.get? key = some row → name row = key) :
    (table.values.map name).Nodup := by
  have keys : table.values.map name = table.rows.map Prod.fst := by
    rw [values, List.map_map]
    refine List.map_congr_left fun row member => ?_
    exact named row.1 row.2 (get?_eq_some_iff.mpr member)
  rw [keys]
  exact table.distinct

/-- A key is contained exactly if there is a row under it. -/
@[simp] theorem contains_iff {key : κ} {table : Table κ α} :
    table.contains key = true ↔ ∃ row, table.get? key = some row :=
  Option.isSome_iff_exists

/-- The last row that is put under a key is the only one that counts. -/
@[simp] theorem put_put (key : κ) (old new : α) (table : Table κ α) :
    (table.put key old).put key new = table.put key new :=
  Table.ext (putRow_putRow key old new table.rows)

/-- Rows under two keys can be put in either order, if one of them is there already. -/
theorem put_comm {key other : κ} (apart : key ≠ other) {old : α} (row new : α) {table : Table κ α}
    (found : table.get? key = some old) :
    (table.put other new).put key row = (table.put key row).put other new :=
  Table.ext (putRow_comm apart row new found)

/-- No key is lost when a row is put. -/
theorem exists_put {wanted : κ} {table : Table κ α} (known : ∃ old, table.get? wanted = some old)
    (key : κ) (row : α) : ∃ held, (table.put key row).get? wanted = some held := by
  rw [get?_put]
  split
  · exact ⟨row, rfl⟩
  · exact known

/-- Putting a row that is there changes nothing. -/
theorem put_self {key : κ} {row : α} {table : Table κ α} (found : table.get? key = some row) :
    table.put key row = table :=
  Table.ext (putRow_self found)

/-- A new row comes last. -/
theorem values_put_of_none {key : κ} (row : α) {table : Table κ α}
    (absent : table.get? key = none) : (table.put key row).values = table.values ++ [row] := by
  simp only [values, put, putRow_of_none row absent, List.map_append, List.map_cons, List.map_nil]

/-- A row that is there is replaced in its place. -/
theorem values_put_of_some {key : κ} {old : α} (new : α) {table : Table κ α}
    (found : table.get? key = some old) :
    ∃ front back, table.values = front ++ old :: back ∧
      (table.put key new).values = front ++ new :: back := by
  obtain ⟨front, back, before, after⟩ := putRow_of_some new found
  refine ⟨front.map Prod.snd, back.map Prod.snd, ?_, ?_⟩
  · simp only [values, before, List.map_append, List.map_cons]
  · simp only [values, put, after, List.map_append, List.map_cons]

/-- Where rows tell their keys, a row that is put takes the place of the one that tells the key. -/
theorem values_put_of_named {name : α → κ} {key : κ} {old : α} (new : α) {table : Table κ α}
    (named : ∀ key row, table.get? key = some row → name row = key)
    (found : table.get? key = some old) :
    (table.put key new).values =
      table.values.map fun row => if name row = key then new else row := by
  obtain ⟨front, back, before, after⟩ := values_put_of_some new found
  have distinct := nodup_map_values named
  rw [before, List.map_append, List.map_cons, named key old found] at distinct
  obtain ⟨_, behind, disjoint⟩ := List.nodup_append.mp distinct
  have outside {rows : List α} (other : key ∉ rows.map name) :
      rows.map (fun row => if name row = key then new else row) = rows := by
    refine (List.map_congr_left fun row member => ?_).trans (List.map_id' rows)
    exact if_neg fun same => other (List.mem_map.mpr ⟨row, member, same⟩)
  rw [after, before, List.map_append, List.map_cons, if_pos (named key old found),
    outside fun member => disjoint key member key List.mem_cons_self rfl,
    outside (List.nodup_cons.mp behind).1]

/-- A new row makes the table larger by one. -/
theorem size_put_of_none {key : κ} (row : α) {table : Table κ α} (absent : table.get? key = none) :
    (table.put key row).size = table.size + 1 := by
  simp only [size, put, putRow_of_none row absent, List.length_append, List.length_cons,
    List.length_nil]

/-- Of the rows that are kept, each is found as before. -/
theorem get?_filter (keep : κ → α → Bool) (key : κ) (table : Table κ α) :
    (table.filter keep).get? key = (table.get? key).filter (keep key) := by
  ext row
  rw [get?_eq_some_iff, Option.filter_eq_some_iff, get?_eq_some_iff, filter, List.mem_filter]

/-- All rows but that of a key. -/
def erase (key : κ) (table : Table κ α) : Table κ α :=
  table.filter fun other _ => other ≠ key

/-- Nothing is found under an erased key, and all else is. -/
@[simp] theorem get?_erase (key wanted : κ) (table : Table κ α) :
    (table.erase key).get? wanted = if key = wanted then none else table.get? wanted :=
  findRow_filter key wanted table.rows

/-- A row that is put is erased with its key. -/
@[simp] theorem erase_put (key : κ) (row : α) (table : Table κ α) :
    (table.put key row).erase key = table.erase key :=
  Table.ext (filter_putRow key row table.rows)

/-- A key is erased once. -/
@[simp] theorem erase_erase (key : κ) (table : Table κ α) :
    (table.erase key).erase key = table.erase key :=
  Table.ext (by simp [erase, filter, List.filter_filter])

/-- A new row adds its quantity. -/
theorem total_put_of_none {key : κ} (row : α) {table : Table κ α} (quantity : α → Int)
    (absent : table.get? key = none) :
    (table.put key row).total quantity = table.total quantity + quantity row := by
  simp only [total, values_put_of_none row absent, List.map_append, List.sum_append, List.map_cons,
    List.map_nil, List.sum_cons, List.sum_nil, Int.add_zero]

/-- A row that is replaced takes its quantity out, and the new one brings its own in. -/
theorem total_put_of_some {key : κ} {old : α} (new : α) {table : Table κ α} (quantity : α → Int)
    (found : table.get? key = some old) :
    (table.put key new).total quantity = table.total quantity - quantity old + quantity new := by
  obtain ⟨front, back, before, after⟩ := values_put_of_some new found
  simp only [total, before, after, List.map_append, List.sum_append, List.map_cons, List.sum_cons]
  omega

end Table

end Prepaid
