import Mathlib.Data.List.Perm.Subperm
import Prepaid.LockTable
import Prepaid.Proofs.Table

/-!
# Locks are exclusive

Guards refer to the mutexes that they keep locked, so a sweep leaves these in the
table, and a row that has a guard is never given a second mutex. `Exclusive` is kept
by whatever is done to a table of locks; what an attempt answers, and how large the
table is afterwards, follows from it.
-/

namespace Prepaid

namespace LockTable

/-- What is done to a table of locks. -/
inductive Move where
  | attempt (row : Row)
  | release (row : Row)

/-- The row that a move is about. -/
def Move.row : Move → Row
  | attempt row => row
  | release row => row

/-- The table after a move. -/
def move (table : LockTable) : Move → LockTable
  | .attempt row => (table.lock row).2
  | .release row => table.unlock row

/-- The table after moves that follow each other. -/
def afterMoves (moves : List Move) : LockTable :=
  moves.foldl move {}

/-- The rows that are held after a move, if locks are exclusive. -/
def holdAfter (held : List Row) : Move → List Row
  | .attempt row => if row ∈ held then held else row :: held
  | .release row => held.erase row

/-- The rows that are held after moves that follow each other, if locks are exclusive. -/
def held (moves : List Move) : List Row :=
  moves.foldl holdAfter []

/-- The guards are those of the rows that are held, one for each. Every guard keeps the mutex locked
that the table has for its row. No two rows share a mutex, and the next one will be new. -/
structure Exclusive (held : List Row) (table : LockTable) : Prop where
  rows : table.guards.map Guard.row = held
  nodup : held.Nodup
  entries : ∀ guard ∈ table.guards, table.mutexes.get? guard.row = some guard.mutex
  apart : ∀ {row other mutex}, table.mutexes.get? row = some mutex →
    table.mutexes.get? other = some mutex →
    row = other
  numbered : ∀ {row mutex}, table.mutexes.get? row = some mutex → mutex < table.next

section Steps

variable {table : LockTable} {rows : List Row} {row : Row} {mutex : Nat}

/-- An empty table keeps nothing locked. -/
theorem exclusive_empty : Exclusive [] {} where
  rows := rfl
  nodup := .nil
  entries := by simp
  apart := by simp
  numbered := by simp

/-- A mutex is referred to by more than the table exactly if a guard keeps it locked. -/
theorem one_lt_references : 1 < table.references mutex ↔ ∃ guard ∈ table.guards, guard.mutex =
    mutex := by
  simp only [references, Nat.lt_add_right_iff_pos, List.countP_pos_iff, decide_eq_true_iff]

/-- A sweep leaves the mutexes that are in use. -/
theorem get?_sweep : table.sweep.mutexes.get? row =
    (table.mutexes.get? row).filter fun mutex => 1 < table.references mutex :=
  Table.get?_filter _ row table.mutexes

/-- A sweep adds no mutex. -/
theorem get?_of_get?_sweep (found : table.sweep.mutexes.get? row = some mutex) :
    table.mutexes.get? row = some mutex := by
  rw [get?_sweep] at found
  exact Option.eq_some_of_filter_eq_some found

namespace Exclusive

/-- A row is held exactly if a guard keeps its mutex locked. -/
theorem mem_held_iff (exclusive : table.Exclusive rows)
    (found : table.mutexes.get? row = some mutex) :
    row ∈ rows ↔ ∃ guard ∈ table.guards, guard.mutex = mutex := by
  rw [← exclusive.rows, List.mem_map]
  refine exists_congr fun guard => and_congr_right fun member => ⟨?_, fun same => ?_⟩
  · rintro rfl
    exact Option.some.inj ((exclusive.entries guard member).symm.trans found)
  · have entry := exclusive.entries guard member
    rw [same] at entry
    exact exclusive.apart entry found

/-- A sweep drops no mutex that a guard keeps locked. -/
theorem sweep (exclusive : table.Exclusive rows) : table.sweep.Exclusive rows where
  rows := exclusive.rows
  nodup := exclusive.nodup
  entries guard member := by
    rw [get?_sweep, exclusive.entries guard member, Option.filter_some, if_pos]
    exact decide_eq_true (one_lt_references.mpr ⟨guard, member, rfl⟩)
  apart found other := exclusive.apart (get?_of_get?_sweep found) (get?_of_get?_sweep other)
  numbered found := exclusive.numbered (get?_of_get?_sweep found)

/-- A sweep leaves no more mutexes than there are rows held. -/
theorem size_sweep (exclusive : table.Exclusive rows) : table.sweep.size ≤ rows.length := by
  have kept : table.sweep.mutexes.keys ⊆ rows := by
    intro row member
    obtain ⟨⟨row, mutex⟩, entry, rfl⟩ := List.mem_map.mp member
    have found := get?_sweep.symm.trans (Table.get?_eq_some_iff.mpr entry)
    obtain ⟨known, referred⟩ := Option.filter_eq_some_iff.mp found
    exact (exclusive.mem_held_iff known).mpr (one_lt_references.mp (of_decide_eq_true referred))
  calc table.sweep.size = table.sweep.mutexes.keys.length := by
        rw [size, Table.size, Table.keys, List.length_map]
    _ ≤ rows.length := (List.subperm_of_subset table.sweep.mutexes.distinct kept).length_le

/-- A row that has no mutex is not held, so it can be given a new one. -/
theorem putNew (exclusive : table.Exclusive rows) (absent : table.mutexes.get? row = none) :
    Exclusive rows
      { table with mutexes := table.mutexes.put row table.next, next := table.next + 1 } where
  rows := exclusive.rows
  nodup := exclusive.nodup
  entries guard member := by
    have entry := exclusive.entries guard member
    have apart : row ≠ guard.row := by
      rintro rfl
      cases absent.symm.trans entry
    rw [Table.get?_put, if_neg apart, entry]
  apart {left right} mutex found other := by
    rw [Table.get?_put] at found other
    split at found <;> split at other
    · next leftNew rightNew => exact leftNew.symm.trans rightNew
    · cases found
      exact (Nat.lt_irrefl _ (exclusive.numbered other)).elim
    · cases other
      exact (Nat.lt_irrefl _ (exclusive.numbered found)).elim
    · exact exclusive.apart found other
  numbered {other mutex} found := by
    rw [Table.get?_put] at found
    split at found
    · cases found
      exact Nat.lt_succ_self _
    · exact Nat.lt_succ_of_lt (exclusive.numbered found)

/-- Looking a mutex up, or making a new one, keeps the locks exclusive. -/
theorem mutexOf (exclusive : table.Exclusive rows) (row : Row) :
    (table.mutexOf row).2.Exclusive rows ∧
      (table.mutexOf row).2.mutexes.get? row = some (table.mutexOf row).1 := by
  rw [LockTable.mutexOf]
  cases known : table.mutexes.get? row with
  | some mutex => exact ⟨exclusive, known⟩
  | none => exact ⟨exclusive.putNew known, by rw [Table.get?_put, if_pos rfl]⟩

/-- A free row can be given a guard. -/
theorem addGuard (exclusive : table.Exclusive rows) (free : row ∉ rows)
    (found : table.mutexes.get? row = some mutex) :
    Exclusive (row :: rows) { table with guards := ⟨row, mutex⟩ :: table.guards } where
  rows := congrArg (row :: ·) exclusive.rows
  nodup := List.nodup_cons.mpr ⟨free, exclusive.nodup⟩
  entries guard member := by
    rcases List.mem_cons.mp member with rfl | old
    · exact found
    · exact exclusive.entries guard old
  apart := exclusive.apart
  numbered := exclusive.numbered

/-- Giving a guard up frees its row. -/
theorem unlock (exclusive : table.Exclusive rows) (row : Row) :
    (table.unlock row).Exclusive (rows.erase row) where
  rows := by
    have same : (fun guard : Guard => decide (guard.row = row)) = (row == ·) ∘ Guard.row := by
      funext guard
      exact decide_eq_decide.mpr eq_comm
    rw [← exclusive.rows, List.erase_eq_eraseP, List.eraseP_map, ← same]
    rfl
  nodup := exclusive.nodup.erase row
  entries guard member := exclusive.entries guard (List.mem_of_mem_eraseP member)
  apart := exclusive.apart
  numbered := exclusive.numbered

end Exclusive

/-- The table that an attempt works on, with the mutex of the row in it. -/
def ready (row : Row) (table : LockTable) : Nat × LockTable :=
  (if sweepAbove < table.size then table.sweep else table).mutexOf row

/-- An attempt works on a table that is exclusive and has the mutex of the row. -/
theorem Exclusive.ready (exclusive : table.Exclusive rows) (row : Row) :
    (table.ready row).2.Exclusive rows ∧ (table.ready row).2.mutexes.get? row =
      some (table.ready row).1 := by
  rw [LockTable.ready]
  split
  · exact exclusive.sweep.mutexOf row
  · exact exclusive.mutexOf row

/-- An attempt succeeds exactly if the row is not held. -/
theorem lock_eq (exclusive : table.Exclusive rows) (row : Row) :
    table.lock row =
      if row ∈ rows then (false, (table.ready row).2)
      else (true, { (table.ready row).2 with
        guards := ⟨row, (table.ready row).1⟩ :: (table.ready row).2.guards }) := by
  obtain ⟨kept, found⟩ := exclusive.ready row
  have locked : (table.ready row).2.isLocked (table.ready row).1 = true ↔ row ∈ rows := by
    rw [kept.mem_held_iff found, isLocked, List.any_eq_true]
    simp only [decide_eq_true_iff]
  have unfolded : table.lock row =
      if (table.ready row).2.isLocked (table.ready row).1 then (false, (table.ready row).2)
      else (true, { (table.ready row).2 with
        guards := ⟨row, (table.ready row).1⟩ :: (table.ready row).2.guards }) := rfl
  rw [unfolded]
  exact if_congr locked rfl rfl

/-- An attempt keeps the locks exclusive. -/
theorem Exclusive.lock (exclusive : table.Exclusive rows) (row : Row) :
    (table.lock row).2.Exclusive (holdAfter rows (.attempt row)) := by
  obtain ⟨kept, found⟩ := exclusive.ready row
  rw [lock_eq exclusive, holdAfter]
  split
  · exact kept
  · next free => exact kept.addGuard free found

/-- Every move keeps the locks exclusive. -/
theorem Exclusive.move (exclusive : table.Exclusive rows) (move : Move) :
    (table.move move).Exclusive (holdAfter rows move) := by
  cases move with
  | attempt row => exact exclusive.lock row
  | release row => exact exclusive.unlock row

/-- Looking a mutex up makes one at most. -/
theorem size_mutexOf (row : Row) (table : LockTable) :
    (table.mutexOf row).2.size ≤ table.size + 1 := by
  rw [mutexOf]
  cases known : table.mutexes.get? row with
  | some mutex => exact Nat.le_succ _
  | none => exact (Table.size_put_of_none _ known).le

/-- A table grows only up to where it is swept, or to one more than the rows in use. -/
theorem Exclusive.size_lock (exclusive : table.Exclusive rows) (row : Row) :
    (table.lock row).2.size ≤ max (sweepAbove + 1) (rows.length + 1) := by
  have same : (table.lock row).2.size = (table.ready row).2.size := by
    rw [lock_eq exclusive]
    split <;> rfl
  rw [same, LockTable.ready]
  split
  · have swept := exclusive.size_sweep
    have grown := size_mutexOf row table.sweep
    omega
  · have grown := size_mutexOf row table
    omega

end Steps

/-! ## Runs -/

/-- Whatever is done to a table of locks, they stay exclusive. -/
theorem Exclusive.foldl {table : LockTable} {rows : List Row} (exclusive : table.Exclusive rows)
    (moves : List Move) :
    (moves.foldl LockTable.move table).Exclusive (moves.foldl holdAfter rows) := by
  induction moves generalizing table rows with
  | nil => exact exclusive
  | cons first rest ih => exact ih (exclusive.move first)

/-- Locks are exclusive after any moves. -/
theorem exclusive_afterMoves (moves : List Move) : (afterMoves moves).Exclusive (held moves) :=
  exclusive_empty.foldl moves

/-- Moves on other rows do not change whether a row is held. -/
theorem mem_foldl_holdAfter {row : Row} {others : List Move}
    (apart : ∀ move ∈ others, move.row ≠ row) (rows : List Row) :
    row ∈ others.foldl holdAfter rows ↔ row ∈ rows := by
  induction others generalizing rows with
  | nil => rfl
  | cons first rest ih =>
    obtain ⟨elsewhere, apart⟩ := List.forall_mem_cons.mp apart
    rw [List.foldl_cons, ih apart]
    cases first with
    | attempt other =>
      rw [holdAfter]
      split
      · rfl
      · exact List.mem_cons.trans (or_iff_right (Ne.symm elsewhere))
    | release other => exact List.mem_erase_of_ne (Ne.symm elsewhere)

/-- An attempt succeeds exactly on a row that is not held. -/
theorem lock_succeeds_iff (moves : List Move) (row : Row) :
    ((afterMoves moves).lock row).1 = true ↔ row ∉ held moves := by
  rw [lock_eq (exclusive_afterMoves moves)]
  split <;> simpa

/-- After any moves on a table of locks the guards are those of the rows that are held, and no row
has two. An attempt succeeds exactly if there is no guard for the row, so moves on other rows make
no difference to it. The mutex of every guard is in the table as that of its row, and an attempt
leaves the table with no more mutexes than the limit allows or the guards need. -/
theorem locks_are_exclusive (moves : List Move) :
    let table := afterMoves moves
    table.guards.map Guard.row = held moves ∧ (held moves).Nodup ∧
    (∀ row, (table.lock row).1 = true ↔ ∀ guard ∈ table.guards, guard.row ≠ row) ∧
    (∀ guard ∈ table.guards, table.mutexes.get? guard.row = some guard.mutex) ∧
    (∀ row others, (∀ move ∈ others, Move.row move ≠ row) →
      ((afterMoves (moves ++ others)).lock row).1 = (table.lock row).1) ∧
    ∀ row, (table.lock row).2.size ≤ max (sweepAbove + 1) (table.guards.length + 1) := by
  have exclusive := exclusive_afterMoves moves
  refine ⟨exclusive.rows, exclusive.nodup, fun row => ?_, exclusive.entries,
    fun row others apart => ?_, fun row => ?_⟩
  · rw [lock_succeeds_iff, ← exclusive.rows]
    simp
  · rw [Bool.eq_iff_iff, lock_succeeds_iff, lock_succeeds_iff, held, List.foldl_append,
      mem_foldl_holdAfter apart, held]
  · have bound := exclusive.size_lock row
    rwa [← exclusive.rows, List.length_map] at bound

/-- A sweep leaves the mutex of the row that is held, and nothing once that is free. -/
example :
    let attempted := afterMoves [.attempt (.notice "evt_1"), .attempt (.notice "evt_2"),
      .release (.notice "evt_2")]
    attempted.sweep.size = 1 ∧ (attempted.unlock (.notice "evt_1")).sweep.size = 0 := by
  decide

end LockTable

end Prepaid
