import Prepaid.Ident
import Prepaid.Table

/-!
# Row locks

Whoever works on a row holds a guard, which keeps the mutex of the row locked. The
table has a mutex for each row that has been asked for, and is swept when it has become
large: mutexes that no guard refers to are dropped. A row whose mutex has been dropped
is given a new one, and that is another mutex, whatever has become of the old one.
-/

namespace Prepaid

/-- A row that can be locked. -/
inductive Row where
  | order (id : OrderId)
  | wallet (owner : UserId)
  | entry (id : EntryId)
  | notice (id : String)
  deriving DecidableEq, Repr

/-- A guard, with the mutex that it keeps locked for the row that it was asked for. -/
structure Guard where
  row : Row
  mutex : Nat

/-- The mutexes of rows, and the guards that are out. Every new mutex has a number of its own. -/
structure LockTable where
  mutexes : Table Row Nat := .empty
  guards : List Guard := []
  next : Nat := 0

namespace LockTable

instance : Inhabited LockTable := ⟨{}⟩

/-- A table with more mutexes than this is swept before the next attempt. -/
abbrev sweepAbove : Nat := 4096

/-- The number of mutexes, locked or not. -/
def size (table : LockTable) : Nat :=
  table.mutexes.size

/-- How often a mutex of the table is referred to: by the table itself, and by each of its
guards. -/
def references (mutex : Nat) (table : LockTable) : Nat :=
  1 + table.guards.countP (·.mutex = mutex)

/-- Drops the mutexes that only the table refers to. -/
def sweep (table : LockTable) : LockTable :=
  { table with mutexes := table.mutexes.filter fun _ mutex => 1 < table.references mutex }

/-- The mutex of a row, and the table with it: a new one if there is none. -/
def mutexOf (row : Row) (table : LockTable) : Nat × LockTable :=
  match table.mutexes.get? row with
  | some mutex => (mutex, table)
  | none => (table.next,
    { table with mutexes := table.mutexes.put row table.next, next := table.next + 1 })

/-- Whether a guard keeps a mutex locked. -/
def isLocked (mutex : Nat) (table : LockTable) : Bool :=
  table.guards.any (·.mutex = mutex)

/-- Tries to lock a row. The answer tells whether there is a guard now; there is none if the mutex
is locked, and then the attempt is given up. -/
def lock (row : Row) (table : LockTable) : Bool × LockTable :=
  let swept := if sweepAbove < table.size then table.sweep else table
  let (mutex, ready) := swept.mutexOf row
  if ready.isLocked mutex then (false, ready)
  else (true, { ready with guards := ⟨row, mutex⟩ :: ready.guards })

/-- Drops the guard of a row. -/
def unlock (row : Row) (table : LockTable) : LockTable :=
  { table with guards := table.guards.eraseP (·.row = row) }

end LockTable

end Prepaid
