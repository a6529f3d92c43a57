import Prepaid.Ledger.Draft

/-!
# The ledger

The ledger is its tables together with the outages that its store will have. A
unit of work is committed as one batch; in an outage nothing of it is written and
the call is rejected. A call may commit several units, so what an earlier unit has
committed stays when a later one fails.
-/

namespace Prepaid

/-- The tables, and the commits from now on that meet an outage, counted from zero. -/
structure Ledger where
  tables : Ledger.Tables := {}
  outages : List Nat := []

namespace Ledger

instance : Inhabited Ledger := ⟨{}⟩

/-- A call of the ledger. It may fail, and the ledger stays as far as it got. -/
abbrev Call (α : Type) : Type :=
  ExceptT Failure (StateM Ledger) α

/-- The outages as they are counted after one more commit. -/
def laterOutages (outages : List Nat) : List Nat :=
  (outages.filter (0 < ·)).map (· - 1)

/-- Writes a batch, all of it or nothing. An empty batch is not written at all. -/
def commit (batch : Batch) (ledger : Ledger) : Except Rejection Unit × Ledger :=
  if batch.isEmpty then (.ok (), ledger)
  else if 0 ∈ ledger.outages then
    (.error (.storage .outage), { ledger with outages := laterOutages ledger.outages })
  else
    (.ok (), { tables := ledger.tables.write batch, outages := laterOutages ledger.outages })

/-- Runs a unit of work on the tables and commits what it has put. -/
def transact {α : Type} (work : Work α) : Call α := fun ledger =>
  match work.run { base := ledger.tables } with
  | .error failure => (.error failure, ledger)
  | .ok (result, draft) =>
    match ledger.commit draft.batch with
    | (.ok (), ledger) => (.ok result, ledger)
    | (.error rejection, ledger) => (.error (.rejected rejection), ledger)

/-- A step of a call that can only be refused. -/
def rule {α : Type} (result : Except Rejection α) : Call α :=
  liftM (orReject result)

/-- Arithmetic in a call. -/
def arithmetic {α : Type} (result : Except Overflow α) : Call α :=
  liftM (orOverflow result)

/-- What a user has; nothing for a user without a wallet. -/
def balance (user : UserId) (ledger : Ledger) : Except Overflow Balance :=
  match ledger.tables.wallets.get? user with
  | some wallet => wallet.balance
  | none => .ok (.empty user)

/-- The balances of all wallets, or the first overflow among them. -/
def balances (ledger : Ledger) : Except Overflow (List Balance) :=
  ledger.tables.wallets.values.mapM Wallet.balance

end Ledger

end Prepaid
