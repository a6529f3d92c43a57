import Prepaid.Csv.Records
import Prepaid.Entry
import Prepaid.Wallet

/-!
# Reports

Balances and entries as tables. No cell of a report needs quotes. The balances are
in the order of their users, under a header that is always there; the entries are
in the order in which they are given, and a table without entries is empty.
-/

namespace Prepaid.Report

/-- A table, whose header is written when its first row is. -/
def table (header : List String) (rows : List (List String)) : String :=
  if rows.isEmpty then "" else String.join ((header :: rows).map Csv.line)

/-- The header of a table of balances. -/
def balanceHeader : List String :=
  ["user", "current", "on_hold", "available"]

/-- The cells of a balance. -/
def balanceCells (balance : Balance) : List String :=
  [toString balance.owner, balance.current.toText, balance.held.toText, balance.available.toText]

/-- Balances in the order of their users. -/
def sortBalances (balances : List Balance) : List Balance :=
  balances.mergeSort fun left right => left.owner.val ≤ right.owner.val

/-- A table of balances. Its header is written by itself if there are none. -/
def balances (balances : List Balance) : String :=
  (if balances.isEmpty then Csv.line balanceHeader else "") ++
    table balanceHeader ((sortBalances balances).map balanceCells)

/-- The header of a table of entries. -/
def entryHeader : List String :=
  ["id", "type", "status", "order", "amount", "signed_amount", "remaining_balance", "created_at"]

/-- The cells of an entry. -/
def entryCells (entry : Entry) : List String :=
  [toString entry.id, entry.kind.name, entry.status.name, (entry.order.map toString).getD "",
    entry.amount.money.toText, entry.signedAmount.toText, entry.balanceAfter.toText,
    entry.createdAt.toText]

/-- A table of entries. -/
def entries (entries : List Entry) : String :=
  table entryHeader (entries.map entryCells)

end Prepaid.Report
