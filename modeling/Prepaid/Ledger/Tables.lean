import Prepaid.Entry
import Prepaid.Notice
import Prepaid.Order.Basic
import Prepaid.Table
import Prepaid.Wallet

/-!
# The tables of the ledger

Wallets are kept by their owners, and orders, entries and notices by their
identifiers. Four indexes lead from a wallet's identifier to its owner, and from
a wallet, an order or a checkout session to entries. An entry is indexed when it
is first put and never again; a session leads to the entry that named it last.

A batch holds the rows that one unit of work puts. `Tables.write` puts them all.
-/

namespace Prepaid

/-- Adds an item to the list of a key. -/
def Table.push {κ α : Type} [DecidableEq κ] (key : κ) (item : α) (table : Table κ (List α)) :
    Table κ (List α) :=
  table.put key ((table.get? key).getD [] ++ [item])

namespace Ledger

/-- Everything that the ledger keeps. -/
structure Tables where
  wallets : Table UserId Wallet := .empty
  orders : Table OrderId Order := .empty
  entries : Table EntryId Entry := .empty
  notices : Table String NoticeRecord := .empty
  owners : Table WalletId UserId := .empty
  entriesOfWallet : Table WalletId (List EntryId) := .empty
  entriesOfOrder : Table OrderId (List EntryId) := .empty
  entryOfSession : Table String EntryId := .empty

instance : Inhabited Tables := ⟨{}⟩

/-- Rows that are put together. -/
structure Batch where
  wallets : Table UserId Wallet := .empty
  orders : Table OrderId Order := .empty
  entries : Table EntryId Entry := .empty
  notices : Table String NoticeRecord := .empty

instance : Inhabited Batch := ⟨{}⟩

/-- Whether a batch has no rows. -/
def Batch.isEmpty (batch : Batch) : Bool :=
  batch.wallets.rows.isEmpty && batch.orders.rows.isEmpty && batch.entries.rows.isEmpty &&
    batch.notices.rows.isEmpty

namespace Tables

/-! ## Reading -/

/-- The wallet with a given identifier. -/
def walletById? (id : WalletId) (tables : Tables) : Option Wallet :=
  (tables.owners.get? id).bind tables.wallets.get?

/-- The entries of a wallet. -/
def walletEntries (wallet : WalletId) (tables : Tables) : List Entry :=
  ((tables.entriesOfWallet.get? wallet).getD []).filterMap tables.entries.get?

/-- The entries of an order. -/
def orderEntries (order : OrderId) (tables : Tables) : List Entry :=
  ((tables.entriesOfOrder.get? order).getD []).filterMap tables.entries.get?

/-- The entry that holds money for an order. -/
def pendingHold? (order : OrderId) (tables : Tables) : Option Entry :=
  (tables.orderEntries order).find? Entry.isPendingHold

/-- The entry of a checkout session. -/
def entryForSession? (session : String) (tables : Tables) : Option Entry :=
  (tables.entryOfSession.get? session).bind tables.entries.get?

/-! ## Writing -/

def putWallet (wallet : Wallet) (tables : Tables) : Tables :=
  { tables with
    owners := tables.owners.put wallet.id wallet.owner
    wallets := tables.wallets.put wallet.owner wallet }

def putOrder (order : Order) (tables : Tables) : Tables :=
  { tables with orders := tables.orders.put order.id order }

/-- Makes an entry known to the indexes. -/
def index (entry : Entry) (tables : Tables) : Tables :=
  { tables with
    entriesOfWallet := tables.entriesOfWallet.push entry.wallet entry.id
    entriesOfOrder :=
      match entry.order with
      | some order => tables.entriesOfOrder.push order entry.id
      | none => tables.entriesOfOrder
    entryOfSession :=
      match entry.reference.session with
      | some session => tables.entryOfSession.put session entry.id
      | none => tables.entryOfSession }

/-- Puts an entry; one that is new is indexed. -/
def putEntry (entry : Entry) (tables : Tables) : Tables :=
  let indexed := if tables.entries.contains entry.id then tables else tables.index entry
  { indexed with entries := indexed.entries.put entry.id entry }

def putNotice (record : NoticeRecord) (tables : Tables) : Tables :=
  { tables with notices := tables.notices.put record.id record }

/-- Puts all rows of a batch. -/
def write (batch : Batch) (tables : Tables) : Tables :=
  let tables := batch.wallets.values.foldl (fun tables wallet => tables.putWallet wallet) tables
  let tables := batch.orders.values.foldl (fun tables order => tables.putOrder order) tables
  let tables := batch.entries.values.foldl (fun tables entry => tables.putEntry entry) tables
  batch.notices.values.foldl (fun tables record => tables.putNotice record) tables

end Tables

end Ledger

end Prepaid
