import Prepaid.Ledger.Tables
import Prepaid.Stamp

/-!
# Drafts

A unit of work reads the tables through a draft, which keeps every row that the unit
has read or put. A row that is kept is not looked for in the tables again. Nothing
reaches the tables before the whole unit has succeeded. The draft is then written as
one batch, which holds each row that was put once and in its last version, and none
that was only read.
-/

namespace Prepaid.Ledger

/-- The tables as a unit of work finds them, the rows that it knows, and those among them that it
has put. -/
structure Draft where
  base : Tables
  kept : Batch := {}
  batch : Batch := {}

namespace Draft

/-! ## Reading -/

def orderAt? (id : OrderId) (draft : Draft) : Option Order :=
  (draft.kept.orders.get? id).or (draft.base.orders.get? id)

def walletAt? (owner : UserId) (draft : Draft) : Option Wallet :=
  (draft.kept.wallets.get? owner).or (draft.base.wallets.get? owner)

def entryAt? (id : EntryId) (draft : Draft) : Option Entry :=
  (draft.kept.entries.get? id).or (draft.base.entries.get? id)

/-- The entry that holds money for an order. An entry that is kept hides its version in the
tables. -/
def pendingHold? (order : OrderId) (draft : Draft) : Option Entry :=
  (draft.kept.entries.values.find? fun entry => entry.order = some order && entry.isPendingHold).or
    ((draft.base.pendingHold? order).filter fun entry => !draft.kept.entries.contains entry.id)

/-! ## Keeping what is read -/

def keepOrder (id : OrderId) (order : Order) (draft : Draft) : Draft :=
  { draft with kept := { draft.kept with orders := draft.kept.orders.put id order } }

def keepWallet (owner : UserId) (wallet : Wallet) (draft : Draft) : Draft :=
  { draft with kept := { draft.kept with wallets := draft.kept.wallets.put owner wallet } }

def keepEntry (id : EntryId) (entry : Entry) (draft : Draft) : Draft :=
  { draft with kept := { draft.kept with entries := draft.kept.entries.put id entry } }

/-- Keeps the entry that holds money for an order, if there is one. -/
def keepHold (hold : Option Entry) (draft : Draft) : Draft :=
  hold.elim draft fun entry => draft.keepEntry entry.id entry

/-! ## Putting -/

def putOrder (order : Order) (draft : Draft) : Draft :=
  { draft.keepOrder order.id order with
    batch := { draft.batch with orders := draft.batch.orders.put order.id order } }

def putWallet (wallet : Wallet) (draft : Draft) : Draft :=
  { draft.keepWallet wallet.owner wallet with
    batch := { draft.batch with wallets := draft.batch.wallets.put wallet.owner wallet } }

def putEntry (entry : Entry) (draft : Draft) : Draft :=
  { draft.keepEntry entry.id entry with
    batch := { draft.batch with entries := draft.batch.entries.put entry.id entry } }

/-- Puts the record of a notice, which no unit reads. -/
def putNotice (record : NoticeRecord) (draft : Draft) : Draft :=
  { draft with batch := { draft.batch with notices := draft.batch.notices.put record.id record } }

end Draft

/-- A unit of work: it reads and puts rows, or fails as a whole. -/
abbrev Work (α : Type) : Type :=
  StateT Draft (Except Failure) α

namespace Work

/-- Ends the unit with a rejection. -/
def reject {α : Type} (rejection : Rejection) : Work α :=
  throw (.rejected rejection)

/-- A row that has to be there. -/
def demand {α : Type} (rejection : Rejection) (row : Option α) : Work α :=
  match row with
  | some row => pure row
  | none => reject rejection

/-- A step that can only be refused. -/
def rule {α : Type} (result : Except Rejection α) : Work α :=
  liftM (orReject result)

/-- Arithmetic that can overflow. -/
def arithmetic {α : Type} (result : Except Overflow α) : Work α :=
  liftM (orOverflow result)

/-- An order that is registered. -/
def order (id : OrderId) : Work Order := do
  let order ← demand (.orderNotFound id) ((← get).orderAt? id)
  modify (·.keepOrder id order)
  pure order

/-- Refuses an order identifier that is taken. -/
def newOrder (id : OrderId) : Work Unit := do
  if ((← get).orderAt? id).isSome then reject (.orderExists id)

/-- The wallet of a user, who gets an empty one if there is none. -/
def wallet (owner : UserId) (stamp : Stamp) : Work Wallet := do
  match (← get).walletAt? owner with
  | some wallet =>
    modify (·.keepWallet owner wallet)
    pure wallet
  | none =>
    let wallet := Wallet.empty stamp.wallet owner stamp.now
    modify (·.putWallet wallet)
    pure wallet

/-- The wallet with a given identifier, as its owner has it now. -/
def walletById (id : WalletId) (stamp : Stamp) : Work Wallet := do
  let known ← demand (.storage (.missingWallet id)) ((← get).base.walletById? id)
  wallet known.owner stamp

/-- An entry that is there. -/
def entry (id : EntryId) : Work Entry := do
  let entry ← demand (.entryNotFound id) ((← get).entryAt? id)
  modify (·.keepEntry id entry)
  pure entry

/-- The entry of a checkout session. -/
def sessionEntry (session : String) : Work Entry := do
  let known ← demand (.sessionNotFound session) ((← get).base.entryForSession? session)
  entry known.id

/-- The entry that holds money for an order, if there is one. -/
def pendingHold? (order : OrderId) : Work (Option Entry) := do
  let hold := (← get).pendingHold? order
  modify (·.keepHold hold)
  pure hold

def putOrder (order : Order) : Work Unit :=
  modify (·.putOrder order)

def putWallet (wallet : Wallet) : Work Unit :=
  modify (·.putWallet wallet)

def putEntry (entry : Entry) : Work Unit :=
  modify (·.putEntry entry)

def putNotice (record : NoticeRecord) : Work Unit :=
  modify (·.putNotice record)

end Work

end Prepaid.Ledger
