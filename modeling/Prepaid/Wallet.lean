import Prepaid.Json.Record
import Prepaid.Rejection

/-!
# Wallets

A wallet holds what a user owns. Part of it can be held for open orders; what is
not held is available. Money is credited, reserved, released and settled, and
each of these either succeeds as a whole or leaves the wallet as it was.
-/

namespace Prepaid

/-- What a user sees of a wallet. -/
structure Balance where
  owner : UserId
  current : Money
  held : Money
  available : Money
  deriving DecidableEq, Repr

/-- The wallet of one user. -/
structure Wallet where
  id : WalletId
  owner : UserId
  current : Money
  held : Money
  createdAt : Instant
  updatedAt : Instant
  deriving DecidableEq

/-- The balance of a user who has no wallet. -/
def Balance.empty (owner : UserId) : Balance :=
  { owner, current := .zero, held := .zero, available := .zero }

namespace Wallet

/-- A wallet with nothing in it. -/
def empty (id : WalletId) (owner : UserId) (now : Instant) : Wallet :=
  { id, owner, current := .zero, held := .zero, createdAt := now, updatedAt := now }

/-- What can be held for further orders. -/
def available (wallet : Wallet) : Except Overflow Money :=
  wallet.current.sub wallet.held

/-- The balance of the wallet. -/
def balance (wallet : Wallet) : Except Overflow Balance := do
  let available ← wallet.available
  pure { owner := wallet.owner, current := wallet.current, held := wallet.held, available }

/-- Adds to what the user owns. -/
def credit (amount : Amount) (now : Instant) (wallet : Wallet) : Except Overflow Wallet := do
  let current ← wallet.current.add amount.money
  pure { wallet with current, updatedAt := now }

/-- Holds an amount, if so much is available. -/
def reserve (amount : Amount) (now : Instant) (wallet : Wallet) : Except Failure Wallet := do
  let available ← orOverflow wallet.available
  if available < amount.money then
    throw (.rejected (.insufficientFunds available amount.money))
  let held ← orOverflow (wallet.held.add amount.money)
  pure { wallet with held, updatedAt := now }

/-- Refuses to give back or to spend more than is held, or than is there. -/
def requireHeld (amount : Amount) (wallet : Wallet) : Except Failure Unit :=
  if wallet.held < amount.money ∨ wallet.current < amount.money then
    .error (.rejected (.holdMismatch wallet.owner wallet.held amount.money))
  else
    .ok ()

/-- Makes a held amount available again. -/
def release (amount : Amount) (now : Instant) (wallet : Wallet) : Except Failure Wallet := do
  wallet.requireHeld amount
  let held ← orOverflow (wallet.held.sub amount.money)
  pure { wallet with held, updatedAt := now }

/-- Spends a held amount. -/
def settle (amount : Amount) (now : Instant) (wallet : Wallet) : Except Failure Wallet := do
  wallet.requireHeld amount
  let held ← orOverflow (wallet.held.sub amount.money)
  let current ← orOverflow (wallet.current.sub amount.money)
  pure { wallet with held, current, updatedAt := now }

/-- A stored wallet in JSON. -/
def toJson (wallet : Wallet) : Json :=
  .object
    [("id", .ofUuid wallet.id.val),
      ("user_id", .ofNatural wallet.owner.val),
      ("current_balance", .ofMoney wallet.current),
      ("on_hold", .ofMoney wallet.held),
      ("created_at", .ofInstant wallet.createdAt),
      ("updated_at", .ofInstant wallet.updatedAt)]

/-- The wallet that a tree spells. -/
def ofTree? (tree : Json.Tree) : Option Wallet :=
  match tree.fields? ["id", "user_id", "current_balance", "on_hold", "created_at", "updated_at"]
    with
  | some [id, owner, current, held, createdAt, updatedAt] => do
    let id ← id.required?.bind Json.Tree.uuid?
    let owner ← owner.required?.bind Json.Tree.natural?
    let current ← current.required?.bind Json.Tree.money?
    let held ← held.required?.bind Json.Tree.money?
    let createdAt ← createdAt.required?.bind Json.Tree.instant?
    let updatedAt ← updatedAt.required?.bind Json.Tree.instant?
    pure { id := ⟨id⟩, owner := ⟨owner⟩, current, held, createdAt, updatedAt }
  | _ => none

end Wallet

namespace Balance

/-- A balance in JSON. -/
def toJson (balance : Balance) : Json :=
  .object
    [("user_id", .ofNatural balance.owner.val),
      ("current_balance", .ofMoney balance.current),
      ("on_hold", .ofMoney balance.held),
      ("available", .ofMoney balance.available)]

/-- The balance that a tree spells. -/
def ofTree? (tree : Json.Tree) : Option Balance :=
  match tree.fields? ["user_id", "current_balance", "on_hold", "available"] with
  | some [owner, current, held, available] => do
    let owner ← owner.required?.bind Json.Tree.natural?
    let current ← current.required?.bind Json.Tree.money?
    let held ← held.required?.bind Json.Tree.money?
    let available ← available.required?.bind Json.Tree.money?
    pure { owner := ⟨owner⟩, current, held, available }
  | _ => none

end Balance

end Prepaid
