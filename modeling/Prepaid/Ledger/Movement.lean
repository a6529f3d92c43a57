import Prepaid.Ledger.Basic
import Prepaid.Settings

/-!
# Movements of money

These calls are the only ones that change wallets or write entries. Each is one
unit of work. Where an order is concerned its state is checked first and moves on
in the same unit, so that orders and entries never disagree.
-/

namespace Prepaid

/-- What a call that moves money hands back. -/
structure Receipt where
  balance : Balance
  entry : Option Entry
  order : Option Order

/-- A decimal as the amount of a deposit: above zero when rounded to cents, and within the limit. -/
def Settings.depositAmount (settings : Settings) (value : Decimal) : Except Rejection Amount := do
  let amount ← Amount.ofDecimal value
  if settings.depositLimit < amount.money then
    throw (.invalidAmount value (.aboveLimit settings.depositLimit))
  pure amount

namespace Ledger

/-- The receipt for a committed wallet. -/
def receipt (wallet : Wallet) (entry : Option Entry) (order : Option Order) : Call Receipt := do
  let balance ← arithmetic wallet.balance
  pure { balance, entry, order }

/-- Credits an amount to a user at once. -/
def deposit (settings : Settings) (user : UserId) (value : Decimal) (stamp : Stamp) :
    Call Receipt := do
  let amount ← rule (settings.depositAmount value)
  let (wallet, entry) ← transact do
    let wallet ← Work.wallet user stamp
    let wallet ← Work.arithmetic (wallet.credit amount stamp.now)
    let entry := Entry.deposit stamp.entry wallet.id amount wallet.current stamp.now
    Work.putWallet wallet
    Work.putEntry entry
    pure (wallet, entry)
  receipt wallet (some entry) none

/-- Records a top-up that the payment gateway has not confirmed yet. The wallet does not change. -/
def recordTopUp (user : UserId) (amount : Amount) (session : String) (stamp : Stamp) :
    Call Receipt := do
  let (wallet, entry) ← transact do
    let wallet ← Work.wallet user stamp
    let entry := Entry.pendingDeposit stamp.entry wallet.id amount wallet.current session stamp.now
    Work.putEntry entry
    pure (wallet, entry)
  receipt wallet (some entry) none

/-- Completes the top-up of a checkout session and credits its owner. A top-up that is not pending
any more is left alone, so a confirmation that is repeated does no harm. -/
def confirmTopUp (session : String) (payment : Option String) (stamp : Stamp) :
    Call (Option Receipt) := do
  let confirmed ← transact do
    let entry ← Work.sessionEntry session
    if entry.status = .pending then
      let wallet ← Work.walletById entry.wallet stamp
      let wallet ← Work.arithmetic (wallet.credit entry.amount stamp.now)
      let entry := entry.confirm payment wallet.current stamp.now
      Work.putWallet wallet
      Work.putEntry entry
      pure (some (wallet, entry))
    else
      pure none
  match confirmed with
  | some (wallet, entry) => some <$> receipt wallet (some entry) none
  | none => pure none

/-- Holds the total of a pending order from what its customer has available. -/
def hold (id : OrderId) (stamp : Stamp) : Call Receipt := do
  let (wallet, entry, order) ← transact do
    let order ← Work.order id
    Work.rule (order.require [.pending] .hold)
    let wallet ← Work.wallet order.customer stamp
    let wallet ← liftM (wallet.reserve order.total stamp.now)
    let entry := Entry.hold stamp.entry wallet.id id order.total wallet.current stamp.now
    let order ← Work.rule (order.advance .confirmed .hold stamp.now)
    Work.putWallet wallet
    Work.putEntry entry
    Work.putOrder order
    pure (wallet, entry, order)
  receipt wallet (some entry) (some order)

/-- The states in which an order is not paid yet. -/
def unpaid : List OrderStatus :=
  [.pending, .confirmed, .preparing]

/-- Turns the hold of an order into its payment. The entry of the hold becomes that of the
payment. -/
def capture (id : OrderId) (stamp : Stamp) : Call Receipt := do
  let (wallet, entry, order) ← transact do
    let order ← Work.order id
    Work.rule (order.require unpaid .capture)
    let wallet ← Work.wallet order.customer stamp
    let entry ← Work.demand (.missingHold id) (← Work.pendingHold? id)
    let wallet ← liftM (wallet.settle entry.amount stamp.now)
    let entry := entry.capture wallet.current stamp.now
    let order ← Work.rule (order.advance .paid .capture stamp.now)
    Work.putWallet wallet
    Work.putEntry entry
    Work.putOrder order
    pure (wallet, entry, order)
  receipt wallet (some entry) (some order)

/-- Cancels an order that is not paid and gives its hold back. A pending order has no hold yet. The
precondition is asked about the order before anything else happens. -/
def release (id : OrderId) (precondition : Order → Except Rejection Unit) (stamp : Stamp) :
    Call Receipt := do
  let (wallet, order) ← transact do
    let order ← Work.order id
    Work.rule (order.require unpaid .release)
    Work.rule (precondition order)
    let wallet ← Work.wallet order.customer stamp
    let wallet ←
      match ← Work.pendingHold? id with
      | some entry => do
        let wallet ← liftM (wallet.release entry.amount stamp.now)
        Work.putWallet wallet
        Work.putEntry (entry.cancel stamp.now)
        pure wallet
      | none =>
        if order.status = .pending then pure wallet else Work.reject (.missingHold id)
    let order ← Work.rule (order.advance .cancelled .release stamp.now)
    Work.putOrder order
    pure (wallet, order)
  receipt wallet none (some order)

/-- Gives the total of a paid order back to its customer. -/
def refund (id : OrderId) (stamp : Stamp) : Call Receipt := do
  let (wallet, entry, order) ← transact do
    let order ← Work.order id
    Work.rule (order.require [.paid, .completed] .refund)
    let wallet ← Work.wallet order.customer stamp
    let wallet ← Work.arithmetic (wallet.credit order.total stamp.now)
    let entry := Entry.refund stamp.entry wallet.id id order.total wallet.current stamp.now
    let order ← Work.rule (order.advance .cancelled .refund stamp.now)
    Work.putWallet wallet
    Work.putEntry entry
    Work.putOrder order
    pure (wallet, entry, order)
  receipt wallet (some entry) (some order)

end Ledger

end Prepaid
