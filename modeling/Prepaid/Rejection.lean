import Prepaid.Command.Kind
import Prepaid.Ident
import Prepaid.Money
import Prepaid.Order.Status
import Prepaid.Text.Quoted
import Prepaid.Time.Text

/-!
# Rejections

Why a call is refused. A cause that another part of the system words by itself is
carried as it is `stated`. Every rejection has a stable code, a kind that tells a
calling layer how to treat it, and a message; internal ones stay generic towards
users.
-/

namespace Prepaid

/-- What is wrong with an amount. -/
inductive AmountFault where
  | notPositive
  | aboveLimit (limit : Money)
  | stated (text : String)
  deriving DecidableEq, Repr

/-- Why somebody may not do something. -/
inductive Denial where
  | placeOrderOfOther
  | cancelOrderOfOther
  | topUpWalletOfOther
  | staffOnly (action : OrderAction)
  | stated (text : String)
  deriving DecidableEq, Repr

/-- What is wrong with the signature of a delivery, or with what it signs. -/
inductive SignatureFault where
  | unknownScheme
  | oddLength
  | invalidDigit (digit : Char) (position : Nat)
  | mismatch
  | malformedBody
  | malformedNotice
  | stated (text : String)
  deriving DecidableEq, Repr

/-- What the payment gateway refuses. -/
inductive GatewayFault where
  | unknownSession (session : String)
  | expiredSession (session : String)
  | stated (text : String)
  deriving DecidableEq, Repr

/-- What goes wrong in the store. -/
inductive StorageFault where
  | missingWallet (wallet : WalletId)
  | outage
  | stated (text : String)
  deriving DecidableEq, Repr

/-- What is wrong with a command. -/
inductive CommandFault where
  | missingColumn (kind : CommandKind) (column : Column)
  | stated (text : String)
  deriving DecidableEq, Repr

/-- What is wrong with the settings, alone or for one order. -/
inductive SettingsFault where
  | negativeCutoff (minutes : Int)
  | cutoffOutOfRange (minutes : Int)
  | depositLimitNotPositive (limit : Money)
  | emptyPage
  | deadlineOutOfRange (minutes : Int) (order : OrderId)
  | stated (text : String)
  deriving DecidableEq, Repr

/-- A record of a table that cannot be read. Records are counted from one behind the header,
columns from zero. -/
inductive TableFault where
  | unreadable (record : Nat) (column : Option Nat)
  | notUtf8 (record : Nat) (column : Nat)
  deriving DecidableEq, Repr

/-- How a calling layer should treat a rejection. -/
inductive RejectionKind where
  | validation
  | conflict
  | notFound
  | forbidden
  | external
  | internal
  deriving DecidableEq, Repr

/-- Why a call is refused. -/
inductive Rejection where
  | invalidAmount (amount : Decimal) (fault : AmountFault)
  | insufficientFunds (available required : Money)
  | invalidOrderState (order : OrderId) (status : OrderStatus) (action : OrderAction)
  | missingHold (order : OrderId)
  | holdMismatch (user : UserId) (held required : Money)
  | orderNotFound (order : OrderId)
  | orderExists (order : OrderId)
  | entryNotFound (entry : EntryId)
  | sessionNotFound (session : String)
  | deadlinePassed (order : OrderId) (deadline : Instant)
  | forbidden (denial : Denial)
  | invalidSignature (fault : SignatureFault)
  | gateway (fault : GatewayFault)
  | storage (fault : StorageFault)
  | invalidCommand (fault : CommandFault)
  | invalidSettings (fault : SettingsFault)
  | unreadableTable (fault : TableFault)
  | unreadableFile (reason : String)
  | malformedJson
  deriving DecidableEq

/-- The words for a fault of an amount. -/
def AmountFault.message : AmountFault → String
  | notPositive => "amount must be positive"
  | aboveLimit limit => "maximum deposit is " ++ limit.toText
  | stated text => text

/-- The words for a denial. -/
def Denial.message : Denial → String
  | placeOrderOfOther => "only the owner can place an order"
  | cancelOrderOfOther => "you can only cancel your own order"
  | topUpWalletOfOther => "you can only top up your own wallet"
  | staffOnly action => "only staff can " ++ action.name ++ " orders"
  | stated text => text

/-- The words for a fault of a signature. -/
def SignatureFault.message : SignatureFault → String
  | unknownScheme => "unsupported signature scheme"
  | oddLength => "malformed signature: Odd number of digits"
  | invalidDigit digit position =>
    "malformed signature: Invalid character " ++ Text.quoted digit ++ " at position " ++
      toString position
  | mismatch => "signature mismatch"
  | malformedBody => "malformed payload"
  | malformedNotice => "malformed event"
  | stated text => text

/-- The words for a fault of the gateway. -/
def GatewayFault.message : GatewayFault → String
  | unknownSession session => "unknown checkout session " ++ session
  | expiredSession session => "checkout session " ++ session ++ " expired"
  | stated text => text

/-- The words for a fault of the store. -/
def StorageFault.message : StorageFault → String
  | missingWallet wallet => "balance " ++ toString wallet ++ " not found"
  | outage => "injected failure"
  | stated text => text

/-- The words for a fault of a command. -/
def CommandFault.message : CommandFault → String
  | missingColumn kind column => kind.title ++ " needs a value in column `" ++ column.name ++ "`"
  | stated text => text

/-- The words for a fault of the settings. -/
def SettingsFault.message : SettingsFault → String
  | negativeCutoff minutes =>
    "cancellation cutoff must not be negative, got " ++ toString minutes ++ " minutes"
  | cutoffOutOfRange minutes => "cancellation cutoff of " ++ toString minutes ++
    " minutes is out of range"
  | depositLimitNotPositive limit => "max deposit must be positive, got " ++ limit.toText
  | emptyPage => "page size must be at least 1"
  | deadlineOutOfRange minutes order =>
    "cancellation cutoff of " ++ toString minutes ++ " minutes puts the deadline of order " ++
      toString order ++ " out of range"
  | stated text => text

/-- The name of a kind. -/
def RejectionKind.name : RejectionKind → String
  | validation => "validation"
  | conflict => "conflict"
  | notFound => "not_found"
  | forbidden => "forbidden"
  | external => "external"
  | internal => "internal"

namespace Rejection

/-- The stable code of a rejection, for machines. -/
def code : Rejection → String
  | invalidAmount .. => "invalid_amount"
  | insufficientFunds .. => "insufficient_funds"
  | invalidOrderState .. => "invalid_order_state"
  | missingHold .. => "missing_hold"
  | holdMismatch .. => "hold_mismatch"
  | orderNotFound .. => "order_not_found"
  | orderExists .. => "order_exists"
  | entryNotFound .. => "transaction_not_found"
  | sessionNotFound .. => "session_not_found"
  | deadlinePassed .. => "deadline_passed"
  | forbidden .. => "forbidden"
  | invalidSignature .. => "invalid_signature"
  | gateway .. => "gateway_error"
  | storage .. => "storage_error"
  | invalidCommand .. => "invalid_command"
  | invalidSettings .. => "invalid_config"
  | unreadableTable .. => "csv_error"
  | unreadableFile .. => "io_error"
  | malformedJson => "json_error"

/-- How a calling layer should treat a rejection. -/
def kind : Rejection → RejectionKind
  | invalidAmount .. | invalidCommand .. | invalidSettings .. | unreadableTable .. => .validation
  | insufficientFunds .. | invalidOrderState .. | missingHold .. | orderExists ..
  | deadlinePassed .. => .conflict
  | orderNotFound .. | entryNotFound .. | sessionNotFound .. => .notFound
  | forbidden .. => .forbidden
  | invalidSignature .. | gateway .. => .external
  | holdMismatch .. | storage .. | unreadableFile .. | malformedJson => .internal

/-- The full message. It is cut short where a reader of tables or of JSON would go on in its own
words: behind `CSV error`, behind `JSON error`, and behind a malformed payload or event. -/
def message : Rejection → String
  | invalidAmount amount fault => "Invalid amount " ++ amount.toText ++ ": " ++ fault.message
  | insufficientFunds available required =>
    "Insufficient funds: " ++ available.toText ++ " available, " ++ required.toText ++ " required"
  | invalidOrderState order status action =>
    "Order " ++ toString order ++ " is " ++ status.name ++ " and cannot be used for " ++ action.name
  | missingHold order => "Order " ++ toString order ++ " has no pending hold"
  | holdMismatch user held required =>
    "Held funds of user " ++ toString user ++ " (" ++ held.toText ++ ") do not cover " ++
      required.toText
  | orderNotFound order => "Order " ++ toString order ++ " not found"
  | orderExists order => "Order " ++ toString order ++ " already exists"
  | entryNotFound entry => "Transaction " ++ toString entry ++ " not found"
  | sessionNotFound session => "No transaction for checkout session " ++ session
  | deadlinePassed order deadline =>
    "Cancellation deadline for order " ++ toString order ++ " passed at " ++ deadline.toMessage
  | forbidden denial => "Forbidden: " ++ denial.message
  | invalidSignature fault => "Invalid webhook signature: " ++ fault.message
  | gateway fault => "Payment gateway error: " ++ fault.message
  | storage fault => "Storage error: " ++ fault.message
  | invalidCommand fault => "Invalid command: " ++ fault.message
  | invalidSettings fault => "Invalid configuration: " ++ fault.message
  | unreadableTable _ => "CSV error"
  | unreadableFile reason => "IO error: " ++ reason
  | malformedJson => "JSON error"

/-- The message for users, which says nothing about internal faults. -/
def publicMessage (rejection : Rejection) : String :=
  if rejection.kind = .internal then "The operation could not be completed." else rejection.message

/-- The code under which a rejection is shown to operators. -/
def diagnosticCode (rejection : Rejection) : String :=
  "ledger::" ++
    match rejection with
    | gateway _ => "gateway"
    | storage _ => "storage"
    | unreadableTable _ => "csv"
    | unreadableFile _ => "io"
    | malformedJson => "json"
    | other => other.code

end Rejection

/-- How a call ends without a value: it is refused, or a sum of money is too large to compute
with. -/
inductive Failure where
  | rejected (rejection : Rejection)
  | overflow (overflow : Overflow)
  deriving DecidableEq

/-- A step that can only be refused, among steps that may fail in other ways. -/
def orReject {α : Type} : Except Rejection α → Except Failure α
  | .ok value => .ok value
  | .error rejection => .error (.rejected rejection)

/-- Arithmetic, among steps that may fail in other ways. -/
def orOverflow {α : Type} : Except Overflow α → Except Failure α
  | .ok value => .ok value
  | .error overflow => .error (.overflow overflow)

namespace Amount

/-- A decimal as an amount; anything not above zero is refused. -/
def ofDecimal (value : Decimal) : Except Rejection Amount :=
  match ofDecimal? value with
  | some amount => .ok amount
  | none => .error (.invalidAmount value .notPositive)

end Amount

end Prepaid
