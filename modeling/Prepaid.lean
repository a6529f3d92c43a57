import Prepaid.Json.Record
import Prepaid.Binary64.Text
import Prepaid.Command.Kind
import Prepaid.Order.Status
import Prepaid.Rejection
import Prepaid.Entry
import Prepaid.Notice
import Prepaid.Order.Basic
import Prepaid.Settings
import Prepaid.Wallet
import Prepaid.Actor
import Prepaid.Ledger.Basic
import Prepaid.Ledger.History
import Prepaid.Ledger.Movement
import Prepaid.Ledger.Ordering
import Prepaid.Digest.Hmac
import Prepaid.Gateway.Basic
import Prepaid.Command.Basic
import Prepaid.Command.Table
import Prepaid.Ledger.Delivery
import Prepaid.LockTable
import Prepaid.Service
import Prepaid.Command.Script
import Prepaid.CommandLine
import Prepaid.Main
import Prepaid.Proofs.Ledger.Unit
import Prepaid.Proofs.Money.Exact
import Prepaid.Proofs.Ledger.Posting
import Prepaid.Proofs.Command.Coupling
import Prepaid.Proofs.Command.Rejection
import Prepaid.Proofs.Ledger.Accounting
import Prepaid.Proofs.Ledger.Credit
import Prepaid.Proofs.Ledger.Dues
import Prepaid.Proofs.Service.Books
import Prepaid.Proofs.Service.Cover
import Prepaid.Proofs.Service.TopUps
import Prepaid.Proofs.Ledger.Ruling
import Prepaid.Proofs.Service.Rulings
import Prepaid.Proofs.Service.Sessions
import Prepaid.Proofs.Service.Lifecycle
import Prepaid.Proofs.Service.Notices
import Prepaid.Proofs.Command.Mirror
import Prepaid.Proofs.Command.Amounts
import Prepaid.Proofs.Service.Isolation
import Prepaid.Proofs.Service.Indexes
import Prepaid.Proofs.Service.Confinement
import Prepaid.Proofs.Service.Trail
import Prepaid.Proofs.Service.History
import Prepaid.Proofs.Service.Cancellation
import Prepaid.Proofs.Gateway.Verification
import Prepaid.Proofs.Rows
import Prepaid.Proofs.Service.Wire
import Prepaid.Proofs.Service.Audit
import Prepaid.Proofs.LockTable
import Prepaid.Proofs.Command.Layout
import Prepaid.Proofs.Command.Limit
import Prepaid.Proofs.Gateway.Lifecycle
import Prepaid.Proofs.Command.Report
import Prepaid.Proofs.Service.Units
import Prepaid.Proofs.Money.Arithmetic
