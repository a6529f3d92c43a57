import Prepaid.Command.Kind
import Prepaid.Rejection

/-!
# Commands

A command is one row of a command file: what it asks for, and a value or none in
each of the other columns. Asking for a value that is not there is a rejection.
-/

namespace Prepaid

/-- A command. -/
structure Command where
  kind : CommandKind
  user : Option UserId := none
  order : Option OrderId := none
  amount : Option Decimal := none
  instant : Option Instant := none
  session : Option String := none
  event : Option String := none
  deriving DecidableEq

namespace Command

/-- The value of a column, if it is there. -/
def demand {α : Type} (column : Column) (value : Option α) (command : Command) :
    Except Rejection α :=
  match value with
  | some value => .ok value
  | none => .error (.invalidCommand (.missingColumn command.kind column))

def demandUser (command : Command) : Except Rejection UserId :=
  command.demand .user command.user

def demandOrder (command : Command) : Except Rejection OrderId :=
  command.demand .order command.order

def demandAmount (command : Command) : Except Rejection Decimal :=
  command.demand .amount command.amount

def demandInstant (command : Command) : Except Rejection Instant :=
  command.demand .instant command.instant

/-- The alias of a checkout session; an empty one counts as missing. -/
def demandSession (command : Command) : Except Rejection String :=
  command.demand .session (command.session.filter (· ≠ ""))

/-- The identifier of a notice; an empty one counts as missing. -/
def demandEvent (command : Command) : Except Rejection String :=
  command.demand .event (command.event.filter (· ≠ ""))

/-- Whether a column has a value. -/
def has (command : Command) : Column → Bool
  | .op => true
  | .user => command.demandUser.isOk
  | .order => command.demandOrder.isOk
  | .amount => command.demandAmount.isOk
  | .instant => command.demandInstant.isOk
  | .session => command.demandSession.isOk
  | .event => command.demandEvent.isOk

/-- The columns without a value, in their usual order. -/
def missing (command : Command) : List Column :=
  Column.all.filter fun column => !command.has column

end Command

end Prepaid
