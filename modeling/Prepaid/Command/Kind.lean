/-!
# Kinds of commands

A command file has one command in each row. The columns have names, and every
kind of command uses some of them.
-/

namespace Prepaid

/-- What a command asks for. -/
inductive CommandKind where
  | deposit
  | order
  | place
  | prepare
  | capture
  | complete
  | cancel
  | refund
  | checkout
  | webhook
  | sync
  | expire
  deriving DecidableEq, Repr

namespace CommandKind

/-- All kinds. -/
def all : List CommandKind :=
  [deposit, order, place, prepare, capture, complete, cancel, refund, checkout, webhook, sync,
    expire]

/-- The name of a kind in a command file. -/
def name : CommandKind → String
  | deposit => "deposit"
  | order => "order"
  | place => "place"
  | prepare => "prepare"
  | capture => "capture"
  | complete => "complete"
  | cancel => "cancel"
  | refund => "refund"
  | checkout => "checkout"
  | webhook => "webhook"
  | sync => "sync"
  | expire => "expire"

/-- The name of a kind in messages. -/
def title (kind : CommandKind) : String :=
  kind.name.capitalize

/-- The kind with a given name. -/
def ofName? (text : String) : Option CommandKind :=
  all.find? fun kind => kind.name = text

end CommandKind

/-- A column of a command file. -/
inductive Column where
  | op
  | user
  | order
  | amount
  | instant
  | session
  | event
  deriving DecidableEq, Repr

namespace Column

/-- All columns, in their usual order. -/
def all : List Column :=
  [op, user, order, amount, instant, session, event]

/-- The name of a column. -/
def name : Column → String
  | op => "op"
  | user => "user"
  | order => "order"
  | amount => "amount"
  | instant => "at"
  | session => "session"
  | event => "event"

/-- The column with a given name. -/
def ofName? (text : String) : Option Column :=
  all.find? fun column => column.name = text

end Column

end Prepaid
