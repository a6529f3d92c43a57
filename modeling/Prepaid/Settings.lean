import Prepaid.Json.Record
import Prepaid.Rejection

/-!
# Settings

What an operator can choose: the currency of top-ups, how long before its window
an order can still be cancelled, the largest deposit, and the length of a page of
history. `Settings.check` refuses values that no service can work with.
-/

namespace Prepaid

/-- The largest single deposit, unless the operator chooses another. -/
def usualDepositLimit : Money :=
  .ofDecimal { coefficient := 1000000, scale := 2 }

/-- The settings of the ledger's services. -/
structure Settings where
  /-- The currency that top-ups are paid in. -/
  currency : String := "usd"
  /-- How many minutes before its window an order can still be cancelled. -/
  cutoffMinutes : Int := 15
  /-- The largest single deposit or top-up. -/
  depositLimit : Money := usualDepositLimit
  /-- The number of entries on a page of history. -/
  pageSize : Nat := 20
  deriving DecidableEq, Repr

namespace Settings

instance : Inhabited Settings := ⟨{}⟩

/-- The longest span of time, in seconds. -/
abbrev longestSpan : Int := 9223372036854775

/-- The cutoff in seconds. Negative cutoffs and those beyond the longest span are refused. -/
def cutoff (settings : Settings) : Except Rejection Int :=
  if settings.cutoffMinutes < 0 then
    .error (.invalidSettings (.negativeCutoff settings.cutoffMinutes))
  else if longestSpan < settings.cutoffMinutes * 60 then
    .error (.invalidSettings (.cutoffOutOfRange settings.cutoffMinutes))
  else
    .ok (settings.cutoffMinutes * 60)

/-- Refuses the first setting that no service can work with. -/
def check (settings : Settings) : Except Rejection Unit :=
  match settings.cutoff with
  | .error rejection => .error rejection
  | .ok _ =>
    if settings.depositLimit ≤ Money.zero then
      .error (.invalidSettings (.depositLimitNotPositive settings.depositLimit))
    else if settings.pageSize = 0 then
      .error (.invalidSettings .emptyPage)
    else
      .ok ()

/-- The settings in JSON. -/
def toJson (settings : Settings) : Json :=
  .object
    [("currency", .string settings.currency),
      ("cancellation_cutoff_minutes", .ofInt settings.cutoffMinutes),
      ("max_deposit", .ofMoney settings.depositLimit),
      ("page_size", .ofInt settings.pageSize)]

/-- The settings that a tree spells; all of them have to be there. -/
def ofTree? (tree : Json.Tree) : Option Settings :=
  match tree.fields? ["currency", "cancellation_cutoff_minutes", "max_deposit", "page_size"] with
  | some [currency, cutoff, limit, size] => do
    let currency ← currency.required?.bind Json.Tree.text?
    let cutoffMinutes ← cutoff.required?.bind Json.Tree.signed?
    let depositLimit ← limit.required?.bind Json.Tree.money?
    let pageSize ← size.required?.bind Json.Tree.natural?
    pure { currency, cutoffMinutes, depositLimit, pageSize := pageSize.toNat }
  | _ => none

end Settings

end Prepaid
