import Prepaid.Entry
import Prepaid.Order.Basic
import Prepaid.Proofs.Json.Record
import Prepaid.Wallet

/-!
# Stored rows

Wallets, orders and entries are stored as JSON. Whatever is in a row, its text is
accepted and gives an equal row. A row that has been read from any text is written with
a text that stays the same from then on, with one exception: a balance can be read as a
zero with a minus sign, which the first text shows and the second does not.
-/

namespace Prepaid

/-- How rows of a kind are stored: what is written, what is read, and which rows are equal. The
balances of a row are the sums in it that may be zero or less. -/
structure RowFormat (α : Type) where
  toJson : α → Json
  ofTree? : Json.Tree → Option α
  Same : α → α → Prop
  balances : α → List Money

namespace RowFormat

variable {α : Type} (format : RowFormat α)

/-- The text of a row. -/
def toText (row : α) : String :=
  (format.toJson row).toText

/-- The row that a text spells, if it spells one. -/
def ofText? (text : String) : Option α :=
  (Json.Tree.ofText? text).bind format.ofTree?

/-- No balance of the row is a zero with a minus sign. -/
def Plain (row : α) : Prop :=
  ∀ balance ∈ format.balances row, balance.isMinusZero = false

/-- What it means that a row survives being written and read. It is read back as an equal row
without a zero with a minus sign. If some text spells the row, then its own text stays the same when
it is read and written again, unless one of its balances is such a zero. -/
def RoundTrips (row : α) : Prop :=
  ∃ again, format.ofText? (format.toText row) = some again ∧ format.Same again row ∧
    format.Plain again ∧ ∀ text, format.ofText? text = some row →
      (format.toText again = format.toText row ↔ format.Plain row)

/-- What is shown of a kind of rows: the row that each one is read back as. -/
structure Rereading (reread : α → α) : Prop where
  recorded : ∀ row, (format.toJson row).Recorded
  row : ∀ row, format.ofTree? (format.toJson row).respelled = some (reread row)
  same : ∀ row, format.Same (reread row) row
  plain : ∀ row, format.Plain (reread row)
  fixed : ∀ {tree row}, format.ofTree? tree = some row → format.Plain row → reread row = row
  shown : ∀ {tree row}, format.ofTree? tree = some row →
    (format.toJson (reread row)).respelled = (format.toJson row).respelled → format.Plain row

variable {format} {reread : α → α}

namespace Rereading

/-- The text of a row is read as the row it is reread as. -/
theorem ofText?_toText (rereading : format.Rereading reread) (row : α) :
    format.ofText? (format.toText row) = some (reread row) := by
  rw [ofText?, toText, Json.ofText?_toText_of_recorded (rereading.recorded row), Option.bind_some,
    rereading.row]

/-- Equal texts are read as equal trees. -/
theorem respelled_eq (rereading : format.Rereading reread) {left right : α}
    (same : format.toText left = format.toText right) :
    (format.toJson left).respelled = (format.toJson right).respelled := by
  have leftRead := Json.ofText?_toText_of_recorded (rereading.recorded left)
  have rightRead := Json.ofText?_toText_of_recorded (rereading.recorded right)
  rw [toText, toText] at same
  rw [same, rightRead] at leftRead
  exact (Option.some.inj leftRead).symm

/-- A format that is reread survives being written and read. -/
theorem roundTrips (rereading : format.Rereading reread) (row : α) : format.RoundTrips row := by
  refine ⟨reread row, rereading.ofText?_toText row, rereading.same row, rereading.plain row,
    fun text read => ?_⟩
  obtain ⟨tree, _, decoded⟩ := Option.bind_eq_some_iff.mp read
  constructor
  · intro same
    exact rereading.shown decoded (rereading.respelled_eq same)
  · intro plain
    rw [rereading.fixed decoded plain]

end Rereading

end RowFormat

/-! ## Wallets -/

namespace Wallet

/-- Wallets are equal if their sums are worth the same and all else is equal. -/
def Same (left right : Wallet) : Prop :=
  left = { right with current := left.current, held := left.held } ∧
    left.current.cents = right.current.cents ∧ left.held.cents = right.held.cents

/-- How wallets are stored. -/
def rowFormat : RowFormat Wallet where
  toJson := toJson
  ofTree? := ofTree?
  Same := Same
  balances wallet := [wallet.current, wallet.held]

/-- The wallet that a written one is read as. -/
def reread (wallet : Wallet) : Wallet :=
  { wallet with current := wallet.current.reread, held := wallet.held.reread }

/-- A wallet is written as records are. -/
theorem recorded_toJson (wallet : Wallet) : wallet.toJson.Recorded :=
  ⟨trivial, Json.recorded_ofNatural _, trivial, trivial, trivial, trivial, trivial⟩

/-- The fields of a written wallet are read in their order. -/
theorem fields?_respelled (wallet : Wallet) :
    wallet.toJson.respelled.fields?
        ["id", "user_id", "current_balance", "on_hold", "created_at", "updated_at"] =
      some
        [.given (Json.ofUuid wallet.id.val).respelled,
          .given (Json.ofNatural wallet.owner.val).respelled,
          .given (Json.ofMoney wallet.current).respelled,
          .given (Json.ofMoney wallet.held).respelled,
          .given (Json.ofInstant wallet.createdAt).respelled,
          .given (Json.ofInstant wallet.updatedAt).respelled] := rfl

/-- A written wallet is read as the one it is reread as. -/
theorem ofTree?_respelled (wallet : Wallet) :
    ofTree? wallet.toJson.respelled = some wallet.reread := by
  simp [ofTree?, fields?_respelled, Json.Field.required?, reread]

/-- The sums of a wallet are quantized as they are read. -/
theorem quantized_of_ofTree? {tree : Json.Tree} {wallet : Wallet}
    (read : ofTree? tree = some wallet) :
    wallet.current.Quantized ∧ wallet.held.Quantized := by
  unfold ofTree? at read
  split at read
  · simp only [Option.bind_eq_bind, Option.bind_eq_some_iff, Option.pure_def, Option.some.injEq]
      at read
    obtain ⟨_, _, _, _, _, ⟨_, _, current⟩, _, ⟨_, _, held⟩, _, _, _, _, rfl⟩ := read
    exact ⟨Json.Tree.quantized_of_money? current, Json.Tree.quantized_of_money? held⟩
  · cases read

/-- A wallet that is written again as it was has no minus zero. -/
theorem plain_of_respelled {tree : Json.Tree} {wallet : Wallet} (read : ofTree? tree = some wallet)
    (same : wallet.reread.toJson.respelled = wallet.toJson.respelled) : rowFormat.Plain wallet := by
  obtain ⟨current, held⟩ := quantized_of_ofTree? read
  simp only [toJson, reread, Json.respelled, Json.respelledMembers, Json.Tree.object.injEq,
    List.cons.injEq, Prod.mk.injEq, true_and, and_true,
    Json.Tree.respelled_ofMoney_reread_iff current,
    Json.Tree.respelled_ofMoney_reread_iff held] at same
  simp only [RowFormat.Plain, rowFormat, List.forall_mem_cons]
  exact ⟨same.1, same.2, by simp⟩

/-- Wallets are reread. -/
theorem rereading : rowFormat.Rereading reread where
  recorded := recorded_toJson
  row := ofTree?_respelled
  same _ := ⟨rfl, Money.cents_reread _, Money.cents_reread _⟩
  plain wallet := by simp [RowFormat.Plain, rowFormat, reread, Money.isMinusZero_reread]
  fixed read plain := by
    obtain ⟨current, held⟩ := quantized_of_ofTree? read
    simp only [RowFormat.Plain, rowFormat, List.forall_mem_cons] at plain
    simp only [reread, current.reread_eq plain.1, held.reread_eq plain.2.1]
  shown := plain_of_respelled

end Wallet

/-! ## Orders -/

namespace Order

/-- Orders are equal if their totals are worth the same and all else is equal. -/
def Same (left right : Order) : Prop :=
  left = { right with total := left.total } ∧ left.total.cents = right.total.cents

/-- How orders are stored. A total is above zero, so no sum of an order can be zero. -/
def rowFormat : RowFormat Order where
  toJson := toJson
  ofTree? := ofTree?
  Same := Same
  balances _ := []

/-- The order that a written one is read as. -/
def reread (order : Order) : Order :=
  { order with total := order.total.reread }

/-- An order is written as records are. -/
theorem recorded_toJson (order : Order) : order.toJson.Recorded :=
  ⟨Json.recorded_ofNatural _, Json.recorded_ofNatural _, trivial, trivial, trivial, trivial,
    trivial, trivial⟩

/-- The fields of a written order are read in their order. -/
theorem fields?_respelled (order : Order) :
    order.toJson.respelled.fields?
        ["id", "user_id", "total_amount", "status", "scheduled_window_start", "created_at",
          "updated_at"] =
      some
        [.given (Json.ofNatural order.id.val).respelled,
          .given (Json.ofNatural order.customer.val).respelled,
          .given (Json.ofMoney order.total.money).respelled,
          .given (Json.string order.status.name).respelled,
          .given (Json.ofInstant order.windowStart).respelled,
          .given (Json.ofInstant order.createdAt).respelled,
          .given (Json.ofInstant order.updatedAt).respelled] := rfl

/-- A state is read back from its name. -/
theorem ofTree?_name (status : OrderStatus) :
    OrderStatus.ofTree? (Json.string status.name).respelled = some status := by
  cases status <;> rfl

/-- A written order is read as the one it is reread as. -/
theorem ofTree?_respelled (order : Order) : ofTree? order.toJson.respelled = some order.reread := by
  simp [ofTree?, fields?_respelled, ofTree?_name, Json.Field.required?, reread]

/-- The total of an order is quantized as it is read. -/
theorem quantized_of_ofTree? {tree : Json.Tree} {order : Order} (read : ofTree? tree = some order) :
    order.total.money.Quantized := by
  unfold ofTree? at read
  split at read
  · simp only [Option.bind_eq_bind, Option.bind_eq_some_iff, Option.pure_def, Option.some.injEq]
      at read
    obtain ⟨_, _, _, _, _, ⟨_, _, total⟩, _, _, _, _, _, _, _, _, rfl⟩ := read
    exact Json.Tree.quantized_of_amount? total
  · cases read

/-- Orders are reread. -/
theorem rereading : rowFormat.Rereading reread where
  recorded := recorded_toJson
  row := ofTree?_respelled
  same _ := ⟨rfl, Money.cents_reread _⟩
  plain _ := by simp [RowFormat.Plain, rowFormat]
  fixed read _ := by simp only [reread, Amount.reread_eq (quantized_of_ofTree? read)]
  shown _ _ := by simp [RowFormat.Plain, rowFormat]

end Order

/-! ## Entries -/

namespace Entry

/-- Entries are equal if their sums are worth the same and all else is equal. -/
def Same (left right : Entry) : Prop :=
  left = { right with amount := left.amount, balanceAfter := left.balanceAfter } ∧
    left.amount.cents = right.amount.cents ∧ left.balanceAfter.cents = right.balanceAfter.cents

/-- How entries are stored. -/
def rowFormat : RowFormat Entry where
  toJson := toJson
  ofTree? := ofTree?
  Same := Same
  balances entry := [entry.balanceAfter]

/-- The entry that a written one is read as. -/
def reread (entry : Entry) : Entry :=
  { entry with amount := entry.amount.reread, balanceAfter := entry.balanceAfter.reread }

/-- The order of an entry as it is written. -/
abbrev orderToJson (order : Option OrderId) : Json :=
  .ofOption (fun order => .ofNatural order.val) order

/-- The reference of an entry is written as records are. -/
theorem recorded_referenceToJson (reference : GatewayReference) :
    (referenceToJson reference).Recorded := by
  have each (content : String) : (Json.string content).Recorded := trivial
  exact ⟨Json.recorded_ofOption each _, Json.recorded_ofOption each _, trivial⟩

/-- An entry is written as records are. -/
theorem recorded_toJson (entry : Entry) : entry.toJson.Recorded := by
  have each (order : OrderId) : (Json.ofNatural order.val).Recorded := Json.recorded_ofNatural _
  exact ⟨trivial, trivial, Json.recorded_ofOption each _, trivial, trivial, trivial, trivial,
    recorded_referenceToJson _, trivial, trivial, trivial⟩

/-- The fields of a written entry are read in their order. -/
theorem fields?_respelled (entry : Entry) :
    entry.toJson.respelled.fields?
        ["id", "balance_id", "order_id", "type", "amount", "remaining_balance", "status", "gateway",
          "created_at", "updated_at"] =
      some
        [.given (Json.ofUuid entry.id.val).respelled,
          .given (Json.ofUuid entry.wallet.val).respelled,
          .given (orderToJson entry.order).respelled,
          .given (Json.string entry.kind.name).respelled,
          .given (Json.ofMoney entry.amount.money).respelled,
          .given (Json.ofMoney entry.balanceAfter).respelled,
          .given (Json.string entry.status.name).respelled,
          .given (referenceToJson entry.reference).respelled,
          .given (Json.ofInstant entry.createdAt).respelled,
          .given (Json.ofInstant entry.updatedAt).respelled] := rfl

/-- A kind is read back from its name. -/
theorem ofTree?_kindName (kind : EntryKind) :
    EntryKind.ofTree? (Json.string kind.name).respelled = some kind := by
  cases kind <;> rfl

/-- A status is read back from its name. -/
theorem ofTree?_statusName (status : EntryStatus) :
    EntryStatus.ofTree? (Json.string status.name).respelled = some status := by
  cases status <;> rfl

/-- The reference of an entry is read back. -/
theorem referenceOfTree?_respelled (reference : GatewayReference) :
    referenceOfTree? (referenceToJson reference).respelled = some reference := by
  obtain ⟨session, payment⟩ := reference
  cases session <;> cases payment <;> rfl

/-- The order of an entry is read back, or that there is none. -/
theorem optional?_order (order : Option OrderId) :
    (Json.Field.given (orderToJson order).respelled).optional? Json.Tree.natural? =
      some (order.map OrderId.val) := by
  cases order with
  | none => rfl
  | some order => exact congrArg (Option.map some) (Json.Tree.natural?_ofNatural order.val)

/-- A written entry is read as the one it is reread as. -/
theorem ofTree?_respelled (entry : Entry) : ofTree? entry.toJson.respelled = some entry.reread := by
  have order : (entry.order.map OrderId.val).map OrderId.mk = entry.order := by
    cases entry.order <;> rfl
  simp [ofTree?, fields?_respelled, ofTree?_kindName, ofTree?_statusName,
    referenceOfTree?_respelled, optional?_order, Json.Field.required?, Json.Field.withDefault?,
    reread, order]

/-- The sums of an entry are quantized as they are read. -/
theorem quantized_of_ofTree? {tree : Json.Tree} {entry : Entry} (read : ofTree? tree = some entry) :
    entry.amount.money.Quantized ∧ entry.balanceAfter.Quantized := by
  unfold ofTree? at read
  split at read
  · simp only [Option.bind_eq_bind, Option.bind_eq_some_iff, Option.pure_def, Option.some.injEq]
      at read
    obtain ⟨_, _, _, _, _, _, _, _, _, ⟨_, _, amount⟩, _, ⟨_, _, after⟩, _, _, _, _, _, _, _, _,
        rfl⟩ := read
    exact ⟨Json.Tree.quantized_of_amount? amount, Json.Tree.quantized_of_money? after⟩
  · cases read

/-- An entry that is written again as it was has no minus zero. -/
theorem plain_of_respelled {tree : Json.Tree} {entry : Entry} (read : ofTree? tree = some entry)
    (same : entry.reread.toJson.respelled = entry.toJson.respelled) : rowFormat.Plain entry := by
  obtain ⟨_, after⟩ := quantized_of_ofTree? read
  simp only [toJson, reread, Json.respelled, Json.respelledMembers, Json.Tree.object.injEq,
    List.cons.injEq, Prod.mk.injEq, true_and, and_true,
    Json.Tree.respelled_ofMoney_reread_iff after] at same
  simp only [RowFormat.Plain, rowFormat, List.forall_mem_cons]
  exact ⟨same.2, by simp⟩

/-- Entries are reread. -/
theorem rereading : rowFormat.Rereading reread where
  recorded := recorded_toJson
  row := ofTree?_respelled
  same _ := ⟨rfl, Money.cents_reread _, Money.cents_reread _⟩
  plain entry := by simp [RowFormat.Plain, rowFormat, reread, Money.isMinusZero_reread]
  fixed read plain := by
    obtain ⟨amount, after⟩ := quantized_of_ofTree? read
    simp only [RowFormat.Plain, rowFormat, List.forall_mem_cons] at plain
    simp only [reread, Amount.reread_eq amount, after.reread_eq plain.1]
  shown := plain_of_respelled

end Entry

/-! ## All rows -/

/-- The kinds of rows. -/
inductive RowKind where
  | wallet
  | order
  | entry

namespace RowKind

/-- The rows of a kind. -/
def Row : RowKind → Type
  | wallet => Wallet
  | order => Order
  | entry => Entry

/-- How rows of a kind are stored. -/
def format : (kind : RowKind) → RowFormat kind.Row
  | wallet => Wallet.rowFormat
  | order => Order.rowFormat
  | entry => Entry.rowFormat

end RowKind

/-- Whatever is in a row, it is read back from its text. The text of a row that has been read is its
text for good, unless one of its balances is a zero with a minus sign: then the text shows the sign,
and the text of the row that is read back does not. -/
theorem rows_round_trip (kind : RowKind) (row : kind.Row) : kind.format.RoundTrips row := by
  cases kind with
  | wallet => exact Wallet.rereading.roundTrips row
  | order => exact Order.rereading.roundTrips row
  | entry => exact Entry.rereading.roundTrips row

namespace Wallet

/-- A wallet with a debt that its exponent rounds to nothing, as a text may have it. -/
def minusZeroJson : Json :=
  .object
    [("id", .string "11111111-2222-4333-8444-555555555555"),
      ("user_id", .ofNatural 3),
      ("current_balance", .string "-0.01e-28"),
      ("on_hold", .string "0"),
      ("created_at", .string "1970-01-01T00:00:00Z"),
      ("updated_at", .string "1970-01-01T00:00:00Z")]

/-- The wallet that is read from it. -/
def minusZero : Wallet where
  id := ⟨⟨0x11111111222243338444555555555555#128⟩⟩
  owner := ⟨3⟩
  current := .ofDecimal { Decimal.zero with negative := true }
  held := .ofDecimal .zero
  createdAt := .epoch
  updatedAt := .epoch

/-- The debt is read as a zero that keeps its sign. -/
theorem ofTree?_minusZeroJson : ofTree? minusZeroJson.respelled = some minusZero := by
  have id : Uuid.ofText? "11111111-2222-4333-8444-555555555555" = some minusZero.id.val := by
    decide +kernel
  have debt : (Decimal.ofText? "-0.01e-28").map Money.ofDecimal = some minusZero.current := by
    decide +kernel
  have held : (Decimal.ofText? "0").map Money.ofDecimal = some minusZero.held := by decide +kernel
  have epoch : Instant.ofText? "1970-01-01T00:00:00Z" = some .epoch := by decide +kernel
  have fields : minusZeroJson.respelled.fields?
      ["id", "user_id", "current_balance", "on_hold", "created_at", "updated_at"] =
        some
          [.given (.string "11111111-2222-4333-8444-555555555555"),
            .given (Json.ofNatural 3).respelled, .given (.string "-0.01e-28"), .given (.string "0"),
            .given (.string "1970-01-01T00:00:00Z"), .given (.string "1970-01-01T00:00:00Z")] := rfl
  simp [ofTree?, fields, Json.Field.required?, Json.Tree.uuid?, Json.Tree.text?, Json.Tree.money?,
    Json.Tree.decimal?, Json.Tree.instant?, id, debt, held, epoch]
  rfl

/-- A balance of minus zero is shown with its sign first and without it then. -/
theorem minusZero_loses_sign :
    ∃ row again, rowFormat.ofText? minusZeroJson.toText = some row ∧
      rowFormat.ofText? (rowFormat.toText row) = some again ∧
      rowFormat.toText again ≠ rowFormat.toText row := by
  have recorded : minusZeroJson.Recorded :=
    ⟨trivial, Json.recorded_ofNatural 3, trivial, trivial, trivial, trivial, trivial⟩
  have read : rowFormat.ofText? minusZeroJson.toText = some minusZero := by
    rw [RowFormat.ofText?, Json.ofText?_toText_of_recorded recorded, Option.bind_some]
    simp only [rowFormat, ofTree?_minusZeroJson]
  refine ⟨minusZero, minusZero.reread, read, rereading.ofText?_toText minusZero, fun same => ?_⟩
  have plain := plain_of_respelled ofTree?_minusZeroJson (rereading.respelled_eq same)
  exact absurd (plain minusZero.current List.mem_cons_self) (by decide)

end Wallet

end Prepaid
