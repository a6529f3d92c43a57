import Prepaid.Proofs.Ledger.Sessions
import Prepaid.Proofs.Ledger.Unit

/-!
# Calls

A call of a ledger without outages either succeeds or leaves the tables as they
were. `Commits` says so of a call, and says that what it has committed is a change
of the kind it may make, and opens no entry under a session. Calls are put together
from steps that keep this: a check, a unit of work, and a receipt at the end.
-/

namespace Prepaid

section Steps

variable {σ α β : Type} {state after : σ}

/-- What follows a call runs on what the call leaves, unless it fails. -/
theorem bind_apply (call : ExceptT Failure (StateM σ) α) (next : α → ExceptT Failure (StateM σ) β)
    (state : σ) :
    (call >>= next) state =
      match call state with
      | (.ok value, after) => next value after
      | (.error failure, after) => (.error failure, after) := by
  simp only [bind, ExceptT.bind, ExceptT.mk, StateT.bind]
  rcases call state with ⟨result, after⟩
  cases result <;> rfl

/-- After a success the next call runs. -/
theorem bind_of_ok {call : ExceptT Failure (StateM σ) α} {next : α → ExceptT Failure (StateM σ) β}
    {value : α} (run : call state = (.ok value, after)) :
    (call >>= next) state = next value after := by
  rw [bind_apply, run]

/-- A failure ends a sequence. -/
theorem bind_of_error {call : ExceptT Failure (StateM σ) α}
    {next : α → ExceptT Failure (StateM σ) β} {failure : Failure}
    (run : call state = (.error failure, after)) :
    (call >>= next) state = (.error failure, after) := by
  rw [bind_apply, run]

/-- Looking at the state changes nothing. -/
theorem get_apply (state : σ) : (get : ExceptT Failure (StateM σ) σ) state = (.ok state, state) :=
  rfl

/-- Changing the answer of a call leaves its state alone. -/
theorem map_apply (change : α → β) (call : ExceptT Failure (StateM σ) α) (state : σ) :
    (change <$> call) state = ((call state).1.map change, (call state).2) := by
  simp only [Functor.map, ExceptT.map, ExceptT.mk, StateT.bind, bind]
  rcases call state with ⟨result, after⟩
  cases result <;> rfl

/-- A changed answer is the change of an answer. -/
theorem map_eq_ok {change : α → β} {result : Except Failure α} {value : β} :
    result.map change = .ok value ↔ ∃ inner, result = .ok inner ∧ change inner = value := by
  cases result <;> simp [Except.map]

/-- Changing the answer keeps the failures. -/
theorem map_eq_error {change : α → β} {result : Except Failure α} {failure : Failure} :
    result.map change = .error failure ↔ result = .error failure := by
  cases result <;> simp [Except.map]

/-- Arithmetic overflows, but it is never refused. -/
theorem orOverflow_ne_rejected {result : Except Overflow α} {rejection : Rejection} :
    orOverflow result ≠ .error (.rejected rejection) := by
  cases result <;> simp [orOverflow]

end Steps

namespace Ledger

/-- The identifiers of a stamp have never been used. -/
structure Fresh (stamp : Stamp) (tables : Tables) : Prop where
  wallet : tables.owners.get? stamp.wallet = none
  entry : tables.entries.get? stamp.entry = none

instance (stamp : Stamp) (tables : Tables) : Decidable (Fresh stamp tables) :=
  decidable_of_iff (tables.owners.get? stamp.wallet = none ∧ tables.entries.get? stamp.entry = none)
    ⟨fun ⟨wallet, entry⟩ => ⟨wallet, entry⟩, fun ⟨wallet, entry⟩ => ⟨wallet, entry⟩⟩

section Steps

variable {α : Type}

/-- A rule leaves the ledger alone. -/
theorem rule_apply (result : Except Rejection α) (ledger : Ledger) :
    rule result ledger = (orReject result, ledger) := by
  cases result <;> rfl

/-- Arithmetic leaves the ledger alone. -/
theorem arithmetic_apply (result : Except Overflow α) (ledger : Ledger) :
    arithmetic result ledger = (orOverflow result, ledger) := by
  cases result <;> rfl

/-- A receipt reads the wallet only. -/
theorem receipt_apply (wallet : Wallet) (entry : Option Entry) (order : Option Order)
    (ledger : Ledger) :
    receipt wallet entry order ledger =
      ((orOverflow wallet.balance).map fun balance => ⟨balance, entry, order⟩, ledger) := by
  rw [receipt, bind_apply, arithmetic_apply]
  cases wallet.balance <;> rfl

/-- Without outages a unit that succeeds is written as a whole, and one that fails not at all. -/
theorem transact_apply (work : Work α) (tables : Tables) :
    transact work { tables } =
      match work.run { base := tables } with
      | .ok (result, draft) => (.ok result, { tables := tables.write draft.batch })
      | .error failure => (.error failure, { tables }) := by
  unfold transact
  cases work.run { base := tables } with
  | error failure => rfl
  | ok done =>
    obtain ⟨result, draft⟩ := done
    simp only [commit]
    by_cases idle : draft.batch.isEmpty = true
    · rw [if_pos idle]
      simp only [Batch.isEmpty, Bool.and_eq_true, List.isEmpty_iff] at idle
      simp only [Tables.write, Table.values, idle, List.map_nil, List.foldl_nil]
    · rw [if_neg idle, if_neg List.not_mem_nil]
      rfl

/-- What a call answers, and what it leaves, whose unit of work goes on from a draft. -/
def finish {β : Type} (tables : Tables) (draft : Draft) (work : Work α) (next : α → Call β) :
    Except Failure β × Ledger :=
  match work.run draft with
  | .ok (result, draft) => next result { tables := tables.write draft.batch }
  | .error failure => (.error failure, { tables })

/-- A unit of work starts from an empty draft over the tables. -/
theorem transact_bind_apply {β : Type} (work : Work α) (next : α → Call β) (tables : Tables) :
    (transact work >>= next) { tables } = finish tables { base := tables } work next := by
  rw [bind_apply, transact_apply, finish]
  cases work.run { base := tables } <;> rfl

/-- A unit of work that fails leaves the tables as they were. -/
theorem finish_of_error {β : Type} {tables : Tables} {draft : Draft} {work : Work α}
    {next : α → Call β} {failure : Failure} (run : work.run draft = .error failure) :
    finish tables draft work next = (.error failure, { tables }) := by
  rw [finish, run]

/-- A unit of work that succeeds writes its batch before the call goes on. -/
theorem finish_of_ok {β : Type} {tables : Tables} {draft after : Draft} {work : Work α}
    {next : α → Call β} {value : α} (run : work.run draft = .ok (value, after)) :
    finish tables draft work next = next value { tables := tables.write after.batch } := by
  rw [finish, run]

/-- A unit of work goes on behind a step of it. -/
theorem finish_bind {β γ : Type} {tables : Tables} {draft after : Draft} {work : Work α}
    {rest : α → Work β} {next : β → Call γ} {value : α}
    (run : work.run draft = .ok (value, after)) :
    finish tables draft (work >>= rest) next = finish tables after (rest value) next := by
  rw [finish, finish, Work.bind_of_ok run]

end Steps

/-- What a call that neither opens nor confirms a top-up does: it commits one change, and nothing if
it is rejected. -/
def Commits {α : Type} (stamp : Stamp) (tables : Tables) (call : Call α) : Prop :=
  ∃ result after, call { tables } = (result, { tables := after }) ∧ Change stamp tables none after ∧
    tables.SameSessions after ∧ ∀ rejection, result = .error (.rejected rejection) → after = tables

namespace Commits

variable {α β : Type} {stamp : Stamp} {tables : Tables}

/-- A rule is checked before anything is committed. -/
theorem rule {result : Except Rejection α} {next : α → Call β}
    (passed : ∀ value, result = .ok value → Commits stamp tables (next value)) :
    Commits stamp tables (rule result >>= next) := by
  cases result with
  | ok value =>
    rw [Commits, bind_of_ok (rule_apply _ _)]
    exact passed value rfl
  | error rejection =>
    rw [Commits, bind_of_error (rule_apply _ _)]
    exact ⟨_, tables, rfl, .unchanged, .refl _, fun _ _ => rfl⟩

/-- Looking at the ledger commits nothing. -/
theorem read {next : Ledger → Call α} (passed : Commits stamp tables (next { tables })) :
    Commits stamp tables (get >>= next) :=
  passed

/-- A call that is refused commits nothing. -/
theorem refused (rejection : Rejection) :
    Commits stamp tables (Ledger.rule (.error rejection : Except Rejection α)) :=
  ⟨_, tables, rule_apply _ _, .unchanged, .refl _, fun _ _ => rfl⟩

/-- A unit of work commits what it writes, and all of it at once. -/
theorem transact {work : Work α}
    (writes : ∀ {result draft}, work.run { base := tables } = .ok (result, draft) →
      Change stamp tables none (tables.write draft.batch) ∧
        tables.SameSessions (tables.write draft.batch)) :
    Commits stamp tables (transact work) := by
  rw [Commits, transact_apply]
  cases run : work.run { base := tables } with
  | error failure => exact ⟨_, tables, rfl, .unchanged, .refl _, fun _ _ => rfl⟩
  | ok done =>
    obtain ⟨change, same⟩ := writes run
    refine ⟨_, _, rfl, change, same, ?_⟩
    rintro rejection ⟨⟩

/-- A receipt can overflow, but it is never refused and changes nothing. -/
theorem receipt {call : Call α} {next : α → Call Receipt} (commits : Commits stamp tables call)
    (answers : ∀ done, ∃ wallet entry order, next done = receipt wallet entry order) :
    Commits stamp tables (call >>= next) := by
  obtain ⟨result, after, run, change, same, kept⟩ := commits
  cases result with
  | error failure =>
    rw [Commits, bind_of_error run]
    refine ⟨_, after, rfl, change, same, ?_⟩
    rintro rejection ⟨⟩
    exact kept rejection rfl
  | ok done =>
    obtain ⟨wallet, entry, order, answer⟩ := answers done
    rw [Commits, bind_of_ok run, answer, receipt_apply]
    exact ⟨_, after, rfl, change, same,
      fun _ refused => (orOverflow_ne_rejected (map_eq_error.mp refused)).elim⟩

end Commits

/-! ## Drafts without rows -/

namespace Draft

variable {tables : Tables} {draft : Draft}

/-- A unit of work has read orders at most. -/
structure Begun (tables : Tables) (draft : Draft) : Prop where
  base : draft.base = tables
  batch : draft.batch = {}
  wallets : draft.kept.wallets = .empty
  entries : draft.kept.entries = .empty

/-- A unit of work begins with nothing read. -/
theorem Begun.start (tables : Tables) : Begun tables { base := tables } :=
  ⟨rfl, rfl, rfl, rfl⟩

/-- A unit of work that has read an order has still read orders at most. -/
theorem Begun.keepOrder (begun : Begun tables draft) (id : OrderId) (order : Order) :
    Begun tables (draft.keepOrder id order) :=
  ⟨begun.base, begun.batch, begun.wallets, begun.entries⟩

/-- Reading a hold writes nothing. -/
@[simp] theorem batch_keepHold (hold : Option Entry) :
    (draft.keepHold hold).batch = draft.batch := by
  cases hold <;> rfl

/-- An order that has not been read yet is that of the tables. -/
theorem orderAt?_of_clean (clean : draft.kept.orders = .empty) (id : OrderId) :
    draft.orderAt? id = draft.base.orders.get? id := by
  simp [orderAt?, clean]

/-- A wallet that has not been read yet is that of the tables. -/
theorem walletAt?_of_clean (clean : draft.kept.wallets = .empty) (owner : UserId) :
    draft.walletAt? owner = draft.base.wallets.get? owner := by
  simp [walletAt?, clean]

/-- A hold that has not been read yet is that of the tables. -/
theorem pendingHold?_of_clean (clean : draft.kept.entries = .empty) (id : OrderId) :
    draft.pendingHold? id = draft.base.pendingHold? id := by
  cases found : draft.base.pendingHold? id <;> simp [pendingHold?, clean, Table.contains, found]

end Draft

end Ledger

end Prepaid
