import Prepaid.Ledger.Ordering
import Prepaid.Proofs.Table

/-!
# Units of work, inverted

What must have happened for a unit of work to succeed. Each of its steps has one
law that names the row it has read or put, and `Work.bind_eq_ok` takes a unit
apart into its steps. A ledger without outages writes the batch of a unit that
succeeds, and is left as it was by one that fails.
-/

namespace Prepaid.Ledger

namespace Work

variable {α β : Type} {draft after : Draft}

/-- A sequence of work succeeds exactly if both parts do. -/
theorem bind_eq_ok {work : Work α} {next : α → Work β} {result : β} :
    (work >>= next).run draft = .ok (result, after) ↔
      ∃ value middle, work.run draft = .ok (value, middle) ∧
        (next value).run middle = .ok (result, after) := by
  rw [StateT.run_bind]
  cases work.run draft with
  | error failure => simp [bind, Except.bind]
  | ok reached =>
    obtain ⟨value, middle⟩ := reached
    simp only [bind, Except.bind, Except.ok.injEq, Prod.mk.injEq]
    constructor
    · intro done
      exact ⟨value, middle, ⟨rfl, rfl⟩, done⟩
    · rintro ⟨_, _, ⟨rfl, rfl⟩, done⟩
      exact done

/-- Work that fails is not gone on with. -/
theorem bind_of_error {work : Work α} {next : α → Work β} {failure : Failure}
    (run : work.run draft = .error failure) : (work >>= next).run draft = .error failure := by
  rw [StateT.run_bind, run]
  rfl

/-- Work that succeeds is gone on with from its draft. -/
theorem bind_of_ok {work : Work α} {next : α → Work β} {value : α}
    (run : work.run draft = .ok (value, after)) :
    (work >>= next).run draft = (next value).run after := by
  rw [StateT.run_bind, run]
  rfl

/-- Changing the result of work leaves its draft alone. -/
theorem map_of_ok {work : Work α} {value : α} (run : work.run draft = .ok (value, after))
    (change : α → β) :
    (change <$> work).run draft = .ok (change value, after) := by
  rw [StateT.run_map, run]
  rfl

/-- Changing the result of work leaves its failures alone. -/
theorem map_of_error {work : Work α} {failure : Failure} (run : work.run draft = .error failure)
    (change : α → β) :
    (change <$> work).run draft = .error failure := by
  rw [StateT.run_map, run]
  rfl

/-- Pure work succeeds with its value. -/
theorem pure_eq_ok {value result : α} :
    (pure value : Work α).run draft = .ok (result, after) ↔ value = result ∧ draft = after := by
  rw [StateT.run_pure]
  simp [pure, Except.pure]

/-- An outcome is lifted without touching the draft. -/
theorem liftM_eq_ok {outcome : Except Failure α} {result : α} :
    (liftM outcome : Work α).run draft = .ok (result, after) ↔
      outcome = .ok result ∧ draft = after := by
  cases outcome <;>
    simp [liftM, monadLift, MonadLift.monadLift, StateT.lift, StateT.run, bind, Except.bind, pure,
      Except.pure]

/-- A failure is lifted as it is. -/
theorem liftM_of_error {outcome : Except Failure α} {failure : Failure}
    (failed : outcome = .error failure) : (liftM outcome : Work α).run draft = .error failure := by
  rw [failed]
  rfl

/-- A rejection never succeeds. -/
theorem reject_eq_ok {rejection : Rejection} {result : α} :
    (reject rejection : Work α).run draft = .ok (result, after) ↔ False := by
  simp [reject, throw, throwThe, MonadExceptOf.throw, StateT.run, StateT.lift, bind, Except.bind]

/-- A change of the draft always succeeds. -/
theorem modify_eq_ok {change : Draft → Draft} {result : PUnit} :
    (modify change : Work PUnit).run draft = .ok (result, after) ↔ change draft = after := by
  simp [modify, modifyGet, MonadStateOf.modifyGet, StateT.modifyGet, StateT.run, pure, Except.pure]

/-- What follows a change of the draft works on the changed draft. -/
theorem modify_bind_eq_ok {change : Draft → Draft} {next : PUnit → Work α} {result : α} :
    ((modify change : Work PUnit) >>= next).run draft = .ok (result, after) ↔
      (next ⟨⟩).run (change draft) = .ok (result, after) :=
  Iff.rfl

/-- A demand succeeds exactly if there is a row. -/
theorem demand_eq_ok {rejection : Rejection} {row : Option α} {result : α} :
    (demand rejection row).run draft = .ok (result, after) ↔ row = some result ∧ draft = after := by
  cases row with
  | none => simp only [demand, reject_eq_ok, reduceCtorEq, false_and]
  | some row => simp only [demand, pure_eq_ok, Option.some.injEq]

/-- A rule succeeds exactly if it is passed. -/
theorem rule_eq_ok {outcome : Except Rejection α} {result : α} :
    (rule outcome).run draft = .ok (result, after) ↔ outcome = .ok result ∧ draft = after := by
  rw [rule, liftM_eq_ok]
  cases outcome <;> simp [orReject]

/-- A rule that is broken rejects the work. -/
theorem rule_of_error {outcome : Except Rejection α} {rejection : Rejection}
    (refused : outcome = .error rejection) :
    (rule outcome).run draft = .error (.rejected rejection) := by
  rw [refused]
  rfl

/-- Arithmetic succeeds exactly if it does not overflow. -/
theorem arithmetic_eq_ok {outcome : Except Overflow α} {result : α} :
    (arithmetic outcome).run draft = .ok (result, after) ↔ outcome = .ok result ∧
    draft = after := by
  rw [arithmetic, liftM_eq_ok]
  cases outcome <;> simp [orOverflow]

/-- Looking at the draft leaves it as it is. -/
theorem get_bind_eq_ok {next : Draft → Work α} {result : α} :
    ((get : Work Draft) >>= next).run draft = .ok (result, after) ↔
      (next draft).run draft = .ok (result, after) :=
  Iff.rfl

/-- A row that is there is kept when it is read. -/
theorem keep_eq_ok {rejection : Rejection} {row : Option α} {keep : α → Draft → Draft}
    {result : α} :
    (demand rejection row >>= fun found => modify (keep found) >>= fun _ => pure found : Work α).run
      draft = .ok (result, after) ↔ row = some result ∧ keep result draft = after := by
  rw [bind_eq_ok]
  simp only [demand_eq_ok, modify_bind_eq_ok, pure_eq_ok]
  constructor
  · rintro ⟨_, _, ⟨found, rfl⟩, rfl, rfl⟩
    exact ⟨found, rfl⟩
  · rintro ⟨found, rfl⟩
    exact ⟨_, _, ⟨found, rfl⟩, rfl, rfl⟩

/-- An order that is found is kept in the draft. -/
theorem order_eq_ok {id : OrderId} {result : Order} :
    (order id).run draft = .ok (result, after) ↔
      draft.orderAt? id = some result ∧ draft.keepOrder id result = after := by
  rw [order, get_bind_eq_ok]
  exact keep_eq_ok

/-- An order that is not there is not found. -/
theorem order_of_none {id : OrderId} (absent : draft.orderAt? id = none) :
    (order id).run draft = .error (.rejected (.orderNotFound id)) := by
  rw [order, StateT.run_bind]
  simp only [StateT.run_get, pure_bind, absent]
  rfl

/-- A new order needs a number that is not taken. -/
theorem newOrder_eq_ok {id : OrderId} {result : Unit} :
    (newOrder id).run draft = .ok (result, after) ↔ draft.orderAt? id = none ∧ draft = after := by
  rw [newOrder, get_bind_eq_ok]
  cases draft.orderAt? id with
  | none => simp only [Option.isSome_none, Bool.false_eq_true, if_false, pure_eq_ok, true_and]
  | some order => simp only [Option.isSome_some, if_true, reject_eq_ok, reduceCtorEq, false_and]

/-- A number that is taken is refused. -/
theorem newOrder_of_some {id : OrderId} {other : Order} (taken : draft.orderAt? id = some other) :
    (newOrder id).run draft = .error (.rejected (.orderExists id)) := by
  rw [newOrder, StateT.run_bind]
  simp only [StateT.run_get, pure_bind, taken]
  rfl

/-- The wallet of a user is the one that is there, or a new and empty one. -/
theorem wallet_eq_ok {owner : UserId} {stamp : Stamp} {result : Wallet} :
    (wallet owner stamp).run draft = .ok (result, after) ↔
      draft.walletAt? owner = some result ∧ draft.keepWallet owner result = after ∨
      draft.walletAt? owner = none ∧ Wallet.empty stamp.wallet owner stamp.now = result ∧
        draft.putWallet result = after := by
  rw [wallet, get_bind_eq_ok]
  cases draft.walletAt? owner with
  | none =>
    simp only [modify_bind_eq_ok, pure_eq_ok, reduceCtorEq, false_and, true_and, false_or]
    constructor
    · rintro ⟨rfl, rfl⟩
      exact ⟨rfl, rfl⟩
    · rintro ⟨rfl, rfl⟩
      exact ⟨rfl, rfl⟩
  | some held =>
    simp only [modify_bind_eq_ok, pure_eq_ok, Option.some.injEq, reduceCtorEq, false_and, or_false]
    constructor
    · rintro ⟨rfl, rfl⟩
      exact ⟨rfl, rfl⟩
    · rintro ⟨rfl, rfl⟩
      exact ⟨rfl, rfl⟩

/-- A wallet that is asked for by its identifier is that of its owner in the store. -/
theorem walletById_eq_ok {id : WalletId} {stamp : Stamp} {result : Wallet} :
    (walletById id stamp).run draft = .ok (result, after) ↔
      ∃ known, draft.base.walletById? id = some known ∧
        (wallet known.owner stamp).run draft = .ok (result, after) := by
  rw [walletById, get_bind_eq_ok, bind_eq_ok]
  simp only [demand_eq_ok, and_assoc, exists_and_left, exists_eq_left']

/-- An entry that is found is kept in the draft. -/
theorem entry_eq_ok {id : EntryId} {result : Entry} :
    (entry id).run draft = .ok (result, after) ↔
      draft.entryAt? id = some result ∧ draft.keepEntry id result = after := by
  rw [entry, get_bind_eq_ok]
  exact keep_eq_ok

/-- An entry that is not there is not found. -/
theorem entry_of_none {id : EntryId} (absent : draft.entryAt? id = none) :
    (entry id).run draft = .error (.rejected (.entryNotFound id)) := by
  rw [entry, StateT.run_bind]
  simp only [StateT.run_get, pure_bind, absent]
  rfl

/-- A session is looked up in the store, and its entry in the draft. -/
theorem sessionEntry_eq_ok {session : String} {result : Entry} :
    (sessionEntry session).run draft = .ok (result, after) ↔
      ∃ known, draft.base.entryForSession? session = some known ∧
        draft.entryAt? known.id = some result ∧ draft.keepEntry known.id result = after := by
  rw [sessionEntry, get_bind_eq_ok, bind_eq_ok]
  simp only [demand_eq_ok, entry_eq_ok, and_assoc, exists_and_left, exists_eq_left']

/-- A hold that is looked for is kept if it is found, and the search never fails. -/
theorem pendingHold?_eq_ok {id : OrderId} {result : Option Entry} :
    (pendingHold? id).run draft = .ok (result, after) ↔
      draft.pendingHold? id = result ∧ draft.keepHold result = after := by
  rw [pendingHold?, get_bind_eq_ok, modify_bind_eq_ok, pure_eq_ok]
  constructor
  · rintro ⟨rfl, rfl⟩
    exact ⟨rfl, rfl⟩
  · rintro ⟨rfl, rfl⟩
    exact ⟨rfl, rfl⟩

/-- Putting a wallet always succeeds. -/
theorem putWallet_eq_ok {row : Wallet} {result : Unit} :
    (putWallet row).run draft = .ok (result, after) ↔ draft.putWallet row = after :=
  modify_eq_ok

/-- Putting an order always succeeds. -/
theorem putOrder_eq_ok {row : Order} {result : Unit} :
    (putOrder row).run draft = .ok (result, after) ↔ draft.putOrder row = after :=
  modify_eq_ok

/-- Putting an entry always succeeds. -/
theorem putEntry_eq_ok {row : Entry} {result : Unit} :
    (putEntry row).run draft = .ok (result, after) ↔ draft.putEntry row = after :=
  modify_eq_ok

end Work

end Prepaid.Ledger
