import Prepaid.CommandLine
import Prepaid.Proofs.Command.Coupling
import Prepaid.Proofs.Ledger.Cover
import Prepaid.Proofs.Report

/-!
# The report of all balances

A report has a line for each balance under its header, in the order of the users, and each line can
be read back. What is reported is therefore a function of the set of balances, and does not show in
which order a ledger lists its wallets.
-/

namespace Prepaid

namespace Report

/-! ## The order of the users -/

/-- The balances of different users are in strict order of their numbers. -/
theorem pairwise_sortBalances {rows : List Balance} (distinct : (rows.map Balance.owner).Nodup) :
    (sortBalances rows).Pairwise fun left right => left.owner.val < right.owner.val := by
  have sorted : (sortBalances rows).Pairwise fun left right =>
      decide (left.owner.val ≤ right.owner.val) = true := by
    refine List.pairwise_mergeSort ?_ ?_ rows
    · intro first second third
      simp only [decide_eq_true_eq]
      exact UInt64.le_trans
    · intro left right
      simp only [Bool.or_eq_true, decide_eq_true_eq]
      exact UInt64.le_total _ _
  have apart : (sortBalances rows).Pairwise fun left right => left.owner ≠ right.owner :=
    List.pairwise_map.mp (((List.mergeSort_perm rows _).map Balance.owner).nodup_iff.mpr distinct)
  refine sorted.imp₂ (fun left right before other => ?_) apart
  rw [decide_eq_true_eq] at before
  refine UInt64.lt_of_le_of_ne before fun same => other ?_
  rw [← UserId.mk.injEq] at same
  exact same

/-- What is sorted does not depend on the order in which it was listed. -/
theorem sortBalances_eq_of_perm {rows others : List Balance}
    (distinct : (rows.map Balance.owner).Nodup) (same : others.Perm rows) :
    sortBalances others = sortBalances rows := by
  have listed : (sortBalances others).Perm (sortBalances rows) :=
    ((List.mergeSort_perm others _).trans same).trans (List.mergeSort_perm rows _).symm
  refine listed.eq_of_pairwise ?_
    (pairwise_sortBalances ((same.map Balance.owner).nodup_iff.mpr distinct))
      (pairwise_sortBalances distinct)
  intro left right _ _ before behind
  exact (UInt64.lt_asymm before behind).elim

/-- The order in which balances are listed does not show in the report. -/
theorem balances_eq_of_perm {rows others : List Balance} (distinct : (rows.map Balance.owner).Nodup)
    (same : others.Perm rows) : balances others = balances rows := by
  rw [balances_eq, balances_eq, sortBalances_eq_of_perm distinct same]

end Report

/-! ## Reports of ledgers -/

/-- The balance of a wallet whose sums can be computed. -/
def Wallet.shown (wallet : Wallet) : Balance :=
  wallet.balance.toOption.getD (.empty wallet.owner)

/-- A balance that can be computed is the one shown. -/
theorem Wallet.shown_of_ok {wallet : Wallet} {balance : Balance}
    (computed : wallet.balance = .ok balance) :
    wallet.balance = .ok wallet.shown ∧ wallet.shown.owner = wallet.owner := by
  have shown : wallet.shown = balance := by rw [Wallet.shown, computed]; rfl
  obtain ⟨available, _, rfl⟩ := Wallet.balance_eq_ok.mp computed
  rw [shown]
  exact ⟨computed, rfl⟩

/-- If each row is read, all of them are. -/
theorem mapM_eq_ok {ε α β : Type} {read : α → Except ε β} {value : α → β} {rows : List α}
    (each : ∀ row ∈ rows, read row = .ok (value row)) : rows.mapM read = .ok (rows.map value) := by
  induction rows with
  | nil => rfl
  | cons row rest ih =>
    obtain ⟨first, others⟩ := List.forall_mem_cons.mp each
    rw [List.mapM_cons, first, ih others]
    rfl

namespace Service

/-- Whatever order the wallets are listed in, the same balances are computed. -/
theorem Intact.balances {service : Service} (intact : service.Intact) {wallets : List Wallet}
    (same : wallets.Perm service.ledger.tables.wallets.values) :
    wallets.mapM Wallet.balance = .ok (wallets.map Wallet.shown) ∧
      ((wallets.map Wallet.shown).map Balance.owner).Nodup := by
  have computed : ∀ wallet ∈ wallets, wallet.balance = .ok wallet.shown ∧
      wallet.shown.owner = wallet.owner := by
    intro wallet member
    obtain ⟨user, known⟩ := Table.exists_key (same.mem_iff.mp member)
    obtain ⟨balance, computed⟩ := (intact.solvent known).balance
    exact Wallet.shown_of_ok computed
  refine ⟨mapM_eq_ok fun wallet member => (computed wallet member).1, ?_⟩
  have owners : (wallets.map Wallet.shown).map Balance.owner = wallets.map Wallet.owner := by
    rw [List.map_map]
    exact List.map_congr_left fun wallet member => (computed wallet member).2
  rw [owners, (same.map Wallet.owner).nodup_iff]
  exact Table.nodup_map_values fun _ _ => intact.sound.wallet_owner

end Service

namespace Script

/-- A report has its header once and then a line for each balance, in the strict order of their
users, from which the balance is read back. The order in which balances are listed does not show in
it, and so neither does the order in which a ledger lists its wallets. -/
theorem report_of_balances :
    (∀ rows : List Balance, (rows.map Balance.owner).Nodup →
      (∃ sorted : List Balance, sorted.Perm rows ∧
        (sorted.Pairwise fun left right => left.owner.val < right.owner.val) ∧
        Report.balances rows =
          String.join ((Report.balanceHeader :: sorted.map Report.balanceCells).map Csv.line) ∧
        ∃ records,
          Csv.records (Text.bytes (Report.balances rows)) =
            Report.balanceHeader.map Text.bytes :: records ∧
          List.Forall₂ Report.Tells records sorted ∧
          Report.balanceHeader.map Text.bytes ∉ records) ∧
        ∀ others : List Balance, others.Perm rows → Report.balances others = Report.balances rows) ∧
      ∀ (settings : Settings) (script : Script) (options : CommandLine.Options),
        Reachable settings script → options.history = none →
        ∃ shown, CommandLine.report options script.service.ledger = ⟨0, Report.balances shown⟩ ∧
          ∀ wallets : List Wallet, wallets.Perm script.service.ledger.tables.wallets.values →
            ∃ others, wallets.mapM Wallet.balance = .ok others ∧
              Report.balances others = Report.balances shown := by
  refine ⟨fun rows distinct => ⟨⟨Report.sortBalances rows, List.mergeSort_perm rows _,
    Report.pairwise_sortBalances distinct, Report.balances_eq rows, _, Report.records_balances rows,
    ?_, ?_⟩,
    fun others => Report.balances_eq_of_perm distinct⟩,
    fun settings script options reachable asked => ?_⟩
  · rw [List.forall₂_map_left_iff, List.forall₂_map_left_iff, List.forall₂_same]
    exact fun balance _ => Report.tells_balanceCells balance
  · rintro again
    obtain ⟨cells, listed, header⟩ := List.mem_map.mp again
    obtain ⟨balance, _, rfl⟩ := List.mem_map.mp listed
    exact Report.not_tells_header balance (header ▸ Report.tells_balanceCells balance)
  · obtain ⟨steps, run⟩ := reachable.service_reachable
    obtain ⟨computed, owners⟩ := run.intact.balances (List.Perm.refl _)
    refine ⟨script.service.ledger.tables.wallets.values.map Wallet.shown, ?_,
      fun wallets same => ?_⟩
    · rw [CommandLine.report, asked, Ledger.balances, computed]
    · exact ⟨_, (run.intact.balances same).1,
        Report.balances_eq_of_perm owners (same.map Wallet.shown)⟩

open Service in
/-- A deposit. -/
def depositOf (user : UserId) (cents : Int) : Command :=
  { kind := .deposit, user := some user, amount := some (centsOf cents) }

open Service in
/-- Two users deposit, the one with the larger number first. -/
def twoDeposits : Script :=
  (apply {} (depositOf ⟨1⟩ 500) (stampOf 2)
    (apply {} (depositOf ⟨2⟩ 700)
      (stampOf 1) { service := { gateway := { secret := "whsec" } } }).2).2

open Service in
/-- The report on both deposits is the same in either order of the wallets. -/
theorem twoDeposits_reported :
    ([Balance.empty ⟨2⟩, .empty ⟨1⟩].map Balance.owner).Nodup ∧
      Report.balances [.empty ⟨1⟩, .empty ⟨2⟩] = Report.balances [.empty ⟨2⟩, .empty ⟨1⟩] ∧
      Reachable {} twoDeposits ∧
      ∃ others shown,
        twoDeposits.service.ledger.tables.wallets.values.reverse.mapM Wallet.balance =
          .ok others ∧
        CommandLine.report {} twoDeposits.service.ledger = ⟨0, Report.balances shown⟩ ∧
        Report.balances others = Report.balances shown := by
  obtain ⟨lists, replays⟩ := report_of_balances
  have distinct : ([Balance.empty ⟨2⟩, .empty ⟨1⟩].map Balance.owner).Nodup := by decide
  have first : Reachable {} (apply {} (depositOf ⟨2⟩ 700) (stampOf 1)
      { service := { gateway := { secret := "whsec" } } }).2 := .step (.start "whsec") _ (by decide)
  have reachable : Reachable {} twoDeposits := first.step _ (by decide)
  obtain ⟨shown, reported, same⟩ := replays {} twoDeposits {} reachable rfl
  obtain ⟨others, computed, equal⟩ := same _ (List.reverse_perm _)
  exact ⟨distinct, (lists _ distinct).2 _ (.swap _ _ _), reachable, others, shown, computed,
    reported, equal⟩

end Script

end Prepaid
