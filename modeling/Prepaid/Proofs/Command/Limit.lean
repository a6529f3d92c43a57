import Prepaid.Proofs.Command.Rejection
import Prepaid.Proofs.Ledger.Confinement
import Prepaid.Proofs.Money.Nearest

/-!
# The limit of a deposit

What a row brings into a wallet is its amount rounded to the nearest hundredth, and this is what
the limit is compared with. An amount is accepted from half a hundredth on, and below half a
hundredth above the limit.
-/

namespace Prepaid

namespace Settings

variable {settings : Settings} {value : Decimal} {amount : Amount}

/-- A value may be deposited as an amount exactly if it is rounded to it and the limit allows it. -/
theorem depositAmount_eq_ok : settings.depositAmount value = .ok amount ↔
    Money.ofDecimal value = amount.money ∧ amount.money ≤ settings.depositLimit := by
  rw [← Amount.ofDecimal_eq_ok]
  unfold depositAmount
  cases Amount.ofDecimal value with
  | error rejection => simp [bind, Except.bind]
  | ok found =>
    have within : found.money ≤ settings.depositLimit ↔ ¬ settings.depositLimit < found.money :=
      Int.not_lt.symm
    simp only [bind, Except.bind, Except.ok.injEq]
    by_cases above : settings.depositLimit < found.money
    · rw [if_pos above]
      constructor
      · intro refused
        cases refused
      · rintro ⟨rfl, small⟩
        exact (within.mp small above).elim
    · rw [if_neg above]
      simp only [pure, Except.pure, Except.ok.injEq, iff_self_and]
      rintro rfl
      exact within.mpr above

/-- A deposit is accepted from half a cent on, and below half a cent above the limit. -/
theorem exists_depositAmount_iff : (∃ amount, settings.depositAmount value = .ok amount) ↔
    1 / 200 ≤ value.worth ∧ value.worth < settings.depositLimit.value.worth + 1 / 200 := by
  have above : 0 ≤ settings.depositLimit.cents →
      (settings.depositLimit.cents < (Money.ofDecimal value).cents ↔
      settings.depositLimit.value.worth + 1 / 200 ≤ value.worth) := fun least => by
    have reached := value.le_quantize_iff (Int.lt_add_one_of_le least)
    have middle : ((settings.depositLimit.cents + 1 : Int) / 100 : ℚ) - 1 / 200 =
        settings.depositLimit.value.worth + 1 / 200 := by
      rw [Money.worth_eq_cents]
      push_cast
      ring
    rwa [middle] at reached
  rw [← Amount.exists_ofDecimal_iff]
  simp only [depositAmount_eq_ok, Amount.ofDecimal_eq_ok]
  constructor
  · rintro ⟨amount, same, small⟩
    have within : amount.money.cents ≤ settings.depositLimit.cents := small
    have own := amount.positive
    rw [← same] at within own
    refine ⟨⟨amount, same⟩, not_le.mp fun large => ?_⟩
    exact absurd ((above (by omega)).mpr large) (by omega)
  · rintro ⟨⟨amount, same⟩, below⟩
    have half := Amount.exists_ofDecimal_iff.mp ⟨amount, Amount.ofDecimal_eq_ok.mpr same⟩
    have least : 0 ≤ settings.depositLimit.cents := by
      have positive : (0 : ℚ) < settings.depositLimit.cents / 100 := by
        rw [← Money.worth_eq_cents]
        linarith
      have whole : (0 : ℚ) < settings.depositLimit.cents := by linarith
      exact_mod_cast whole.le
    refine ⟨amount, same, ?_⟩
    rw [← same]
    exact Int.not_lt.mp fun large => absurd ((above least).mp large) (not_le.mpr below)

end Settings

/-- What a row brings into a wallet: its own amount rounded to the nearest hundredth, above zero and
within the limit. -/
structure Command.Brings (settings : Settings) (command : Command) (amount : Amount) : Prop where
  rounded : ∃ value, command.amount = some value ∧ Money.ofDecimal value = amount.money ∧
    1 / 200 ≤ value.worth ∧ value.worth < settings.depositLimit.value.worth + 1 / 200
  within : amount.money ≤ settings.depositLimit

/-- An accepted amount is brought by the command that gave it. -/
theorem Command.brings_of_allowed {settings : Settings} {command : Command} {value : Decimal}
    {amount : Amount} (given : command.demandAmount = .ok value)
    (allowed : settings.depositAmount value = .ok amount) :
    command.Brings settings amount := by
  obtain ⟨same, within⟩ := Settings.depositAmount_eq_ok.mp allowed
  exact ⟨⟨value, demand_eq_ok.mp given, same,
    Settings.exists_depositAmount_iff.mp ⟨amount, allowed⟩⟩, within⟩

namespace Ledger

variable {settings : Settings} {user : UserId} {value : Decimal} {stamp : Stamp}

/-- A deposit that succeeds has an amount, and writes an entry over it. -/
theorem deposit_written {tables : Tables} {receipt : Receipt} {after : Ledger}
    (fresh : Fresh stamp tables)
    (done : Ledger.deposit settings user value stamp { tables } = (.ok receipt, after)) :
    ∃ amount entry, settings.depositAmount value = .ok amount ∧
      after.tables.entries.get? stamp.entry = some entry ∧ entry.kind = .deposit ∧
      entry.amount = amount := by
  rw [deposit_apply fresh] at done
  cases decided : Decision.deposit settings user value stamp tables with
  | error failure =>
    rw [decided] at done
    cases done
  | ok decision =>
    rw [decided] at done
    simp only [Decision.deposit, bind_result_eq_ok, orReject_eq_ok, orOverflow_eq_ok, pure_eq_ok]
      at decided
    obtain ⟨amount, allowed, credited, _, rfl⟩ := decided
    obtain ⟨_, rfl⟩ := Prod.mk.inj done
    let entry := Entry.deposit stamp.entry credited.id amount credited.current stamp.now
    have written :
        (tables.book { wallet? := some credited, row? := some entry }).entries.get? entry.id =
          some entry :=
      Tables.get?_book_entry rfl
    exact ⟨amount, entry, allowed, written, rfl, rfl⟩

/-- A deposit that is done was allowed. -/
theorem deposit_allowed {ledger after : Ledger} {receipt : Receipt}
    (done : Ledger.deposit settings user value stamp ledger = (.ok receipt, after)) :
    ∃ amount, settings.depositAmount value = .ok amount := by
  cases allowed : settings.depositAmount value with
  | ok amount => exact ⟨amount, rfl⟩
  | error rejection =>
    have refused : rule (settings.depositAmount value) ledger =
        (.error (.rejected rejection), ledger) := by
      rw [rule_apply, allowed]
      rfl
    rw [Ledger.deposit, bind_of_error refused] at done
    cases done

end Ledger

namespace Service

variable {settings : Settings} {user : UserId} {value : Decimal} {stamp : Stamp}

/-- A checkout that is opened was allowed. -/
theorem checkout_allowed {service after : Service} {opening : Checkout × Receipt}
    (done : checkout settings (.customer user) user value stamp service = (.ok opening, after)) :
    ∃ amount, settings.depositAmount value = .ok amount := by
  cases allowed : topUpAmount settings (.customer user) user value with
  | ok amount => exact ⟨amount, by rwa [Script.topUpAmount_customer] at allowed⟩
  | error rejection =>
    rw [checkout_of_error allowed] at done
    cases done

/-- A checkout that succeeds writes an entry over its amount. -/
theorem checkout_written {service after : Service} {opening : Checkout × Receipt}
    (intact : service.Intact) (fresh : Ledger.Fresh stamp service.ledger.tables)
    (done : checkout settings (.customer user) user value stamp service = (.ok opening, after)) :
    ∃ amount entry, settings.depositAmount value = .ok amount ∧
      after.ledger.tables.entries.get? stamp.entry = some entry ∧ entry.kind = .deposit ∧
      entry.amount = amount := by
  obtain ⟨⟨tables, outages⟩, gateway⟩ := service
  obtain rfl : outages = [] := intact.outages
  rcases checkout_apply settings gateway fresh (.customer user) user value with
    ⟨rejection, _, run⟩ | ⟨amount, wallet, first, opened, entry, allowed, _, made, _, _, unused,
      run⟩
  · rw [run] at done
    cases done
  · rw [run] at done
    obtain ⟨_, rfl⟩ := Prod.mk.inj done
    rw [Script.topUpAmount_customer] at allowed
    have named : entry.id = stamp.entry := by
      rw [← made]
      rfl
    rw [← named] at unused
    have written : (first.putEntry entry).entries.get? stamp.entry = some entry := by
      simp [← named, Ledger.Tables.putEntry_of_none unused]
    refine ⟨amount, entry, allowed, written, ?_⟩
    rw [← made]
    exact ⟨rfl, rfl⟩

end Service

namespace Script

open Service

section Rows

variable {settings : Settings} {command : Command} {stamp : Stamp} {script after : Script}

/-- A step that goes on after a rule has passed it. -/
theorem rule_done {α : Type} {result : Except Rejection α} {next : α → Step Unit}
    (done : (rule result >>= next) script = (.ok (), after)) :
    ∃ value, result = .ok value ∧ next value script = (.ok (), after) := by
  cases result with
  | ok value => exact ⟨value, rfl, by rwa [bind_of_ok (rule_of_ok rfl script)] at done⟩
  | error rejection =>
    rw [bind_of_error (rule_apply _ script)] at done
    cases done

/-- A step that goes on after a call of the service has had it succeed. -/
theorem onService_done {α : Type} {call : Service.Call α} {next : α → Step Unit}
    (done : (onService call >>= next) script = (.ok (), after)) :
    ∃ value later, call script.service = (.ok value, later) ∧
      next value { script with service := later } = (.ok (), after) := by
  rcases called : call script.service with ⟨_ | value, later⟩
  · rw [bind_of_error (onService_of_run called)] at done
    cases done
  · exact ⟨value, later, rfl, by rwa [bind_of_ok (onService_of_run called)] at done⟩

/-- What an accepted row has done that deposits or opens a checkout. -/
inductive ToppedUp (settings : Settings) (stamp : Stamp) (value : Decimal)
    (before after : Service) : Prop where
  | deposited (user : UserId) (receipt : Receipt)
      (done : Service.onLedger (Ledger.deposit settings user value stamp) before =
        (.ok receipt, after))
  | opened (user : UserId) (opening : Checkout × Receipt)
      (done : Service.checkout settings (.customer user) user value stamp before =
        (.ok opening, after))

/-- An accepted deposit or checkout has topped up with the amount of its row. -/
theorem toppedUp_of_accepted (kind : command.kind = .deposit ∨ command.kind = .checkout)
    (accepted : apply settings command stamp script = (.ok (), after)) :
    ∃ value, command.demandAmount = .ok value ∧
    ToppedUp settings stamp value script.service after.service := by
  unfold apply at accepted
  rcases kind with kind | kind <;> rw [kind] at accepted <;>
    obtain ⟨user, _, accepted⟩ := rule_done accepted <;>
    obtain ⟨value, given, accepted⟩ := rule_done accepted
  · obtain ⟨receipt, later, done, ended⟩ := onService_done accepted
    cases ended
    exact ⟨value, given, .deposited user receipt done⟩
  · obtain ⟨opening, later, done, named⟩ := onService_done accepted
    obtain ⟨name, _, ended⟩ := rule_done named
    cases ended
    exact ⟨value, given, .opened user opening done⟩

/-- What has topped up was allowed. -/
theorem ToppedUp.allowed {value : Decimal} {before after : Service}
    (toppedUp : ToppedUp settings stamp value before after) :
    ∃ amount, settings.depositAmount value = .ok amount := by
  cases toppedUp with
  | opened user opening done => exact Service.checkout_allowed done
  | deposited user receipt done =>
    rcases run : Ledger.deposit settings user value stamp before.ledger with ⟨result, ledger⟩
    rw [Service.onLedger_of_run run] at done
    cases done
    exact Ledger.deposit_allowed run

/-- What is deposited or waits for its payment is on record afterwards. -/
theorem ToppedUp.written {value : Decimal} {before after : Service} (intact : before.Intact)
    (fresh : Ledger.Fresh stamp before.ledger.tables)
    (toppedUp : ToppedUp settings stamp value before after) :
    ∃ amount entry, settings.depositAmount value = .ok amount ∧
      after.ledger.tables.entries.get? stamp.entry = some entry ∧ entry.kind = .deposit ∧
      entry.amount = amount := by
  cases toppedUp with
  | opened user opening done => exact Service.checkout_written intact fresh done
  | deposited user receipt done =>
    obtain ⟨⟨tables, outages⟩, gateway⟩ := before
    obtain rfl : outages = [] := intact.outages
    rcases run : Ledger.deposit settings user value stamp { tables } with ⟨result, ledger⟩
    rw [Service.onLedger_of_run run] at done
    cases done
    exact Ledger.deposit_written fresh run

/-- An accepted deposit or checkout brings an amount of its own. -/
theorem brings_of_accepted (kind : command.kind = .deposit ∨ command.kind = .checkout)
    (accepted : apply settings command stamp script = (.ok (), after)) :
    ∃ amount, command.Brings settings amount := by
  obtain ⟨value, given, toppedUp⟩ := toppedUp_of_accepted kind accepted
  obtain ⟨amount, allowed⟩ := toppedUp.allowed
  exact ⟨amount, Command.brings_of_allowed given allowed⟩

/-- In the answers to a file, no row is accepted that brings more than the limit. -/
theorem brings_of_run (rows : List Row) (script : Script)
    (accepted : ((.ok command, stamp), .ok ()) ∈ rows.zip (run settings rows script).1)
    (kind : command.kind = .deposit ∨ command.kind = .checkout) :
    ∃ amount, command.Brings settings amount := by
  induction rows generalizing script with
  | nil => cases accepted
  | cons row rest ih =>
    obtain ⟨_ | first, own⟩ := row
    · rcases List.mem_cons.mp accepted with same | later
      · cases same
      · exact ih script later
    · rcases applied : apply settings first own script with ⟨result, after⟩
      simp only [run, applied, List.zip_cons_cons, List.mem_cons, Prod.mk.injEq, Except.ok.injEq]
        at accepted
      rcases accepted with ⟨⟨rfl, rfl⟩, rfl⟩ | later
      · exact brings_of_accepted kind applied
      · exact ih after later

/-- Numbers are quantized to the nearest hundredth. Amounts are accepted from half a hundredth on,
and as deposits below half a hundredth above the limit, so that no row brings more than the limit
into a wallet. -/
theorem deposits_quantized_within_limit (settings : Settings) :
    (∀ value : Decimal, NearestHundredth value.worth value.quantize.worth ∧
      value.quantize.quantize = value.quantize ∧ value.neg.quantize.worth = -value.quantize.worth ∧
      (|value.worth| ≤ Decimal.maxCoefficient / 100 → value.quantize.scale = Money.places) ∧
      (value.quantize.scale = Money.places ↔
        |value.quantize.worth| ≤ Decimal.maxCoefficient / 100)) ∧
      (∀ less more : Decimal, less.worth ≤ more.worth → less.quantize.worth ≤ more.quantize.worth) ∧
      (∀ value : Decimal,
        ((∃ amount, Amount.ofDecimal value = .ok amount) ↔ 1 / 200 ≤ value.worth) ∧
          ((∃ amount, settings.depositAmount value = .ok amount) ↔
            1 / 200 ≤ value.worth ∧ value.worth < settings.depositLimit.value.worth + 1 / 200)) ∧
      (∀ (rows : List Row) (script : Script) (command : Command) (stamp : Stamp),
        command.kind = .deposit ∨ command.kind = .checkout →
        ((.ok command, stamp), .ok ()) ∈ rows.zip (run settings rows script).1 →
        ∃ amount, command.Brings settings amount) ∧
      ∀ (script after : Script) (command : Command) (stamp : Stamp), Reachable settings script →
        Ledger.Fresh stamp script.service.ledger.tables →
        command.kind = .deposit ∨ command.kind = .checkout →
        apply settings command stamp script = (.ok (), after) →
        ∃ entry, after.service.ledger.tables.entries.get? stamp.entry = some entry ∧
          entry.kind = .deposit ∧ command.Brings settings entry.amount := by
  refine ⟨fun value => ⟨value.quantize_nearest, value.quantize_quantize, value.quantize_odd,
      fun small => ?_, value.scale_quantize_iff⟩, fun less more => Decimal.quantize_mono,
    fun value => ⟨Amount.exists_ofDecimal_iff, Settings.exists_depositAmount_iff⟩,
    fun rows script command stamp kind accepted => brings_of_run rows script accepted kind,
    fun script after command stamp reachable fresh kind accepted => ?_⟩
  · exact value.scale_quantize_iff.mpr (Decimal.abs_quantize_le small)
  · obtain ⟨steps, run⟩ := reachable.service_reachable
    obtain ⟨value, given, toppedUp⟩ := toppedUp_of_accepted kind accepted
    obtain ⟨_, entry, allowed, written, deposit, rfl⟩ := toppedUp.written run.intact fresh
    exact ⟨entry, written, deposit, Command.brings_of_allowed given allowed⟩

end Rows

/-- Half a cent. -/
def halfCent : Decimal :=
  { coefficient := 5, scale := 3 }

/-- Half a cent is rounded up to a cent, as the least amount that is accepted. A checkout over
twenty-five is within the usual limit. -/
theorem openTopUp_within_limit :
    |halfCent.worth| ≤ Decimal.maxCoefficient / 100 ∧
      halfCent.quantize.scale = Money.places ∧
      Decimal.zero.worth ≤ halfCent.worth ∧
      Decimal.zero.quantize.worth ≤ halfCent.quantize.worth ∧
      (openTopUp (some "first")).kind = .checkout ∧
      (((.ok (openTopUp (some "first")), stampOf 1), .ok ()) ∈
        [((.ok (openTopUp (some "first")), stampOf 1) : Row)].zip
          (run {} [(.ok (openTopUp (some "first")), stampOf 1)] untouched).1) ∧
      (∃ amount, (openTopUp (some "first")).Brings {} amount) ∧
      Reachable {} untouched ∧ Ledger.Fresh (stampOf 1) untouched.service.ledger.tables ∧
      (apply {} (openTopUp (some "first")) (stampOf 1) untouched).1 = .ok () ∧
      ∃ entry,
        (apply {} (openTopUp (some "first")) (stampOf 1)
          untouched).2.service.ledger.tables.entries.get? (stampOf 1).entry = some entry ∧
        entry.kind = .deposit ∧ (openTopUp (some "first")).Brings {} entry.amount := by
  obtain ⟨rounding, order, _, rows, records⟩ := deposits_quantized_within_limit {}
  have small : |halfCent.worth| ≤ Decimal.maxCoefficient / 100 := by
    norm_num [halfCent, Decimal.worth, Decimal.mantissa, tenTo]
  have less : Decimal.zero.worth ≤ halfCent.worth := by
    norm_num [halfCent, Decimal.worth, Decimal.mantissa, tenTo, Decimal.zero]
  have done : (apply {} (openTopUp (some "first")) (stampOf 1) untouched).1 = .ok () := by decide
  have reachable : Reachable {} untouched := .start "whsec_sandbox"
  have fresh : Ledger.Fresh (stampOf 1) untouched.service.ledger.tables := by decide
  have accepted : (((.ok (openTopUp (some "first")), stampOf 1), .ok ()) ∈
      [((.ok (openTopUp (some "first")), stampOf 1) : Row)].zip
        (run {} [(.ok (openTopUp (some "first")), stampOf 1)] untouched).1) := by
    have answers : (run {} [(.ok (openTopUp (some "first")), stampOf 1)] untouched).1 = [.ok ()] :=
      congrArg ([·]) done
    rw [answers]
    exact List.mem_cons_self
  exact ⟨small, (rounding _).2.2.2.1 small, less, order _ _ less, rfl, accepted,
    rows _ _ _ _ (.inr rfl) accepted, reachable, fresh, done,
    records _ _ _ _ reachable fresh (.inr rfl) (Prod.ext done rfl)⟩

end Script

end Prepaid
