import AeepRouter.Economic.CashView
import AeepRouter.Lib.Greatest
import AeepRouter.Store.Records
import Mathlib.Data.Prod.Lex
import Mathlib.Data.String.Basic

/-!
# The cash a report shows

`cashAccountingForReporting` starts from a settlement, lets the latest eligible reconciliation replace
its amount and takes off the completed refunds. Refunds that disagree are noticed, two
reconciliations of one time and one id are not: the one that is listed first counts. Sums have 28
digits.
-/

namespace AeepRouter.CashReport

open Lib Evidence

/-! ## Records -/

/-- A settlement with the level of its evidence, which no operation of the store reads. -/
structure PaidSettlement extends SettlementReceipt where
  evidenceLevel : EconomicEvidenceLevel
  final_evidence : status.final → evidenceLevel.isPaymentEvidence

def PaidSettlement.currency (settlement : PaidSettlement) : String :=
  settlement.capturedAmount.currency

inductive ReconciliationStatus where
  | matched
  | undercharged
  | overcharged
  | missingBillingRecord
  | pending
  | disputed
  | resolved
  deriving DecidableEq, Repr

namespace ReconciliationStatus

def economicEvidenceLevel (status : ReconciliationStatus) : EconomicEvidenceLevel :=
  if status ∈ [.matched, .undercharged, .overcharged, .resolved] then .billingReconciled
  else .unknown

def isBillingReconciled (status : ReconciliationStatus) : Bool :=
  status.economicEvidenceLevel = .billingReconciled

end ReconciliationStatus

structure BillingReconciliation where
  reconciliationId : String
  settlementId : String
  providerId : String
  invoiceReference : Option String
  billingRecordReference : Option String
  expectedAmount : CurrencyAmount
  billedAmount : CurrencyAmount
  discrepancy : CurrencyAmount
  status : ReconciliationStatus
  evidenceDigest : Option String
  reconciledAt : Int
  billed_currency : billedAmount.currency = expectedAmount.currency
  discrepancy_currency : discrepancy.currency = expectedAmount.currency
  discrepancy_amount :
    discrepancy.amount = dec |dec (billedAmount.amount - expectedAmount.amount)|

/-! ## The view -/

theorem consistent_of_ite (verified : Bool) :
    Evidence.Consistent (if verified then .complete else .partialEvidence)
      (if verified then .billingRecord else .operatorReport) := by
  cases verified <;> decide

def cashAccountingFromSettlement (settlement : PaidSettlement) (prior : Option View) :
    Result View := do
  let verified := settlement.status.final && settlement.evidenceLevel.isPaymentEvidence
  let component ← Component.make settlement.chargeId settlement.capturedAmount.amount
    settlement.capturedAmount.currency (if verified then .verified else .estimated)
    (economicEvidence settlement.evidenceLevel settlement.settlementId
      (if verified then .billingRecord else .operatorReport) settlement.settledAt
      (if verified then .complete else .partialEvidence) (if verified then .verified else .observed)
      (consistent_of_ite verified))
    settlement.settlementId
  mergeCash prior component

def cashAccountingFromReconciliation (reconciliation : BillingReconciliation) (chargeId : String)
    (prior : Option View) : Result View := do
  let reconciled := reconciliation.status.isBillingReconciled
  let component ← Component.make chargeId reconciliation.billedAmount.amount
    reconciliation.billedAmount.currency (if reconciled then .billingReconciled else .estimated)
    (economicEvidence (if reconciled then .billingReconciled else .unknown)
      reconciliation.reconciliationId (if reconciled then .billingRecord else .operatorReport)
      reconciliation.reconciledAt (if reconciled then .complete else .partialEvidence)
      (if reconciled then .verified else .observed) (consistent_of_ite reconciled))
    reconciliation.reconciliationId
  mergeCash prior component

def conflictingReportCash (settlement : PaidSettlement) (reason : String) : Result View := do
  let component ← Component.make settlement.chargeId none settlement.capturedAmount.currency
    .unavailable
    { status := .conflict
      source := .billingRecord
      trust := .verified
      evidenceId := settlement.settlementId
      sourceReference := reason
      observedAt := settlement.settledAt
      consistent := consistent_conflict }
    none
  View.make .conflict [component]

def Eligible (settlement : PaidSettlement) (item : BillingReconciliation) : Prop :=
  item.settlementId = settlement.settlementId ∧ item.status.isBillingReconciled ∧
    item.expectedAmount = settlement.capturedAmount ∧
    (item.invoiceReference ≠ none ∨ item.billingRecordReference ≠ none ∨
      item.evidenceDigest ≠ none)

instance (settlement : PaidSettlement) : DecidablePred (Eligible settlement) :=
  fun _ => inferInstanceAs (Decidable (_ ∧ _))

def BillingReconciliation.key (item : BillingReconciliation) : Int ×ₗ String :=
  toLex (item.reconciledAt, item.reconciliationId)

/-- The first of the eligible reconciliations with the greatest time and id. -/
def latest (settlement : PaidSettlement) (reconciliations : List BillingReconciliation) :
    Option BillingReconciliation :=
  greatest (Pick.first _) BillingReconciliation.key
    (reconciliations.filter fun item => Eligible settlement item)

def Bound (settlement : PaidSettlement) (currency : String) (refund : RefundReceiptV2) : Prop :=
  refund.settlementId = settlement.settlementId ∧ refund.chargeId = settlement.chargeId ∧
    refund.amount.currency = currency

instance (settlement : PaidSettlement) (currency : String) :
    DecidablePred (Bound settlement currency) :=
  fun _ => inferInstanceAs (Decidable (_ ∧ _))

/-- One turn of the loop over the refunds; an error is the reason of a conflict. -/
def collectRefund (settlement : PaidSettlement) (currency : String) (unique : List RefundReceiptV2)
    (refund : RefundReceiptV2) : Except String (List RefundReceiptV2) :=
  match unique.find? (·.refundId = refund.refundId) with
  | some previous =>
    if previous ≠ refund then .error "refund ID conflicts with immutable refund evidence"
    else .ok unique
  | none =>
    if ¬ Bound settlement currency refund then
      .error "refund binding conflicts with settlement"
    else .ok (unique ++ [refund])

/-- `unique_refunds`, in the order of insertion. -/
def uniqueRefunds (settlement : PaidSettlement) (currency : String)
    (refunds : List RefundReceiptV2) : Except String (List RefundReceiptV2) :=
  refunds.foldlM (collectRefund settlement currency) []

/-- What the digest of refunds covers: of an amount its value, where the source has `str(amount)`, which
also shows its trailing zeros. -/
def refundPayload (refunds : List RefundReceiptV2) : List (String × ℚ × String) :=
  (refunds.insertionSort (·.refundId ≤ ·.refundId)).map fun item =>
    (item.refundId, item.amount.amount, item.amount.currency)

/-- The view of a charge with refunds; `digest` is the hash of their payload. -/
def netReportCash (digest : List (String × ℚ × String) → String) (settlement : PaidSettlement)
    (reconciliation : Option BillingReconciliation) (billed : CurrencyAmount) (refunded : ℚ)
    (refunds : List RefundReceiptV2) : Result View := do
  let level := (reconciliation.map (·.status.economicEvidenceLevel)).getD settlement.evidenceLevel
  let observedAt := (refunds.map (·.refundedAt) ++ (reconciliation.map (·.reconciledAt)).toList).foldl
    max settlement.settledAt
  let component ← Component.make settlement.chargeId (some (dec (billed.amount - refunded)))
    billed.currency (if reconciliation.isSome then .billingReconciled else .verified)
    (economicEvidence level ("net_" ++ digest (refundPayload refunds)) .billingRecord observedAt
      .complete .verified consistent_complete)
    ((reconciliation.map (·.reconciliationId)).getD settlement.settlementId)
  View.make .complete [component]

/-- The amount the refunds are taken off. -/
def billedAmount (settlement : PaidSettlement) (reconciliations : List BillingReconciliation) :
    CurrencyAmount :=
  ((latest settlement reconciliations).map (·.billedAmount)).getD settlement.capturedAmount

def cashAccountingForReporting (digest : List (String × ℚ × String) → String)
    (settlement : PaidSettlement) (reconciliations : List BillingReconciliation)
    (refunds : List RefundReceiptV2) : Result View := do
  let settled ← cashAccountingFromSettlement settlement none
  if settled.cash.actualCashCost settlement.capturedAmount.currency = none then return settled
  let reconciliation := latest settlement reconciliations
  let billed := billedAmount settlement reconciliations
  if billed.currency ≠ settlement.capturedAmount.currency then
    return ← conflictingReportCash settlement "reconciliation currency conflicts with settlement"
  match uniqueRefunds settlement billed.currency refunds with
  | .error reason => conflictingReportCash settlement reason
  | .ok unique =>
    let refunded := decSum (unique.map (·.amount.amount))
    if billed.amount < refunded then
      conflictingReportCash settlement "refund evidence exceeds the authoritative charge"
    else
      match unique, reconciliation with
      | [], none => return settled
      | [], some reconciliation =>
        cashAccountingFromReconciliation reconciliation settlement.chargeId (some settled)
      | _, _ => netReportCash digest settlement reconciliation billed refunded unique

/-! ## What a report should say -/

/-- The refunds are of the charge, and no two of them share an id. -/
structure Consistent (settlement : PaidSettlement) (refunds : List RefundReceiptV2) : Prop where
  bound : ∀ refund ∈ refunds, Bound settlement settlement.currency refund
  agree : ∀ refund ∈ refunds, ∀ other ∈ refunds, refund.refundId = other.refundId → refund = other

instance (settlement : PaidSettlement) (refunds : List RefundReceiptV2) :
    Decidable (Consistent settlement refunds) :=
  decidable_of_iff (_ ∧ _) ⟨fun h => ⟨h.1, h.2⟩, fun h => ⟨h.bound, h.agree⟩⟩

/-- What was billed last, or captured, without the refunds; nothing where that is not settled. -/
def netCharge (settlement : PaidSettlement) (reconciliations : List BillingReconciliation)
    (refunds : List RefundReceiptV2) : Option ℚ :=
  let billed := (billedAmount settlement reconciliations).amount
  let refunded := ∑ refund ∈ refunds.toFinset, refund.amount.amount
  if settlement.status.final ∧ Consistent settlement refunds ∧ refunded ≤ billed then
    some (billed - refunded)
  else none

/-- No two eligible reconciliations are both the latest. -/
def Agreed (settlement : PaidSettlement) (reconciliations : List BillingReconciliation) : Prop :=
  ∀ item ∈ reconciliations, ∀ other ∈ reconciliations,
    Eligible settlement item → Eligible settlement other →
      (∀ third ∈ reconciliations, Eligible settlement third → third.key ≤ item.key) →
        other.key = item.key → other = item

/-- The amounts are multiples of one unit, and the charge has 28 digits at most. -/
structure Denominated (e : ℤ) (settlement : PaidSettlement)
    (reconciliations : List BillingReconciliation) (refunds : List RefundReceiptV2) : Prop where
  billed : Decimal.OnGrid e (billedAmount settlement reconciliations).amount
  refunds : ∀ refund ∈ refunds, Decimal.OnGrid e refund.amount.amount
  digits : (billedAmount settlement reconciliations).amount < 10 ^ (e + 28)

def SharesId (settlement : PaidSettlement) (reconciliations : List BillingReconciliation)
    (refunds : List RefundReceiptV2) : Prop :=
  settlement.status.final ∧ refunds = [] ∧
    ∃ item, latest settlement reconciliations = some item ∧
      item.reconciliationId = settlement.settlementId

/-- One view, or two conflicts that may name different reasons. -/
def Alike (settlement : PaidSettlement) (view view' : Result View) : Prop :=
  view = view' ∨ ∃ reason reason', view = conflictingReportCash settlement reason ∧
    view' = conflictingReportCash settlement reason'

/-! ## Views with one leading component -/

section Leading

variable {status : EvidenceStatus} {component : Component} {components : List Component}

/-- The components after the first are of its charge and weaker. -/
def Leads (component : Component) (components : List Component) : Prop :=
  component.toCashEvidence.Known ∧ ∀ other ∈ components, other.chargeId = component.chargeId ∧
    other.classification.strength < component.classification.strength

theorem Leads.strongest_iff (h : Leads component components) (item : CashEvidence) :
    CashEvidence.Strongest ((component :: components).map (·.toCashEvidence)) item ↔
      item = component.toCashEvidence := by
  constructor
  · intro hitem
    obtain ⟨found, hfound, rfl⟩ := List.mem_map.mp hitem.mem
    rcases List.mem_cons.mp hfound with rfl | hfound
    · rfl
    · obtain ⟨hcharge, hweaker⟩ := h.2 found hfound
      have hle := hitem.le _ (List.mem_map_of_mem List.mem_cons_self) hcharge.symm h.1
      omega
  · rintro rfl
    refine ⟨List.mem_map_of_mem List.mem_cons_self, h.1, fun other hother _ _ => ?_⟩
    obtain ⟨found, hfound, rfl⟩ := List.mem_map.mp hother
    rcases List.mem_cons.mp hfound with rfl | hfound
    · exact le_rfl
    · exact (h.2 found hfound).2.le

theorem Leads.make (h : Leads component components) :
    View.make status (component :: components) = .ok ⟨status, component :: components⟩ := by
  have hcontested :
      ¬ CashAccounting.contested ((component :: components).map (·.toCashEvidence)) := by
    rw [contested_iff]
    rintro ⟨a, b, ha, hb, -, hne⟩
    rw [h.strongest_iff] at ha hb
    exact hne (by rw [ha, hb])
  simp only [View.make, CashAccounting.make, List.map_cons, reduceCtorEq, and_false, if_false]
  rw [List.map_cons] at hcontested
  simp only [hcontested]
  rfl

theorem Leads.chargeIds (h : Leads component components) :
    (View.mk status (component :: components)).cash.chargeIds = [component.chargeId] := by
  have hnone : (components.map (·.chargeId)).filter (fun id => !id == component.chargeId) = [] := by
    simp only [List.filter_eq_nil_iff, List.forall_mem_map, Bool.not_eq_eq_eq_not, Bool.not_true,
      beq_eq_false_iff_ne, ne_eq, not_not]
    exact fun other hother => (h.2 other hother).1
  simp only [View.cash, CashAccounting.chargeIds, List.map_cons, List.map_map, List.eraseDups_cons,
    Function.comp_def, hnone, List.eraseDups_nil]

theorem Leads.cost (h : Leads component components)
    (hclass : CashAccounting.provesZero component.classification) {amount : ℚ}
    (hamount : component.amount = some amount) :
    (View.mk .complete (component :: components)).cash.actualCashCost component.currency =
      some (dec amount) := by
  have hresolved : (View.mk .complete (component :: components)).cash.resolvedComponents =
      [component.toCashEvidence] := by
    have hstrong := (h.strongest_iff component.toCashEvidence).mpr rfl
    obtain ⟨found, hfound⟩ := exists_resolve hstrong fun other _ hother => by
      rw [(h.strongest_iff other).mp hother]
      exact ⟨rfl, rfl⟩
    obtain ⟨-, hfound', -⟩ := resolve_eq_some hfound
    rw [(h.strongest_iff found).mp hfound'] at hfound
    rw [CashAccounting.resolvedComponents_eq, h.chargeIds]
    exact List.filterMap_cons_some hfound
  have heligible : CashAccounting.eligible component.classification := by
    revert hclass
    cases component.classification <;> decide
  have hsum : decSum [amount] = dec amount := by
    simp only [decSum, Decimal.sum, List.foldl_cons, List.foldl_nil, zero_add]
    rfl
  simp only [CashAccounting.actualCashCost, hresolved, h.chargeIds]
  simp [View.cash, heligible, hclass, hamount, hsum]

end Leading

section Report

variable {digest : List (String × ℚ × String) → String} {settlement : PaidSettlement}
  {reconciliations reconciliations' : List BillingReconciliation}
  {refunds refunds' unique unique' : List RefundReceiptV2} {item : BillingReconciliation}

/-! ## The settlement and the reconciliation -/

def settledComponent (settlement : PaidSettlement) : Component where
  chargeId := settlement.chargeId
  amount := settlement.capturedAmount.amount
  currency := settlement.currency
  classification := .verified
  rest := ""
  evidence := economicEvidence settlement.evidenceLevel settlement.settlementId .billingRecord
    settlement.settledAt .complete .verified consistent_complete
  billingRecordId := settlement.settlementId

def settledView (settlement : PaidSettlement) : View := ⟨.complete, [settledComponent settlement]⟩

variable (settlement) in
theorem settled_leads : Leads (settledComponent settlement) [] :=
  ⟨⟨rfl, by simp [settledComponent]⟩, by simp⟩

variable (settlement) in
theorem settledView_cost : (settledView settlement).cash.actualCashCost settlement.currency =
    some (dec settlement.capturedAmount.amount) :=
  (settled_leads settlement).cost rfl rfl

theorem fromSettlement_of_final (h : settlement.status.final) :
    cashAccountingFromSettlement settlement none = .ok (settledView settlement) := by
  have hverified := settlement.final_evidence h
  simp only [cashAccountingFromSettlement, h, hverified, Bool.and_true, if_true]
  rw [Component.make_ok settlement.capturedAmount.nonneg (by decide) (by simp [economicEvidence])]
  change mergeCash none (settledComponent settlement) = _
  have hstatus : cashStatus [settledComponent settlement] = .complete := by
    simp [cashStatus, settledComponent, CashAccounting.provesZero]
  simp only [mergeCash, Option.map_none, Option.getD_none, List.find?_nil, hstatus]
  exact (settled_leads settlement).make

theorem fromSettlement_of_not_final (h : ¬ settlement.status.final) :
    ∃ view, cashAccountingFromSettlement settlement none = .ok view ∧
      ∀ currency, view.cash.actualCashCost currency = none := by
  simp only [cashAccountingFromSettlement, h, Bool.false_and, Bool.false_eq_true, if_false]
  rw [Component.make_ok settlement.capturedAmount.nonneg (by decide) (by simp [economicEvidence])]
  refine ⟨_, Leads.make ⟨⟨rfl, by simp⟩, by simp⟩, fun currency => if_pos (.inl ?_)⟩
  simp [View.cash, cashStatus, CashAccounting.provesZero]

variable (settlement) in
theorem conflicting_ok (reason : String) :
    ∃ view, conflictingReportCash settlement reason = .ok view ∧
      ∀ currency, view.cash.actualCashCost currency = none :=
  ⟨_, rfl, fun currency => if_pos (.inl (by simp [View.cash]))⟩

theorem latest_eq_some (h : latest settlement reconciliations = some item) :
    item ∈ reconciliations ∧ Eligible settlement item ∧
      ∀ other ∈ reconciliations, Eligible settlement other → other.key ≤ item.key := by
  obtain ⟨hmem, hmost⟩ := greatest_eq_some h
  simp only [List.mem_filter, decide_eq_true_eq] at hmem hmost
  exact ⟨hmem.1, hmem.2, fun other hother heligible => hmost other ⟨hother, heligible⟩⟩

theorem latest_eq_none (h : latest settlement reconciliations = none) :
    ∀ item ∈ reconciliations, ¬ Eligible settlement item := by
  intro item hitem heligible
  obtain ⟨found, hfound⟩ := greatest_isSome (Pick.first _) BillingReconciliation.key
    (List.ne_nil_of_mem (a := item) (l := reconciliations.filter (Eligible settlement ·))
      (by simp [hitem, heligible]))
  rw [latest, hfound] at h
  cases h

variable (settlement reconciliations) in
theorem billedAmount_currency :
    (billedAmount settlement reconciliations).currency = settlement.currency := by
  unfold billedAmount
  cases h : latest settlement reconciliations with
  | none => rfl
  | some item =>
    obtain ⟨-, ⟨-, -, hexpected, -⟩, -⟩ := latest_eq_some h
    rw [Option.map_some, Option.getD_some, item.billed_currency, hexpected]
    rfl

theorem latest_congr (hagreed : Agreed settlement reconciliations)
    (hsame : ∀ item, Eligible settlement item → (item ∈ reconciliations' ↔ item ∈ reconciliations)) :
    latest settlement reconciliations' = latest settlement reconciliations := by
  cases h : latest settlement reconciliations with
  | none =>
    cases h' : latest settlement reconciliations' with
    | none => rfl
    | some item' =>
      obtain ⟨hmem', heligible', -⟩ := latest_eq_some h'
      exact absurd heligible' (latest_eq_none h item' ((hsame item' heligible').mp hmem'))
  | some item =>
    obtain ⟨hmem, heligible, hmost⟩ := latest_eq_some h
    cases h' : latest settlement reconciliations' with
    | none => exact absurd heligible (latest_eq_none h' item ((hsame item heligible).mpr hmem))
    | some item' =>
      obtain ⟨hmem', heligible', hmost'⟩ := latest_eq_some h'
      have hold := (hsame item' heligible').mp hmem'
      have hkey := le_antisymm (hmost item' hold heligible')
        (hmost' item ((hsame item heligible).mpr hmem) heligible)
      rw [hagreed item hmem item' hold heligible heligible' hmost hkey]

def reconciledComponent (settlement : PaidSettlement) (item : BillingReconciliation) : Component where
  chargeId := settlement.chargeId
  amount := item.billedAmount.amount
  currency := item.billedAmount.currency
  classification := .billingReconciled
  rest := ""
  evidence := economicEvidence .billingReconciled item.reconciliationId .billingRecord
    item.reconciledAt .complete .verified consistent_complete
  billingRecordId := item.reconciliationId

variable (settlement item) in
theorem reconciled_leads :
    Leads (reconciledComponent settlement item) [settledComponent settlement] :=
  ⟨⟨rfl, by simp [reconciledComponent]⟩, by simp [reconciledComponent, settledComponent, CashClassification.strength]⟩

theorem fromReconciliation_eq (h : Eligible settlement item) :
    cashAccountingFromReconciliation item settlement.chargeId (some (settledView settlement)) =
      if item.reconciliationId = settlement.settlementId then
        .error (.value ("conflicting economic evidence ID '" ++ item.reconciliationId ++ "'"))
      else .ok ⟨.complete, [reconciledComponent settlement item, settledComponent settlement]⟩ := by
  simp only [cashAccountingFromReconciliation, h.2.1, if_true]
  rw [Component.make_ok item.billedAmount.nonneg (by decide) (by simp [economicEvidence])]
  change mergeCash (some (settledView settlement)) (reconciledComponent settlement item) = _
  have hid : (settledComponent settlement).evidence.evidenceId = settlement.settlementId := rfl
  have hid' : (reconciledComponent settlement item).evidence.evidenceId = item.reconciliationId := rfl
  have hne : settledComponent settlement ≠ reconciledComponent settlement item := by
    intro heq
    have hclass := congrArg (·.classification) heq
    simp [settledComponent, reconciledComponent] at hclass
  simp only [mergeCash, Option.map_some, Option.getD_some, settledView, List.find?_cons, hid, hid',
    ne_eq, reduceCtorEq, not_false_eq_true, true_and, Option.some.injEq, Option.getD_some]
  by_cases heq : settlement.settlementId = item.reconciliationId
  · simp [heq, hne]
  · have heq' : item.reconciliationId ≠ settlement.settlementId := fun h => heq h.symm
    simp only [heq, heq', decide_false, List.find?_nil, if_false]
    have hstatus : cashStatus [reconciledComponent settlement item, settledComponent settlement] =
        .complete := by
      simp [cashStatus, reconciledComponent, settledComponent, CashAccounting.provesZero]
    rw [hstatus]
    exact (reconciled_leads settlement item).make

/-! ## The refunds -/

theorem Consistent.congr (hsame : ∀ refund, refund ∈ refunds' ↔ refund ∈ refunds) :
    Consistent settlement refunds' ↔ Consistent settlement refunds := by
  constructor <;> rintro ⟨hbound, hagree⟩
  · exact ⟨fun f hf => hbound f ((hsame f).mpr hf), fun f hf g hg =>
      hagree f ((hsame f).mpr hf) g ((hsame g).mpr hg)⟩
  · exact ⟨fun f hf => hbound f ((hsame f).mp hf), fun f hf g hg =>
      hagree f ((hsame f).mp hf) g ((hsame g).mp hg)⟩

structure Collected (settlement : PaidSettlement) (seen unique : List RefundReceiptV2) : Prop where
  consistent : Consistent settlement seen
  nodup : (unique.map (·.refundId)).Nodup
  mem_iff : ∀ refund, refund ∈ unique ↔ refund ∈ seen

theorem Collected.step {seen : List RefundReceiptV2} {refund : RefundReceiptV2}
    (h : Collected settlement seen unique) :
    match collectRefund settlement settlement.currency unique refund with
    | .ok unique' => Collected settlement (seen ++ [refund]) unique'
    | .error _ => ¬ Consistent settlement (seen ++ [refund]) := by
  have hlast : refund ∈ seen ++ [refund] := by simp
  unfold collectRefund
  cases hfind : unique.find? (·.refundId = refund.refundId) with
  | some previous =>
    have hid : previous.refundId = refund.refundId := by simpa using List.find?_some hfind
    have hmem : previous ∈ seen := (h.mem_iff _).mp (List.mem_of_find?_eq_some hfind)
    by_cases heq : previous = refund
    · subst heq
      have hsame : ∀ f, f ∈ seen ++ [previous] ↔ f ∈ seen := by
        intro f
        rw [List.mem_append, List.mem_singleton]
        exact ⟨fun hf => hf.elim id (· ▸ hmem), .inl⟩
      simp only [ne_eq, not_true_eq_false, if_false]
      exact ⟨(Consistent.congr hsame).mpr h.consistent, h.nodup, fun f =>
        (h.mem_iff f).trans (hsame f).symm⟩
    · simp only [ne_eq, heq, not_false_eq_true, if_true]
      exact fun hc => heq (hc.agree _ (List.mem_append_left _ hmem) _ hlast hid)
  | none =>
    have hnew : ∀ f ∈ unique, f.refundId ≠ refund.refundId := by simpa using hfind
    by_cases hbound : Bound settlement settlement.currency refund
    · simp only [hbound, not_true_eq_false, if_false]
      refine ⟨⟨?_, ?_⟩, ?_, fun f => by simp [h.mem_iff f]⟩
      · rw [List.forall_mem_append]
        exact ⟨h.consistent.bound, by simpa using hbound⟩
      · intro f hf g hg hid
        rw [List.mem_append, List.mem_singleton] at hf hg
        rcases hf with hf | rfl <;> rcases hg with hg | rfl
        · exact h.consistent.agree f hf g hg hid
        · exact absurd hid (hnew f ((h.mem_iff f).mpr hf))
        · exact absurd hid.symm (hnew g ((h.mem_iff g).mpr hg))
        · rfl
      · rw [List.map_append, List.map_singleton, List.nodup_append]
        refine ⟨h.nodup, by simp, fun id hid id' hid' => ?_⟩
        obtain ⟨f, hf, rfl⟩ := List.mem_map.mp hid
        rw [List.mem_singleton.mp hid']
        exact hnew f hf
    · simp only [hbound, not_false_eq_true, if_true]
      exact fun hc => hbound (hc.bound _ hlast)

theorem Collected.run {seen : List RefundReceiptV2} (h : Collected settlement seen unique) :
    match refunds.foldlM (collectRefund settlement settlement.currency) unique with
    | .ok unique' => Collected settlement (seen ++ refunds) unique'
    | .error _ => ¬ Consistent settlement (seen ++ refunds) := by
  induction refunds generalizing seen unique with
  | nil => rwa [List.append_nil]
  | cons refund refunds ih =>
    have hstep := @Collected.step settlement _ _ refund h
    have hsplit : seen ++ refund :: refunds = (seen ++ [refund]) ++ refunds := by simp
    rw [List.foldlM_cons, hsplit]
    cases hcollect : collectRefund settlement settlement.currency unique refund with
    | ok unique' =>
      rw [hcollect] at hstep
      exact ih hstep
    | error reason =>
      rw [hcollect] at hstep
      exact fun hc => hstep ⟨fun f hf => hc.bound f (List.mem_append_left _ hf), fun f hf g hg =>
        hc.agree f (List.mem_append_left _ hf) g (List.mem_append_left _ hg)⟩

variable (settlement refunds) in
theorem uniqueRefunds_spec :
    match uniqueRefunds settlement settlement.currency refunds with
    | .ok unique => Collected settlement refunds unique
    | .error _ => ¬ Consistent settlement refunds :=
  have hempty : Collected settlement [] [] := ⟨⟨by simp, by simp⟩, by simp, by simp⟩
  hempty.run

theorem Collected.sum_eq (h : Collected settlement refunds unique) :
    (unique.map (·.amount.amount)).sum = ∑ refund ∈ refunds.toFinset, refund.amount.amount := by
  have hset : refunds.toFinset = unique.toFinset := by
    ext refund
    rw [List.mem_toFinset, List.mem_toFinset, h.mem_iff]
  rw [hset, List.sum_toFinset _ (List.Nodup.of_map _ h.nodup)]

theorem Collected.perm (h : Collected settlement refunds unique)
    (h' : Collected settlement refunds' unique')
    (hsame : ∀ refund, refund ∈ refunds' ↔ refund ∈ refunds) : unique'.Perm unique :=
  (List.perm_ext_iff_of_nodup (List.Nodup.of_map _ h'.nodup) (List.Nodup.of_map _ h.nodup)).mpr
    fun refund => by rw [h'.mem_iff, h.mem_iff, hsame]

/-- The digest does not see the order of the refunds. -/
theorem Collected.payload_eq (h : Collected settlement refunds unique)
    (hperm : unique'.Perm unique) : refundPayload unique' = refundPayload unique := by
  let le (f g : RefundReceiptV2) : Prop := f.refundId ≤ g.refundId
  have hsorted (l : List RefundReceiptV2) : (l.insertionSort le).Perm l := l.perm_insertionSort le
  have heq : unique'.insertionSort le = unique.insertionSort le := by
    refine (((hsorted unique').trans hperm).trans (hsorted unique).symm).eq_of_pairwise
      (fun f g hf hg hle hge => ?_) (List.pairwise_insertionSort le _)
      (List.pairwise_insertionSort le _)
    have hf := (h.mem_iff f).mp (hperm.mem_iff.mp ((hsorted unique').mem_iff.mp hf))
    have hg := (h.mem_iff g).mp ((hsorted unique).mem_iff.mp hg)
    exact h.consistent.agree f hf g hg (le_antisymm hle hge)
  exact congrArg (List.map fun item => (item.refundId, item.amount.amount, item.amount.currency)) heq

/-! ## The report -/

theorem report_of_final (h : settlement.status.final) :
    cashAccountingForReporting digest settlement reconciliations refunds =
      match uniqueRefunds settlement settlement.currency refunds with
      | .error reason => conflictingReportCash settlement reason
      | .ok unique =>
        if (billedAmount settlement reconciliations).amount <
            decSum (unique.map (·.amount.amount)) then
          conflictingReportCash settlement "refund evidence exceeds the authoritative charge"
        else
          match unique, latest settlement reconciliations with
          | [], none => .ok (settledView settlement)
          | [], some item =>
            cashAccountingFromReconciliation item settlement.chargeId (settledView settlement)
          | _, _ => netReportCash digest settlement (latest settlement reconciliations)
            (billedAmount settlement reconciliations) (decSum (unique.map (·.amount.amount)))
            unique := by
  have hsome : ¬ (settledView settlement).cash.actualCashCost settlement.capturedAmount.currency =
      none := by
    have hcost := settledView_cost settlement
    rw [PaidSettlement.currency] at hcost
    rw [hcost]
    exact Option.some_ne_none _
  have hcurrency : (billedAmount settlement reconciliations).currency =
      settlement.capturedAmount.currency := billedAmount_currency settlement reconciliations
  rw [cashAccountingForReporting, fromSettlement_of_final h]
  simp only [bind, Except.bind, hsome, if_false, hcurrency, ne_eq, not_true_eq_false]
  rw [PaidSettlement.currency]
  rfl

variable (digest settlement unique) in
theorem netReport_ok (reconciliation : Option BillingReconciliation) {billed : CurrencyAmount}
    {refunded : ℚ} (h : refunded ≤ billed.amount) :
    ∃ view, netReportCash digest settlement reconciliation billed refunded unique = .ok view ∧
      view.cash.actualCashCost billed.currency = some (dec (dec (billed.amount - refunded))) := by
  have hnet : 0 ≤ dec (billed.amount - refunded) := dec_nonneg (by linarith)
  have hclass : CashAccounting.provesZero
      (if reconciliation.isSome then .billingReconciled else .verified) := by
    cases reconciliation <;> rfl
  have hknown : (if reconciliation.isSome then CashClassification.billingReconciled else .verified) ≠
      .unavailable := by
    cases reconciliation <;> simp
  dsimp only [netReportCash]
  rw [Component.make_ok hnet hknown (by simp [economicEvidence])]
  simp only [bind, Except.bind]
  exact ⟨_, Leads.make ⟨⟨rfl, hknown⟩, List.forall_mem_nil _⟩,
    Leads.cost ⟨⟨rfl, hknown⟩, List.forall_mem_nil _⟩ hclass rfl⟩

theorem latest_of_billedAmount (h : latest settlement reconciliations = some item) :
    billedAmount settlement reconciliations = item.billedAmount := by
  rw [billedAmount, h, Option.map_some, Option.getD_some]

theorem refunds_of_nil (h : Collected settlement refunds []) : refunds = [] :=
  List.eq_nil_iff_forall_not_mem.mpr fun refund hrefund => by simpa using (h.mem_iff refund).mpr hrefund

theorem report_cost {e : ℤ} (hunits : Denominated e settlement reconciliations refunds)
    (hid : ¬ SharesId settlement reconciliations refunds) :
    ∃ view, cashAccountingForReporting digest settlement reconciliations refunds = .ok view ∧
      view.cash.actualCashCost settlement.currency =
        netCharge settlement reconciliations refunds := by
  by_cases hfinal : settlement.status.final
  · rw [report_of_final hfinal]
    have hspec := uniqueRefunds_spec settlement refunds
    have hconflict (reason : String) (hnone : netCharge settlement reconciliations refunds = none) :
        ∃ view, conflictingReportCash settlement reason = .ok view ∧
          view.cash.actualCashCost settlement.currency =
            netCharge settlement reconciliations refunds := by
      obtain ⟨view, hview, hcost⟩ := conflicting_ok settlement reason
      exact ⟨view, hview, by rw [hcost, hnone]⟩
    cases hunique : uniqueRefunds settlement settlement.currency refunds with
    | error reason =>
      rw [hunique] at hspec
      exact hconflict reason (if_neg fun h => hspec h.2.1)
    | ok unique =>
      rw [hunique] at hspec
      have hgrid : ∀ x ∈ unique.map (·.amount.amount), Decimal.OnGrid e x ∧ 0 ≤ x := by
        refine List.forall_mem_map.mpr fun refund hrefund => ⟨?_, refund.amount.nonneg⟩
        exact hunits.refunds refund ((hspec.mem_iff refund).mp hrefund)
      have hbilled0 := (billedAmount settlement reconciliations).nonneg
      have hle := decSum_le_iff hunits.billed hbilled0 hunits.digits hgrid
      rw [hspec.sum_eq] at hle
      by_cases hover : (billedAmount settlement reconciliations).amount <
          decSum (unique.map (·.amount.amount))
      · simp only [hover, if_true]
        exact hconflict _ (if_neg fun h => absurd (hle.mpr h.2.2) (not_le.mpr hover))
      · have hfits := hle.mp (not_lt.mp hover)
        have hnet : netCharge settlement reconciliations refunds =
            some ((billedAmount settlement reconciliations).amount -
              ∑ refund ∈ refunds.toFinset, refund.amount.amount) :=
          if_pos ⟨hfinal, hspec.consistent, hfits⟩
        obtain ⟨hsum, hsumGrid, hsum0⟩ := decSum_of_onGrid hgrid
          (hspec.sum_eq.le.trans (hfits.trans hunits.digits.le))
        rw [hspec.sum_eq] at hsum hsumGrid hsum0
        -- what fits in 28 digits is not rounded
        have hexact : ∀ {q : ℚ}, Decimal.OnGrid e q → 0 ≤ q →
            q ≤ (billedAmount settlement reconciliations).amount → dec q = q := fun hq h0 hq' =>
          dec_of_onGrid hq (by rw [abs_of_nonneg h0]; exact hq'.trans hunits.digits.le)
        simp only [hover, if_false]
        rw [hnet]
        have hwhole := hexact hunits.billed hbilled0 le_rfl
        split
        · next hlatest =>
          obtain rfl := refunds_of_nil hspec
          refine ⟨_, rfl, ?_⟩
          rw [billedAmount, hlatest, Option.map_none, Option.getD_none] at hwhole ⊢
          rw [settledView_cost, hwhole]
          simp
        · next item hlatest =>
          obtain rfl := refunds_of_nil hspec
          obtain ⟨-, heligible, -⟩ := latest_eq_some hlatest
          rw [fromReconciliation_eq heligible, if_neg fun heq => hid ⟨hfinal, rfl, item, hlatest, heq⟩]
          refine ⟨_, rfl, ?_⟩
          have hcost := (reconciled_leads settlement item).cost rfl rfl
          rw [latest_of_billedAmount hlatest] at hwhole ⊢
          have hcurrency := billedAmount_currency settlement reconciliations
          rw [latest_of_billedAmount hlatest] at hcurrency
          rw [← hcurrency]
          refine hcost.trans ?_
          rw [hwhole]
          simp
        · obtain ⟨view, hview, hcost⟩ := netReport_ok digest settlement _
            (latest settlement reconciliations) (not_lt.mp hover)
          refine ⟨view, hview, ?_⟩
          have hdiff := hexact (hunits.billed.sub hsumGrid) (by linarith) (by linarith)
          rw [billedAmount_currency, hsum, hdiff, hdiff] at hcost
          exact hcost
  · obtain ⟨view, hview, hcost⟩ := fromSettlement_of_not_final hfinal
    refine ⟨view, ?_, ?_⟩
    · rw [cashAccountingForReporting, hview]
      simp only [bind, Except.bind, hcost, if_true]
      rfl
    · rw [hcost, netCharge, if_neg fun h => hfinal h.1]

theorem report_of_sharesId (h : SharesId settlement reconciliations refunds) :
    ∃ error, cashAccountingForReporting digest settlement reconciliations refunds = .error error := by
  obtain ⟨hfinal, rfl, item, hlatest, hid⟩ := h
  obtain ⟨-, heligible, -⟩ := latest_eq_some hlatest
  have hover : ¬ (billedAmount settlement reconciliations).amount < decSum [] :=
    not_lt.mpr (billedAmount settlement reconciliations).nonneg
  rw [report_of_final hfinal]
  simp only [uniqueRefunds, List.foldlM_nil, pure, Except.pure, List.map_nil, hover, if_false, hlatest]
  rw [fromReconciliation_eq heligible, if_pos hid]
  exact ⟨_, rfl⟩

theorem netReport_congr {reconciliation : Option BillingReconciliation} {billed : CurrencyAmount}
    {refunded : ℚ} (hperm : unique'.Perm unique)
    (hpayload : refundPayload unique' = refundPayload unique) :
    netReportCash digest settlement reconciliation billed refunded unique' =
      netReportCash digest settlement reconciliation billed refunded unique := by
  have hobserved (more : List Int) (start : Int) :
      (unique'.map (·.refundedAt) ++ more).foldl max start =
        (unique.map (·.refundedAt) ++ more).foldl max start :=
    ((hperm.map _).append_right more).foldl_eq start
  simp only [netReportCash, hpayload, hobserved]

/-- Neither the order of the records, nor repeated ones, nor ineligible ones change the report. -/
theorem report_alike {e : ℤ} (hagreed : Agreed settlement reconciliations)
    (hunits : Denominated e settlement reconciliations refunds)
    (hsame : ∀ item, Eligible settlement item → (item ∈ reconciliations' ↔ item ∈ reconciliations))
    (hrefunds : ∀ refund, refund ∈ refunds' ↔ refund ∈ refunds) :
    Alike settlement (cashAccountingForReporting digest settlement reconciliations refunds)
      (cashAccountingForReporting digest settlement reconciliations' refunds') := by
  by_cases hfinal : settlement.status.final
  · have hlatest := latest_congr hagreed hsame
    have hbilled : billedAmount settlement reconciliations' =
        billedAmount settlement reconciliations := by
      rw [billedAmount, billedAmount, hlatest]
    rw [report_of_final hfinal, report_of_final hfinal, hlatest, hbilled]
    have hspec := uniqueRefunds_spec settlement refunds
    have hspec' := uniqueRefunds_spec settlement refunds'
    cases hunique : uniqueRefunds settlement settlement.currency refunds with
    | error reason =>
      cases hunique' : uniqueRefunds settlement settlement.currency refunds' with
      | error reason' => exact .inr ⟨reason, reason', rfl, rfl⟩
      | ok unique' =>
        rw [hunique] at hspec
        rw [hunique'] at hspec'
        exact absurd ((Consistent.congr hrefunds).mp hspec'.consistent) hspec
    | ok unique =>
      rw [hunique] at hspec
      cases hunique' : uniqueRefunds settlement settlement.currency refunds' with
      | error reason' =>
        rw [hunique'] at hspec'
        exact absurd ((Consistent.congr hrefunds).mpr hspec.consistent) hspec'
      | ok unique' =>
        rw [hunique'] at hspec'
        have hperm := hspec.perm hspec' hrefunds
        have hpayload := hspec.payload_eq hperm
        have hgrid : ∀ x ∈ unique.map (·.amount.amount), Decimal.OnGrid e x ∧ 0 ≤ x := by
          refine List.forall_mem_map.mpr fun refund hrefund => ⟨?_, refund.amount.nonneg⟩
          exact hunits.refunds refund ((hspec.mem_iff refund).mp hrefund)
        have hmap := hperm.map fun refund => refund.amount.amount
        have hgrid' : ∀ x ∈ unique'.map (·.amount.amount), Decimal.OnGrid e x ∧ 0 ≤ x := fun x hx =>
          hgrid x (hmap.mem_iff.mp hx)
        have hbilled0 := (billedAmount settlement reconciliations).nonneg
        have hle := decSum_le_iff hunits.billed hbilled0 hunits.digits hgrid
        have hle' := decSum_le_iff hunits.billed hbilled0 hunits.digits hgrid'
        rw [hmap.sum_eq, ← hle] at hle'
        by_cases hover : (billedAmount settlement reconciliations).amount <
            decSum (unique.map (·.amount.amount))
        · have hover' := not_le.mp (fun h => absurd (hle'.mp h) (not_le.mpr hover))
          simp only [hover, hover', if_true]
          exact .inl rfl
        · have hfits := not_lt.mp hover
          have hsum : decSum (unique'.map (·.amount.amount)) =
              decSum (unique.map (·.amount.amount)) := by
            have hsmall := (hle.mp hfits).trans hunits.digits.le
            rw [(decSum_of_onGrid hgrid hsmall).1,
              (decSum_of_onGrid hgrid' (hmap.sum_eq ▸ hsmall)).1, hmap.sum_eq]
          simp only [hover, if_false, hsum]
          cases unique with
          | nil =>
            obtain rfl := hperm.eq_nil
            exact .inl rfl
          | cons refund rest =>
            cases unique' with
            | nil => exact absurd hperm.symm.eq_nil (List.cons_ne_nil _ _)
            | cons refund' rest' => exact .inl (netReport_congr hperm hpayload).symm
  · obtain ⟨view, hview, hcost⟩ := fromSettlement_of_not_final hfinal
    refine .inl ?_
    simp only [cashAccountingForReporting, hview, bind, Except.bind, hcost, if_true]

end Report

/-! ## Single reports -/

def dollars (amount : ℕ) : CurrencyAmount := ⟨amount, "USD", Nat.cast_nonneg amount⟩

def tenDollars : PaidSettlement where
  settlementId := "settlement"
  chargeId := "charge"
  preparedId := "prepared"
  basis := ⟨.publishedOffer, "offer"⟩
  reservationId := "reservation"
  attemptId := "attempt"
  reservedAmount := dollars 10
  capturedAmount := dollars 10
  releasedAmount := dollars 0
  paymentRail := "rail"
  externalReference := none
  status := .settled
  settledAt := 0
  rest := ""
  captured_currency := rfl
  released_currency := rfl
  captured_le := le_rfl
  accounted_le := by decide +kernel
  accounted := fun _ => by decide +kernel
  evidenceLevel := .paymentSettlement
  final_evidence := fun _ => rfl

def nineBilled (id : String) : BillingReconciliation where
  reconciliationId := id
  settlementId := "settlement"
  providerId := "provider"
  invoiceReference := some "invoice"
  billingRecordReference := none
  expectedAmount := dollars 10
  billedAmount := dollars 9
  discrepancy := dollars 1
  status := .undercharged
  evidenceDigest := none
  reconciledAt := 1
  billed_currency := rfl
  discrepancy_currency := rfl
  discrepancy_amount := by decide +kernel

def tenBilled (id : String) : BillingReconciliation where
  reconciliationId := id
  settlementId := "settlement"
  providerId := "provider"
  invoiceReference := some "invoice"
  billingRecordReference := none
  expectedAmount := dollars 10
  billedAmount := dollars 10
  discrepancy := dollars 0
  status := .matched
  evidenceDigest := none
  reconciledAt := 1
  billed_currency := rfl
  discrepancy_currency := rfl
  discrepancy_amount := by decide +kernel

def twoRefunded : RefundReceiptV2 where
  refundId := "refund"
  settlementId := "settlement"
  chargeId := "charge"
  amount := dollars 2
  reason := "late"
  idempotencyKey := "key"
  refundedAt := 2
  rest := ""

def reportedCost (settlement : PaidSettlement) (reconciliations : List BillingReconciliation)
    (refunds : List RefundReceiptV2) : Option (Option ℚ) :=
  (cashAccountingForReporting (fun _ => "") settlement reconciliations refunds).toOption.map
    fun view => view.cash.actualCashCost settlement.currency

end AeepRouter.CashReport
