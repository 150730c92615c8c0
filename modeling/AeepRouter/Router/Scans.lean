import AeepRouter.Lib.Keyset
import AeepRouter.Router.Decisions
import Mathlib.Data.String.Basic

/-!
# Scans for unfinished work

Four scans of the store for rows that a recovery has to finish. Each joins the prepared decisions
with what belongs to them, reads pages of 256 rows in the order of creation, and keeps the rows that
a filter in memory finds unfinished. Since no join repeats a decision, a scan returns the first
unfinished rows (`recovery_scans`).
-/

namespace AeepRouter.Router

/-- `text LIKE 'start%'`, which does not look at the case of letters. -/
def likePrefix (start text : String) : Bool :=
  (text.toList.take start.length).map Char.toLower = start.toList

def operationKey (operation : String) (record : IdempotencyRecord) : String :=
  removePrefix ("payment:" ++ operation ++ ":") record.idempotencyKey

def receiptsOf (s : Store) (decision : PreparedRouteDecision) : List ExecutionReceipt :=
  s.evidence.receipts.rows.filter fun receipt =>
    receipt.actionId = decision.actionId ∧ some receipt.executorId = decision.selectedExecutorId

/-- The only receipt that can finish a free action. -/
def freeReceipt (s : Store) (decision : PreparedRouteDecision) : Option ExecutionReceipt :=
  match (receiptsOf s decision).filter fun receipt =>
      receipt.says "prepared_id" decision.preparedId ∧ receipt.isFree with
  | [receipt] => some receipt
  | _ => none

/-- A row of `economic_evidence_links`; its level follows from the payload. -/
structure EconomicEvidenceLink where
  linkId : String
  chargeId : String
  evidenceType : String
  evidenceId : String
  payloadDigest : String
  authoritative : Bool
  supersedesLinkId : Option String
  deriving DecidableEq, Repr

end AeepRouter.Router

namespace AeepRouter.Scans

open Lib Router

/-! ## The rows -/

structure Content where
  store : Store
  links : Table EconomicEvidenceLink (·.linkId)
  createdAt : PreparedRouteDecision → Int
  crypto : Crypto
  reserved_once : (store.reservations.rows.map (·.payload.preparedId)).Nodup
  settled_once : (store.settlements.rows.map (·.reservationId)).Nodup

/-- The order of two decisions by creation. -/
def Content.key (content : Content) (row : PreparedRow) : Int ×ₗ String :=
  toLex (content.createdAt row.payload, row.preparedId)

/-- `ORDER BY created_at, prepared_id`. -/
def Content.Precedes (content : Content) (a b : PreparedRow) : Prop :=
  content.createdAt a.payload < content.createdAt b.payload ∨
    content.createdAt a.payload = content.createdAt b.payload ∧ a.preparedId < b.preparedId

theorem Content.key_lt_iff (content : Content) (a b : PreparedRow) :
    content.key a < content.key b ↔ content.Precedes a b :=
  Prod.Lex.toLex_lt_toLex

def boundedLimit (limit : Int) : ℕ := (max 1 (min limit 10000)).toNat

def pageSize : ℕ := 256

section Queries

variable (content : Content)

abbrev BoundRow := PreparedRow × PreparedActionIdempotencyRecord

/-- The decisions with the keys of their actions. -/
def boundRows : List BoundRow :=
  join (·.preparedId) (·.preparedId) content.store.prepared.rows content.store.actionBindings.rows

abbrev FreeRow := (BoundRow × Option IdempotencyRecord) × Option PaymentRow

/-- Decisions with a key and without a reservation, whose work has begun. -/
def freeRows : List FreeRow :=
  let actions := leftJoin (·.2.idempotencyKey) (·.idempotencyKey) (boundRows content)
    content.store.idempotency.rows
  let reserved := leftJoin (·.1.1.preparedId) (·.payload.preparedId) actions
    content.store.reservations.rows
  reserved.filter fun row =>
    row.1.1.1.state ∈ [.invoking, .settling, .indeterminate, .settled] ∧ row.2 = none

abbrev PaidRow := (PreparedRow × PaymentRow) × SettlementReceipt

/-- The decisions with their reservations and settlements. -/
def paidRows : List PaidRow :=
  let reserved := join (·.preparedId) (·.payload.preparedId) content.store.prepared.rows
    content.store.reservations.rows
  join (·.2.reservationId) (·.reservationId) reserved content.store.settlements.rows

def settledRows : List PaidRow := (paidRows content).filter (·.1.1.state = .settled)

def releasedRows : List PaidRow :=
  (paidRows content).filter fun row =>
    row.1.1.state = .released ∧ row.1.2.state = .released ∧ row.2.status = .released

abbrev ClaimedRow := ((BoundRow × IdempotencyRecord) × PaymentRow) × SettlementReceipt

/-- Released decisions whose key is still claimed. -/
def claimedRows : List ClaimedRow :=
  let actions := join (·.2.idempotencyKey) (·.idempotencyKey) (boundRows content)
    content.store.idempotency.rows
  let reserved := join (·.1.1.preparedId) (·.payload.preparedId) actions
    content.store.reservations.rows
  (join (·.2.reservationId) (·.reservationId) reserved content.store.settlements.rows).filter
    fun row => row.1.1.1.1.state = .released ∧ row.1.1.2.state = .claimed ∧
      row.1.2.state = .released ∧ row.2.status = .released

end Queries

/-! ## The scans -/

structure PreparedActionFinalizationRecord where
  preparedId : String
  actionDigest : String
  receiptId : Option String
  decisionId : Option String
  status : Option String
  deriving DecidableEq, Repr

structure PaymentOperationFinalizationRecord where
  preparedId : String
  reservationId : String
  settlementId : String
  operation : String
  idempotencyKey : String
  requestDigest : String
  deriving DecidableEq, Repr

section Scans

variable (content : Content)

/-- Whether a key has the result of a receipt. -/
def completedBy (action : IdempotencyRecord) (digest : String) (receipt : ExecutionReceipt) : Prop :=
  action.requestHash = digest ∧ action.state = .complete ∧
    action.decisionId = some receipt.decisionId ∧ action.status = some receipt.status ∧
    action.receiptIds = [receipt.receiptId]

instance (action : IdempotencyRecord) (digest : String) (receipt : ExecutionReceipt) :
    Decidable (completedBy action digest receipt) := by
  unfold completedBy; infer_instance

def unfinishedFree (row : FreeRow) : Option PreparedActionFinalizationRecord :=
  let prepared := row.1.1.1
  let binding := row.1.1.2
  let finalReceipt := freeReceipt content.store prepared.payload
  if prepared.state = .settled ∧ ∃ receipt ∈ finalReceipt, ∃ action ∈ row.1.2,
      completedBy action binding.actionDigest receipt then none
  else some {
    preparedId := prepared.preparedId
    actionDigest := binding.actionDigest
    receiptId := finalReceipt.map (·.receiptId)
    decisionId := finalReceipt.map (·.decisionId)
    status := finalReceipt.map (·.status) }

/-- `final_receipt_for_settlement`. -/
def settlementReceipt (row : PaidRow) : Option ExecutionReceipt :=
  (receiptsOf content.store row.1.1.payload).find? fun receipt =>
    receipt.says "prepared_id" row.1.1.preparedId ∧
      receipt.says "settlement_id" row.2.settlementId ∧
      receipt.says "attempt_id" row.1.2.payload.attemptId ∧
      receipt.says "charge_id" row.1.2.payload.chargeId

def linked (row : PaidRow) : Prop :=
  ∃ link ∈ content.links.rows, link.chargeId = row.1.2.payload.chargeId ∧
    link.evidenceType = "settlement_receipt" ∧ link.evidenceId = row.2.settlementId ∧
    link.authoritative

def operated (row : PaidRow) : Prop :=
  ∃ operation ∈ content.store.idempotency.rows,
    likePrefix "payment:settle:" operation.idempotencyKey ∧ operation.state = .complete ∧
      operation.decisionId = some "settle" ∧ operation.status = some "SettlementReceipt" ∧
      operation.receiptIds = [row.2.settlementId]

/-- Whether the key of the action, if it has one, has the result of the receipt. -/
def actionComplete (row : PaidRow) (finalReceipt : Option ExecutionReceipt) : Prop :=
  ∀ binding ∈ content.store.actionBindings.find? row.1.1.preparedId,
    ∃ receipt ∈ finalReceipt, binding.actionDigest = row.1.1.payload.actionDigest ∧
      ∃ action ∈ content.store.idempotency.find? binding.idempotencyKey,
        completedBy action row.1.1.payload.actionDigest receipt

instance (row : PaidRow) : Decidable (linked content row) := by unfold linked; infer_instance

instance (row : PaidRow) : Decidable (operated content row) := by unfold operated; infer_instance

instance (row : PaidRow) (finalReceipt : Option ExecutionReceipt) :
    Decidable (actionComplete content row finalReceipt) := by
  unfold actionComplete; infer_instance

/-- A settled decision whose audit is not finished. -/
def unfinishedSettlement (row : PaidRow) : Option PreparedRouteDecision :=
  let finalReceipt := settlementReceipt content row
  if ¬ linked content row ∨ finalReceipt = none ∨ ¬ operated content row ∨
      ¬ actionComplete content row finalReceipt then
    some row.1.1.decision
  else none

def releaseOperations : List IdempotencyRecord :=
  content.store.idempotency.rows.filter fun record =>
    likePrefix "payment:release:" record.idempotencyKey ∧
      record.state ∈ [.claimed, .executing, .indeterminate]

/-- `operations_by_result_id.get`: of two operations with one result the later one counts. -/
def operationOf (resultId : String) : Option IdempotencyRecord :=
  (releaseOperations content).reverse.find? fun record =>
    stableOperationId content.crypto "release" (operationKey "release" record) = resultId

def unfinishedRelease (row : PaidRow) : Option PaymentOperationFinalizationRecord :=
  (operationOf content row.2.settlementId).map fun operation => {
    preparedId := row.1.1.preparedId
    reservationId := row.1.2.reservationId
    settlementId := row.2.settlementId
    operation := "release"
    idempotencyKey := operationKey "release" operation
    requestDigest := operation.requestHash }

/-- A decision that was released without a charge. -/
def unabandoned (row : ClaimedRow) : Option PreparedRouteDecision :=
  if row.2.capturedAmount.amount = 0 then some row.1.1.1.1.decision else none

def scanRows {ρ β : Type} (prepared : ρ → PreparedRow) (rows : List ρ) (found : ρ → Option β)
    (limit : Int) : List β :=
  scan (fun row => content.key (prepared row)) rows pageSize found (boundedLimit limit) none []

def freeActionsNeedingFinalization (limit : Int) : List PreparedActionFinalizationRecord :=
  scanRows content (·.1.1.1) (freeRows content) (unfinishedFree content) limit

def settledPreparedDecisionsNeedingFinalization (limit : Int) : List PreparedRouteDecision :=
  scanRows content (·.1.1) (settledRows content) (unfinishedSettlement content) limit

def releasedPaymentOperationsNeedingFinalization (limit : Int) :
    List PaymentOperationFinalizationRecord :=
  scanRows content (·.1.1) (releasedRows content) (unfinishedRelease content) limit

def releasedPreparedActionsNeedingAbandonment (limit : Int) : List PreparedRouteDecision :=
  scanRows content (·.1.1.1.1) (claimedRows content) unabandoned limit

end Scans

/-! ## What a scan returns -/

/-- The first `n` finds of rows, in the order of creation of their decisions, each once. -/
def ReturnsFirst {ρ β : Type} (content : Content) (prepared : ρ → PreparedRow) (rows : List ρ)
    (found : ρ → Option β) (n : ℕ) (results : List β) : Prop :=
  ∃ ordered : List ρ, ordered.Perm rows ∧
    ordered.Pairwise (fun a b => content.Precedes (prepared a) (prepared b)) ∧
    results = (ordered.filterMap found).take n

section Spec

variable {content : Content} {ρ β : Type} {prepared : ρ → PreparedRow} {rows : List ρ}

theorem keys_nodup (h : (rows.map prepared).Sublist content.store.prepared.rows) :
    (rows.map fun row => content.key (prepared row)).Nodup := by
  have hids : ((rows.map prepared).map PreparedRow.preparedId).Nodup :=
    content.store.prepared.nodup.sublist (h.map _)
  refine List.Nodup.of_map (fun key => (ofLex key).2) ?_
  rw [List.map_map] at hids ⊢
  exact hids

/-- A scan of rows that repeat no decision loses and repeats none of them. -/
theorem scanRows_spec (h : (rows.map prepared).Sublist content.store.prepared.rows)
    (found : ρ → Option β) (limit : Int) :
    ReturnsFirst content prepared rows found (boundedLimit limit)
      (scanRows content prepared rows found limit) := by
  have hkeys := keys_nodup h
  refine ⟨upcoming (fun row => content.key (prepared row)) rows none, ?_, ?_, ?_⟩
  · have hall : remaining (fun row => content.key (prepared row)) rows none = rows :=
      List.filter_eq_self.mpr fun _ _ => decide_eq_true fun _ hk => absurd hk (Option.not_mem_none _)
    exact (List.perm_insertionSort _ _).trans (.of_eq hall)
  · exact (upcoming_pairwise hkeys none).imp fun hlt => (content.key_lt_iff _ _).mp hlt
  · exact scan_eq_take hkeys (by decide)

/-- A row found beside rows of a query keeps what they name. -/
theorem map_fst_sublist {α γ δ : Type} {l : List (α × γ)} {l' : List α} {l'' : List δ} {g : α → δ}
    (h : (l.map Prod.fst).Sublist l') (hg : (l'.map g).Sublist l'') :
    (l.map fun x => g x.1).Sublist l'' := by
  have := h.map g
  rw [List.map_map] at this
  exact this.trans hg

variable (content)

theorem boundRows_sublist : ((boundRows content).map (·.1)).Sublist content.store.prepared.rows :=
  join_sublist content.store.actionBindings.nodup

theorem freeRows_sublist : ((freeRows content).map (·.1.1.1)).Sublist content.store.prepared.rows :=
  (List.filter_sublist.map _).trans <| map_fst_sublist (leftJoin_sublist content.reserved_once) <|
    map_fst_sublist (leftJoin_sublist content.store.idempotency.nodup) (boundRows_sublist content)

theorem paidRows_sublist : ((paidRows content).map (·.1.1)).Sublist content.store.prepared.rows :=
  map_fst_sublist (join_sublist content.settled_once) (join_sublist content.reserved_once)

theorem claimedRows_sublist :
    ((claimedRows content).map (·.1.1.1.1)).Sublist content.store.prepared.rows :=
  (List.filter_sublist.map _).trans <| map_fst_sublist (join_sublist content.settled_once) <|
    map_fst_sublist (join_sublist content.reserved_once) <|
      map_fst_sublist (join_sublist content.store.idempotency.nodup) (boundRows_sublist content)

/-- The scans return the first rows that need work, of as many as the limit between 1 and 10000. -/
theorem recovery_scans (limit : Int) :
    ReturnsFirst content (·.1.1.1) (freeRows content) (unfinishedFree content) (boundedLimit limit)
        (freeActionsNeedingFinalization content limit) ∧
      ReturnsFirst content (·.1.1) (settledRows content) (unfinishedSettlement content)
        (boundedLimit limit) (settledPreparedDecisionsNeedingFinalization content limit) ∧
      ReturnsFirst content (·.1.1) (releasedRows content) (unfinishedRelease content)
        (boundedLimit limit) (releasedPaymentOperationsNeedingFinalization content limit) ∧
      ReturnsFirst content (·.1.1.1.1) (claimedRows content) unabandoned (boundedLimit limit)
        (releasedPreparedActionsNeedingAbandonment content limit) := by
  have hpaid := paidRows_sublist content
  refine ⟨scanRows_spec (freeRows_sublist content) _ _, scanRows_spec ?_ _ _, scanRows_spec ?_ _ _,
    scanRows_spec (claimedRows_sublist content) _ _⟩
  · exact (List.filter_sublist.map _).trans hpaid
  · exact (List.filter_sublist.map _).trans hpaid

end Spec

/-! ## A limit of no rows -/

section Clamp

def invokedDecision : PreparedRouteDecision where
  preparedId := "prepared_1"
  actionId := "action_1"
  actionDigest := "digest"
  effectivePolicyDigest := "policy"
  selectedExecutorId := some "executor"
  selectedExecutorFingerprint := none
  basis := none
  authorizationMeterQuantities := []
  disclosedQuoteFeatures := []
  expectedCash := ⟨.unavailable, []⟩
  maximumCashAuthorization := none
  state := .invoking
  expiresAt := 1
  rest := ""

def invokedRow : PreparedRow := ⟨invokedDecision, .invoking, none, none⟩

def invokedStore : Store :=
  { Store.empty with
    prepared := Table.insert ∅ invokedRow
    actionBindings := Table.insert ∅ ⟨"prepared_1", "key", "digest", 0⟩ }

/-- A store with one free action to be finished. -/
def invokedContent : Content where
  store := invokedStore
  links := ∅
  createdAt _ := 0
  crypto := ⟨fun _ _ => false, fun _ _ => false, id⟩
  reserved_once := List.nodup_nil
  settled_once := List.nodup_nil

/-- Asked for no row, a scan returns one. -/
theorem recovery_scans_clamped :
    ¬ ReturnsFirst invokedContent (·.1.1.1) (freeRows invokedContent)
      (unfinishedFree invokedContent) (0 : Int).toNat
      (freeActionsNeedingFinalization invokedContent 0) := by
  rintro ⟨other, -, -, hnone⟩
  obtain ⟨ordered, hperm, -, hone⟩ := scanRows_spec (freeRows_sublist invokedContent)
    (unfinishedFree invokedContent) 0
  have hrows : freeRows invokedContent =
      [(((invokedRow, ⟨"prepared_1", "key", "digest", 0⟩), none), none)] := rfl
  rw [hrows, List.perm_singleton] at hperm
  rw [hperm] at hone
  have hsame := hone.symm.trans hnone
  rw [Int.toNat_zero, List.take_zero] at hsame
  revert hsame
  decide +kernel

end Clamp

end AeepRouter.Scans
