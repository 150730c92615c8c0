import AeepRouter.Economic.Accounting
import AeepRouter.Lib.Resample

/-!
# What the cost of a charge depends on

The evidence of a charge is resolved by the strongest of it (`Strongest`), so two lists of components
that name the same charges and have the same strongest evidence (`SameEvidence`) resolve every charge
alike. Retries, duplicates and late records of a weaker class (`Retells`) are such lists. What the
accountings may still differ in is the order in which the amounts are added, which matters only
where a sum does not fit the precision of the decimals.
-/

namespace AeepRouter

open Lib

namespace CashEvidence

/-- Evidence with an amount, of a class that has a strength. -/
def Known (item : CashEvidence) : Prop := item.amount.isSome ∧ item.classification ≠ .unavailable

instance (item : CashEvidence) : Decidable item.Known := inferInstanceAs (Decidable (_ ∧ _))

/-- What a component says of its charge, apart from where it comes from. -/
def finding (item : CashEvidence) : Option ℚ × String × CashClassification :=
  (item.amount, item.currency, item.classification)

structure Strongest (components : List CashEvidence) (item : CashEvidence) : Prop where
  mem : item ∈ components
  known : item.Known
  le : ∀ other ∈ components, other.chargeId = item.chargeId → other.Known →
    other.classification.strength ≤ item.classification.strength

end CashEvidence

open CashEvidence

namespace CashAccounting

/-- The charges of which the strongest evidence disagrees, as `detect_conflicts` looks for them. -/
def contested (components : List CashEvidence) : Bool :=
  (components.map (·.chargeId)).any fun chargeId =>
    decide (1 < ((strongestCashEvidence (components.filter (·.chargeId = chargeId))).map
      fun item => (item.amount, item.currency)).dedup.length)

/-- The constructor with its validator. -/
def make (status : EvidenceStatus) (components : List CashEvidence) : Result CashAccounting :=
  if status = .complete ∧ components = [] then
    .error (.value "complete cash accounting requires at least one charge component")
  else .ok ⟨if contested components then .conflict else status, components⟩

/-- The amounts `known_subtotal` adds up. -/
def countedAmounts (cash : CashAccounting) (currency : String) : List ℚ :=
  (cash.resolvedComponents.filter (·.currency = currency)).map fun item => item.amount.getD 0

def knownSubtotal (cash : CashAccounting) (currency : String) : ℚ :=
  decSum (cash.countedAmounts currency)

end CashAccounting

/-! ## The strongest evidence of a charge -/

theorem CashClassification.strength_injective :
    Function.Injective CashClassification.strength := by
  intro a b h
  cases a <;> cases b <;> simp_all [strength]

theorem le_foldl_max (xs : List ℕ) (a : ℕ) : a ≤ xs.foldl max a ∧ ∀ x ∈ xs, x ≤ xs.foldl max a := by
  induction xs generalizing a with
  | nil => simp
  | cons x xs ih =>
    obtain ⟨hstart, hall⟩ := ih (max a x)
    simp only [List.foldl_cons, List.mem_cons, forall_eq_or_imp]
    exact ⟨by omega, by omega, hall⟩

theorem foldl_max_mem (xs : List ℕ) (a : ℕ) : xs.foldl max a = a ∨ xs.foldl max a ∈ xs := by
  induction xs generalizing a with
  | nil => simp
  | cons x xs ih =>
    rw [List.foldl_cons, List.mem_cons]
    rcases ih (max a x) with h | h
    · rw [h]
      rcases max_choice a x with hmax | hmax <;> simp [hmax]
    · exact .inr (.inr h)

theorem mem_strongestCashEvidence (components : List CashEvidence) (chargeId : String)
    (item : CashEvidence) :
    item ∈ strongestCashEvidence (components.filter (·.chargeId = chargeId)) ↔
      item.chargeId = chargeId ∧ Strongest components item := by
  unfold strongestCashEvidence
  simp only [List.mem_filter, decide_eq_true_eq]
  generalize hgroup : (components.filter (·.chargeId = chargeId)).filter
    (fun item => decide (item.amount.isSome ∧ item.classification ≠ .unavailable)) = known
  have hmem (other : CashEvidence) :
      other ∈ known ↔ (other ∈ components ∧ other.chargeId = chargeId) ∧ other.Known := by
    simp only [← hgroup, List.mem_filter, decide_eq_true_eq, Known]
  have hle (other : CashEvidence) (h : other ∈ known) :=
    (le_foldl_max (known.map (·.classification.strength)) 0).2 _ (List.mem_map_of_mem h)
  constructor
  · rintro ⟨⟨⟨hitem, hcharge⟩, hknown⟩, hstrength⟩
    refine ⟨hcharge, hitem, hknown, fun other hother hsame hotherKnown => ?_⟩
    rw [hstrength]
    exact hle other ((hmem other).mpr ⟨⟨hother, hsame.trans hcharge⟩, hotherKnown⟩)
  · rintro ⟨hcharge, hitem, hknown, hmax⟩
    have hin := (hmem item).mpr ⟨⟨hitem, hcharge⟩, hknown⟩
    refine ⟨⟨⟨hitem, hcharge⟩, hknown⟩, le_antisymm (hle item hin) ?_⟩
    rcases foldl_max_mem (known.map (·.classification.strength)) 0 with h | h
    · omega
    · obtain ⟨other, hother, heq⟩ := List.mem_map.mp h
      obtain ⟨⟨hother, hotherCharge⟩, hotherKnown⟩ := (hmem other).mp hother
      rw [← heq]
      exact hmax other hother (hotherCharge.trans hcharge.symm) hotherKnown

def resolve (components : List CashEvidence) (chargeId : String) : Option CashEvidence :=
  match strongestCashEvidence (components.filter (·.chargeId = chargeId)) with
  | [] => none
  | item :: items =>
    if items.all fun other => other.amount = item.amount ∧ other.currency = item.currency then
      some item
    else none

theorem CashAccounting.resolvedComponents_eq (cash : CashAccounting) :
    cash.resolvedComponents = cash.chargeIds.filterMap (resolve cash.components) := rfl

theorem resolve_eq_some {components : List CashEvidence} {chargeId : String} {item : CashEvidence}
    (h : resolve components chargeId = some item) :
    item.chargeId = chargeId ∧ Strongest components item ∧
      ∀ other, other.chargeId = chargeId → Strongest components other →
        other.amount = item.amount ∧ other.currency = item.currency := by
  have hmem (other : CashEvidence) := mem_strongestCashEvidence components chargeId other
  unfold resolve at h
  cases hchoices : strongestCashEvidence (components.filter (·.chargeId = chargeId)) with
  | nil => simp [hchoices] at h
  | cons first items =>
    simp only [hchoices, Option.ite_none_right_eq_some, Option.some.injEq] at h hmem
    obtain ⟨hall, rfl⟩ := h
    obtain ⟨hcharge, hstrongest⟩ := (hmem first).mp List.mem_cons_self
    refine ⟨hcharge, hstrongest, fun other hother hstrong => ?_⟩
    rcases List.mem_cons.mp ((hmem other).mpr ⟨hother, hstrong⟩) with rfl | hin
    · exact ⟨rfl, rfl⟩
    · simpa using List.all_eq_true.mp hall other hin

theorem exists_resolve {components : List CashEvidence} {item : CashEvidence}
    (h : Strongest components item)
    (hagree : ∀ other, other.chargeId = item.chargeId → Strongest components other →
      other.amount = item.amount ∧ other.currency = item.currency) :
    ∃ found, resolve components item.chargeId = some found := by
  have hmem (other : CashEvidence) := mem_strongestCashEvidence components item.chargeId other
  unfold resolve
  cases hchoices : strongestCashEvidence (components.filter (·.chargeId = item.chargeId)) with
  | nil =>
    have := (hmem item).mpr ⟨rfl, h⟩
    simp [hchoices] at this
  | cons first items =>
    simp only [hchoices] at hmem ⊢
    refine ⟨first, if_pos (List.all_eq_true.mpr fun other hother => ?_)⟩
    obtain ⟨hcharge, hstrongest⟩ := (hmem first).mp List.mem_cons_self
    obtain ⟨hotherCharge, hother⟩ := (hmem other).mp (List.mem_cons_of_mem _ hother)
    obtain ⟨hamount, hcurrency⟩ := hagree first hcharge hstrongest
    obtain ⟨hamount', hcurrency'⟩ := hagree other hotherCharge hother
    simp [hamount, hamount', hcurrency, hcurrency']

theorem contested_iff {components : List CashEvidence} :
    CashAccounting.contested components ↔
      ∃ a b, Strongest components a ∧ Strongest components b ∧ a.chargeId = b.chargeId ∧
        (a.amount, a.currency) ≠ (b.amount, b.currency) := by
  have hmore (choices : List (Option ℚ × String)) :
      1 < choices.dedup.length ↔ ∃ x ∈ choices, ∃ y ∈ choices, x ≠ y := by
    rw [← List.card_toFinset, Finset.one_lt_card]
    simp only [List.mem_toFinset]
  rw [CashAccounting.contested, List.any_eq_true]
  constructor
  · rintro ⟨chargeId, -, hchoices⟩
    obtain ⟨_, hx, _, hy, hne⟩ := (hmore _).mp (of_decide_eq_true hchoices)
    obtain ⟨a, ha, rfl⟩ := List.mem_map.mp hx
    obtain ⟨b, hb, rfl⟩ := List.mem_map.mp hy
    obtain ⟨hcharge, hstrongest⟩ := (mem_strongestCashEvidence _ _ a).mp ha
    obtain ⟨hcharge', hstrongest'⟩ := (mem_strongestCashEvidence _ _ b).mp hb
    exact ⟨a, b, hstrongest, hstrongest', hcharge.trans hcharge'.symm, hne⟩
  · rintro ⟨a, b, ha, hb, hcharge, hne⟩
    refine ⟨a.chargeId, List.mem_map_of_mem ha.mem, decide_eq_true ((hmore _).mpr ?_)⟩
    have hin := (mem_strongestCashEvidence components a.chargeId a).mpr ⟨rfl, ha⟩
    have hin' := (mem_strongestCashEvidence components a.chargeId b).mpr ⟨hcharge.symm, hb⟩
    exact ⟨_, List.mem_map_of_mem hin, _, List.mem_map_of_mem hin', hne⟩

/-! ## The same evidence -/

structure SameEvidence (components components' : List CashEvidence) : Prop where
  charges : ∀ chargeId, chargeId ∈ components.map (·.chargeId) ↔
    chargeId ∈ components'.map (·.chargeId)
  strongest : ∀ item, Strongest components item ↔ Strongest components' item

namespace SameEvidence

variable {components components' : List CashEvidence}

theorem symm (h : SameEvidence components components') : SameEvidence components' components :=
  ⟨fun chargeId => (h.charges chargeId).symm, fun item => (h.strongest item).symm⟩

theorem eq_nil_iff (h : SameEvidence components components') :
    components = [] ↔ components' = [] := by
  have heq : ∀ {xs ys : List CashEvidence}, SameEvidence xs ys → xs = [] → ys = [] := by
    rintro xs ys hsame rfl
    rw [List.eq_nil_iff_forall_not_mem]
    intro item hitem
    have := (hsame.charges item.chargeId).mpr (List.mem_map_of_mem hitem)
    simp at this
  exact ⟨heq h, heq h.symm⟩

theorem chargeIds_perm (h : SameEvidence components components') (status status' : EvidenceStatus) :
    (CashAccounting.mk status components).chargeIds.Perm
      (CashAccounting.mk status' components').chargeIds :=
  (List.perm_ext_iff_of_nodup (nodup_eraseDups _) (nodup_eraseDups _)).mpr fun chargeId => by
    rw [List.mem_eraseDups, List.mem_eraseDups, h.charges]

theorem contested_eq (h : SameEvidence components components') :
    CashAccounting.contested components = CashAccounting.contested components' := by
  rw [Bool.eq_iff_iff, contested_iff, contested_iff]
  simp only [h.strongest]

theorem resolve_of (h : SameEvidence components components') {chargeId : String}
    {item : CashEvidence} (hitem : resolve components chargeId = some item) :
    ∃ item', resolve components' chargeId = some item' ∧ item'.finding = item.finding := by
  obtain ⟨rfl, hstrongest, hagree⟩ := resolve_eq_some hitem
  have hstrongest' := (h.strongest item).mp hstrongest
  obtain ⟨item', hitem'⟩ := exists_resolve hstrongest' fun other hcharge hother =>
    hagree other hcharge ((h.strongest other).mpr hother)
  obtain ⟨hcharge, hfound, -⟩ := resolve_eq_some hitem'
  obtain ⟨hamount, hcurrency⟩ := hagree item' hcharge ((h.strongest item').mpr hfound)
  have hclass : item'.classification = item.classification :=
    CashClassification.strength_injective (le_antisymm
      (hstrongest'.le item' hfound.mem hcharge hfound.known)
      (hfound.le item hstrongest'.mem hcharge.symm hstrongest'.known))
  exact ⟨item', hitem', by simp [finding, hamount, hcurrency, hclass]⟩

theorem finding_resolve (h : SameEvidence components components') (chargeId : String) :
    (resolve components chargeId).map finding = (resolve components' chargeId).map finding := by
  cases hfound : resolve components chargeId with
  | some item =>
    obtain ⟨item', hitem', heq⟩ := h.resolve_of hfound
    simp [hitem', heq]
  | none =>
    cases hfound' : resolve components' chargeId with
    | none => rfl
    | some item =>
      obtain ⟨item', hitem', -⟩ := h.symm.resolve_of hfound'
      simp [hfound] at hitem'

theorem findings_perm (h : SameEvidence components components') (status status' : EvidenceStatus) :
    ((CashAccounting.mk status components).resolvedComponents.map finding).Perm
      ((CashAccounting.mk status' components').resolvedComponents.map finding) := by
  simp only [CashAccounting.resolvedComponents_eq, List.map_filterMap, h.finding_resolve]
  exact (h.chargeIds_perm status status').filterMap _

theorem findings_eq (h : SameEvidence components components') (status status' : EvidenceStatus)
    (hids : (CashAccounting.mk status components).chargeIds =
      (CashAccounting.mk status' components').chargeIds) :
    (CashAccounting.mk status components).resolvedComponents.map finding =
      (CashAccounting.mk status' components').resolvedComponents.map finding := by
  simp only [CashAccounting.resolvedComponents_eq, List.map_filterMap, h.finding_resolve, hids]

end SameEvidence

/-! ## What is counted -/

namespace CashAccounting

/-- What `actual_cash_cost` asks of the evidence the charges are resolved to. -/
def Proves (charges : ℕ) (currency : String)
    (findings : List (Option ℚ × String × CashClassification)) : Prop :=
  findings.length = charges ∧ (∀ x ∈ findings, eligible x.2.2 ∧ x.2.1 = currency) ∧
    ((∀ x ∈ findings, x.1 = some 0) → findings ≠ [] ∧ ∀ x ∈ findings, provesZero x.2.2)

theorem Proves.perm {charges : ℕ} {currency : String}
    {findings findings' : List (Option ℚ × String × CashClassification)}
    (hperm : findings.Perm findings') (h : Proves charges currency findings) :
    Proves charges currency findings' := by
  obtain ⟨hlength, heligible, hzero⟩ := h
  refine ⟨hperm.length_eq ▸ hlength, fun x hx => heligible x (hperm.mem_iff.mpr hx), fun hall => ?_⟩
  obtain ⟨hne, hproves⟩ := hzero fun x hx => hall x (hperm.mem_iff.mp hx)
  exact ⟨fun hnil => hne (List.perm_nil.mp (hnil ▸ hperm)), fun x hx =>
    hproves x (hperm.mem_iff.mpr hx)⟩

theorem countedAmounts_eq (cash : CashAccounting) (currency : String) :
    cash.countedAmounts currency =
      ((cash.resolvedComponents.map finding).filter (·.2.1 = currency)).map (·.1.getD 0) := by
  rw [countedAmounts, List.filter_map, List.map_map]
  rfl

theorem actualCashCost_eq_some {cash : CashAccounting} {currency : String} {cost : ℚ} :
    cash.actualCashCost currency = some cost ↔
      cash.status = .complete ∧ cash.components ≠ [] ∧
        Proves cash.chargeIds.length currency (cash.resolvedComponents.map finding) ∧
        cost = cash.knownSubtotal currency := by
  have hcounted (h : ∀ x ∈ cash.resolvedComponents, x.currency = currency) :
      cash.countedAmounts currency = cash.resolvedComponents.map fun item => item.amount.getD 0 := by
    rw [countedAmounts, List.filter_eq_self.mpr fun x hx => decide_eq_true (h x hx)]
  have hclass : (¬ (cash.resolvedComponents.any fun item =>
      !eligible item.classification || item.currency ≠ currency) = true) ↔
      ∀ item ∈ cash.resolvedComponents, eligible item.classification ∧ item.currency = currency := by
    simp
  have hzero : (¬ ((cash.resolvedComponents.all fun item => item.amount = some 0) = true ∧
      (cash.resolvedComponents = [] ∨
        (cash.resolvedComponents.any fun item => !provesZero item.classification) = true))) ↔
      ((∀ item ∈ cash.resolvedComponents, item.amount = some 0) → cash.resolvedComponents ≠ [] ∧
        ∀ item ∈ cash.resolvedComponents, provesZero item.classification) := by
    simp
  simp only [actualCashCost, knownSubtotal, Proves, List.length_map, List.forall_mem_map, finding,
    List.map_eq_nil_iff, ne_eq, Option.ite_none_left_eq_some, not_or, not_not, Option.some.injEq]
    at hclass hzero ⊢
  rw [hclass, hzero]
  constructor
  · rintro ⟨⟨hstatus, hsome⟩, hlength, heligible, hzeros, rfl⟩
    refine ⟨hstatus, hsome, ⟨hlength, heligible, hzeros⟩, ?_⟩
    rw [hcounted fun x hx => (heligible x hx).2]
  · rintro ⟨hstatus, hsome, ⟨hlength, heligible, hzeros⟩, rfl⟩
    refine ⟨⟨hstatus, hsome⟩, hlength, heligible, hzeros, ?_⟩
    rw [hcounted fun x hx => (heligible x hx).2]

theorem actualCashCost_isSome_iff {cash : CashAccounting} {currency : String} :
    (cash.actualCashCost currency).isSome ↔
      cash.status = .complete ∧ cash.components ≠ [] ∧
        Proves cash.chargeIds.length currency (cash.resolvedComponents.map finding) := by
  rw [Option.isSome_iff_exists]
  simp only [actualCashCost_eq_some]
  exact ⟨fun ⟨_, hstatus, hsome, hproves, _⟩ => ⟨hstatus, hsome, hproves⟩,
    fun ⟨hstatus, hsome, hproves⟩ => ⟨_, hstatus, hsome, hproves, rfl⟩⟩

theorem make_eq_ok {status : EvidenceStatus} {components : List CashEvidence}
    {cash : CashAccounting} (h : make status components = .ok cash) :
    cash.components = components ∧
      cash.status = if contested components then .conflict else status := by
  unfold make at h
  split at h
  · cases h
  · cases h
    exact ⟨rfl, rfl⟩

/-- Two accountings with one status that count the same amounts, maybe in another order, and know
the actual cost of the same charges. -/
structure Agrees (currency : String) (cash cash' : CashAccounting) : Prop where
  status : cash.status = cash'.status
  counted : (cash.countedAmounts currency).Perm (cash'.countedAmounts currency)
  known : (cash.actualCashCost currency).isSome = (cash'.actualCashCost currency).isSome
  subtotal : ∀ cost, cash.actualCashCost currency = some cost → cost = cash.knownSubtotal currency
  subtotal' : ∀ cost, cash'.actualCashCost currency = some cost → cost = cash'.knownSubtotal currency

namespace Agrees

variable {currency : String} {cash cash' : CashAccounting}

theorem actualCashCost_eq (h : Agrees currency cash cash')
    (hsubtotal : cash.knownSubtotal currency = cash'.knownSubtotal currency) :
    cash.actualCashCost currency = cash'.actualCashCost currency := by
  have hknown := h.known
  cases hcost : cash.actualCashCost currency with
  | none =>
    rw [hcost, Option.isSome_none] at hknown
    rw [Option.isSome_eq_false_iff.mp hknown.symm |> Option.isNone_iff_eq_none.mp]
  | some cost =>
    rw [hcost, Option.isSome_some] at hknown
    obtain ⟨cost', hcost'⟩ := Option.isSome_iff_exists.mp hknown.symm
    rw [hcost', h.subtotal cost hcost, h.subtotal' cost' hcost', hsubtotal]

/-- On a grid that fits the precision the order does not matter. -/
theorem knownSubtotal_eq (h : Agrees currency cash cash') {e : ℤ}
    (hgrid : ∀ x ∈ cash.countedAmounts currency, Decimal.OnGrid e x ∧ 0 ≤ x)
    (hfits : (cash.countedAmounts currency).sum ≤ 10 ^ (e + 28)) :
    cash.knownSubtotal currency = cash'.knownSubtotal currency := by
  have hgrid' : ∀ x ∈ cash'.countedAmounts currency, Decimal.OnGrid e x ∧ 0 ≤ x := fun x hx =>
    hgrid x (h.counted.mem_iff.mpr hx)
  have hsum := h.counted.sum_eq
  calc cash.knownSubtotal currency
      = (cash.countedAmounts currency).sum := (decSum_of_onGrid hgrid hfits).1
    _ = (cash'.countedAmounts currency).sum := hsum
    _ = cash'.knownSubtotal currency := (decSum_of_onGrid hgrid' (hsum ▸ hfits)).1.symm

end Agrees

theorem agrees_of_sameEvidence {status : EvidenceStatus} {components components' : List CashEvidence}
    (h : SameEvidence components components') (currency : String) {cash cash' : CashAccounting}
    (hcash : make status components = .ok cash) (hcash' : make status components' = .ok cash') :
    Agrees currency cash cash' := by
  obtain ⟨hcomponents, hstatus⟩ := make_eq_ok hcash
  obtain ⟨hcomponents', hstatus'⟩ := make_eq_ok hcash'
  have hsame : SameEvidence cash.components cash'.components := by
    rwa [hcomponents, hcomponents']
  have heq : cash.status = cash'.status := by rw [hstatus, hstatus', h.contested_eq]
  have hperm := hsame.findings_perm cash.status cash'.status
  have hlength : cash.chargeIds.length = cash'.chargeIds.length :=
    (hsame.chargeIds_perm cash.status cash'.status).length_eq
  refine ⟨heq, ?_, ?_, fun _ hcost => (actualCashCost_eq_some.mp hcost).2.2.2,
    fun _ hcost => (actualCashCost_eq_some.mp hcost).2.2.2⟩
  · rw [countedAmounts_eq, countedAmounts_eq]
    exact (hperm.filter _).map _
  · rw [Bool.eq_iff_iff, actualCashCost_isSome_iff, actualCashCost_isSome_iff, heq, hlength, ne_eq,
      ne_eq, hsame.eq_nil_iff]
    exact and_congr_right fun _ => and_congr_right fun _ => ⟨.perm hperm, .perm hperm.symm⟩

end CashAccounting

/-! ## Retries, duplicates and late records -/

/-- A list of components told again: in another order, with one of them repeated, or with one more of
a weaker class for a charge that has a known one. -/
inductive Retells (components : List CashEvidence) : List CashEvidence → Prop
  | permuted {components'} : components'.Perm components → Retells components components'
  | repeated {components' item} : item ∈ components → components'.Perm (item :: components) →
      Retells components components'
  | outranked {components' item known} : known ∈ components → known.Known →
      item.chargeId = known.chargeId → item.classification.strength < known.classification.strength →
      components'.Perm (item :: components) → Retells components components'

theorem SameEvidence.of_mem_iff {components components' : List CashEvidence}
    (h : ∀ item, item ∈ components ↔ item ∈ components') : SameEvidence components components' where
  charges chargeId := by simp only [List.mem_map, h]
  strongest item := by
    have hway : ∀ {xs ys : List CashEvidence}, (∀ item, item ∈ xs ↔ item ∈ ys) →
        Strongest xs item → Strongest ys item := fun heq hstrong =>
      ⟨(heq item).mp hstrong.mem, hstrong.known, fun other hother =>
        hstrong.le other ((heq other).mpr hother)⟩
    exact ⟨hway h, hway fun item => (h item).symm⟩

theorem SameEvidence.outranked {components : List CashEvidence} {item known : CashEvidence}
    (hmem : known ∈ components) (hknown : known.Known) (hcharge : item.chargeId = known.chargeId)
    (hweaker : item.classification.strength < known.classification.strength) :
    SameEvidence components (item :: components) where
  charges chargeId := by
    have hnamed : item.chargeId ∈ components.map (·.chargeId) :=
      hcharge ▸ List.mem_map_of_mem hmem
    rw [List.map_cons, List.mem_cons]
    exact ⟨.inr, fun h => h.elim (· ▸ hnamed) id⟩
  strongest other := by
    constructor
    · intro hstrong
      refine ⟨List.mem_cons_of_mem _ hstrong.mem, hstrong.known, fun another hanother hsame hk => ?_⟩
      rcases List.mem_cons.mp hanother with rfl | hin
      · exact hweaker.le.trans (hstrong.le known hmem (hcharge.symm.trans hsame) hknown)
      · exact hstrong.le another hin hsame hk
    · intro hstrong
      refine ⟨?_, hstrong.known, fun another hanother =>
        hstrong.le another (List.mem_cons_of_mem _ hanother)⟩
      -- the new component is not the strongest, since the known one is stronger
      rcases List.mem_cons.mp hstrong.mem with rfl | hin
      · have := hstrong.le known (List.mem_cons_of_mem _ hmem) hcharge.symm hknown
        omega
      · exact hin

theorem SameEvidence.trans {xs ys zs : List CashEvidence} (h : SameEvidence xs ys)
    (h' : SameEvidence ys zs) : SameEvidence xs zs :=
  ⟨fun chargeId => (h.charges chargeId).trans (h'.charges chargeId),
    fun item => (h.strongest item).trans (h'.strongest item)⟩

theorem Retells.sameEvidence {components components' : List CashEvidence}
    (h : Retells components components') : SameEvidence components components' := by
  cases h with
  | permuted hperm => exact .of_mem_iff fun _ => hperm.mem_iff.symm
  | @repeated item hitem hperm =>
    refine .of_mem_iff fun other => ?_
    rw [hperm.mem_iff, List.mem_cons]
    exact ⟨.inr, fun h => h.elim (· ▸ hitem) id⟩
  | outranked hmem hknown hcharge hweaker hperm =>
    exact (SameEvidence.outranked hmem hknown hcharge hweaker).trans
      (.of_mem_iff fun _ => hperm.mem_iff.symm)

namespace CashAccounting

/-- What is only appended leaves the order of the charges as it was. -/
theorem chargeIds_eq_of_prefix {components components' : List CashEvidence}
    (h : SameEvidence components components') (hinitial : components <+: components')
    (status status' : EvidenceStatus) :
    (CashAccounting.mk status components).chargeIds =
      (CashAccounting.mk status' components').chargeIds := by
  obtain ⟨added, rfl⟩ := hinitial
  have hnamed : ∀ chargeId ∈ added.map (·.chargeId), chargeId ∈ components.map (·.chargeId) :=
    fun chargeId hin => (h.charges chargeId).mpr (by
      rw [List.map_append]
      exact List.mem_append_right _ hin)
  have hnew : (added.map (·.chargeId)).removeAll (components.map (·.chargeId)) = [] := by
    simpa [List.removeAll, List.filter_eq_nil_iff] using hnamed
  simp only [chargeIds, List.map_append, List.eraseDups_append, hnew, List.eraseDups_nil,
    List.append_nil]

theorem mem_of_mem_resolvedComponents {cash : CashAccounting} {item : CashEvidence}
    (h : item ∈ cash.resolvedComponents) : item ∈ cash.components := by
  rw [resolvedComponents_eq] at h
  obtain ⟨chargeId, -, hfound⟩ := List.mem_filterMap.mp h
  obtain ⟨-, hstrongest, -⟩ := resolve_eq_some hfound
  exact hstrongest.mem

theorem onGrid_countedAmounts {cash : CashAccounting} {e : ℤ}
    (h : ∀ item ∈ cash.components, ∀ amount, item.amount = some amount →
      Decimal.OnGrid e amount ∧ 0 ≤ amount) (currency : String) :
    ∀ x ∈ cash.countedAmounts currency, Decimal.OnGrid e x ∧ 0 ≤ x := by
  intro x hx
  obtain ⟨item, hitem, rfl⟩ := List.mem_map.mp hx
  have hcomponent := mem_of_mem_resolvedComponents (List.mem_filter.mp hitem).1
  cases hamount : item.amount with
  | none => exact ⟨Decimal.OnGrid.zero e, le_rfl⟩
  | some amount => exact h item hcomponent amount hamount

theorem knownSubtotal_nonneg {cash : CashAccounting}
    (h : ∀ item ∈ cash.components, ∀ amount ∈ item.amount, 0 ≤ amount) (currency : String) :
    0 ≤ cash.knownSubtotal currency := by
  refine decSum_nonneg fun x hx => ?_
  obtain ⟨item, hitem, rfl⟩ := List.mem_map.mp hx
  have hcomponent := mem_of_mem_resolvedComponents (List.mem_filter.mp hitem).1
  cases hamount : item.amount with
  | none => exact le_rfl
  | some amount => exact h item hcomponent amount hamount

/-- Evidence told again is accounted for alike, to the same amounts in some order, and to the same
sums where the order is kept or the amounts fit the precision; strongest evidence that disagrees is a
conflict without a cost. -/
theorem accounting_of_retold (status : EvidenceStatus) (components : List CashEvidence)
    (currency : String) :
    (∀ components', Retells components components' →
      (∀ error, make status components = .error error ↔ make status components' = .error error) ∧
      ∀ cash cash', make status components = .ok cash → make status components' = .ok cash' →
        Agrees currency cash cash' ∧
        (components <+: components' ∨ cash.chargeIds = cash'.chargeIds ∨
            (∃ e : ℤ, (∀ item ∈ components, ∀ amount, item.amount = some amount →
                Decimal.OnGrid e amount ∧ 0 ≤ amount) ∧
              (cash.countedAmounts currency).sum ≤ 10 ^ (e + 28)) →
          cash.knownSubtotal currency = cash'.knownSubtotal currency ∧
          cash.actualCashCost currency = cash'.actualCashCost currency)) ∧
    ∀ a b, Strongest components a → Strongest components b → a.chargeId = b.chargeId →
      (a.amount, a.currency) ≠ (b.amount, b.currency) →
      ∀ cash, make status components = .ok cash →
        cash.status = .conflict ∧ cash.actualCashCost currency = none := by
  refine ⟨fun components' h => ?_, fun a b ha hb hcharge hne cash hcash => ?_⟩
  · have hsame := h.sameEvidence
    have hraises (error : Err) :
        make status components = .error error ↔ make status components' = .error error := by
      simp only [make, hsame.eq_nil_iff]
      split <;> simp
    refine ⟨hraises, fun cash cash' hcash hcash' => ?_⟩
    have hagrees := agrees_of_sameEvidence hsame currency hcash hcash'
    obtain ⟨hcomponents, -⟩ := make_eq_ok hcash
    obtain ⟨hcomponents', -⟩ := make_eq_ok hcash'
    have hsameOrder (hids : cash.chargeIds = cash'.chargeIds) :
        cash.knownSubtotal currency = cash'.knownSubtotal currency := by
      have hsame' : SameEvidence cash.components cash'.components := by
        rwa [hcomponents, hcomponents']
      rw [knownSubtotal, knownSubtotal, countedAmounts_eq, countedAmounts_eq,
        hsame'.findings_eq cash.status cash'.status hids]
    refine ⟨hagrees, fun horder => ?_⟩
    have hsubtotal : cash.knownSubtotal currency = cash'.knownSubtotal currency := by
      rcases horder with hinitial | hids | ⟨e, hgrid, hfits⟩
      · refine hsameOrder ?_
        have := chargeIds_eq_of_prefix hsame hinitial cash.status cash'.status
        subst hcomponents hcomponents'
        exact this
      · exact hsameOrder hids
      · subst hcomponents
        exact hagrees.knownSubtotal_eq (onGrid_countedAmounts hgrid currency) hfits
    exact ⟨hsubtotal, hagrees.actualCashCost_eq hsubtotal⟩
  · obtain ⟨-, hstatus⟩ := make_eq_ok hcash
    have hcontested : contested components := contested_iff.mpr ⟨a, b, ha, hb, hcharge, hne⟩
    rw [if_pos hcontested] at hstatus
    refine ⟨hstatus, ?_⟩
    rw [← Option.not_isSome_iff_eq_none, actualCashCost_isSome_iff, hstatus]
    exact fun h => nomatch h.1

def feeOfTwo : CashEvidence := ⟨"fee", some 2, "USD", .verified, "receipt"⟩

/-- An estimate that comes later. -/
def lateEstimate : CashEvidence := ⟨"fee", some 3, "USD", .estimated, "estimate"⟩

/-- Another verified amount of the same fee. -/
def otherFee : CashEvidence := ⟨"fee", some 3, "USD", .verified, "dispute"⟩

theorem accounting_of_late_estimate :
    (∃ cash cash', make .complete [feeOfTwo] = .ok cash ∧
      make .complete [feeOfTwo, lateEstimate] = .ok cash' ∧
      cash.knownSubtotal "USD" = cash'.knownSubtotal "USD" ∧
      cash.actualCashCost "USD" = cash'.actualCashCost "USD" ∧
      cash'.actualCashCost "USD" = some 2) ∧
    ∃ cash, make .complete [feeOfTwo, otherFee] = .ok cash ∧
      cash.status = .conflict ∧ cash.actualCashCost "USD" = none := by
  have hlate : Retells [feeOfTwo] [feeOfTwo, lateEstimate] :=
    .outranked (List.mem_singleton_self feeOfTwo) (by decide)
      (show lateEstimate.chargeId = feeOfTwo.chargeId from rfl) (by decide)
      (List.Perm.swap lateEstimate feeOfTwo [])
  obtain ⟨-, hagrees⟩ := (accounting_of_retold .complete [feeOfTwo] "USD").1 _ hlate
  obtain ⟨-, hvalues⟩ := hagrees _ _ rfl rfl
  obtain ⟨hsubtotal, hcost⟩ := hvalues (.inl ⟨[lateEstimate], rfl⟩)
  refine ⟨⟨_, _, rfl, rfl, hsubtotal, hcost, by decide +kernel⟩, _, rfl, ?_⟩
  exact (accounting_of_retold .complete [feeOfTwo, otherFee] "USD").2 feeOfTwo otherFee
    ((mem_strongestCashEvidence _ "fee" _).mp (by decide +kernel)).2
    ((mem_strongestCashEvidence _ "fee" _).mp (by decide +kernel)).2 rfl (by decide) _ rfl

def charged (chargeId : String) (amount : ℚ) : CashEvidence :=
  ⟨chargeId, some amount, "USD", .verified, ""⟩

/-- Half a unit of the last place twice is lost after a one and kept before it. -/
theorem cost_of_other_order :
    let halves := [charged "a" (5 / 10 ^ 28), charged "b" (5 / 10 ^ 28)]
    (halves ++ [charged "one" 1]).Perm (charged "one" 1 :: halves) ∧
    (make .complete (charged "one" 1 :: halves)).toOption.map
        (fun cash => (cash.knownSubtotal "USD", cash.actualCashCost "USD")) = some (1, some 1) ∧
    (make .complete (halves ++ [charged "one" 1])).toOption.map
        (fun cash => (cash.knownSubtotal "USD", cash.actualCashCost "USD")) =
      some (1 + 1 / 10 ^ 27, some (1 + 1 / 10 ^ 27)) := by
  decide +kernel

end CashAccounting

end AeepRouter
