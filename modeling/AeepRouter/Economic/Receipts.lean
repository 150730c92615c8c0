import AeepRouter.Economic.Aggregation
import AeepRouter.Lib.JsonSchema

/-!
# Receipts of a run

`aggregateAccounting` of receipts with different ids. Cutting the receipts into groups and putting
one receipt with the accounting of its group for each of them changes the aggregate in one respect
only: a conflict in a group remains, also where evidence outside the group would have settled it.
-/

namespace AeepRouter.Receipts

open Lib Evidence Aggregation

/-! ## Cash -/

structure Validated (cash : CashAccounting) : Prop where
  charged : cash.status = .complete → cash.components ≠ []
  settled : CashAccounting.contested cash.components → cash.status = .conflict

theorem validated_of_make {status : EvidenceStatus} {components : List CashEvidence}
    {cash : CashAccounting} (h : CashAccounting.make status components = .ok cash) :
    Validated cash := by
  unfold CashAccounting.make at h
  split at h
  · cases h
  · rename_i hvalid
    cases h
    refine ⟨fun hstatus hnone => ?_, fun hcontested => if_pos hcontested⟩
    split at hstatus
    · cases hstatus
    · exact hvalid ⟨hstatus, hnone⟩

/-- The status of an aggregate before conflicts between the receipts are looked for. -/
def cashStatus (items : List CashAccounting) : EvidenceStatus :=
  if items = [] ∨ ∃ cash ∈ items, cash.status = .conflict then
    if items ≠ [] then .conflict else .unavailable
  else if ∃ cash ∈ items, cash.status ≠ .complete then
    if items.flatMap (·.components) ≠ [] then .partialEvidence else .unavailable
  else .complete

/-- The charges of some receipts contradict each other. -/
def Disputed (items : List CashAccounting) : Prop :=
  CashAccounting.contested (items.flatMap (·.components)) = true

instance : DecidablePred Disputed := fun _ => inferInstanceAs (Decidable (_ = true))

def mergeCash (items : List CashAccounting) : CashAccounting :=
  ⟨if Disputed items then .conflict else cashStatus items, items.flatMap (·.components)⟩

section Cash

variable {items : List CashAccounting}

theorem cashStatus_conflict :
    cashStatus items = .conflict ↔ ∃ cash ∈ items, cash.status = .conflict := by
  unfold cashStatus
  by_cases hnil : items = []
  · simp [hnil]
  · by_cases hconflict : ∃ cash ∈ items, cash.status = .conflict
    · simp [hnil, hconflict]
    · rw [if_neg (not_or.mpr ⟨hnil, hconflict⟩)]
      simp only [hconflict, iff_false]
      split_ifs <;> decide

theorem cashStatus_complete :
    cashStatus items = .complete ↔ items ≠ [] ∧ ∀ cash ∈ items, cash.status = .complete := by
  unfold cashStatus
  by_cases hnil : items = []
  · simp [hnil]
  · by_cases hall : ∀ cash ∈ items, cash.status = .complete
    · have hconflict : ¬ ∃ cash ∈ items, cash.status = .conflict := by
        rintro ⟨cash, hcash, hstatus⟩
        rw [hall cash hcash] at hstatus
        cases hstatus
      rw [if_neg (not_or.mpr ⟨hnil, hconflict⟩), if_neg (by simpa using hall)]
      simpa [hnil] using hall
    · have hsome : ∃ cash ∈ items, cash.status ≠ .complete := by simpa using hall
      rw [if_pos hsome]
      simp only [hall, and_false, iff_false]
      split_ifs <;> decide

theorem cashStatus_congr {items' : List CashAccounting}
    (hconflict : (∃ cash ∈ items, cash.status = .conflict) ↔ ∃ cash ∈ items', cash.status = .conflict)
    (hcomplete : (items ≠ [] ∧ ∀ cash ∈ items, cash.status = .complete) ↔
      items' ≠ [] ∧ ∀ cash ∈ items', cash.status = .complete)
    (hcharges : items.flatMap (·.components) = [] ↔ items'.flatMap (·.components) = []) :
    cashStatus items = cashStatus items' := by
  have hother {l : List CashAccounting} (h : cashStatus l ≠ .conflict) (h' : cashStatus l ≠ .complete) :
      cashStatus l = if l.flatMap (·.components) ≠ [] then .partialEvidence else .unavailable := by
    unfold cashStatus at h h' ⊢
    split_ifs at h h' ⊢ <;> simp_all
  rw [← cashStatus_conflict, ← cashStatus_conflict] at hconflict
  rw [← cashStatus_complete, ← cashStatus_complete] at hcomplete
  by_cases h : cashStatus items = .conflict
  · rw [h, hconflict.mp h]
  · by_cases h' : cashStatus items = .complete
    · rw [h', hcomplete.mp h']
    · rw [hother h h', hother (mt hconflict.mpr h) (mt hcomplete.mpr h')]
      simp only [ne_eq, hcharges]

theorem mergeCash_validated (hitems : ∀ cash ∈ items, Validated cash) :
    Validated (mergeCash items) where
  settled h := if_pos h
  charged h := by
    unfold mergeCash at h
    simp only at h
    split at h
    · cases h
    · obtain ⟨hne, hall⟩ := cashStatus_complete.mp h
      obtain ⟨cash, hcash⟩ := List.exists_mem_of_ne_nil _ hne
      intro hnone
      exact (hitems cash hcash).charged (hall cash hcash) (List.flatMap_eq_nil_iff.mp hnone cash hcash)

theorem make_eq_mergeCash (hitems : ∀ cash ∈ items, Validated cash) :
    CashAccounting.make (cashStatus items) (items.flatMap (·.components)) = .ok (mergeCash items) := by
  refine if_neg fun h => ?_
  obtain ⟨hne, hall⟩ := cashStatus_complete.mp h.1
  obtain ⟨cash, hcash⟩ := List.exists_mem_of_ne_nil _ hne
  exact (hitems cash hcash).charged (hall cash hcash) (List.flatMap_eq_nil_iff.mp h.2 cash hcash)

structure StandsFor (part : List CashAccounting) (cash : CashAccounting) : Prop where
  some : part ≠ []
  components : cash.components = part.flatMap (·.components)
  conflict : cash.status = .conflict ↔ Disputed part ∨ ∃ a ∈ part, a.status = .conflict
  complete : cash.status = .complete ↔ ¬ Disputed part ∧ ∀ a ∈ part, a.status = .complete

theorem StandsFor.single {cash : CashAccounting} (h : Validated cash) : StandsFor [cash] cash where
  some := List.cons_ne_nil _ _
  components := by simp
  conflict := by
    simp only [Disputed, List.flatMap_singleton, List.mem_singleton, exists_eq_left, iff_or_self]
    exact h.settled
  complete := by
    simp only [Disputed, List.flatMap_singleton, List.mem_singleton, forall_eq, iff_and_self]
    intro hcomplete hcontested
    rw [h.settled hcontested] at hcomplete
    cases hcomplete

theorem StandsFor.merged (h : items ≠ []) : StandsFor items (mergeCash items) where
  some := h
  components := rfl
  conflict := by
    rw [mergeCash, ← cashStatus_conflict]
    by_cases hdisputed : Disputed items
    · simp [hdisputed]
    · simp [hdisputed]
  complete := by
    have hcomplete := @cashStatus_complete items
    simp only [h, ne_eq, not_false_eq_true, true_and] at hcomplete
    rw [mergeCash, ← hcomplete]
    by_cases hdisputed : Disputed items
    · simp [hdisputed]
    · simp [hdisputed]

theorem mergeCash_parts {parts : List (List CashAccounting)}
    (h : List.Forall₂ StandsFor parts items) :
    mergeCash items =
      ⟨if ∃ cash ∈ items, cash.status = .conflict then .conflict
        else (mergeCash parts.flatten).status, (mergeCash parts.flatten).components⟩ := by
  have hcomponents : items.flatMap (·.components) = parts.flatten.flatMap (·.components) := by
    induction h with
    | nil => rfl
    | cons hpart _ ih =>
      rw [List.flatMap_cons, List.flatten_cons, List.flatMap_append, hpart.components, ih]
  have hconflict : (∃ cash ∈ items, cash.status = .conflict) ↔
      (∃ part ∈ parts, Disputed part) ∨ ∃ a ∈ parts.flatten, a.status = .conflict := by
    clear hcomponents
    induction h with
    | nil => simp
    | cons hpart _ ih =>
      simp only [List.exists_mem_cons_iff, List.flatten_cons, List.mem_append, or_and_right,
        exists_or, ih, hpart.conflict]
      exact or_or_or_comm
  have hnil : items = [] ↔ parts.flatten = [] := by
    constructor
    · rintro rfl
      rw [List.forall₂_nil_right_iff.mp h, List.flatten_nil]
    · intro hflatten
      rw [List.flatten_eq_nil_iff] at hflatten
      cases h with
      | nil => rfl
      | cons hpart _ => exact absurd (hflatten _ List.mem_cons_self) hpart.some
  have hcomplete : (∀ cash ∈ items, cash.status = .complete) ↔
      (¬ ∃ part ∈ parts, Disputed part) ∧ ∀ a ∈ parts.flatten, a.status = .complete := by
    clear hcomponents hconflict hnil
    induction h with
    | nil => simp
    | cons hpart _ ih =>
      simp only [List.forall_mem_cons, List.exists_mem_cons_iff, List.flatten_cons,
        List.forall_mem_append, ih, hpart.complete, not_or]
      exact and_and_and_comm
  have hall : Disputed items ↔ Disputed parts.flatten := by rw [Disputed, hcomponents, Disputed]
  simp only [mergeCash, hcomponents, CashAccounting.mk.injEq, and_true]
  by_cases hsome : ∃ cash ∈ items, cash.status = .conflict
  · rw [if_pos hsome, cashStatus_conflict.mpr hsome, ite_self]
  · obtain ⟨hpart, hflatten⟩ := not_or.mp (mt hconflict.mpr hsome)
    rw [if_neg hsome]
    refine if_congr hall rfl (cashStatus_congr ?_ ?_ (by rw [hcomponents]))
    · simp only [hsome, hflatten]
    · simpa only [hpart, not_false_eq_true, true_and, ne_eq, hnil] using
        and_congr_right fun _ => hcomplete

theorem mergeCash_perm {items' : List CashAccounting} (h : items.Perm items') :
    (mergeCash items).status = (mergeCash items').status ∧
      (mergeCash items).components.Perm (mergeCash items').components := by
  have hcomponents := h.flatMap_right (·.components)
  have hcontested : Disputed items ↔ Disputed items' := by
    rw [Disputed, Disputed, (SameEvidence.of_mem_iff fun item => hcomponents.mem_iff).contested_eq]
  have hstatus : cashStatus items = cashStatus items' := by
    refine cashStatus_congr ?_ ?_ ?_
    · simp only [h.mem_iff]
    · simp only [h.mem_iff, ne_eq, ← List.length_eq_zero_iff, h.length_eq]
    · rw [← List.length_eq_zero_iff, hcomponents.length_eq, List.length_eq_zero_iff]
  refine ⟨?_, hcomponents⟩
  simp only [mergeCash, hcontested, hstatus]

end Cash

/-! ## Units that add up exactly -/

def poolUnits (entries : List SubscriptionUsage) (key : PoolKey) : List ℚ :=
  knownUnits ((pools.group entries key).map (·.toSubscriptionAmount))

/-- The units of a pool are multiples of one power of ten and have no more digits than a sum. -/
structure Fits (e : ℤ) (entries : List SubscriptionUsage) : Prop where
  grid : ∀ usage ∈ entries, ∀ c ∈ usage.consumed, Decimal.OnGrid e c
  digits : ∀ key, (poolUnits entries key).sum ≤ 10 ^ (e + 28)

section Units

variable {e : ℤ} {entries entries' : List SubscriptionUsage} {key : PoolKey}

theorem mem_poolUnits {c : ℚ} :
    c ∈ poolUnits entries key ↔ ∃ usage ∈ entries, usage.key = key ∧ usage.consumed = some c := by
  rw [poolUnits, mem_knownUnits]
  constructor
  · rintro ⟨amount, hamount, hconsumed⟩
    obtain ⟨usage, husage, rfl⟩ := List.mem_map.mp hamount
    obtain ⟨hin, hkey⟩ := List.mem_filter.mp husage
    exact ⟨usage, hin, of_decide_eq_true hkey, hconsumed⟩
  · rintro ⟨usage, hin, hkey, hconsumed⟩
    exact ⟨_, List.mem_map_of_mem (List.mem_filter.mpr ⟨hin, decide_eq_true hkey⟩), hconsumed⟩

theorem poolUnits_append :
    poolUnits (entries ++ entries') key = poolUnits entries key ++ poolUnits entries' key := by
  simp only [poolUnits, knownUnits, Rollup.group_append, List.map_append, List.reduceOption_append]

theorem Fits.exact (h : Fits e entries) : Exact entries := fun key =>
  (decSum_of_onGrid (fun _ hc =>
    have ⟨usage, husage, _, hconsumed⟩ := mem_poolUnits.mp hc
    ⟨h.grid usage husage _ hconsumed, usage.nonneg _ hconsumed⟩) (h.digits key)).1

theorem poolUnits_sum_nonneg : 0 ≤ (poolUnits entries key).sum :=
  List.sum_nonneg knownUnits_nonneg

theorem poolUnits_sum_le :
    (poolUnits entries key).sum ≤ (knownUnits (entries.map (·.toSubscriptionAmount))).sum :=
  List.Sublist.sum_le_sum (((List.filter_sublist.map _).map _).filterMap _) knownUnits_nonneg

theorem Fits.of_append_left (h : Fits e (entries ++ entries')) : Fits e entries where
  grid usage husage := h.grid usage (List.mem_append_left _ husage)
  digits key := by
    have := h.digits key
    rw [poolUnits_append, List.sum_append] at this
    linarith [@poolUnits_sum_nonneg entries' key]

theorem Fits.of_append_right (h : Fits e (entries ++ entries')) : Fits e entries' where
  grid usage husage := h.grid usage (List.mem_append_right _ husage)
  digits key := by
    have := h.digits key
    rw [poolUnits_append, List.sum_append] at this
    linarith [@poolUnits_sum_nonneg entries key]

theorem Fits.perm (hperm : entries.Perm entries') (h : Fits e entries) : Fits e entries' where
  grid usage husage := h.grid usage (hperm.mem_iff.mpr husage)
  digits key := by
    have hunits : (poolUnits entries key).Perm (poolUnits entries' key) :=
      (((hperm.filter _).map _).map _).filterMap _
    rw [← hunits.sum_eq]
    exact h.digits key

theorem poolUnits_collect : poolUnits (pools.collect entries) key = [] ∨
    poolUnits (pools.collect entries) key = [(poolUnits entries key).sum] := by
  by_cases hkey : key ∈ pools.keys entries
  · obtain ⟨amount, htotal, hgroup⟩ := Rollup.group_collect hkey
    have hunits : poolUnits (pools.collect entries) key = amount.consumed.toList := by
      rw [poolUnits, hgroup, List.map_singleton, knownUnits, List.map_singleton,
        List.reduceOption_singleton]
      rfl
    cases hentries : pools.group entries key with
    | nil => exact absurd hkey (Rollup.group_eq_nil.mp hentries)
    | cons first rest =>
      rw [Rollup.total, hentries, List.map_cons, Rollup.sum_cons, WithZero.coe_inj] at htotal
      have hconsumed := SubscriptionAmount.consumed_foldl first.toSubscriptionAmount
        (rest.map (·.toSubscriptionAmount))
      rw [hunits, ← htotal, poolUnits, hentries, List.map_cons]
      refine (congrArg Option.toList hconsumed ▸ ?_)
      split
      · exact .inr rfl
      · exact .inl rfl
  · refine .inl ?_
    rw [poolUnits, Rollup.group_eq_nil.mpr (mt Rollup.keys_collect.mp hkey)]
    rfl

structure Condenses (e : ℤ) (entries entries' : List SubscriptionUsage) : Prop where
  total : ∀ key, pools.total entries' key = pools.total entries key
  units : ∀ key, (poolUnits entries' key).sum ≤ (poolUnits entries key).sum
  grid : ∀ usage ∈ entries', ∀ c ∈ usage.consumed, Decimal.OnGrid e c

theorem Condenses.refl (h : Fits e entries) : Condenses e entries entries :=
  ⟨fun _ => rfl, fun _ => le_rfl, h.grid⟩

theorem Condenses.collect (h : Fits e entries) : Condenses e entries (pools.collect entries) where
  total _ := Rollup.total_collect
  units key := by
    rcases @poolUnits_collect entries key with hnone | hsum
    · rw [hnone]
      exact poolUnits_sum_nonneg
    · rw [hsum, List.sum_singleton]
  grid usage husage c hc := by
    have hmem : c ∈ poolUnits (pools.collect entries) usage.key :=
      mem_poolUnits.mpr ⟨usage, husage, rfl, hc⟩
    rcases @poolUnits_collect entries usage.key with hnone | hsum
    · rw [hnone] at hmem
      cases hmem
    · rw [hsum, List.mem_singleton] at hmem
      rw [hmem]
      refine Decimal.OnGrid.sum fun x hx => ?_
      obtain ⟨other, hother, -, hconsumed⟩ := mem_poolUnits.mp hx
      exact h.grid other hother x hconsumed

theorem Condenses.append {more more' : List SubscriptionUsage} (h : Condenses e entries entries')
    (hmore : Condenses e more more') : Condenses e (entries ++ more) (entries' ++ more') where
  total key := by rw [Rollup.total_append, Rollup.total_append, h.total, hmore.total]
  units key := by
    rw [poolUnits_append, poolUnits_append, List.sum_append, List.sum_append]
    exact add_le_add (h.units key) (hmore.units key)
  grid usage husage := (List.mem_append.mp husage).elim (h.grid usage) (hmore.grid usage)

theorem Condenses.fits (h : Condenses e entries entries') (hfits : Fits e entries) :
    Fits e entries' := ⟨h.grid, fun key => (h.units key).trans (hfits.digits key)⟩

theorem Condenses.subscriptionUsage_eq (h : Condenses e entries entries') (hfits : Fits e entries) :
    subscriptionUsage entries' = subscriptionUsage entries := by
  rw [Aggregation.subscriptionUsage_eq hfits.exact,
    Aggregation.subscriptionUsage_eq (h.fits hfits).exact]
  exact Rollup.collect_congr h.total

end Units

/-! ## Accountings -/

@[ext] structure ResourceAccounting where
  cash : CashAccounting
  subscriptionUsage : List SubscriptionUsage
  modelUsage : List ModelTokenUsage
  toolFootprint : Option ToolFootprint
  validated : Validated cash
  deriving DecidableEq

namespace ResourceAccounting

def make (status : EvidenceStatus) (components : List CashEvidence)
    (subscription : List SubscriptionUsage) (models : List ModelTokenUsage)
    (footprint : Option ToolFootprint) : Result ResourceAccounting :=
  match hcash : CashAccounting.make status components with
  | .ok cash => .ok ⟨cash, subscription, models, footprint, validated_of_make hcash⟩
  | .error e => .error e

theorem make_ok {status : EvidenceStatus} {components : List CashEvidence} {cash : CashAccounting}
    (subscription : List SubscriptionUsage) (models : List ModelTokenUsage)
    (footprint : Option ToolFootprint) (hcash : CashAccounting.make status components = .ok cash) :
    make status components subscription models footprint =
      .ok ⟨cash, subscription, models, footprint, validated_of_make hcash⟩ := by
  unfold make
  split
  · rename_i cash' hcash'
    obtain rfl : cash' = cash := Except.ok.inj (hcash'.symm.trans hcash)
    rfl
  · rename_i e he
    rw [hcash] at he
    cases he

def conflicting (r : ResourceAccounting) : ResourceAccounting :=
  { r with
    cash := ⟨.conflict, r.cash.components⟩
    validated := ⟨fun h => EvidenceStatus.noConfusion h, fun _ => rfl⟩ }

/-- The same up to the order of the components. -/
structure Same (r r' : ResourceAccounting) : Prop where
  status : r.cash.status = r'.cash.status
  components : r.cash.components.Perm r'.cash.components
  subscription : r.subscriptionUsage = r'.subscriptionUsage
  models : r.modelUsage = r'.modelUsage
  footprint : r.toolFootprint = r'.toolFootprint

theorem Same.symm {r r' : ResourceAccounting} (h : Same r r') : Same r' r :=
  ⟨h.status.symm, h.components.symm, h.subscription.symm, h.models.symm, h.footprint.symm⟩

theorem Same.trans {r r' r'' : ResourceAccounting} (h : Same r r') (h' : Same r' r'') :
    Same r r'' :=
  ⟨h.status.trans h'.status, h.components.trans h'.components,
    h.subscription.trans h'.subscription, h.models.trans h'.models, h.footprint.trans h'.footprint⟩

theorem Same.conflicting {r r' : ResourceAccounting} (h : Same r r') :
    Same r.conflicting r'.conflicting :=
  ⟨rfl, h.components, h.subscription, h.models, h.footprint⟩

theorem same_iff {r r' : ResourceAccounting} : Same r r' ↔
    r.cash.status = r'.cash.status ∧ r.cash.components.Perm r'.cash.components ∧
      r.subscriptionUsage = r'.subscriptionUsage ∧ r.modelUsage = r'.modelUsage ∧
        r.toolFootprint = r'.toolFootprint :=
  ⟨fun ⟨hs, hc, hu, hm, hf⟩ => ⟨hs, hc, hu, hm, hf⟩, fun ⟨hs, hc, hu, hm, hf⟩ => ⟨hs, hc, hu, hm, hf⟩⟩

instance : DecidableRel Same := fun _ _ => decidable_of_iff _ same_iff.symm

end ResourceAccounting

open AeepRouter.Receipts.ResourceAccounting

/-- The accountings of the independent receipts, added up. -/
def aggregateItems (items : List ResourceAccounting) : Result ResourceAccounting :=
  ResourceAccounting.make (cashStatus (items.map (·.cash))) (items.flatMap (·.cash.components))
    (subscriptionUsage (items.flatMap (·.subscriptionUsage)))
    (modelUsage (items.flatMap (·.modelUsage))) (toolFootprint (items.filterMap (·.toolFootprint)))

section Items

variable {items items' : List ResourceAccounting}

theorem validated_of_mem : ∀ cash ∈ items.map (·.cash), Validated cash := by
  intro cash hcash
  obtain ⟨item, -, rfl⟩ := List.mem_map.mp hcash
  exact item.validated

/-- What an aggregate comes to. -/
def aggregated (items : List ResourceAccounting) : ResourceAccounting where
  cash := mergeCash (items.map (·.cash))
  subscriptionUsage := subscriptionUsage (items.flatMap (·.subscriptionUsage))
  modelUsage := modelUsage (items.flatMap (·.modelUsage))
  toolFootprint := toolFootprint (items.filterMap (·.toolFootprint))
  validated := mergeCash_validated validated_of_mem

theorem aggregateItems_eq : aggregateItems items = .ok (aggregated items) := by
  have hcash := make_eq_mergeCash (@validated_of_mem items)
  rw [List.flatMap_map] at hcash
  exact make_ok _ _ _ hcash

/-- An accounting in place of some: of the only one, or of their aggregate. -/
inductive Replaces : List ResourceAccounting → ResourceAccounting → Prop
  | single (item : ResourceAccounting) : Replaces [item] item
  | whole {part : List ResourceAccounting} (h : part ≠ []) : Replaces part (aggregated part)

abbrev usages (items : List ResourceAccounting) : List SubscriptionUsage :=
  items.flatMap (·.subscriptionUsage)

section Replaces

variable {part : List ResourceAccounting} {item : ResourceAccounting} {e : ℤ}

theorem Replaces.standsFor (h : Replaces part item) : StandsFor (part.map (·.cash)) item.cash := by
  cases h with
  | single => exact .single item.validated
  | whole h => exact .merged (mt List.map_eq_nil_iff.mp h)

theorem Replaces.condenses (h : Replaces part item) (hfits : Fits e (usages part)) :
    Condenses e (usages part) item.subscriptionUsage := by
  cases h with
  | single =>
    rw [usages, List.flatMap_singleton] at hfits ⊢
    exact .refl hfits
  | whole =>
    rw [aggregated, Aggregation.subscriptionUsage_eq hfits.exact]
    exact .collect hfits

theorem Replaces.models (h : Replaces part item) (key : ModelKey) :
    models.total item.modelUsage key = models.total (part.flatMap (·.modelUsage)) key := by
  cases h with
  | single => rw [List.flatMap_singleton]
  | whole =>
    rw [aggregated, modelUsage_eq]
    exact Rollup.total_collect

theorem Replaces.footprint (h : Replaces part item) :
    Rollup.sum item.toolFootprint.toList = Rollup.sum (part.filterMap (·.toolFootprint)) := by
  cases h with
  | single => cases hfootprint : item.toolFootprint <;> simp [hfootprint]
  | whole =>
    rw [aggregated, toolFootprint_eq]
    exact Rollup.sum_toList _

end Replaces

variable {parts : List (List ResourceAccounting)} {e : ℤ}

theorem usages_append : usages (items ++ items') = usages items ++ usages items' :=
  List.flatMap_append

theorem condenses_parts (h : List.Forall₂ Replaces parts items)
    (hfits : Fits e (usages parts.flatten)) : Condenses e (usages parts.flatten) (usages items) := by
  induction h with
  | nil => exact .refl hfits
  | cons hpart _ ih =>
    rw [List.flatten_cons, usages_append] at hfits ⊢
    exact (hpart.condenses hfits.of_append_left).append (ih hfits.of_append_right)

theorem models_parts (h : List.Forall₂ Replaces parts items) (key : ModelKey) :
    models.total (items.flatMap (·.modelUsage)) key =
      models.total (parts.flatten.flatMap (·.modelUsage)) key := by
  induction h with
  | nil => rfl
  | cons hpart _ ih =>
    rw [List.flatMap_cons, Rollup.total_append, List.flatten_cons, List.flatMap_append,
      Rollup.total_append, hpart.models, ih]

theorem footprints_parts (h : List.Forall₂ Replaces parts items) :
    Rollup.sum (items.filterMap (·.toolFootprint)) =
      Rollup.sum (parts.flatten.filterMap (·.toolFootprint)) := by
  induction h with
  | nil => rfl
  | @cons part item parts items hpart _ ih =>
    have hcons : (item :: items).filterMap (·.toolFootprint) =
        item.toolFootprint.toList ++ items.filterMap (·.toolFootprint) := by
      cases hfootprint : item.toolFootprint <;> simp [hfootprint]
    rw [hcons, Rollup.sum_append, List.flatten_cons, List.filterMap_append, Rollup.sum_append,
      hpart.footprint, ih]

theorem standsFor_parts (h : List.Forall₂ Replaces parts items) :
    List.Forall₂ StandsFor (parts.map fun part => part.map (·.cash)) (items.map (·.cash)) := by
  rw [List.forall₂_map_left_iff, List.forall₂_map_right_iff]
  exact h.imp fun _ _ hpart => hpart.standsFor

theorem aggregated_parts (h : List.Forall₂ Replaces parts items)
    (hfits : Fits e (usages parts.flatten)) :
    aggregated items = if ∃ item ∈ items, item.cash.status = .conflict then
      (aggregated parts.flatten).conflicting else aggregated parts.flatten := by
  have hcash := mergeCash_parts (standsFor_parts h)
  rw [← List.map_flatten] at hcash
  have hitems : (∃ cash ∈ items.map (·.cash), cash.status = .conflict) ↔
      ∃ item ∈ items, item.cash.status = .conflict := by
    simp only [List.mem_map, exists_exists_and_eq_and]
  have hsubscription := (condenses_parts h hfits).subscriptionUsage_eq hfits
  have hmodels : modelUsage (items.flatMap (·.modelUsage)) =
      modelUsage (parts.flatten.flatMap (·.modelUsage)) := by
    rw [modelUsage_eq, modelUsage_eq]
    exact Rollup.collect_congr (models_parts h)
  have hfootprint : toolFootprint (items.filterMap (·.toolFootprint)) =
      toolFootprint (parts.flatten.filterMap (·.toolFootprint)) := by
    rw [toolFootprint_eq, toolFootprint_eq, footprints_parts h]
  split
  · rename_i hconflict
    rw [if_pos (hitems.mpr hconflict)] at hcash
    exact ResourceAccounting.ext hcash hsubscription hmodels hfootprint
  · rename_i hnone
    rw [if_neg (mt hitems.mp hnone)] at hcash
    exact ResourceAccounting.ext hcash hsubscription hmodels hfootprint

/-- The order of the accountings only matters for that of the components. -/
theorem same_of_perm (h : items.Perm items') (hfits : Fits e (usages items)) :
    Same (aggregated items) (aggregated items') := by
  have hfits' : Fits e (usages items') := hfits.perm (h.flatMap_right _)
  obtain ⟨hstatus, hcomponents⟩ := mergeCash_perm (h.map (·.cash))
  refine ⟨hstatus, hcomponents, ?_, ?_, ?_⟩
  · simp only [aggregated, Aggregation.subscriptionUsage_eq hfits.exact,
      Aggregation.subscriptionUsage_eq hfits'.exact]
    exact Rollup.collect_perm (h.flatMap_right _)
  · simp only [aggregated, modelUsage_eq]
    exact Rollup.collect_perm (h.flatMap_right _)
  · simp only [aggregated, toolFootprint_eq]
    rw [Rollup.sum_perm (h.filterMap _)]

theorem aggregated_conflicting (h : ∃ item ∈ items, item.cash.status = .conflict) :
    (aggregated items).conflicting = aggregated items := by
  have hstatus : cashStatus (items.map (·.cash)) = .conflict := by
    obtain ⟨item, hitem, hconflict⟩ := h
    exact cashStatus_conflict.mpr ⟨_, List.mem_map_of_mem hitem, hconflict⟩
  have hmerged : (mergeCash (items.map (·.cash))).status = .conflict :=
    (congrArg _ hstatus).trans (ite_self _)
  exact ResourceAccounting.ext (congrArg (CashAccounting.mk · _) hmerged.symm) rfl rfl rfl

end Items

/-! ## Receipts -/

/-- A receipt, with the value that the text of `component_receipt_ids` has as JSON. -/
structure ExecutionReceipt where
  receiptId : String
  componentReceiptIds : Option Json
  accounting : ResourceAccounting

def stringList : Json → Option (List String)
  | .arr items => items.mapM fun
    | .str text => some text
    | _ => none
  | _ => none

def ExecutionReceipt.named (receipt : ExecutionReceipt) : List String :=
  ((receipt.componentReceiptIds.bind stringList).getD []).filter (· ≠ receipt.receiptId)

def independentReceipts (receipts : List ExecutionReceipt) : List ExecutionReceipt :=
  let items := (receipts.foldl Table.assign (∅ : Table ExecutionReceipt (·.receiptId))).rows
  items.filter (·.receiptId ∉ items.flatMap (·.named))

def aggregateAccounting (receipts : List ExecutionReceipt) : Result ResourceAccounting :=
  aggregateItems ((independentReceipts receipts).map (·.accounting))

/-- The receipts have different ids. -/
abbrev Distinct (receipts : List ExecutionReceipt) : Prop := (receipts.map (·.receiptId)).Nodup

/-- Some receipts name none of others. -/
def Unnamed (receipts others : List ExecutionReceipt) : Prop :=
  ∀ receipt ∈ receipts, ∀ id ∈ receipt.named, id ∉ others.map (·.receiptId)

instance : DecidableRel Unnamed := fun receipts others =>
  inferInstanceAs (Decidable (∀ receipt ∈ receipts, ∀ id ∈ receipt.named,
    id ∉ others.map (·.receiptId)))

section Independent

variable {receipts receipts' : List ExecutionReceipt}

theorem rows_foldl_assign {table : Table ExecutionReceipt (·.receiptId)}
    (h : (table.rows ++ receipts).map (·.receiptId) |>.Nodup) :
    (receipts.foldl Table.assign table).rows = table.rows ++ receipts := by
  induction receipts generalizing table with
  | nil => simp
  | cons receipt receipts ih =>
    have hnew : table.find? receipt.receiptId = none := by
      refine Table.find?_eq_none.mpr fun other hother heq => ?_
      rw [List.map_append, List.nodup_append] at h
      exact h.2.2 _ (List.mem_map_of_mem hother) _ (List.mem_map_of_mem List.mem_cons_self) heq
    have hrows : (table.assign receipt).rows = table.rows ++ [receipt] := by
      rw [Table.assign_eq_insert hnew, Table.insert_rows hnew]
    rw [List.foldl_cons, ih (by rwa [hrows, List.append_assoc]), hrows, List.append_assoc]
    rfl

theorem independentReceipts_eq (h : Distinct receipts) : independentReceipts receipts =
    receipts.filter fun receipt => receipt.receiptId ∉ receipts.flatMap (·.named) := by
  have hrows := @rows_foldl_assign receipts ∅ h
  simp only [independentReceipts, hrows]
  rfl

theorem independentReceipts_perm (h : Distinct receipts) (hperm : receipts.Perm receipts') :
    (independentReceipts receipts).Perm (independentReceipts receipts') := by
  have h' : Distinct receipts' := (hperm.map _).nodup_iff.mp h
  rw [independentReceipts_eq h, independentReceipts_eq h']
  have hnamed (id : String) : id ∈ receipts.flatMap (·.named) ↔ id ∈ receipts'.flatMap (·.named) :=
    (hperm.flatMap_right _).mem_iff
  simp only [hnamed]
  exact hperm.filter _

theorem independentReceipts_append (h : Distinct (receipts ++ receipts'))
    (hnone : Unnamed receipts receipts') (hnone' : Unnamed receipts' receipts) :
    independentReceipts (receipts ++ receipts') =
      independentReceipts receipts ++ independentReceipts receipts' := by
  have hids := h
  rw [Distinct, List.map_append, List.nodup_append] at hids
  rw [independentReceipts_eq h, independentReceipts_eq hids.1, independentReceipts_eq hids.2.1,
    List.filter_append]
  have hleft (receipt : ExecutionReceipt) (hin : receipt ∈ receipts) :
      receipt.receiptId ∉ receipts'.flatMap (·.named) := fun hnamed => by
    obtain ⟨other, hother, hid⟩ := List.mem_flatMap.mp hnamed
    exact hnone' other hother _ hid (List.mem_map_of_mem hin)
  have hright (receipt : ExecutionReceipt) (hin : receipt ∈ receipts') :
      receipt.receiptId ∉ receipts.flatMap (·.named) := fun hnamed => by
    obtain ⟨other, hother, hid⟩ := List.mem_flatMap.mp hnamed
    exact hnone other hother _ hid (List.mem_map_of_mem hin)
  congr 1
  · refine List.filter_congr fun receipt hin => ?_
    simp [List.flatMap_append, hleft receipt hin]
  · refine List.filter_congr fun receipt hin => ?_
    simp [List.flatMap_append, hright receipt hin]

/-- A cut into groups of which none names a receipt of another. -/
theorem independentReceipts_flatten {groups : List (List ExecutionReceipt)}
    (h : Distinct groups.flatten)
    (hapart : groups.Pairwise fun group other => Unnamed group other ∧ Unnamed other group) :
    independentReceipts groups.flatten = (groups.map independentReceipts).flatten := by
  induction groups with
  | nil => rfl
  | cons group groups ih =>
    have hids := h
    rw [List.flatten_cons, Distinct, List.map_append, List.nodup_append] at hids
    obtain ⟨hfirst, hrest⟩ := List.pairwise_cons.mp hapart
    rw [List.flatten_cons, independentReceipts_append h, ih hids.2.1 hrest, List.map_cons,
      List.flatten_cons]
    · intro receipt hreceipt id hid hin
      obtain ⟨other, hother, rfl⟩ := List.mem_map.mp hin
      obtain ⟨g, hg, hother⟩ := List.mem_flatten.mp hother
      exact (hfirst g hg).1 receipt hreceipt _ hid (List.mem_map_of_mem hother)
    · intro receipt hreceipt id hid hin
      obtain ⟨g, hg, hreceipt⟩ := List.mem_flatten.mp hreceipt
      exact (hfirst g hg).2 receipt hreceipt id hid hin

theorem independentReceipts_self (h : Distinct receipts) (hnone : Unnamed receipts receipts) :
    independentReceipts receipts = receipts := by
  rw [independentReceipts_eq h, List.filter_eq_self]
  intro receipt hreceipt
  refine decide_eq_true fun hnamed => ?_
  obtain ⟨other, hother, hid⟩ := List.mem_flatMap.mp hnamed
  exact hnone other hother _ hid (List.mem_map_of_mem hreceipt)

end Independent

/-! ## Groups -/

/-- The accountings that are added up. -/
def counted (receipts : List ExecutionReceipt) : List ResourceAccounting :=
  (independentReceipts receipts).map (·.accounting)

theorem aggregateAccounting_eq (receipts : List ExecutionReceipt) :
    aggregateAccounting receipts = .ok (aggregated (counted receipts)) := aggregateItems_eq

/-- Groups of receipts, and a receipt in place of each of them that is not empty. -/
structure Grouped (groups : List (List ExecutionReceipt)) (carriers : List ExecutionReceipt) :
    Prop where
  apart : groups.Pairwise fun group other => Unnamed group other ∧ Unnamed other group
  independent : ∀ group ∈ groups, group ≠ [] → independentReceipts group ≠ []
  carries : List.Forall₂
    (fun group carrier => aggregateAccounting group = .ok carrier.accounting)
    (groups.filter (· ≠ [])) carriers
  distinct : Distinct carriers
  unnamed : Unnamed carriers carriers

theorem Grouped.replaces {groups : List (List ExecutionReceipt)} {carriers : List ExecutionReceipt}
    (h : Grouped groups carriers) :
    List.Forall₂ Replaces ((groups.filter (· ≠ [])).map counted) (counted carriers) := by
  rw [counted, independentReceipts_self h.distinct h.unnamed, List.forall₂_map_left_iff,
    List.forall₂_map_right_iff]
  have hsome : ∀ group ∈ groups.filter (· ≠ []), counted group ≠ [] := fun group hgroup => by
    obtain ⟨hin, hne⟩ := List.mem_filter.mp hgroup
    exact mt List.map_eq_nil_iff.mp (h.independent group hin (of_decide_eq_true hne))
  refine (List.forall₂_and_left ..).mpr ⟨hsome, h.carries⟩ |>.imp fun group carrier hboth => ?_
  obtain ⟨hgroup, hcarrier⟩ := hboth
  rw [aggregateAccounting_eq, Except.ok.injEq] at hcarrier
  rw [← hcarrier]
  exact .whole hgroup

theorem aggregate_groups {e : ℤ} {groups : List (List ExecutionReceipt)}
    {carriers : List ExecutionReceipt} (hids : Distinct groups.flatten)
    (hfits : Fits e (usages (counted groups.flatten))) (h : Grouped groups carriers) :
    aggregated (counted carriers) =
      if ∃ carrier ∈ carriers, carrier.accounting.cash.status = .conflict then
        (aggregated (counted groups.flatten)).conflicting
      else aggregated (counted groups.flatten) := by
  have hflatten : ((groups.filter (· ≠ [])).map counted).flatten = counted groups.flatten := by
    have hsame : (groups.filter (· ≠ [])).flatten = groups.flatten := by
      clear hids hfits h
      induction groups with
      | nil => rfl
      | cons group groups ih => cases group <;> simpa using ih
    have hindependent := independentReceipts_flatten (hsame ▸ hids) (h.apart.filter _)
    rw [hsame] at hindependent
    rw [counted, hindependent, List.map_flatten, List.map_map]
    rfl
  have hparts := aggregated_parts h.replaces (hflatten ▸ hfits)
  rw [hflatten] at hparts
  rw [hparts, counted, independentReceipts_self h.distinct h.unnamed]
  simp only [List.mem_map, exists_exists_and_eq_and]

/-- The order of the receipts only matters for that of the components. -/
theorem aggregate_perm {e : ℤ} {receipts receipts' : List ExecutionReceipt}
    (hids : Distinct receipts) (hfits : Fits e (usages (counted receipts)))
    (hperm : receipts.Perm receipts') :
    Same (aggregated (counted receipts)) (aggregated (counted receipts')) :=
  same_of_perm ((independentReceipts_perm hids hperm).map _) hfits

/-! ## Summaries -/

def listed (summary : ExecutionReceipt) (receipts : List ExecutionReceipt) :
    List ExecutionReceipt := receipts.filter (·.receiptId ∈ summary.named)

def unlisted (summary : ExecutionReceipt) (receipts : List ExecutionReceipt) :
    List ExecutionReceipt := receipts.filter (·.receiptId ∉ summary.named)

/-- A new receipt with the aggregate of the receipts it lists, which no other receipt names. -/
structure Summarizes (summary : ExecutionReceipt) (receipts : List ExecutionReceipt) : Prop where
  distinct : Distinct (summary :: receipts)
  unnamed : Unnamed receipts [summary]
  apart : Unnamed (unlisted summary receipts) (listed summary receipts)
  independent : independentReceipts (listed summary receipts) ≠ []
  total : aggregateAccounting (listed summary receipts) = .ok summary.accounting

namespace Summarizes

variable {summary : ExecutionReceipt} {receipts : List ExecutionReceipt}

theorem independentReceipts_cons (h : Summarizes summary receipts) :
    independentReceipts (summary :: receipts) =
      summary :: unlisted summary (independentReceipts receipts) := by
  have hnew : summary.receiptId ∉ (summary :: receipts).flatMap (·.named) := fun hnamed => by
    obtain ⟨receipt, hreceipt, hid⟩ := List.mem_flatMap.mp hnamed
    rcases List.mem_cons.mp hreceipt with rfl | hold
    · simp [ExecutionReceipt.named] at hid
    · exact h.unnamed receipt hold _ hid (by simp)
  rw [independentReceipts_eq h.distinct, List.filter_cons_of_pos (by simpa using hnew),
    independentReceipts_eq h.distinct.of_cons, unlisted, List.filter_filter]
  refine congrArg _ (List.filter_congr fun receipt _ => ?_)
  simp only [List.flatMap_cons, List.mem_append, not_or, Bool.decide_and]

theorem independentReceipts_listed (h : Summarizes summary receipts) :
    independentReceipts (listed summary receipts) =
      listed summary (independentReceipts receipts) := by
  have hids : Distinct receipts := h.distinct.of_cons
  have hsub : Distinct (listed summary receipts) := hids.sublist (List.filter_sublist.map _)
  rw [independentReceipts_eq hsub, independentReceipts_eq hids, listed, listed, List.filter_filter,
    List.filter_filter]
  refine List.filter_congr fun receipt hreceipt => ?_
  have hnamed (hin : receipt.receiptId ∈ summary.named) :
      receipt.receiptId ∈ (listed summary receipts).flatMap (·.named) ↔
        receipt.receiptId ∈ receipts.flatMap (·.named) := by
    simp only [List.mem_flatMap]
    constructor
    · rintro ⟨other, hother, hid⟩
      exact ⟨other, List.mem_of_mem_filter hother, hid⟩
    · rintro ⟨other, hother, hid⟩
      by_cases hlisted : other.receiptId ∈ summary.named
      · exact ⟨other, List.mem_filter.mpr ⟨hother, decide_eq_true hlisted⟩, hid⟩
      · have hout : other ∈ unlisted summary receipts :=
          List.mem_filter.mpr ⟨hother, decide_eq_true hlisted⟩
        exact absurd (List.mem_map_of_mem (List.mem_filter.mpr ⟨hreceipt, decide_eq_true hin⟩))
          (h.apart other hout _ hid)
  by_cases hin : receipt.receiptId ∈ summary.named
  · rw [listed] at hnamed
    simp [hin, hnamed hin]
  · simp [hin]

theorem aggregate {e : ℤ} (h : Summarizes summary receipts)
    (hfits : Fits e (usages (counted receipts))) {receipts' : List ExecutionReceipt}
    (hperm : receipts'.Perm (summary :: receipts)) :
    Same (aggregated (counted receipts'))
      (if summary.accounting.cash.status = .conflict then
        (aggregated (counted receipts)).conflicting
      else aggregated (counted receipts)) := by
  have hsummary : counted (listed summary receipts) =
      (listed summary (independentReceipts receipts)).map (·.accounting) := by
    rw [counted, h.independentReceipts_listed]
  have hcounted : counted (summary :: receipts) =
      summary.accounting :: (unlisted summary (independentReceipts receipts)).map (·.accounting) := by
    rw [counted, h.independentReceipts_cons, List.map_cons]
  generalize hrest : (unlisted summary (independentReceipts receipts)).map (·.accounting) = rest
    at hcounted
  have hsplit : (counted (listed summary receipts) ++ rest).Perm (counted receipts) := by
    rw [hsummary, ← hrest, ← List.map_append, counted]
    refine List.Perm.map _ ?_
    have := List.filter_append_perm (fun receipt : ExecutionReceipt =>
      decide (receipt.receiptId ∈ summary.named)) (independentReceipts receipts)
    simpa [listed, unlisted] using this
  have hparts : List.Forall₂ Replaces
      (counted (listed summary receipts) :: rest.map ([·])) (summary.accounting :: rest) := by
    have htotal := h.total
    rw [aggregateAccounting_eq, Except.ok.injEq] at htotal
    refine .cons (htotal ▸ .whole (mt List.map_eq_nil_iff.mp h.independent)) ?_
    rw [List.forall₂_map_left_iff]
    exact List.forall₂_same.mpr fun item _ => .single item
  have hflatten : (counted (listed summary receipts) :: rest.map ([·])).flatten =
      counted (listed summary receipts) ++ rest := by
    rw [List.flatten_cons, ← List.flatMap_def, List.flatMap_singleton']
  have hfits' : Fits e (usages (counted (listed summary receipts) ++ rest)) :=
    hfits.perm (hsplit.symm.flatMap_right _)
  have hsame := same_of_perm hsplit hfits'
  have horder : Same (aggregated (counted receipts')) (aggregated (summary.accounting :: rest)) := by
    have hitems : (summary.accounting :: rest).Perm (counted receipts') := by
      rw [← hcounted]
      exact (independentReceipts_perm h.distinct hperm.symm).map _
    have hfits'' : Fits e (usages (summary.accounting :: rest)) :=
      (condenses_parts hparts (hflatten ▸ hfits')).fits (hflatten ▸ hfits')
    exact (same_of_perm hitems hfits'').symm
  refine horder.trans ?_
  rw [aggregated_parts hparts (hflatten ▸ hfits'), hflatten]
  by_cases hconflict : summary.accounting.cash.status = .conflict
  · rw [if_pos hconflict, if_pos ⟨_, List.mem_cons_self, hconflict⟩]
    exact hsame.conflicting
  · rw [if_neg hconflict]
    split
    · rename_i hsome
      obtain ⟨item, hitem, hstatus⟩ := hsome
      rcases List.mem_cons.mp hitem with rfl | hitem
      · exact absurd hstatus hconflict
      · rw [aggregated_conflicting ⟨item, List.mem_append_right _ hitem, hstatus⟩]
        exact hsame
    · exact hsame

end Summarizes

/-- Receipts with different ids, of which the units of a pool add up exactly, are aggregated to the
same in groups, but for a conflict in one of them, in any order, and with a summary. -/
theorem aggregate_accounting {e : ℤ} {receipts : List ExecutionReceipt} (hids : Distinct receipts)
    (hfits : Fits e (usages (counted receipts))) :
    ∃ r, aggregateAccounting receipts = .ok r ∧
      (∀ groups carriers, groups.flatten = receipts → Grouped groups carriers →
        aggregateAccounting carriers =
          .ok (if ∃ carrier ∈ carriers, carrier.accounting.cash.status = .conflict then
            r.conflicting else r)) ∧
      (∀ receipts', receipts.Perm receipts' →
        ∃ r', aggregateAccounting receipts' = .ok r' ∧ Same r r') ∧
      ∀ summary receipts', Summarizes summary receipts → receipts'.Perm (summary :: receipts) →
        ∃ r', aggregateAccounting receipts' = .ok r' ∧
          Same r' (if summary.accounting.cash.status = .conflict then r.conflicting else r) := by
  refine ⟨_, aggregateAccounting_eq receipts, ?_, ?_, ?_⟩
  · rintro groups carriers rfl hgrouped
    rw [aggregateAccounting_eq, aggregate_groups hids hfits hgrouped]
  · intro receipts' hperm
    exact ⟨_, aggregateAccounting_eq receipts', aggregate_perm hids hfits hperm⟩
  · intro summary receipts' hsummary hperm
    exact ⟨_, aggregateAccounting_eq receipts', hsummary.aggregate hfits hperm⟩

/-! ## What a cut can change -/

theorem validated_single (component : CashEvidence) : Validated ⟨.complete, [component]⟩ where
  charged _ := List.cons_ne_nil _ _
  settled h := by
    obtain ⟨a, b, ha, hb, -, hne⟩ := contested_iff.mp h
    rw [List.mem_singleton.mp ha.mem, List.mem_singleton.mp hb.mem] at hne
    exact absurd rfl hne

def charge (receiptId : String) (named : List String) (amount : ℚ)
    (classification : CashClassification) (usage : List SubscriptionUsage) : ExecutionReceipt where
  receiptId := receiptId
  componentReceiptIds := some (.arr (named.map .str))
  accounting := {
    cash := ⟨.complete, [⟨"charge", some amount, "USD", classification, receiptId⟩]⟩
    subscriptionUsage := usage
    modelUsage := []
    toolFootprint := none
    validated := validated_single _ }

def carrier (receiptId : String) (named : List String) (group : List ExecutionReceipt) :
    ExecutionReceipt :=
  ⟨receiptId, some (.arr (named.map .str)), aggregated (counted group)⟩

theorem metered_nonneg (units : ℚ≥0) : ∀ c ∈ some (units : ℚ), 0 ≤ c := by
  rintro _ ⟨⟩
  exact units.coe_nonneg

theorem metered_known (units : Option ℚ) :
    units ≠ none → EvidenceStatus.complete ≠ .unavailable := fun _ => by decide

def metered (units : ℚ≥0) : SubscriptionUsage where
  provider := "provider"
  resourcePool := "pool"
  unit := "credit"
  consumed := some units
  source := ⟨.complete, .localMeter, .observed, none, none, none, none, consistent_metered⟩
  includedOrPaid := .paid
  rateSnapshotId := none
  usageFingerprint := none
  nonneg := metered_nonneg units
  known := metered_known _

def Differ (receipts receipts' : List ExecutionReceipt) : Prop :=
  ∀ r r', aggregateAccounting receipts = .ok r → aggregateAccounting receipts' = .ok r' → ¬ Same r r'

theorem differ_iff {receipts receipts' : List ExecutionReceipt} :
    Differ receipts receipts' ↔
      ¬ Same (aggregated (counted receipts)) (aggregated (counted receipts')) := by
  simp only [Differ, aggregateAccounting_eq, Except.ok.injEq]
  exact ⟨fun h => h _ _ rfl rfl, by rintro h _ _ rfl rfl; exact h⟩

instance : DecidableRel Differ := fun _ _ => decidable_of_iff _ differ_iff.symm

/-- Evidence outside a group settles a conflict of estimates in it. -/
def settledEstimates : List (List ExecutionReceipt) :=
  [[charge "first" [] 1 .estimated [], charge "second" [] 2 .estimated []],
    [charge "bill" [] 3 .verified []]]

def cutSummary : List (List ExecutionReceipt) :=
  [[charge "whole" ["part"] 1 .verified []], [charge "part" [] 1 .verified []]]

def mutuallyListed : List (List ExecutionReceipt) :=
  [[charge "left" ["right"] 1 .verified [], charge "right" ["left"] 1 .verified []],
    [charge "other" [] 1 .verified []]]

/-- Units that are rounded away when they are added one by one. -/
def rounded : List ExecutionReceipt :=
  [charge "many" [] 1 .verified [metered ((10 : ℕ) ^ 28 : ℕ)],
    charge "few" [] 1 .verified [metered ((5 : ℕ) : ℚ≥0)],
    charge "more" [] 1 .verified [metered ((5 : ℕ) : ℚ≥0)]]

def carriers (groups : List (List ExecutionReceipt)) : List ExecutionReceipt :=
  List.zipWith (carrier · []) ["c", "d"] groups

/-- Conflicts, receipts listed across groups or by each other, rounding, and summaries of nothing or
of a receipt that is listed already all show in the aggregate. -/
theorem aggregate_accounting_deviates :
    (∀ groups ∈ [settledEstimates, cutSummary, mutuallyListed],
      Distinct groups.flatten ∧ Differ (carriers groups) groups.flatten) ∧
    (Distinct rounded ∧ rounded.Perm rounded.reverse ∧ Differ rounded rounded.reverse) ∧
    ∀ listed ∈ [[], ["part"]], Differ
      (carrier "summary" listed (cutSummary.flatten.filter (·.receiptId ∈ listed)) ::
        cutSummary.flatten) cutSummary.flatten :=
  ⟨by decide +kernel, ⟨by decide, (List.reverse_perm _).symm, by decide +kernel⟩, by decide +kernel⟩

/-- Two groups of receipts for the charge, with units of the pool; the first receipt names a part. -/
def sharedPool : List (List ExecutionReceipt) :=
  [[charge "first" ["part"] 1 .estimated [metered ((2 : ℕ) : ℚ≥0)],
      charge "part" [] 1 .estimated [metered ((2 : ℕ) : ℚ≥0)]],
    [charge "second" [] 1 .verified [metered ((3 : ℕ) : ℚ≥0)],
      charge "third" [] 1 .verified [metered ((3 : ℕ) : ℚ≥0)]]]

/-- The receipt of the second group, beside what it is of. -/
def poolSummary : ExecutionReceipt :=
  carrier "summary" ["second", "third"] (listed (carrier "summary" ["second", "third"] [])
    sharedPool.flatten)

theorem sharedPool_fits : Fits 0 (usages (counted sharedPool.flatten)) where
  grid := by decide +kernel
  digits key := poolUnits_sum_le.trans (by decide +kernel)

theorem sharedPool_grouped : Grouped sharedPool (carriers sharedPool) where
  apart := by decide +kernel
  independent := by decide +kernel
  carries := .cons (aggregateAccounting_eq _) (.cons (aggregateAccounting_eq _) .nil)
  distinct := by decide
  unnamed := by decide +kernel

theorem poolSummary_summarizes : Summarizes poolSummary sharedPool.flatten where
  distinct := by decide
  unnamed := by decide +kernel
  apart := by decide +kernel
  independent := by decide +kernel
  total := aggregateAccounting_eq _

theorem aggregate_accounting_of_shared_pool :
    ∃ r, aggregateAccounting sharedPool.flatten = .ok r ∧
      aggregateAccounting (carriers sharedPool) = .ok r ∧
      ∃ r', aggregateAccounting (poolSummary :: sharedPool.flatten) = .ok r' ∧ Same r' r := by
  obtain ⟨r, hr, hgroups, -, hsummary⟩ := aggregate_accounting (by decide) sharedPool_fits
  obtain ⟨r', hr', hsame⟩ := hsummary poolSummary _ poolSummary_summarizes (.refl _)
  rw [if_neg (by decide +kernel)] at hsame
  refine ⟨r, hr, ?_, r', hr', hsame⟩
  rw [hgroups sharedPool (carriers sharedPool) rfl sharedPool_grouped, if_neg (by decide +kernel)]

end AeepRouter.Receipts
