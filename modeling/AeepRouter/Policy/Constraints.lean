import AeepRouter.Stack.Assignment

/-!
# Constraints as an order

`Narrows c c'` says that `c` forbids at least what `c'` forbids, field by field. Merged constraints
are the loosest that narrow both sides (`narrows_merge`). Merging is associative on the nose; the lists
it meets are lists, not sets, so it is commutative up to their order and repetitions, and it sorts the
denied identifiers when it merges constraints with themselves.
-/

namespace AeepRouter.Policy

open Stack

/-! ## Bounds and lists -/

section Fields

variable {α : Type}

/-- A bound that is set where the other is, and no looser. -/
def Within [LE α] (a b : Option α) : Prop := ∀ y ∈ b, ∃ x ∈ a, x ≤ y

/-- A list that is set where the other is, without anything else. -/
def Inside (a b : Option (List α)) : Prop := ∀ ys ∈ b, ∃ xs ∈ a, xs ⊆ ys

@[simp] theorem within_none [LE α] (a : Option α) : Within a none := nofun

@[simp] theorem not_none_within [LE α] (y : α) : ¬ Within none (some y) := by simp [Within]

@[simp] theorem some_within_some [LE α] {x y : α} : Within (some x) (some y) ↔ x ≤ y := by
  simp [Within]

@[simp] theorem inside_none (a : Option (List α)) : Inside a none := nofun

@[simp] theorem not_none_inside (ys : List α) : ¬ Inside none (some ys) := by simp [Inside]

@[simp] theorem some_inside_some {xs ys : List α} : Inside (some xs) (some ys) ↔ xs ⊆ ys := by
  simp [Inside]

theorem within_strictestMax [LinearOrder α] {a b c : Option α} :
    Within c (strictestMax a b) ↔ Within c a ∧ Within c b := by
  cases a <;> cases b <;> cases c <;> simp [strictestMax]

theorem inside_intersection [DecidableEq α] {a b c : Option (List α)} :
    Inside c (intersection a b) ↔ Inside c a ∧ Inside c b := by
  cases a <;> cases b <;> cases c <;> simp [intersection, List.subset_def, forall_and]

theorem Within.refl [Preorder α] (a : Option α) : Within a a := fun y hy => ⟨y, hy, le_rfl⟩

theorem Inside.refl (a : Option (List α)) : Inside a a := fun ys hys => ⟨ys, hys, List.Subset.refl ys⟩

theorem strictestMax_assoc [LinearOrder α] (a b c : Option α) :
    strictestMax (strictestMax a b) c = strictestMax a (strictestMax b c) := by
  cases a <;> cases b <;> cases c <;> simp [strictestMax, min_assoc]

theorem strictestMax_comm [LinearOrder α] (a b : Option α) :
    strictestMax a b = strictestMax b a := by
  cases a <;> cases b <;> simp [strictestMax, min_comm]

theorem strictestMax_self [LinearOrder α] (a : Option α) : strictestMax a a = a := by
  cases a <;> simp [strictestMax]

variable [DecidableEq α]

theorem intersection_assoc (a b c : Option (List α)) :
    intersection (intersection a b) c = intersection a (intersection b c) := by
  cases a <;> cases b <;> cases c <;> simp [intersection, Bool.and_comm]

theorem intersection_self (a : Option (List α)) : intersection a a = a := by
  cases a <;> simp [intersection]

/-- The same list, up to the order and the number of its entries. -/
def SameEntries (a b : Option (List α)) : Prop := Inside a b ∧ Inside b a

theorem intersection_comm (a b : Option (List α)) :
    SameEntries (intersection a b) (intersection b a) := by
  have hway : ∀ a b : Option (List α), Inside (intersection a b) (intersection b a) := fun a b =>
    have h := inside_intersection.mp (.refl (intersection a b))
    inside_intersection.mpr ⟨h.2, h.1⟩
  exact ⟨hway a b, hway b a⟩

end Fields

/-! ## Sorted sets -/

theorem sortedSet_congr {xs ys : List String} (h : ∀ s, s ∈ xs ↔ s ∈ ys) :
    sortedSet xs = sortedSet ys := by
  have hperm : xs.dedup.Perm ys.dedup :=
    (List.perm_ext_iff_of_nodup (List.nodup_dedup xs) (List.nodup_dedup ys)).mpr fun s => by
      rw [List.mem_dedup, List.mem_dedup, h]
  exact List.Perm.eq_of_pairwise' (List.pairwise_insertionSort _ _) (List.pairwise_insertionSort _ _)
    ((List.perm_insertionSort _ _).trans (hperm.trans (List.perm_insertionSort _ _).symm))

theorem sortedSet_assoc (xs ys zs : List String) :
    sortedSet (sortedSet (xs ++ ys) ++ zs) = sortedSet (xs ++ sortedSet (ys ++ zs)) :=
  sortedSet_congr fun s => by simp [mem_sortedSet, or_assoc]

theorem sortedSet_comm (xs ys : List String) : sortedSet (xs ++ ys) = sortedSet (ys ++ xs) :=
  sortedSet_congr fun s => by simp [or_comm]

/-! ## The order -/

/-- `c` forbids at least what `c'` forbids. -/
@[mk_iff] structure Narrows (c c' : ActionConstraints) : Prop where
  maxCostUsd : Within c.maxCostUsd c'.maxCostUsd
  maxLatencyMs : Within c.maxLatencyMs c'.maxLatencyMs
  maxCpuMs : Within c.maxCpuMs c'.maxCpuMs
  maxMemoryMbSeconds : Within c.maxMemoryMbSeconds c'.maxMemoryMbSeconds
  maxPeakMemoryMb : Within c.maxPeakMemoryMb c'.maxPeakMemoryMb
  maxGpuMs : Within c.maxGpuMs c'.maxGpuMs
  maxNetworkBytes : Within c.maxNetworkBytes c'.maxNetworkBytes
  maxContextTokens : Within c.maxContextTokens c'.maxContextTokens
  minSuccessProbability : c'.minSuccessProbability ≤ c.minSuccessProbability
  minQualityScore : c'.minQualityScore ≤ c.minQualityScore
  maxRiskScore : c.maxRiskScore ≤ c'.maxRiskScore
  maxSideEffect : c.maxSideEffect.rank ≤ c'.maxSideEffect.rank
  allowNetwork : c.allowNetwork ≤ c'.allowNetwork
  requireLocal : c'.requireLocal ≤ c.requireLocal
  allowedExecutorKinds : Inside c.allowedExecutorKinds c'.allowedExecutorKinds
  allowedExecutorIds : Inside c.allowedExecutorIds c'.allowedExecutorIds
  deniedExecutorIds : c'.deniedExecutorIds ⊆ c.deniedExecutorIds
  allowedDataResidency : Inside c.allowedDataResidency c'.allowedDataResidency

theorem Narrows.refl (c : ActionConstraints) : Narrows c c := by
  constructor <;> first | exact Within.refl _ | exact Inside.refl _ | exact le_rfl |
    exact List.Subset.refl _

theorem le_rank_ite {n : ℕ} {a b : SideEffect} :
    n ≤ (if a.rank ≤ b.rank then a else b).rank ↔ n ≤ a.rank ∧ n ≤ b.rank := by
  split <;> omega

theorem narrows_merge {c policy request : ActionConstraints} :
    Narrows c (mergeConstraints policy request) ↔ Narrows c policy ∧ Narrows c request := by
  have hnetwork (x y z : Bool) : x ≤ (y && z) ↔ x ≤ y ∧ x ≤ z := by
    revert x y z
    decide
  have hlocal (x y z : Bool) : (y || z) ≤ x ↔ y ≤ x ∧ z ≤ x := by
    revert x y z
    decide
  have hdenied : sortedSet (policy.deniedExecutorIds ++ request.deniedExecutorIds) ⊆
      c.deniedExecutorIds ↔
      policy.deniedExecutorIds ⊆ c.deniedExecutorIds ∧
        request.deniedExecutorIds ⊆ c.deniedExecutorIds := by
    simp only [List.subset_def, mem_sortedSet, List.mem_append, or_imp, forall_and]
  rw [narrows_iff, narrows_iff, narrows_iff]
  simp only [mergeConstraints, within_strictestMax, inside_intersection, max_le_iff, le_min_iff,
    le_rank_ite, hnetwork, hlocal, hdenied]
  refine ⟨fun h => ⟨?_, ?_⟩, fun ⟨h, h'⟩ => ?_⟩
  · simp only [h, and_self]
  · simp only [h, and_self]
  · simp only [h, h', and_self]

theorem merge_narrows_left (policy request : ActionConstraints) :
    Narrows (mergeConstraints policy request) policy :=
  (narrows_merge.mp (.refl _)).1

theorem merge_narrows_right (policy request : ActionConstraints) :
    Narrows (mergeConstraints policy request) request :=
  (narrows_merge.mp (.refl _)).2

/-! ## The algebra of merging -/

theorem SideEffect.rank_injective : Function.Injective SideEffect.rank := by
  intro a b h
  cases a <;> cases b <;> simp_all [SideEffect.rank]

theorem mergeConstraints_assoc (a b c : ActionConstraints) :
    mergeConstraints (mergeConstraints a b) c = mergeConstraints a (mergeConstraints b c) := by
  simp only [mergeConstraints, strictestMax_assoc, intersection_assoc, sortedSet_assoc, max_assoc,
    min_assoc, Bool.and_assoc, Bool.or_assoc]
  congr 1
  split_ifs <;> first | rfl | omega

/-- Constraints merged with themselves are themselves, their denied identifiers sorted. -/
theorem mergeConstraints_self (c : ActionConstraints) :
    mergeConstraints c c = { c with deniedExecutorIds := sortedSet c.deniedExecutorIds } := by
  have hdenied : sortedSet (c.deniedExecutorIds ++ c.deniedExecutorIds) =
      sortedSet c.deniedExecutorIds := sortedSet_congr fun s => by simp
  simp only [mergeConstraints, strictestMax_self, intersection_self, max_self, min_self, hdenied,
    Bool.and_self, Bool.or_self, ite_self]

/-- The same constraints, up to the order and the number of what their lists allow. -/
def SameButEntries (c c' : ActionConstraints) : Prop :=
  { c with
    allowedExecutorKinds := c'.allowedExecutorKinds
    allowedExecutorIds := c'.allowedExecutorIds
    allowedDataResidency := c'.allowedDataResidency } = c' ∧
  SameEntries c.allowedExecutorKinds c'.allowedExecutorKinds ∧
  SameEntries c.allowedExecutorIds c'.allowedExecutorIds ∧
  SameEntries c.allowedDataResidency c'.allowedDataResidency

theorem mergeConstraints_comm (a b : ActionConstraints) :
    SameButEntries (mergeConstraints a b) (mergeConstraints b a) := by
  refine ⟨?_, intersection_comm _ _, intersection_comm _ _, intersection_comm _ _⟩
  simp only [mergeConstraints, strictestMax_comm a.maxCostUsd, strictestMax_comm a.maxLatencyMs,
    strictestMax_comm a.maxCpuMs, strictestMax_comm a.maxMemoryMbSeconds,
    strictestMax_comm a.maxPeakMemoryMb, strictestMax_comm a.maxGpuMs,
    strictestMax_comm a.maxNetworkBytes, strictestMax_comm a.maxContextTokens,
    max_comm a.minSuccessProbability, max_comm a.minQualityScore, min_comm a.maxRiskScore,
    sortedSet_comm a.deniedExecutorIds, Bool.and_comm a.allowNetwork, Bool.or_comm a.requireLocal]
  congr 1
  split_ifs with h h'
  · exact SideEffect.rank_injective (le_antisymm h h')
  · rfl
  · rfl
  · omega

end AeepRouter.Policy
