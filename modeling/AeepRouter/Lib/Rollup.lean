import Mathlib.Algebra.Group.WithOne.Basic
import Mathlib.Data.List.Sort
import Mathlib.Tactic

/-!
# Sums of keyed entries

Entries have a key and a summary; summaries add up in a commutative semigroup. `collect` adds up the
entries of each key, in the order of the keys. What it comes to depends on the `total` of each key
alone, and collecting leaves the totals as they are (`total_collect`), so that entries may be
collected in parts and in any order.
-/

namespace AeepRouter.Lib

/-- Entries by their keys and summaries. -/
structure Rollup (α κ S : Type) where
  key : α → κ
  summary : α → S
  build : κ → S → α
  key_build : ∀ k s, key (build k s) = k
  summary_build : ∀ k s, summary (build k s) = s

namespace Rollup

variable {α κ S : Type} [AddCommSemigroup S]

section Sum

/-- The sum of summaries; zero where there are none. -/
def sum (l : List S) : WithZero S := (l.map (WithZero.coe : S → WithZero S)).sum

theorem sum_cons (s : S) (l : List S) : sum (s :: l) = (l.foldl (· + ·) s : S) := by
  induction l generalizing s with
  | nil => simp [sum]
  | cons t l ih =>
    rw [List.foldl_cons, ← ih]
    simp only [sum, List.map_cons, List.sum_cons, WithZero.coe_add, add_assoc]

theorem sum_toList (s : WithZero S) : sum (Option.toList s) = s := by
  cases s with
  | zero => rfl
  | coe s => exact sum_cons s []

theorem sum_append (l l' : List S) : sum (l ++ l') = sum l + sum l' := by
  simp only [sum, List.map_append, List.sum_append]

theorem sum_perm {l l' : List S} (h : l.Perm l') : sum l = sum l' := (h.map _).sum_eq

theorem sum_eq_zero {l : List S} : sum l = 0 ↔ l = [] := by
  cases l with
  | nil => simp [sum]
  | cons s l => simp [sum_cons, WithZero.coe_ne_zero]

end Sum

variable [LinearOrder κ] (r : Rollup α κ S)

def group (entries : List α) (k : κ) : List α := entries.filter fun a => r.key a = k

def total (entries : List α) (k : κ) : WithZero S := sum ((r.group entries k).map r.summary)

/-- The keys in their order. -/
def keys (entries : List α) : List κ := (entries.map r.key).dedup.insertionSort (· ≤ ·)

/-- One entry for each key. -/
def collect (entries : List α) : List α :=
  (r.keys entries).filterMap fun k =>
    match r.group entries k with
    | [] => none
    | first :: rest => some (r.build k ((rest.map r.summary).foldl (· + ·) (r.summary first)))

variable {r} {entries entries' : List α} {k : κ}

omit [AddCommSemigroup S] in
theorem mem_keys : k ∈ r.keys entries ↔ ∃ a ∈ entries, r.key a = k := by
  rw [keys, (List.perm_insertionSort _ _).mem_iff, List.mem_dedup, List.mem_map]

omit [AddCommSemigroup S] in
theorem group_append : r.group (entries ++ entries') k = r.group entries k ++ r.group entries' k :=
  List.filter_append ..

omit [AddCommSemigroup S] in
theorem group_eq_nil : r.group entries k = [] ↔ k ∉ r.keys entries := by
  rw [mem_keys, group, List.filter_eq_nil_iff]
  simp

theorem total_append : r.total (entries ++ entries') k = r.total entries k + r.total entries' k := by
  rw [total, group_append, List.map_append, sum_append]
  rfl

theorem total_perm (h : entries.Perm entries') : r.total entries k = r.total entries' k :=
  sum_perm ((h.filter _).map _)

theorem total_eq_zero : r.total entries k = 0 ↔ k ∉ r.keys entries := by
  rw [total, sum_eq_zero, List.map_eq_nil_iff, group_eq_nil]

omit [AddCommSemigroup S] in
theorem keys_nodup : (r.keys entries).Nodup :=
  (List.perm_insertionSort _ _).nodup_iff.mpr (List.nodup_dedup _)

theorem keys_congr (h : ∀ k, r.total entries k = r.total entries' k) :
    r.keys entries = r.keys entries' := by
  have hmem (k : κ) : k ∈ r.keys entries ↔ k ∈ r.keys entries' := by
    rw [← not_iff_not, ← total_eq_zero, ← total_eq_zero, h]
  have hperm : (r.keys entries).Perm (r.keys entries') :=
    (List.perm_ext_iff_of_nodup keys_nodup keys_nodup).mpr hmem
  exact hperm.eq_of_pairwise (fun _ _ _ _ => le_antisymm)
    (List.pairwise_insertionSort _ _) (List.pairwise_insertionSort _ _)

variable (r entries) in
def entry (k : κ) : Option α := Option.map (r.build k) (r.total entries k)

theorem entry_of_total {s : S} (h : r.total entries k = (s : WithZero S)) :
    r.entry entries k = some (r.build k s) := by
  rw [entry, h]
  rfl

theorem collect_eq : r.collect entries = (r.keys entries).filterMap (r.entry entries) := by
  refine List.filterMap_congr fun k _ => ?_
  cases hgroup : r.group entries k with
  | nil =>
    simp only [entry, total, hgroup]
    rfl
  | cons first rest =>
    simp only [entry, total, hgroup, List.map_cons, sum_cons]
    rfl

theorem collect_congr (h : ∀ k, r.total entries k = r.total entries' k) :
    r.collect entries = r.collect entries' := by
  have hentry : r.entry entries = r.entry entries' := by
    funext k
    rw [entry, entry, h]
  rw [collect_eq, collect_eq, keys_congr h, hentry]

theorem collect_perm (h : entries.Perm entries') : r.collect entries = r.collect entries' :=
  collect_congr fun _ => total_perm h

theorem group_collect (hk : k ∈ r.keys entries) :
    ∃ s : S, r.total entries k = (s : WithZero S) ∧ r.group (r.collect entries) k = [r.build k s] := by
  obtain ⟨s, hs⟩ : ∃ s : S, r.total entries k = (s : WithZero S) := by
    cases htotal : (show Option S from r.total entries k) with
    | none => exact absurd hk (total_eq_zero.mp htotal)
    | some s => exact ⟨s, htotal⟩
  refine ⟨s, hs, ?_⟩
  obtain ⟨before, after, hsplit⟩ := List.append_of_mem hk
  have hnodup : (r.keys entries).Nodup := keys_nodup
  rw [hsplit, List.nodup_append, List.nodup_cons] at hnodup
  obtain ⟨-, ⟨hafter, -⟩, hbefore⟩ := hnodup
  have hother (ks : List κ) (hne : ∀ k' ∈ ks, k' ≠ k) :
      r.group (ks.filterMap (r.entry entries)) k = [] := by
    rw [group, List.filter_eq_nil_iff]
    intro a ha
    obtain ⟨k', hk', ha⟩ := List.mem_filterMap.mp ha
    obtain ⟨s', -, rfl⟩ := Option.map_eq_some_iff.mp ha
    simpa [r.key_build] using hne k' hk'
  rw [collect_eq, hsplit, List.filterMap_append, List.filterMap_cons_some (entry_of_total hs), group_append,
    hother before fun k' hk' => hbefore k' hk' k List.mem_cons_self, List.nil_append, group,
    List.filter_cons_of_pos (by simp [r.key_build]), ← group,
    hother after fun k' hk' heq => hafter (heq ▸ hk')]

theorem keys_collect : k ∈ r.keys (r.collect entries) ↔ k ∈ r.keys entries := by
  constructor
  · intro h
    obtain ⟨a, ha, rfl⟩ := mem_keys.mp h
    rw [collect_eq] at ha
    obtain ⟨k, hk, ha⟩ := List.mem_filterMap.mp ha
    obtain ⟨s, -, rfl⟩ := Option.map_eq_some_iff.mp ha
    rwa [r.key_build]
  · intro h
    obtain ⟨s, -, hgroup⟩ := group_collect h
    by_contra hnot
    rw [group_eq_nil.mpr hnot] at hgroup
    cases hgroup

theorem total_collect : r.total (r.collect entries) k = r.total entries k := by
  by_cases hk : k ∈ r.keys entries
  · obtain ⟨s, hs, hgroup⟩ := group_collect hk
    rw [hs, total, hgroup, List.map_singleton, r.summary_build, sum_cons, List.foldl_nil]
  · rw [total_eq_zero.mpr hk, total_eq_zero.mpr (mt keys_collect.mp hk)]

end Rollup

end AeepRouter.Lib
