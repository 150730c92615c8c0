import Mathlib.Tactic
import Mathlib.Data.List.Sort

/-!
# Grouping and resampling

A dictionary filled from a list keeps its keys in the order they were first seen, and the last value
of each (`lastAt`) or all of them (`groups`). The aggregates of the groups do not depend on the order
of the list, but for their own order.

A resample draws by index: a group among the groups, then as many values from it as it has. The
aggregates of resamples lie where the values do (`resamples_of_mem`). For the generator that always
draws the first index, every aggregate is the first value (`resamples_first`).
-/

namespace AeepRouter.Lib

/-! ## Dictionaries -/

section Dictionaries

variable {α κ β : Type} [DecidableEq κ]

theorem nodup_eraseDups (l : List κ) : l.eraseDups.Nodup := by
  induction h : l.length using Nat.strong_induction_on generalizing l with
  | _ n ih =>
    cases l with
    | nil => exact List.nodup_nil
    | cons a l =>
      rw [List.eraseDups_cons, List.nodup_cons]
      refine ⟨by simp, ih _ ?_ _ rfl⟩
      rw [← h]
      exact Nat.lt_succ_of_le (List.length_filter_le _ _)

/-- The keys of a dictionary, whatever the order in which it was filled. -/
theorem eraseDups_perm {l l' : List κ} (h : l.Perm l') : l.eraseDups.Perm l'.eraseDups :=
  (List.perm_ext_iff_of_nodup (nodup_eraseDups l) (nodup_eraseDups l')).mpr fun a => by
    rw [List.mem_eraseDups, List.mem_eraseDups, h.mem_iff]

def lastAt (key : α → κ) (l : List α) (k : κ) : Option α := (l.filter fun a => key a = k).getLast?

variable {key : α → κ} {l l' : List α} {k : κ} {a : α}

theorem mem_of_lastAt (h : lastAt key l k = some a) : a ∈ l ∧ key a = k := by
  have := List.mem_of_getLast? h
  simpa using this

theorem exists_lastAt (h : a ∈ l) : ∃ b, lastAt key l (key a) = some b := by
  refine Option.ne_none_iff_exists'.mp fun hnone => ?_
  have hnil : (l.filter fun b => key b = key a) = [] := List.getLast?_eq_none_iff.mp hnone
  have hself : a ∈ l.filter fun b => key b = key a := List.mem_filter.mpr ⟨h, decide_eq_true rfl⟩
  rw [hnil] at hself
  exact absurd hself List.not_mem_nil

def dictionary (key : α → κ) (l : List α) : List α := (l.map key).eraseDups.filterMap (lastAt key l)

theorem mem_of_dictionary (h : a ∈ dictionary key l) : a ∈ l := by
  obtain ⟨k, -, hlast⟩ := List.mem_filterMap.mp h
  exact (mem_of_lastAt hlast).1

theorem exists_dictionary (h : a ∈ l) : ∃ b ∈ dictionary key l, key b = key a := by
  obtain ⟨b, hb⟩ : ∃ b, lastAt key l (key a) = some b := exists_lastAt h
  refine ⟨b, List.mem_filterMap.mpr ⟨key a, ?_, hb⟩, (mem_of_lastAt hb).2⟩
  exact List.mem_eraseDups.mpr (List.mem_map_of_mem h)

theorem nodup_dictionary : ((dictionary key l).map key).Nodup := by
  have hsublist : ∀ ks : List κ, ((ks.filterMap (lastAt key l)).map key).Sublist ks := by
    intro ks
    induction ks with
    | nil => exact List.Sublist.refl _
    | cons k ks ih =>
      cases hlast : lastAt key l k with
      | none =>
        rw [List.filterMap_cons_none hlast]
        exact ih.cons k
      | some a =>
        rw [List.filterMap_cons_some hlast, List.map_cons, (mem_of_lastAt hlast).2]
        exact ih.cons_cons k
  exact (hsublist _).nodup (nodup_eraseDups _)

/-- When no key comes twice, the order does not matter. -/
theorem lastAt_perm (h : l.Perm l') (hn : (l.map key).Nodup) : lastAt key l k = lastAt key l' k := by
  have hfilter : (l.filter fun a => key a = k).Perm (l'.filter fun a => key a = k) := h.filter _
  have hone : (l.filter fun a => key a = k).length ≤ 1 := by
    by_contra hlen
    rw [not_le] at hlen
    obtain ⟨a, b, rest, hrest⟩ : ∃ a b rest, (l.filter fun a => key a = k) = a :: b :: rest := by
      match hf : l.filter fun a => key a = k, hlen with
      | a :: b :: rest, _ => exact ⟨a, b, rest, rfl⟩
    have hsub : ([a, b].map key).Sublist (l.map key) := by
      refine List.Sublist.map key (List.Sublist.trans ?_ (List.filter_sublist (p := fun a => key a = k)))
      rw [hrest]
      exact List.Sublist.cons_cons _ (List.Sublist.cons_cons _ (List.nil_sublist _))
    have hmem : ∀ x ∈ [a, b], key x = k := by
      intro x hx
      have : x ∈ l.filter fun a => key a = k := by
        rw [hrest]
        rcases List.mem_pair.mp hx with rfl | rfl <;> simp
      simpa using (List.mem_filter.mp this).2
    have := hsub.nodup hn
    simp [hmem a (by simp), hmem b (by simp)] at this
  unfold lastAt
  match hf : l.filter fun a => key a = k, hone with
  | [], _ =>
    rw [hf] at hfilter
    rw [hfilter.nil_eq]
  | [a], _ =>
    rw [hf] at hfilter
    rw [List.perm_singleton.mp hfilter.symm]

/-- The values of a key. -/
def valuesOf (k : κ) (pairs : List (κ × β)) : List β :=
  pairs.filterMap fun p => if p.1 = k then some p.2 else none

/-- The keys in the order they were first seen, each with its values. -/
def groups (pairs : List (κ × β)) : List (κ × List β) :=
  (pairs.map (·.1)).eraseDups.map fun k => (k, valuesOf k pairs)

def aggregates (f : List β → β) (pairs : List (κ × β)) : List (κ × β) :=
  (groups pairs).map fun g => (g.1, f g.2)

variable {f : List β → β} {pairs pairs' : List (κ × β)}

theorem aggregates_perm (hf : ∀ l l' : List β, l.Perm l' → f l = f l') (h : pairs.Perm pairs') :
    (aggregates f pairs).Perm (aggregates f pairs') := by
  have hvalues : ∀ k, f (valuesOf k pairs) = f (valuesOf k pairs') := fun k =>
    hf _ _ (h.filterMap _)
  unfold aggregates groups
  rw [List.map_map, List.map_map]
  refine ((eraseDups_perm (h.map (·.1))).map _).trans (List.Perm.of_eq (List.map_congr_left ?_))
  intro k _
  exact congrArg (k, ·) (hvalues k)

theorem valuesOf_ne_nil (h : k ∈ pairs.map (·.1)) : valuesOf k pairs ≠ [] := by
  obtain ⟨p, hp, rfl⟩ := List.mem_map.mp h
  refine List.ne_nil_of_mem (a := p.2) (List.mem_filterMap.mpr ⟨p, hp, ?_⟩)
  exact if_pos rfl

theorem mem_valuesOf {b : β} : b ∈ valuesOf k pairs ↔ (k, b) ∈ pairs := by
  unfold valuesOf
  rw [List.mem_filterMap]
  constructor
  · rintro ⟨⟨k', b'⟩, hp, hb⟩
    split at hb
    next hk =>
      cases hb
      exact hk ▸ hp
    next => cases hb
  · intro hp
    exact ⟨(k, b), hp, if_pos rfl⟩

/-- A group has a value, and all its values were given under its key. -/
theorem of_mem_groups {group : κ × List β} (h : group ∈ groups pairs) :
    group.2 ≠ [] ∧ ∀ x ∈ group.2, (group.1, x) ∈ pairs := by
  obtain ⟨key, hkey, rfl⟩ := List.mem_map.mp h
  exact ⟨valuesOf_ne_nil (List.mem_eraseDups.mp hkey), fun _ hx => mem_valuesOf.mp hx⟩

end Dictionaries

/-! ## Aggregates -/

section Aggregates

def mean (l : List ℚ) : ℚ := l.sum / l.length

/-- The middle of a list in order, or the mean of its two middles. -/
def median (l : List ℚ) : ℚ :=
  let sorted := l.insertionSort (· ≤ ·)
  if l.length % 2 = 1 then sorted.getD (l.length / 2) 0
  else (sorted.getD (l.length / 2 - 1) 0 + sorted.getD (l.length / 2) 0) / 2

theorem insertionSort_perm {l l' : List ℚ} (h : l.Perm l') :
    l.insertionSort (· ≤ ·) = l'.insertionSort (· ≤ ·) :=
  (((l.perm_insertionSort (· ≤ ·)).trans h).trans (l'.perm_insertionSort (· ≤ ·)).symm).eq_of_pairwise
    (fun _ _ _ _ => le_antisymm) (List.pairwise_insertionSort _ l) (List.pairwise_insertionSort _ l')

theorem getD_mem {α : Type} {l : List α} {i : ℕ} {d : α} (h : i < l.length) : l.getD i d ∈ l := by
  rw [List.getD_eq_getElem?_getD, List.getElem?_eq_getElem h]
  exact List.getElem_mem h

/-- An aggregate that sees no order, and lies between the values. -/
structure Aggregate where
  toFun : List ℚ → ℚ
  perm : ∀ {l l' : List ℚ}, l.Perm l' → toFun l = toFun l'
  le_of_forall : ∀ {l : List ℚ} {a : ℚ}, l ≠ [] → (∀ x ∈ l, a ≤ x) → a ≤ toFun l
  ge_of_forall : ∀ {l : List ℚ} {b : ℚ}, l ≠ [] → (∀ x ∈ l, x ≤ b) → toFun l ≤ b

instance : CoeFun Aggregate fun _ => List ℚ → ℚ := ⟨Aggregate.toFun⟩

/-- A middle of a list in order is one of its values. -/
theorem getD_insertionSort_mem {l : List ℚ} {i : ℕ} (h : i < l.length) :
    (l.insertionSort (· ≤ ·)).getD i 0 ∈ l :=
  (l.mem_insertionSort (· ≤ ·)).mp (getD_mem (by rwa [List.length_insertionSort]))

namespace Aggregate

def mean : Aggregate where
  toFun := Lib.mean
  perm h := by unfold Lib.mean; rw [h.sum_eq, h.length_eq]
  le_of_forall hl h := by
    have hsum := List.card_nsmul_le_sum _ _ h
    have hlength := List.length_pos_iff.mpr hl
    unfold Lib.mean
    rw [le_div_iff₀ (by exact_mod_cast hlength)]
    rw [nsmul_eq_mul] at hsum
    linarith
  ge_of_forall hl h := by
    have hsum := List.sum_le_card_nsmul _ _ h
    have hlength := List.length_pos_iff.mpr hl
    unfold Lib.mean
    rw [div_le_iff₀ (by exact_mod_cast hlength)]
    rw [nsmul_eq_mul] at hsum
    linarith

def median : Aggregate where
  toFun := Lib.median
  perm h := by unfold Lib.median; rw [insertionSort_perm h, h.length_eq]
  le_of_forall hl h := by
    have hlength := List.length_pos_iff.mpr hl
    have hmiddle := h _ (getD_insertionSort_mem (Nat.div_lt_self hlength one_lt_two))
    have hbefore := h _ (getD_insertionSort_mem
      (lt_of_le_of_lt (Nat.sub_le _ 1) (Nat.div_lt_self hlength one_lt_two)))
    unfold Lib.median
    dsimp only
    split
    · exact hmiddle
    · linarith
  ge_of_forall hl h := by
    have hlength := List.length_pos_iff.mpr hl
    have hmiddle := h _ (getD_insertionSort_mem (Nat.div_lt_self hlength one_lt_two))
    have hbefore := h _ (getD_insertionSort_mem
      (lt_of_le_of_lt (Nat.sub_le _ 1) (Nat.div_lt_self hlength one_lt_two)))
    unfold Lib.median
    dsimp only
    split
    · exact hmiddle
    · linarith

/-- What holds of the values, and of all between them, holds of their aggregate. -/
theorem mem (f : Aggregate) {S : Set ℚ} (hS : S.OrdConnected) {l : List ℚ} (hl : l ≠ [])
    (h : ∀ x ∈ l, x ∈ S) : f l ∈ S := by
  have hne : l.toFinset.Nonempty := List.toFinset_nonempty_iff l |>.mpr hl
  obtain ⟨a, ha, hmin⟩ := l.toFinset.exists_min_image id hne
  obtain ⟨b, hb, hmax⟩ := l.toFinset.exists_max_image id hne
  rw [List.mem_toFinset] at ha hb
  have hlow : a ≤ f l := f.le_of_forall hl fun x hx => hmin x (List.mem_toFinset.mpr hx)
  have hhigh : f l ≤ b := f.ge_of_forall hl fun x hx => hmax x (List.mem_toFinset.mpr hx)
  exact hS.out (h a ha) (h b hb) ⟨hlow, hhigh⟩

theorem mem_aggregates {κ : Type} [DecidableEq κ] (f : Aggregate) {S : Set ℚ} (hS : S.OrdConnected)
    {pairs : List (κ × ℚ)} (h : ∀ p ∈ pairs, p.2 ∈ S) : ∀ c ∈ aggregates f pairs, c.2 ∈ S := by
  intro c hc
  obtain ⟨group, hgroup, rfl⟩ := List.mem_map.mp hc
  obtain ⟨hne, hin⟩ := of_mem_groups hgroup
  exact f.mem hS hne fun x hx => h _ (hin x hx)

end Aggregate

end Aggregates

/-! ## Resampling -/

section Resampling

/-- A pseudo-random generator, by what its draws of an index below a bound return. -/
structure Generator where
  State : Type
  seed : Int → State
  /-- One element of `choices`. -/
  floor : ℕ → State → ℕ × State
  below : ℕ → State → ℕ × State
  floor_lt : ∀ n s, 0 < n → (floor n s).1 < n
  below_lt : ∀ n s, 0 < n → (below n s).1 < n

/-- `n` draws, one after the other. -/
def times {σ α : Type} (m : σ → α × σ) : ℕ → σ → List α × σ
  | 0, s => ([], s)
  | n + 1, s =>
    let (a, s) := m s
    let (as, s) := times m n s
    (a :: as, s)

theorem times_forall {σ α : Type} {m : σ → α × σ} {p : α → Prop} (h : ∀ s, p (m s).1) (n : ℕ)
    (s : σ) : (times m n s).1.length = n ∧ ∀ a ∈ (times m n s).1, p a := by
  induction n generalizing s with
  | zero => exact ⟨rfl, fun _ h => absurd h List.not_mem_nil⟩
  | succ n ih =>
    obtain ⟨hlength, hall⟩ := ih (m s).2
    exact ⟨congrArg (· + 1) hlength, List.forall_mem_cons.mpr ⟨h s, hall⟩⟩

variable (g : Generator)

def Generator.group (gs : List (List ℚ)) (s : g.State) : List ℚ × g.State :=
  ((gs.getD (g.floor gs.length s).1 []), (g.floor gs.length s).2)

/-- A value among those of a group. -/
def Generator.value (values : List ℚ) (s : g.State) : ℚ × g.State :=
  (values.getD (g.below values.length s).1 0, (g.below values.length s).2)

def Generator.values : List (List ℚ) → g.State → List ℚ × g.State
  | [], s => ([], s)
  | group :: gs, s =>
    let (xs, s) := times (g.value group) group.length s
    let (ys, s) := Generator.values gs s
    (xs ++ ys, s)

/-- The aggregate of a resample: as many groups as there are, and their values. -/
def Generator.estimate (f : Aggregate) (gs : List (List ℚ)) (s : g.State) : ℚ × g.State :=
  let (chosen, s) := times (g.group gs) gs.length s
  let (xs, s) := g.values chosen s
  (f xs, s)

def Generator.resamples (f : Aggregate) (gs : List (List ℚ)) (count : ℕ) (seed : Int) : List ℚ :=
  (times (g.estimate f gs) count (g.seed seed)).1.insertionSort (· ≤ ·)

variable {g} {gs : List (List ℚ)} {f : Aggregate} {v : ℚ}

theorem Generator.group_mem (hgs : gs ≠ []) (s : g.State) : (g.group gs s).1 ∈ gs :=
  getD_mem (g.floor_lt gs.length s (List.length_pos_iff.mpr hgs))

theorem Generator.value_mem {values : List ℚ} (h : values ≠ []) (s : g.State) :
    (g.value values s).1 ∈ values :=
  getD_mem (g.below_lt values.length s (List.length_pos_iff.mpr h))

theorem Generator.values_forall {p : ℚ → Prop} {chosen : List (List ℚ)}
    (h : ∀ group ∈ chosen, ∀ s, p (g.value group s).1) (s : g.State) :
    (g.values chosen s).1.length = (chosen.map List.length).sum ∧
      ∀ x ∈ (g.values chosen s).1, p x := by
  induction chosen generalizing s with
  | nil => exact ⟨rfl, fun _ h => absurd h List.not_mem_nil⟩
  | cons group chosen ih =>
    obtain ⟨hgroup, hrest⟩ := List.forall_mem_cons.mp h
    obtain ⟨hlength, hall⟩ := times_forall hgroup group.length s
    obtain ⟨hlength', hall'⟩ := ih hrest (times (g.value group) group.length s).2
    refine ⟨?_, ?_⟩
    · show ((times (g.value group) group.length s).1 ++ _).length = _
      rw [List.length_append, hlength, hlength']
      rfl
    · intro x hx
      rcases List.mem_append.mp hx with hx | hx
      · exact hall x hx
      · exact hall' x hx

/-- When every group drawn yields only values of a set without gaps, so does every estimate. -/
theorem Generator.estimate_mem {S : Set ℚ} (hS : S.OrdConnected) (hgs : gs ≠ [])
    (h : ∀ s, (g.group gs s).1 ≠ [] ∧ ∀ s', (g.value (g.group gs s).1 s').1 ∈ S) (s : g.State) :
    (g.estimate f gs s).1 ∈ S := by
  obtain ⟨hlength, hall⟩ := times_forall
    (p := fun group => group ≠ [] ∧ ∀ s', (g.value group s').1 ∈ S) h gs.length s
  obtain ⟨hlength', hall'⟩ := Generator.values_forall (p := (· ∈ S))
    (fun group hgroup => (hall group hgroup).2) (times (g.group gs) gs.length s).2
  refine f.mem hS ?_ hall'
  -- as many values as the groups have, and there is a group
  obtain ⟨group, hgroup⟩ := List.exists_mem_of_length_pos (l := (times (g.group gs) gs.length s).1)
    (by rw [hlength]; exact List.length_pos_iff.mpr hgs)
  intro hnil
  rw [hnil, List.length_nil] at hlength'
  have hzero := List.sum_eq_zero_iff.mp hlength'.symm _ (List.mem_map_of_mem hgroup)
  exact (hall group hgroup).1 (List.length_eq_zero_iff.mp hzero)

theorem Generator.resamples_forall {S : Set ℚ} (hS : S.OrdConnected) (hgs : gs ≠ [])
    (h : ∀ s, (g.group gs s).1 ≠ [] ∧ ∀ s', (g.value (g.group gs s).1 s').1 ∈ S) (count : ℕ)
    (seed : Int) : (g.resamples f gs count seed).length = count ∧
      ∀ x ∈ g.resamples f gs count seed, x ∈ S := by
  obtain ⟨hlength, hall⟩ := times_forall (m := g.estimate f gs) (p := (· ∈ S))
    (Generator.estimate_mem hS hgs h) count (g.seed seed)
  unfold Generator.resamples
  refine ⟨by rw [List.length_insertionSort, hlength], fun x hx => hall x ?_⟩
  exact (List.mem_insertionSort _).mp hx

/-- The aggregates of resamples lie where the values do. -/
theorem Generator.resamples_of_mem {S : Set ℚ} (hS : S.OrdConnected) (hgs : gs ≠ [])
    (hne : ∀ group ∈ gs, group ≠ []) (hall : ∀ group ∈ gs, ∀ x ∈ group, x ∈ S) (count : ℕ)
    (seed : Int) : (g.resamples f gs count seed).length = count ∧
      ∀ x ∈ g.resamples f gs count seed, x ∈ S := by
  refine Generator.resamples_forall hS hgs (fun s => ?_) count seed
  have hmem := Generator.group_mem hgs s
  exact ⟨hne _ hmem, fun s' => hall _ hmem _ (Generator.value_mem (hne _ hmem) s')⟩

/-- The generator that always draws the first index. -/
def Generator.first : Generator where
  State := Unit
  seed _ := ()
  floor _ s := (0, s)
  below _ s := (0, s)
  floor_lt _ _ h := h
  below_lt _ _ h := h

theorem Generator.resamples_first {group : List ℚ} (count : ℕ) (seed : Int) :
    (Generator.first.resamples f ((v :: group) :: gs) count seed).length = count ∧
      ∀ x ∈ Generator.first.resamples f ((v :: group) :: gs) count seed, x = v := by
  refine Generator.resamples_forall Set.ordConnected_singleton (List.cons_ne_nil _ _)
    (fun s => ?_) count seed
  have hgroup : (Generator.first.group ((v :: group) :: gs) s).1 = v :: group := rfl
  rw [hgroup]
  exact ⟨List.cons_ne_nil _ _, fun _ => rfl⟩

end Resampling

end AeepRouter.Lib
