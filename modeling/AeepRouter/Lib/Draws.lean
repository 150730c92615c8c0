import AeepRouter.Lib.Resample

/-!
# Resamples of recorded draws

The resamples of a generator that takes its groups from a record of indices, whatever it takes inside
a group: where the values of each group are equal, the aggregates are those of the groups drawn
(`resamples_recorded`). How many medians of such resamples are as low as the lowest value is then a
count over the record.
-/

namespace AeepRouter.Lib

/-! ## Order statistics -/

section Statistics

variable {l : List ℚ} {v : ℚ}

theorem getD_le_iff {i : ℕ} (hsorted : l.Pairwise (· ≤ ·)) (hi : i < l.length) :
    l.getD i 0 ≤ v ↔ i < l.countP (· ≤ v) := by
  induction l generalizing i with
  | nil => exact absurd hi (Nat.not_lt_zero _)
  | cons a l ih =>
    obtain ⟨hle, hrest⟩ := List.pairwise_cons.mp hsorted
    by_cases ha : a ≤ v
    · rw [List.countP_cons_of_pos (by simpa using ha)]
      cases i with
      | zero => simpa using ha
      | succ i =>
        rw [List.getD_cons_succ, ih hrest (Nat.lt_of_succ_lt_succ hi)]
        omega
    · -- the values after one above `v` are above it
      have hnone : (a :: l).countP (· ≤ v) = 0 := by
        rw [List.countP_eq_zero]
        intro x hx
        rcases List.mem_cons.mp hx with rfl | hx
        · simpa using ha
        · simpa using lt_of_lt_of_le (not_le.mp ha) (hle x hx)
      rw [hnone]
      refine iff_of_false (fun h => ha ?_) (Nat.not_lt_zero _)
      rcases List.mem_cons.mp (getD_mem hi : (a :: l).getD i 0 ∈ a :: l) with heq | hmem
      · exact heq ▸ h
      · exact (hle _ hmem).trans h

theorem getD_insertionSort_le_iff {i : ℕ} (hi : i < l.length) :
    (l.insertionSort (· ≤ ·)).getD i 0 ≤ v ↔ i < l.countP (· ≤ v) := by
  rw [getD_le_iff (List.pairwise_insertionSort _ l) (by rwa [List.length_insertionSort]),
    (l.perm_insertionSort (· ≤ ·)).countP_eq]

/-- A median is the lowest value exactly when more than half of the values are. -/
theorem median_le_iff (hne : l ≠ []) (hlow : ∀ x ∈ l, v ≤ x) :
    median l ≤ v ↔ l.length < 2 * l.countP (· ≤ v) := by
  have hlength := List.length_pos_iff.mpr hne
  have hmiddle := getD_insertionSort_le_iff (v := v) (Nat.div_lt_self hlength one_lt_two)
  unfold median
  dsimp only
  split
  · rw [hmiddle]
    omega
  · have hbefore : l.length / 2 - 1 < l.length :=
      (Nat.sub_le _ 1).trans_lt (Nat.div_lt_self hlength one_lt_two)
    have hle : (l.insertionSort (· ≤ ·)).getD (l.length / 2) 0 ≤ v →
        (l.insertionSort (· ≤ ·)).getD (l.length / 2 - 1) 0 ≤ v := fun h =>
      (getD_insertionSort_le_iff hbefore).mpr ((Nat.sub_le _ 1).trans_lt (hmiddle.mp h))
    have hge := hlow _ (getD_insertionSort_mem hbefore)
    rw [show l.length < 2 * l.countP (· ≤ v) ↔ l.length / 2 < l.countP (· ≤ v) by omega, ← hmiddle]
    constructor
    · intro h
      linarith
    · intro h
      linarith [hle h]

end Statistics

/-! ## Records -/

section Records

/-- A generator that draws the groups of a record, in order, and any values inside them. -/
abbrev Generator.recorded (draws : ℕ → ℕ) (within : ℕ → ℕ → ℕ) : Generator where
  State := ℕ
  seed _ := 0
  floor n s := (draws s % n, s + 1)
  below n s := (within n s % n, s)
  floor_lt _ _ h := Nat.mod_lt _ h
  below_lt _ _ h := Nat.mod_lt _ h

variable {draws : ℕ → ℕ} {within : ℕ → ℕ → ℕ} {gs : List (List ℚ)} {f : Aggregate}

/-- The groups that are drawn from a position on. -/
def drawn (draws : ℕ → ℕ) (gs : List (List ℚ)) (s n : ℕ) : List (List ℚ) :=
  (List.range n).map fun j => gs.getD (draws (s + j) % gs.length) []

theorem times_recorded {α : Type} {m : ℕ → α × ℕ} {k : ℕ} (h : ∀ s, (m s).2 = s + k) (n s : ℕ) :
    times m n s = ((List.range n).map fun j => (m (s + k * j)).1, s + k * n) := by
  induction n generalizing s with
  | zero => rfl
  | succ n ih =>
    have hcons : times m (n + 1) s = ((m s).1 :: (times m n (m s).2).1, (times m n (m s).2).2) := rfl
    rw [hcons, h, ih, List.range_succ_eq_map, List.map_cons, List.map_map]
    refine Prod.ext (congrArg₂ _ rfl (List.map_congr_left fun j _ => ?_)) ?_
    · simp only [Function.comp, Nat.succ_eq_add_one]
      rw [show s + k + k * j = s + k * (j + 1) by ring]
    · show s + k + k * n = s + k * (n + 1)
      ring

/-- The values of a group are equal. -/
def Uniform (group : List ℚ) : Prop := ∀ x ∈ group, group = List.replicate group.length x

theorem uniform_replicate (n : ℕ) (x : ℚ) : Uniform (List.replicate n x) := by
  intro y hy
  rw [List.length_replicate, List.eq_of_mem_replicate hy]

theorem values_recorded {chosen : List (List ℚ)} (h : ∀ group ∈ chosen, Uniform group) (s : ℕ) :
    (Generator.recorded draws within).values chosen s = (chosen.flatten, s) := by
  induction chosen with
  | nil => rfl
  | cons group chosen ih =>
    obtain ⟨hgroup, hrest⟩ := List.forall_mem_cons.mp h
    have hdraws : times ((Generator.recorded draws within).value group) group.length s =
        (group, s) := by
      rw [times_recorded (k := 0) (fun _ => rfl)]
      refine Prod.ext ?_ (by simp)
      cases group with
      | nil => rfl
      | cons v values =>
        have hall := hgroup v List.mem_cons_self
        have hequal : ∀ y ∈ v :: values, y = v := fun y hy => by
          rw [hall] at hy
          exact List.eq_of_mem_replicate hy
        conv_rhs => rw [hall]
        refine List.eq_replicate_iff.mpr ⟨by simp, fun x hx => ?_⟩
        obtain ⟨j, -, rfl⟩ := List.mem_map.mp hx
        exact hequal _ (Generator.value_mem (g := Generator.recorded draws within)
          (List.cons_ne_nil v values) (s + 0 * j))
    have hcons : (Generator.recorded draws within).values (group :: chosen) s =
        ((times ((Generator.recorded draws within).value group) group.length s).1 ++
          ((Generator.recorded draws within).values chosen
            (times ((Generator.recorded draws within).value group) group.length s).2).1,
          ((Generator.recorded draws within).values chosen
            (times ((Generator.recorded draws within).value group) group.length s).2).2) := rfl
    rw [hcons, hdraws, ih hrest]
    rfl

theorem resamples_recorded (h : ∀ group ∈ gs, Uniform group) (count : ℕ) (seed : Int) :
    (Generator.recorded draws within).resamples f gs count seed =
      ((List.range count).map fun r =>
        f (drawn draws gs (gs.length * r) gs.length).flatten).insertionSort (· ≤ ·) := by
  have huniform : ∀ s, ∀ group ∈ drawn draws gs s gs.length, Uniform group := by
    intro s group hgroup
    obtain ⟨j, hj, rfl⟩ := List.mem_map.mp hgroup
    exact h _ (getD_mem (Nat.mod_lt _ ((Nat.zero_le _).trans_lt (List.mem_range.mp hj))))
  have hestimate : ∀ s, (Generator.recorded draws within).estimate f gs s =
      (f (drawn draws gs s gs.length).flatten, s + gs.length) := by
    intro s
    have hgroups : times ((Generator.recorded draws within).group gs) gs.length s =
        (drawn draws gs s gs.length, s + gs.length) := by
      rw [times_recorded (k := 1) (fun _ => rfl)]
      simp only [one_mul]
      rfl
    unfold Generator.estimate
    rw [hgroups]
    dsimp only
    rw [values_recorded (huniform s)]
  unfold Generator.resamples
  have hrows := times_recorded (m := (Generator.recorded draws within).estimate f gs)
    (fun s => congrArg Prod.snd (hestimate s)) count 0
  rw [show (Generator.recorded draws within).seed seed = (0 : ℕ) from rfl, hrows]
  simp only [hestimate, zero_add]

/-- Whether more than half of the values drawn from a position on are low, by how many values and how
many low ones the groups have. -/
def lowMajority (draws : ℕ → ℕ) (sizes : List (ℕ × ℕ)) (s : ℕ) : Bool :=
  let chosen := (List.range sizes.length).map fun j =>
    sizes.getD (draws (s + j) % sizes.length) (0, 0)
  (chosen.map (·.1)).sum < 2 * (chosen.map (·.2)).sum

/-- The bound of recorded resamples is the lowest value exactly when enough of their medians are. -/
theorem getD_resamples_recorded {v : ℚ} {i count : ℕ} (hi : i < count) (hgs : gs ≠ [])
    (huniform : ∀ group ∈ gs, Uniform group) (hlow : ∀ group ∈ gs, group ≠ [] ∧ ∀ x ∈ group, v ≤ x)
    (seed : Int) :
    ((Generator.recorded draws within).resamples .median gs count seed).getD i 0 ≤ v ↔
      i < (List.range count).countP fun r => lowMajority draws
        (gs.map fun group => (group.length, group.countP (· ≤ v))) (gs.length * r) := by
  rw [resamples_recorded huniform, getD_insertionSort_le_iff (by simpa using hi), List.countP_map]
  refine iff_of_eq (congrArg (i < ·) (List.countP_congr fun r _ => ?_))
  have hlength := List.length_pos_iff.mpr hgs
  have hdrawn : ∀ group ∈ drawn draws gs (gs.length * r) gs.length, group ∈ gs := by
    intro group hgroup
    obtain ⟨j, -, rfl⟩ := List.mem_map.mp hgroup
    exact getD_mem (Nat.mod_lt _ hlength)
  have hne : (drawn draws gs (gs.length * r) gs.length).flatten ≠ [] := by
    obtain ⟨group, hgroup⟩ := List.exists_mem_of_length_pos
      (show 0 < (drawn draws gs (gs.length * r) gs.length).length by simpa [drawn] using hlength)
    intro hnil
    exact (hlow group (hdrawn group hgroup)).1 (List.flatten_eq_nil_iff.mp hnil group hgroup)
  have hmedian := median_le_iff hne fun x hx => by
    obtain ⟨group, hgroup, hmem⟩ := List.mem_flatten.mp hx
    exact (hlow group (hdrawn group hgroup)).2 x hmem
  have hsizes : ∀ k, (gs.map fun group => (group.length, group.countP (· ≤ v))).getD k (0, 0) =
      ((gs.getD k []).length, (gs.getD k []).countP (· ≤ v)) := by
    intro k
    rw [List.getD_eq_getElem?_getD, List.getD_eq_getElem?_getD, List.getElem?_map]
    cases gs[k]? <;> rfl
  simp only [Function.comp, decide_eq_true_eq]
  rw [show Aggregate.median _ = median _ from rfl, hmedian, List.length_flatten,
    List.countP_flatten]
  simp only [lowMajority, List.length_map, hsizes, List.map_map, drawn, Function.comp_def,
    decide_eq_true_eq]

end Records

end AeepRouter.Lib
