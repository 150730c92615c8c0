import AeepRouter.Lib.Retention
import Mathlib.Order.Defs.LinearOrder

/-!
# The highest row of each key

Rows of one key agree in what is `stable` of them and differ in their rank. `Keeps` says that some
rows are, of others, one of a highest rank for each key. It composes (`Keeps.append`, `Keeps.trans`),
and what is kept depends on the set of the rows alone (`Keeps.mem_iff`).
-/

namespace AeepRouter.Lib

variable {α κ β ρ : Type} [LinearOrder ρ] {key : α → κ} {stable : α → β} {rank : α → ρ}

structure Keeps (key : α → κ) (stable : α → β) (rank : α → ρ) (rows kept : List α) : Prop where
  mem : ∀ x ∈ kept, x ∈ rows
  covers : ∀ x ∈ rows, ∃ y ∈ kept, key y = key x ∧ stable y = stable x ∧ rank x ≤ rank y

/-- Two rows of one key do not agree. -/
def Clashes (key : α → κ) (stable : α → β) (rows : List α) : Prop :=
  ∃ x ∈ rows, ∃ y ∈ rows, key x = key y ∧ stable x ≠ stable y

namespace Keeps

variable {rows rows' kept kept' : List α} {x y : α}

theorem refl : Keeps key stable rank rows rows :=
  ⟨fun _ hx => hx, fun x hx => ⟨x, hx, rfl, rfl, le_rfl⟩⟩

theorem trans (h : Keeps key stable rank rows kept) (h' : Keeps key stable rank kept kept') :
    Keeps key stable rank rows kept' where
  mem x hx := h.mem x (h'.mem x hx)
  covers x hx := by
    obtain ⟨y, hy, hkey, hstable, hrank⟩ := h.covers x hx
    obtain ⟨z, hz, hkey', hstable', hrank'⟩ := h'.covers y hy
    exact ⟨z, hz, hkey'.trans hkey, hstable'.trans hstable, hrank.trans hrank'⟩

theorem append (h : Keeps key stable rank rows kept) (h' : Keeps key stable rank rows' kept') :
    Keeps key stable rank (rows ++ rows') (kept ++ kept') where
  mem x hx := List.mem_append.mpr ((List.mem_append.mp hx).imp (h.mem x) (h'.mem x))
  covers x hx := by
    rcases List.mem_append.mp hx with hx | hx
    · obtain ⟨y, hy, hsame⟩ := h.covers x hx
      exact ⟨y, List.mem_append_left _ hy, hsame⟩
    · obtain ⟨y, hy, hsame⟩ := h'.covers x hx
      exact ⟨y, List.mem_append_right _ hy, hsame⟩

theorem of_mem_iff (h : Keeps key stable rank rows kept) (hmem : ∀ x, x ∈ rows ↔ x ∈ rows')
    (hmem' : ∀ x, x ∈ kept ↔ x ∈ kept') : Keeps key stable rank rows' kept' where
  mem x hx := (hmem x).mp (h.mem x ((hmem' x).mpr hx))
  covers x hx := by
    obtain ⟨y, hy, hsame⟩ := h.covers x ((hmem x).mpr hx)
    exact ⟨y, (hmem' y).mp hy, hsame⟩

theorem clashes_iff (h : Keeps key stable rank rows kept) :
    Clashes key stable kept ↔ Clashes key stable rows := by
  constructor
  · rintro ⟨x, hx, y, hy, hclash⟩
    exact ⟨x, h.mem x hx, y, h.mem y hy, hclash⟩
  · rintro ⟨x, hx, y, hy, hkey, hne⟩
    obtain ⟨x', hx', hkey', hstable, -⟩ := h.covers x hx
    obtain ⟨y', hy', hkey'', hstable', -⟩ := h.covers y hy
    refine ⟨x', hx', y', hy', hkey'.trans (hkey.trans hkey''.symm), ?_⟩
    rwa [hstable, hstable']

theorem mem_iff (h : Keeps key stable rank rows kept) (h' : Keeps key stable rank rows' kept')
    (hrows : ∀ x, x ∈ rows ↔ x ∈ rows')
    (hunique : ∀ x ∈ kept, ∀ y ∈ kept, key x = key y → x = y)
    (hunique' : ∀ x ∈ kept', ∀ y ∈ kept', key x = key y → x = y)
    (hinjective : ∀ x ∈ rows, ∀ y ∈ rows, key x = key y → stable x = stable y → rank x = rank y →
      x = y) : x ∈ kept ↔ x ∈ kept' := by
  have hway {l m k k' : List α} (hk : Keeps key stable rank l k) (hk' : Keeps key stable rank m k')
      (hsame : ∀ x, x ∈ l ↔ x ∈ m) (hone : ∀ x ∈ k, ∀ y ∈ k, key x = key y → x = y)
      (hinj : ∀ x ∈ l, ∀ y ∈ l, key x = key y → stable x = stable y → rank x = rank y → x = y)
      (hx : x ∈ k) : x ∈ k' := by
    obtain ⟨y, hy, hkey, hstable, hrank⟩ := hk'.covers x ((hsame x).mp (hk.mem x hx))
    have hyrow : y ∈ l := (hsame y).mpr (hk'.mem y hy)
    obtain ⟨z, hz, hkey', -, hrank'⟩ := hk.covers y hyrow
    obtain rfl : z = x := hone z hz x hx (hkey'.trans hkey)
    rwa [hinj z (hk.mem z hx) y hyrow hkey.symm hstable.symm (le_antisymm hrank hrank')]
  refine ⟨hway h h' hrows hunique hinjective,
    hway h' h (fun x => (hrows x).symm) hunique' fun x hx y hy => ?_⟩
  exact hinjective x ((hrows x).mpr hx) y ((hrows y).mpr hy)

section Table

variable [DecidableEq κ] {t : Table α key}

omit [DecidableEq κ] in
theorem nil : Keeps key stable rank [] (∅ : Table α key).rows :=
  ⟨fun _ h => h, fun _ h => absurd h List.not_mem_nil⟩

theorem insert (h : Keeps key stable rank rows t.rows) (hnew : t.find? (key x) = none) :
    Keeps key stable rank (rows ++ [x]) (t.insert x).rows := by
  rw [Table.insert_rows hnew]
  exact h.append .refl

theorem assign (h : Keeps key stable rank rows t.rows) (hfound : t.find? (key x) = some y)
    (hstable : stable y = stable x) (hrank : rank y ≤ rank x) :
    Keeps key stable rank (rows ++ [x]) (t.assign x).rows where
  mem z hz := by
    rcases Table.mem_or_eq_of_mem_assign hz with hold | rfl
    · exact List.mem_append_left _ (h.mem z hold)
    · exact List.mem_append_right _ (List.mem_singleton_self _)
  covers z hz := by
    have hself : x ∈ (t.assign x).rows :=
      Table.mem_of_find? (k := key x) (by rw [Table.find?_assign, if_pos rfl])
    rcases List.mem_append.mp hz with hz | hz
    · obtain ⟨w, hw, hkey, hsame, hle⟩ := h.covers z hz
      by_cases hx : key w = key x
      · have hw' := Table.find?_of_mem (t := t) hw
        rw [hx, hfound, Option.some_inj] at hw'
        subst hw'
        exact ⟨x, hself, hx.symm.trans hkey, hstable.symm.trans hsame, hle.trans hrank⟩
      · refine ⟨w, Table.mem_of_find? (k := key w) ?_, hkey, hsame, hle⟩
        rw [Table.find?_assign, if_neg hx]
        exact Table.find?_of_mem hw
    · rw [List.mem_singleton.mp hz]
      exact ⟨x, hself, rfl, rfl, le_rfl⟩

theorem stay (h : Keeps key stable rank rows t.rows) (hfound : t.find? (key x) = some y)
    (hstable : stable y = stable x) (hrank : rank x ≤ rank y) :
    Keeps key stable rank (rows ++ [x]) t.rows where
  mem z hz := List.mem_append_left _ (h.mem z hz)
  covers z hz := by
    rcases List.mem_append.mp hz with hz | hz
    · exact h.covers z hz
    · rw [List.mem_singleton.mp hz]
      exact ⟨y, Table.mem_of_find? hfound, Table.key_of_find? hfound, hstable, hrank⟩

theorem clashes_concat (h : Keeps key stable rank rows t.rows) (hrows : ¬ Clashes key stable rows) :
    Clashes key stable (rows ++ [x]) ↔ ∃ y, t.find? (key x) = some y ∧ stable y ≠ stable x := by
  have hkept : Clashes key stable (t.rows ++ [x]) ↔ Clashes key stable (rows ++ [x]) :=
    (h.append .refl).clashes_iff
  rw [← hkept]
  have hnone : ¬ Clashes key stable t.rows := mt h.clashes_iff.mp hrows
  constructor
  · rintro ⟨y, hy, z, hz, hkey, hne⟩
    rcases List.mem_append.mp hy with hy | hy <;> rcases List.mem_append.mp hz with hz | hz
    · exact absurd ⟨y, hy, z, hz, hkey, hne⟩ hnone
    · rw [List.mem_singleton.mp hz] at hkey hne
      exact ⟨y, hkey ▸ Table.find?_of_mem hy, hne⟩
    · rw [List.mem_singleton.mp hy] at hkey hne
      exact ⟨z, hkey ▸ Table.find?_of_mem hz, hne.symm⟩
    · rw [List.mem_singleton.mp hy, List.mem_singleton.mp hz] at hne
      exact absurd rfl hne
  · rintro ⟨y, hfound, hne⟩
    exact ⟨y, List.mem_append_left _ (Table.mem_of_find? hfound), x,
      List.mem_append_right _ (List.mem_singleton_self _), Table.key_of_find? hfound, hne⟩

end Table

end Keeps

end AeepRouter.Lib
