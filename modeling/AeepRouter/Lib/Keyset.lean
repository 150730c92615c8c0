import Mathlib.Data.List.Sort
import Mathlib.Data.Prod.Lex
import Mathlib.Tactic

/-!
# Scans by pages

`join` and `leftJoin` are the joins of a query over equal columns; over a unique column they give a
row at most once (`join_sublist`, `leftJoin_sublist`).

`scan` reads rows by pages in the order of their keys, each page after the last key of the one
before, and collects what it finds until a limit is reached. Where the keys are distinct it is one
pass over the sorted rows (`scan_eq_take`): no row is lost or read twice between two pages.
-/

namespace AeepRouter.Lib

/-! ## Joins -/

section Joins

variable {α β κ : Type} [DecidableEq κ]

def join (f : α → κ) (key : β → κ) (l : List α) (r : List β) : List (α × β) :=
  l.flatMap fun a => (r.filter (key · = f a)).map fun b => (a, b)

def leftJoin (f : α → κ) (key : β → κ) (l : List α) (r : List β) : List (α × Option β) :=
  l.flatMap fun a =>
    match r.filter (key · = f a) with
    | [] => [(a, none)]
    | matched => matched.map fun b => (a, some b)

variable {f : α → κ} {key : β → κ} {l : List α} {r : List β}

/-- A unique column has a value once. -/
theorem length_filter_key_le_one (h : (r.map key).Nodup) (k : κ) :
    (r.filter (key · = k)).length ≤ 1 := by
  have hall : ∀ k' ∈ (r.filter (key · = k)).map key, k' = k := by
    intro k' hk'
    obtain ⟨b, hb, rfl⟩ := List.mem_map.mp hk'
    exact of_decide_eq_true (List.mem_filter.mp hb).2
  have hnodup : ((r.filter (key · = k)).map key).Nodup := h.sublist (List.filter_sublist.map key)
  rw [← List.length_map (f := key)]
  have hreplicate := List.eq_replicate_of_mem hall
  rw [hreplicate] at hnodup
  exact List.nodup_replicate.mp hnodup

theorem join_sublist (h : (r.map key).Nodup) : ((join f key l r).map Prod.fst).Sublist l := by
  induction l with
  | nil => exact .slnil
  | cons a l ih =>
    have hone := length_filter_key_le_one h (f a)
    rw [join, List.flatMap_cons, List.map_append]
    cases hmatched : r.filter (key · = f a) with
    | nil => exact ih.cons a
    | cons b rest =>
      rw [hmatched, List.length_cons] at hone
      obtain rfl : rest = [] := List.length_eq_zero_iff.mp (by omega)
      exact ih.cons_cons a

theorem leftJoin_sublist (h : (r.map key).Nodup) : ((leftJoin f key l r).map Prod.fst).Sublist l := by
  induction l with
  | nil => exact .slnil
  | cons a l ih =>
    have hone := length_filter_key_le_one h (f a)
    rw [leftJoin, List.flatMap_cons, List.map_append]
    cases hmatched : r.filter (key · = f a) with
    | nil => exact ih.cons_cons a
    | cons b rest =>
      rw [hmatched, List.length_cons] at hone
      obtain rfl : rest = [] := List.length_eq_zero_iff.mp (by omega)
      exact ih.cons_cons a

end Joins

/-! ## Pages -/

section Scan

variable {α β κ : Type} [LinearOrder κ] (key : α → κ) (rows : List α)

def remaining (cursor : Option κ) : List α := rows.filter fun row => ∀ k ∈ cursor, k < key row

/-- The rows after a key, in the order of their keys. -/
def upcoming (cursor : Option κ) : List α :=
  (remaining key rows cursor).insertionSort fun a b => key a ≤ key b

/-- `ORDER BY key LIMIT size`. -/
def page (size : ℕ) (cursor : Option κ) : List α := (upcoming key rows cursor).take size

/-- The loop over the rows of a page: what it finds is added until the limit is reached. -/
def collect (found : α → Option β) (limit : ℕ) : List β → List α → List β
  | results, [] => results
  | results, row :: more =>
    match found row with
    | none => collect found limit results more
    | some result =>
      if (results ++ [result]).length = limit then results ++ [result]
      else collect found limit (results ++ [result]) more

theorem mem_upcoming {cursor : Option κ} {row : α} :
    row ∈ upcoming key rows cursor ↔ row ∈ rows ∧ ∀ k ∈ cursor, k < key row := by
  rw [upcoming, List.mem_insertionSort, remaining, List.mem_filter, decide_eq_true_eq]

theorem remaining_lt {cursor : Option κ} {row : α} (h : row ∈ upcoming key rows cursor) :
    (remaining key rows (some (key row))).length < (remaining key rows cursor).length := by
  obtain ⟨hmem, hafter⟩ := (mem_upcoming key rows).mp h
  have hsub : remaining key rows (some (key row)) =
      (remaining key rows cursor).filter fun other => key row < key other := by
    rw [remaining, remaining, List.filter_filter]
    refine List.filter_congr fun other _ => ?_
    simp only [Option.mem_some, forall_eq', ← Bool.decide_and, decide_eq_decide]
    exact ⟨fun hlt => ⟨hlt, fun k hk => (hafter k hk).trans hlt⟩, And.left⟩
  rw [hsub, List.length_filter_lt_length_iff_exists]
  exact ⟨row, List.mem_filter.mpr ⟨hmem, decide_eq_true hafter⟩, by simp⟩

/-- The loop over the pages. -/
def scan (size : ℕ) (found : α → Option β) (limit : ℕ) (cursor : Option κ) (results : List β) :
    List β :=
  if results.length < limit then
    match _hpage : page key rows size cursor with
    | [] => results
    | row :: more =>
      scan size found limit (some (key ((row :: more).getLast (List.cons_ne_nil row more))))
        (collect found limit results (row :: more))
  else results
termination_by (remaining key rows cursor).length
decreasing_by
  refine remaining_lt key rows (List.mem_of_mem_take (i := size) ?_)
  rw [← page, _hpage]
  exact List.getLast_mem _

section Distinct

variable {key rows} {found : α → Option β} {size limit : ℕ} {cursor : Option κ} {results : List β}

/-- The order of the keys is the only one when they are distinct. -/
theorem upcoming_pairwise (hkeys : (rows.map key).Nodup) (cursor : Option κ) :
    (upcoming key rows cursor).Pairwise fun a b => key a < key b := by
  have : Std.Total fun a b => key a ≤ key b := ⟨fun a b => le_total _ _⟩
  have : IsTrans α fun a b => key a ≤ key b := ⟨fun _ _ _ => le_trans⟩
  have hperm := List.perm_insertionSort (fun a b => key a ≤ key b) (remaining key rows cursor)
  have hremaining : ((remaining key rows cursor).map key).Nodup :=
    hkeys.sublist (List.filter_sublist.map key)
  have hnodup : ((upcoming key rows cursor).map key).Nodup :=
    (hperm.map key).nodup_iff.mpr hremaining
  have hsorted := List.pairwise_insertionSort (fun a b => key a ≤ key b) (remaining key rows cursor)
  rw [List.Nodup, List.pairwise_map] at hnodup
  exact hsorted.imp₂ (fun _ _ hle hne => lt_of_le_of_ne hle hne) hnodup

theorem key_le_getLast {l : List α} (hl : l ≠ []) (hsorted : l.Pairwise fun a b => key a < key b)
    {row : α} (h : row ∈ l) : key row ≤ key (l.getLast hl) := by
  rw [← List.dropLast_append_getLast hl] at hsorted h
  rcases List.mem_append.mp h with hinit | hlast
  · exact ((List.pairwise_append.mp hsorted).2.2 row hinit _ (List.mem_singleton_self _)).le
  · rw [List.mem_singleton.mp hlast]

theorem upcoming_getLast (hkeys : (rows.map key).Nodup) {row : α} {more : List α}
    (hpage : page key rows size cursor = row :: more) :
    upcoming key rows (some (key ((row :: more).getLast (List.cons_ne_nil row more)))) =
      (upcoming key rows cursor).drop size := by
  have hsorted := upcoming_pairwise hkeys cursor
  rw [← List.take_append_drop size (upcoming key rows cursor), ← page, hpage,
    List.pairwise_append] at hsorted
  obtain ⟨hfirst, hrest, hacross⟩ := hsorted
  have hlast := List.getLast_mem (List.cons_ne_nil row more)
  have hmem (other : α) : other ∈ upcoming key rows cursor ↔
      other ∈ row :: more ∨ other ∈ (upcoming key rows cursor).drop size := by
    rw [← List.mem_append, ← hpage, page, List.take_append_drop]
  have hafter := ((mem_upcoming key rows).mp ((hmem _).mpr (.inl hlast))).2
  have : Std.Antisymm fun a b => key a < key b := ⟨fun _ _ h h' => absurd h' h.not_gt⟩
  have : Std.Irrefl fun a b => key a < key b := ⟨fun _ => lt_irrefl _⟩
  refine (upcoming_pairwise hkeys _).eq_of_mem_iff hrest fun other => ?_
  rw [mem_upcoming]
  simp only [Option.mem_some, forall_eq']
  constructor
  · rintro ⟨hother, hlt⟩
    have hupcoming := (mem_upcoming key rows).mpr
      ⟨hother, fun k hk => (hafter k hk).trans hlt⟩
    refine ((hmem other).mp hupcoming).resolve_left fun hpaged => ?_
    exact (key_le_getLast (List.cons_ne_nil row more) hfirst hpaged).not_gt hlt
  · intro hdrop
    exact ⟨((mem_upcoming key rows).mp ((hmem other).mpr (.inr hdrop))).1, hacross _ hlast _ hdrop⟩

theorem collect_eq (hroom : results.length < limit) (l : List α) :
    collect found limit results l = results ++ (l.filterMap found).take (limit - results.length) := by
  induction l generalizing results with
  | nil => simp [collect]
  | cons row l ih =>
    rw [collect]
    cases hfound : found row with
    | none => rw [ih hroom, List.filterMap_cons_none hfound]
    | some result =>
      have hone : limit - results.length = limit - (results ++ [result]).length + 1 := by
        rw [List.length_append, List.length_singleton]
        omega
      rw [List.filterMap_cons_some hfound, hone, List.take_succ_cons]
      dsimp only
      split
      · next hfull => simp [hfull]
      · next hfull =>
        rw [ih (by rw [List.length_append, List.length_singleton] at hfull ⊢; omega), List.append_assoc,
          List.singleton_append]

/-- The pages find what one pass over the rows that are left finds. -/
theorem scan_eq (hkeys : (rows.map key).Nodup) (hsize : 0 < size) (hlimit : results.length ≤ limit) :
    scan key rows size found limit cursor results = results ++
      ((upcoming key rows cursor).filterMap found).take (limit - results.length) := by
  induction cursor, results using scan.induct key rows size found limit with
  | case1 cursor results hroom hpage =>
    have hempty : upcoming key rows cursor = [] := by
      rw [page, List.take_eq_nil_iff] at hpage
      exact hpage.resolve_left hsize.ne'
    unfold scan
    rw [if_pos hroom]
    split
    · simp [hempty]
    · next hcons => rw [hpage] at hcons; cases hcons
  | case2 cursor results hroom row more hpage ih =>
    have hsplit : upcoming key rows cursor =
        (row :: more) ++ (upcoming key rows cursor).drop size := by
      rw [← hpage, page, List.take_append_drop]
    have hcollect : (collect found limit results (row :: more)).length =
        results.length + min (limit - results.length) ((row :: more).filterMap found).length := by
      rw [collect_eq hroom, List.length_append, List.length_take]
    have hleft : limit - (collect found limit results (row :: more)).length =
        limit - results.length - ((row :: more).filterMap found).length := by omega
    unfold scan
    rw [if_pos hroom]
    split
    · next hnil => rw [hpage] at hnil; cases hnil
    · next row' more' hcons =>
      cases hpage.symm.trans hcons
      rw [ih (by omega), upcoming_getLast hkeys hpage, hleft, collect_eq hroom, hsplit,
        List.filterMap_append, List.take_append, List.append_assoc, ← hsplit]
  | case3 cursor results hfull =>
    unfold scan
    rw [if_neg hfull, Nat.sub_eq_zero_of_le (not_lt.mp hfull), List.take_zero, List.append_nil]

/-- A scan returns the first finds in the order of the keys. -/
theorem scan_eq_take (hkeys : (rows.map key).Nodup) (hsize : 0 < size) :
    scan key rows size found limit none [] = ((upcoming key rows none).filterMap found).take limit :=
  scan_eq hkeys hsize (Nat.zero_le limit)

end Distinct

end Scan

end AeepRouter.Lib
