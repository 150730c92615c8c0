import AeepRouter.Lib.Run
import AeepRouter.Lib.Dictionary

/-!
# Rows that are inserted or compared

`t.retain payload e row` inserts a row under a new key. Under a key that exists it keeps the stored
row, and fails when the payloads of the two differ. Rows that a table has retained once are retained
again without a change (`retainAll_again`), and a table never retains a row whose payload differs from
a stored one (`retainAll_payload`).
-/

namespace AeepRouter.Lib.Table

variable {α κ π ε : Type} [DecidableEq κ] [DecidableEq π] {key : α → κ} {payload : α → π} {e : ε}
  {t t' : Table α key} {row stored : α} {rows : List α}

def retain (payload : α → π) (e : ε) (t : Table α key) (row : α) : Except ε (Table α key) :=
  match t.find? (key row) with
  | none => .ok (t.insert row)
  | some stored => if payload stored = payload row then .ok t else .error e

def retainAll (payload : α → π) (e : ε) (t : Table α key) (rows : List α) : Except ε (Table α key) :=
  rows.foldlM (retain payload e) t

/-- A table has a row under the key and with the payload of another. -/
def Retains (payload : α → π) (t : Table α key) (row : α) : Prop :=
  ∃ stored, t.find? (key row) = some stored ∧ payload stored = payload row

omit [DecidableEq π] in
theorem Retains.mono (h : t.Retains payload row) (hext : t.Extends t') : t'.Retains payload row := by
  obtain ⟨stored, hfound, hpayload⟩ := h
  exact ⟨stored, hext.find? hfound, hpayload⟩

theorem retain_ok (h : t.retain payload e row = .ok t') :
    t.Extends t' ∧ t'.Retains payload row ∧ ∀ x ∈ t', x ∈ t ∨ x = row := by
  unfold retain at h
  split at h
  next hnone =>
    cases h
    refine ⟨fun x hx => mem_insert_of_mem hx, ⟨row, find?_insert_self hnone, rfl⟩, fun x hx => ?_⟩
    exact (mem_insert hnone).mp hx
  next stored hfound =>
    split at h
    next hpayload =>
      cases h
      exact ⟨.refl _, ⟨stored, hfound, hpayload⟩, fun x hx => .inl hx⟩
    next => cases h

theorem retain_payload (h : t.retain payload e row = .ok t')
    (hfound : t.find? (key row) = some stored) : payload stored = payload row := by
  unfold retain at h
  rw [hfound] at h
  by_contra hne
  dsimp only at h
  rw [if_neg hne] at h
  cases h

theorem Retains.retain_eq (h : t.Retains payload row) (e : ε) : t.retain payload e row = .ok t := by
  obtain ⟨stored, hfound, hpayload⟩ := h
  unfold retain
  rw [hfound]
  exact if_pos hpayload

theorem retainAll_ok (h : t.retainAll payload e rows = .ok t') :
    t.Extends t' ∧ (∀ row ∈ rows, t'.Retains payload row) ∧ ∀ x ∈ t', x ∈ t ∨ x ∈ rows := by
  induction rows generalizing t with
  | nil =>
    cases h
    exact ⟨.refl _, fun _ h => absurd h List.not_mem_nil, fun x hx => .inl hx⟩
  | cons row rows ih =>
    unfold retainAll at h
    rw [List.foldlM_cons, bind_ok] at h
    obtain ⟨middle, hrow, hrest⟩ := h
    obtain ⟨hext, hretained, hnew⟩ := retain_ok hrow
    obtain ⟨hext', hretained', hnew'⟩ := ih hrest
    refine ⟨hext.trans hext', List.forall_mem_cons.mpr ⟨hretained.mono hext', hretained'⟩,
      fun x hx => ?_⟩
    rcases hnew' x hx with hmiddle | hin
    · rcases hnew x hmiddle with hold | rfl
      · exact .inl hold
      · exact .inr List.mem_cons_self
    · exact .inr (List.mem_cons_of_mem _ hin)

theorem retainAll_again (h : ∀ row ∈ rows, t.Retains payload row) (e : ε) :
    t.retainAll payload e rows = .ok t := by
  induction rows with
  | nil => rfl
  | cons row rows ih =>
    obtain ⟨hrow, hrest⟩ := List.forall_mem_cons.mp h
    unfold retainAll
    rw [List.foldlM_cons, hrow.retain_eq e]
    exact ih hrest

theorem retainAll_payload (h : t.retainAll payload e rows = .ok t') (hrow : row ∈ rows)
    (hfound : t.find? (key row) = some stored) : payload stored = payload row := by
  obtain ⟨hext, hretained, -⟩ := retainAll_ok h
  obtain ⟨kept, hkept, hpayload⟩ := hretained row hrow
  rw [hext.find? hfound, Option.some_inj] at hkept
  rw [hkept, hpayload]

/-- Rows are retained exactly when no two of one key, stored or new, have different payloads. -/
theorem exists_retainAll_iff : (∃ t', t.retainAll payload e rows = .ok t') ↔
    ∀ row ∈ rows, ∀ other, other ∈ t ∨ other ∈ rows → key other = key row →
      payload other = payload row := by
  constructor
  · rintro ⟨t', h⟩ row hrow other hother hkey
    obtain ⟨hext, hretained, -⟩ := retainAll_ok h
    obtain ⟨stored, hstored, hpayload⟩ := hretained row hrow
    rw [← hpayload]
    rcases hother with hold | hnew
    · have hfound := hext.find? (find?_of_mem hold)
      rw [hkey, hstored, Option.some_inj] at hfound
      rw [hfound]
    · obtain ⟨stored', hstored', hpayload'⟩ := hretained other hnew
      rw [hkey, hstored, Option.some_inj] at hstored'
      rw [hstored', hpayload']
  · intro h
    induction rows generalizing t with
    | nil => exact ⟨t, rfl⟩
    | cons row rows ih =>
      have hfirst : ∃ t', t.retain payload e row = .ok t' ∧ ∀ x ∈ t', x ∈ t ∨ x = row := by
        unfold retain
        split
        next hnone => exact ⟨_, rfl, fun x hx => (mem_insert hnone).mp hx⟩
        next stored hfound =>
          have hpayload := h row List.mem_cons_self stored (.inl (mem_of_find? hfound))
            (key_of_find? hfound)
          rw [if_pos hpayload]
          exact ⟨t, rfl, fun x hx => .inl hx⟩
      obtain ⟨middle, hrow, hmem⟩ := hfirst
      obtain ⟨t', hrest⟩ := @ih middle fun next hnext other hother hkey => by
        refine h next (List.mem_cons_of_mem _ hnext) other ?_ hkey
        rcases hother with hin | hin
        · rcases hmem other hin with hold | rfl
          · exact .inl hold
          · exact .inr List.mem_cons_self
        · exact .inr (List.mem_cons_of_mem _ hin)
      refine ⟨t', ?_⟩
      unfold retainAll
      rw [List.foldlM_cons, bind_ok]
      exact ⟨middle, hrow, hrest⟩

/-! ## Rows that are assigned -/

/-- `INSERT … ON CONFLICT … DO UPDATE` of rows, one after the other. -/
def assignAll (t : Table α key) (rows : List α) : Table α key := rows.foldl assign t

theorem find?_assign (t : Table α key) (row : α) (k : κ) :
    (t.assign row).find? k = if k = key row then some row else t.find? k := by
  unfold assign
  split
  next hsome =>
    obtain ⟨stored, hfound⟩ := Option.isSome_iff_exists.mp hsome
    rw [find?_rewrite]
    split
    next hk =>
      subst hk
      rw [hfound]
      simp [key_of_find? hfound]
    next hk =>
      cases hother : t.find? k with
      | none => rfl
      | some other =>
        have hne : key other ≠ key row := fun heq => hk ((key_of_find? hother).symm.trans heq)
        simp [hne]
  next hnone =>
    rw [Option.not_isSome_iff_eq_none] at hnone
    rw [find?_insert hnone]

theorem mem_or_eq_of_mem_assign {x : α} (h : x ∈ t.assign row) : x ∈ t ∨ x = row := by
  have hfound := find?_of_mem h
  rw [find?_assign] at hfound
  split at hfound
  · exact .inr (Option.some_inj.mp hfound).symm
  · exact .inl (mem_of_find? hfound)

theorem mem_or_mem_of_mem_assignAll {x : α} (h : x ∈ t.assignAll rows) : x ∈ t ∨ x ∈ rows := by
  induction rows generalizing t with
  | nil => exact .inl h
  | cons row rows ih =>
    rcases ih h with hin | hin
    · rcases mem_or_eq_of_mem_assign hin with hold | rfl
      · exact .inl hold
      · exact .inr List.mem_cons_self
    · exact .inr (List.mem_cons_of_mem _ hin)

theorem assign_of_mem (h : row ∈ t) : t.assign row = t := by
  have hfound : t.find? (key row) = some row := find?_of_mem h
  unfold assign
  rw [hfound, Option.isSome_some, if_pos rfl]
  refine Table.ext ?_
  unfold rewrite
  dsimp only
  have hsame : ∀ x ∈ t.rows, (if key x = key row then row else x) = x := fun x hx => by
    split
    next heq => exact (eq_of_key_eq hx h heq).symm
    next => rfl
  exact (List.map_congr_left hsame).trans (List.map_id' _)

theorem assignAll_of_mem (h : ∀ row ∈ rows, row ∈ t) : t.assignAll rows = t := by
  induction rows with
  | nil => rfl
  | cons row rows ih =>
    obtain ⟨hrow, hrest⟩ := List.forall_mem_cons.mp h
    unfold assignAll
    rw [List.foldl_cons, assign_of_mem hrow]
    exact ih hrest

theorem mem_assignAll (hnodup : (rows.map key).Nodup) (h : row ∈ rows) :
    row ∈ t.assignAll rows := by
  have hkept : ∀ (rows : List α) (t : Table α key) (row : α), row ∈ t →
      key row ∉ rows.map key → row ∈ t.assignAll rows := by
    intro rows
    induction rows with
    | nil => exact fun _ _ hrow _ => hrow
    | cons other rows ih =>
      intro t row hrow hnot
      rw [List.map_cons, List.mem_cons, not_or] at hnot
      refine ih _ row (mem_of_find? (k := key row) ?_) hnot.2
      rw [find?_assign, if_neg hnot.1]
      exact find?_of_mem hrow
  induction rows generalizing t with
  | nil => exact absurd h List.not_mem_nil
  | cons other rows ih =>
    rw [List.map_cons, List.nodup_cons] at hnodup
    rcases List.mem_cons.mp h with rfl | h
    · refine hkept rows _ row (mem_of_find? (k := key row) ?_) hnodup.1
      rw [find?_assign, if_pos rfl]
    · exact ih hnodup.2 h

end AeepRouter.Lib.Table
