import Mathlib.Tactic
import Mathlib.Data.List.Infix

/-!
# Objects that share parts

A heap holds objects under their numbers; a slot of an object refers to an atom or to an object, so
two slots may share one. An object knows its slots by names, several of which may mean one slot.
`walk` follows names, `follow` follows slots, and `assign` overwrites the slot a path of names ends
at.

From a root under which no object is shared (`Tree`), assignments can be told by their spots: they
are independent writes as long as no spot is above another.
-/

namespace AeepRouter.Lib

/-- An atom, or the number of an object. -/
inductive Ref (α : Type) where
  | atom (a : α)
  | loc (n : ℕ)
  deriving DecidableEq

/-- Objects with slots that have names. Only slots that are there have names, and writing one does
not change what names mean. -/
class Slots (C : Type) (σ τ α : outParam Type) where
  get : C → σ → Option (Ref α)
  set : C → σ → Ref α → C
  slot? : C → τ → Option σ
  get_set_self {c : C} {s : σ} {v : Ref α} : (get c s).isSome → get (set c s v) s = some v
  get_set_none {c : C} {s : σ} {v : Ref α} : get c s = none → get (set c s v) s = none
  get_set_ne {c : C} {s s' : σ} {v : Ref α} : s' ≠ s → get (set c s v) s' = get c s'
  set_comm {c : C} {s s' : σ} {v w : Ref α} : s ≠ s' → set (set c s v) s' w = set (set c s' w) s v
  slot?_set {c : C} {s : σ} {v : Ref α} {t : τ} : slot? (set c s v) t = slot? c t
  get_slot? {c : C} {t : τ} {s : σ} : slot? c t = some s → (get c s).isSome

abbrev Heap (C : Type) := ℕ → Option C

/-- `root.path.name = value`. -/
structure Assignment (τ α : Type) where
  path : List τ
  name : τ
  value : Ref α

/-- The slot an assignment overwrites. -/
structure Spot (σ : Type) where
  path : List σ
  node : ℕ
  slot : σ

def Spot.full {σ : Type} (spot : Spot σ) : List σ := spot.path ++ [spot.slot]

namespace Heap

variable {C σ τ α : Type} [Slots C σ τ α]

/-- The slot of a reference. -/
def read (h : Heap C) : Ref α → σ → Option (Ref α)
  | .atom _, _ => none
  | .loc n, s => (h n).bind fun c => Slots.get c s

/-- What is at the end of a path of slots. -/
def follow (h : Heap C) (r : Ref α) : List σ → Option (Ref α)
  | [] => some r
  | s :: path => (h.read r s).bind fun r' => h.follow r' path

/-- The slot a name means. -/
def named (h : Heap C) : Ref α → τ → Option σ
  | .atom _, _ => none
  | .loc n, t => (h n).bind fun c => Slots.slot? c t

/-- The slots a path of names means. -/
def locate (h : Heap C) (r : Ref α) : List τ → Option (List σ)
  | [] => some []
  | t :: path => (h.named r t).bind fun s =>
      (h.read r s).bind fun r' => (h.locate r' path).map (s :: ·)

def walk (h : Heap C) (r : Ref α) : List τ → Option (Ref α)
  | [] => some r
  | t :: path => ((h.named r t).bind (h.read r)).bind fun r' => h.walk r' path

def write (h : Heap C) (n : ℕ) (s : σ) (v : Ref α) : Heap C := fun m =>
  if m = n then (h n).map fun c => Slots.set c s v else h m

def assign (h : Heap C) (r : Ref α) (e : Assignment τ α) : Option (Heap C) :=
  match h.walk r e.path with
  | some (.loc n) => (h.named (.loc n : Ref α) e.name).map fun s => h.write n s e.value
  | _ => none

/-- An object that a path from the reference ends at. -/
def Reaches (h : Heap C) (r : Ref α) (n : ℕ) : Prop :=
  ∃ path : List σ, h.follow r path = some (.loc n)

/-- No object is shared under the reference. -/
def Tree (h : Heap C) (r : Ref α) : Prop :=
  ∀ (p q : List σ) n, h.follow r p = some (.loc n) → h.follow r q = some (.loc n) → p = q

/-- No object is under both references. -/
def Apart (h : Heap C) (r v : Ref α) : Prop := ∀ n, h.Reaches r n → ¬ h.Reaches v n

section Paths

variable {h h' : Heap C} {r v : Ref α} {n m : ℕ} {s s' : σ} {t : τ} {path p q : List σ}

theorem follow_append : h.follow r (p ++ q) = (h.follow r p).bind fun r' => h.follow r' q := by
  induction p generalizing r with
  | nil => rfl
  | cons s p ih =>
    simp only [List.cons_append, follow, Option.bind_assoc]
    exact Option.bind_congr fun r' _ => ih

theorem follow_concat : h.follow r (p ++ [s]) = (h.follow r p).bind fun r' => h.read r' s := by
  rw [follow_append]
  refine Option.bind_congr fun r' _ => ?_
  simp only [follow]
  exact Option.bind_fun_some _

theorem walk_eq {names : List τ} : h.walk r names = (h.locate r names).bind (h.follow r) := by
  induction names generalizing r with
  | nil => rfl
  | cons t names ih =>
    simp only [walk, locate, Option.bind_assoc]
    refine Option.bind_congr fun s _ => ?_
    cases hr : h.read r s with
    | none => rfl
    | some r' =>
      rw [Option.bind_some, ih, Option.bind_some, Option.bind_map]
      exact Option.bind_congr fun path _ => by
        simp only [Function.comp_apply, follow, hr, Option.bind_some]

theorem follow_atom {a : α} (hne : path ≠ []) : h.follow (.atom a) path = none := by
  cases path with
  | nil => exact absurd rfl hne
  | cons s path => rfl

theorem not_reaches_atom {a : α} : ¬ h.Reaches (.atom a) n := by
  rintro ⟨path, hpath⟩
  cases path <;> simp [follow, read] at hpath

theorem follow_concat_eq_some :
    h.follow r (path ++ [s]) = some v ↔ ∃ n, h.follow r path = some (.loc n) ∧
      h.read (.loc n) s = some v := by
  rw [follow_concat, Option.bind_eq_some_iff]
  constructor
  · rintro ⟨r', hr', hread⟩
    cases r' with
    | atom a => cases hread
    | loc n => exact ⟨n, hr', hread⟩
  · rintro ⟨n, hn, hread⟩
    exact ⟨_, hn, hread⟩

end Paths

/-! ## One write -/

section Write

variable {h h' : Heap C} {r v w : Ref α} {n m : ℕ} {s s' : σ} {path : List σ}

theorem write_of_ne (hm : m ≠ n) : h.write n s v m = h m := if_neg hm

theorem write_self : h.write n s v n = (h n).map fun c => Slots.set c s v := if_pos rfl

theorem read_write_self (hs : (h.read (.loc n) s).isSome) :
    (h.write n s v).read (.loc n) s = some v := by
  simp only [read, write_self] at hs ⊢
  cases hc : h n with
  | none => simp [hc] at hs
  | some c =>
    rw [hc, Option.bind_some] at hs
    rw [Option.map_some, Option.bind_some, Slots.get_set_self hs]

theorem read_write_of_ne (hne : (m, s') ≠ (n, s)) :
    (h.write n s v).read (.loc m) s' = h.read (.loc m) s' := by
  by_cases hm : m = n
  · subst hm
    have hs : s' ≠ s := fun hs => hne (by rw [hs])
    simp only [read, write_self, Option.bind_map]
    exact Option.bind_congr fun c _ => Slots.get_set_ne hs
  · simp only [read, write_of_ne hm]

theorem read_write_loc {a : α} (hread : (h.write n s (.atom a)).read r s' = some (.loc m)) :
    h.read r s' = some (.loc m) := by
  cases r with
  | atom b => cases hread
  | loc k =>
    by_cases hslot : (k, s') = (n, s)
    · rw [Prod.mk.injEq] at hslot
      obtain ⟨rfl, rfl⟩ := hslot
      by_cases hs : (h.read (.loc k) s').isSome
      · rw [read_write_self hs] at hread
        cases hread
      · exfalso
        simp only [read, write_self, Option.bind_map] at hs hread
        obtain ⟨c, hc, hget⟩ := Option.bind_eq_some_iff.mp hread
        rw [hc, Option.bind_some, Option.not_isSome_iff_eq_none] at hs
        rw [Function.comp_apply, Slots.get_set_none hs] at hget
        cases hget
    · rwa [read_write_of_ne hslot] at hread

theorem named_write (t : τ) (r : Ref α) : (h.write n s v).named r t = h.named r t := by
  cases r with
  | atom a => rfl
  | loc m =>
    by_cases hm : m = n
    · subst hm
      simp only [named, write_self, Option.bind_map]
      exact Option.bind_congr fun c _ => Slots.slot?_set
    · simp only [named, write_of_ne hm]

theorem write_comm (hne : (n, s) ≠ (m, s')) :
    (h.write n s v).write m s' w = (h.write m s' w).write n s v := by
  funext k
  by_cases hk : k = m
  · subst hk
    by_cases hn : k = n
    · subst hn
      have hs : s ≠ s' := fun hs => hne (by rw [hs])
      rw [write_self, write_self, write_self, write_self, Option.map_map, Option.map_map]
      exact Option.map_congr fun c _ => Slots.set_comm hs
    · rw [write_self, write_of_ne hn, write_of_ne hn, write_self]
  · rw [write_of_ne hk]
    by_cases hn : k = n
    · subst hn
      rw [write_self, write_self, write_of_ne hk]
    · rw [write_of_ne hn, write_of_ne hn, write_of_ne hk]

/-- A write changes nothing on a path that does not pass the slot. -/
theorem follow_write (hpass : ∀ p, p ++ [s] <+: path → h.follow r p ≠ some (.loc n)) :
    (h.write n s v).follow r path = h.follow r path := by
  induction path generalizing r with
  | nil => rfl
  | cons s' path ih =>
    have hread : (h.write n s v).read r s' = h.read r s' := by
      cases r with
      | atom a => rfl
      | loc m =>
        refine read_write_of_ne fun heq => ?_
        rw [Prod.mk.injEq] at heq
        obtain ⟨rfl, rfl⟩ := heq
        exact hpass [] (by simp) rfl
    simp only [follow, hread]
    refine Option.bind_congr fun r' hr' => ih fun p hp => ?_
    have hlong := hpass (s' :: p) (by simpa using hp)
    simpa only [follow, hr', Option.bind_some] using hlong

end Write

/-! ## Assignments -/

structure At (h : Heap C) (r : Ref α) (e : Assignment τ α) (spot : Spot σ) : Prop where
  path : h.locate r e.path = some spot.path
  node : h.follow r spot.path = some (.loc spot.node)
  slot : h.named (.loc spot.node : Ref α) e.name = some spot.slot

/-- Names mean what they meant, and nothing has changed but at the places that are done and below
them. -/
structure Kept (h₀ h : Heap C) (r : Ref α) (done : List (List σ)) : Prop where
  named : ∀ (r' : Ref α) (t : τ), h.named r' t = h₀.named r' t
  outside : ∀ p : List σ, (∀ d ∈ done, ¬ d <+: p) → h.follow r p = h₀.follow r p

section Assign

variable {h₀ h : Heap C} {r r' : Ref α} {e : Assignment τ α} {spot : Spot σ} {p q : List σ}
  {names : List τ} {done : List (List σ)} {s : σ} {t : τ}

theorem Kept.refl (h : Heap C) (r : Ref α) : Kept h h r [] := ⟨fun _ _ => rfl, fun _ _ => rfl⟩

theorem read_isSome_of_named (hs : h.named r t = some s) : (h.read r s).isSome := by
  cases r with
  | atom a => cases hs
  | loc n =>
    obtain ⟨c, hc, hslot⟩ := Option.bind_eq_some_iff.mp hs
    simp only [read, hc, Option.bind_some]
    exact Slots.get_slot? hslot

theorem length_of_locate (hp : h.locate r names = some p) : names.length = p.length := by
  induction names generalizing r p with
  | nil =>
    rw [← Option.some.inj hp]
    rfl
  | cons t names ih =>
    obtain ⟨s, -, hs⟩ := Option.bind_eq_some_iff.mp hp
    obtain ⟨r', -, hr'⟩ := Option.bind_eq_some_iff.mp hs
    obtain ⟨path, hpath, rfl⟩ := Option.map_eq_some_iff.mp hr'
    rw [List.length_cons, List.length_cons, ih hpath]

theorem locate_append {p q : List τ} : h.locate r (p ++ q) =
    (h.locate r p).bind fun path => (h.follow r path).bind fun r' =>
      (h.locate r' q).map (path ++ ·) := by
  induction p generalizing r with
  | nil => simp [Heap.locate, follow]
  | cons t p ih =>
    simp only [List.cons_append, Heap.locate, Option.bind_assoc]
    refine Option.bind_congr fun s _ => ?_
    cases hr : h.read r s with
    | none => rfl
    | some r' =>
      simp only [Option.bind_some, ih, Option.map_bind, Option.bind_map, Function.comp_def, follow,
        hr, Option.map_map, List.cons_append]

theorem At.locate_full (hat : At h r e spot) :
    h.locate r (e.path ++ [e.name]) = some spot.full := by
  obtain ⟨r', hr'⟩ := Option.isSome_iff_exists.mp (read_isSome_of_named hat.slot)
  simp only [locate_append, hat.path, hat.node, Option.bind_some, Heap.locate, hat.slot, hr',
    Option.map_some]
  rfl

/-- Without shared objects, assignments to one slot are to one place. -/
theorem At.full_eq {e' : Assignment τ α} {spot' : Spot σ} (htree : h.Tree r) (hat : At h r e spot)
    (hat' : At h r e' spot') (heq : (spot.node, spot.slot) = (spot'.node, spot'.slot)) :
    spot.full = spot'.full := by
  rw [Prod.mk.injEq] at heq
  have hpath := htree _ _ spot'.node (heq.1 ▸ hat.node) hat'.node
  rw [Spot.full, Spot.full, hpath, heq.2]

/-- A path of names that means a slot ends in an assignment to it. -/
theorem exists_at {p : List σ} (hp : h.locate r (e.path ++ [e.name]) = some p) :
    ∃ spot, At h r e spot ∧ spot.full = p := by
  rw [locate_append] at hp
  obtain ⟨path, hpath, hp⟩ := Option.bind_eq_some_iff.mp hp
  obtain ⟨r', hr', hp⟩ := Option.bind_eq_some_iff.mp hp
  obtain ⟨last, hlast, rfl⟩ := Option.map_eq_some_iff.mp hp
  obtain ⟨s, hs, hrest⟩ := Option.bind_eq_some_iff.mp hlast
  obtain ⟨r₁, -, hnil⟩ := Option.bind_eq_some_iff.mp hrest
  cases r' with
  | atom a => cases hs
  | loc n => exact ⟨⟨path, n, s⟩, ⟨hpath, hr', hs⟩, by rw [← Option.some.inj hnil]; rfl⟩

/-- A path that nothing done is strictly above means what it meant. -/
theorem Kept.locate (hk : Kept h₀ h r done) (hq : h₀.follow r q = some r')
    (hp : h₀.locate r' names = some p) (hfree : ∀ d ∈ done, ¬ d <+: q ++ p.dropLast) :
    h.locate r' names = some p := by
  induction names generalizing q r' p with
  | nil => exact hp
  | cons t names ih =>
    obtain ⟨s, hs, hrest⟩ := Option.bind_eq_some_iff.mp hp
    obtain ⟨r₁, hr₁, hmap⟩ := Option.bind_eq_some_iff.mp hrest
    obtain ⟨path, hpath, rfl⟩ := Option.map_eq_some_iff.mp hmap
    have hnamed : h.named r' t = some s := (hk.named r' t).trans hs
    rw [Heap.locate, hnamed, Option.bind_some]
    cases names with
    | nil =>
      obtain ⟨r₂, hr₂⟩ := Option.isSome_iff_exists.mp (read_isSome_of_named hnamed)
      obtain rfl : [] = path := Option.some.inj hpath
      rw [hr₂]
      rfl
    | cons u names =>
      have hne : path ≠ [] := fun hnil => by
        have hlength := length_of_locate hpath
        rw [hnil] at hlength
        cases hlength
      -- the next object is the one that was there
      have hfollow : h₀.follow r (q ++ [s]) = some r₁ := by
        rw [follow_concat, hq]
        exact hr₁
      have habove : ∀ d ∈ done, ¬ d <+: q ++ [s] := fun d hd hunder =>
        hfree d hd (hunder.trans (by
          rw [List.dropLast_cons_of_ne_nil hne, List.prefix_append_right_inj]
          simp))
      have hq' : ∀ d ∈ done, ¬ d <+: q := fun d hd hunder =>
        habove d hd (hunder.trans (List.prefix_append _ _))
      have hread : h.read r' s = some r₁ := by
        have hnext := (hk.outside _ habove).trans hfollow
        rw [follow_concat, hk.outside q hq', hq] at hnext
        exact hnext
      rw [hread, Option.bind_some, ih hfollow hpath fun d hd => ?_]
      · rfl
      · have hlast := hfree d hd
        rw [List.dropLast_cons_of_ne_nil hne] at hlast
        rwa [List.append_assoc, List.singleton_append]

theorem Kept.assign (hk : Kept h₀ h r done) (htree : h₀.Tree r) (hat : At h₀ r e spot)
    (hfree : ∀ d ∈ done, ¬ d <+: spot.path) :
    h.assign r e = some (h.write spot.node spot.slot e.value) ∧
      Kept h₀ (h.write spot.node spot.slot e.value) r (spot.full :: done) := by
  have hlocate : h.locate r e.path = some spot.path :=
    hk.locate (q := []) rfl hat.path fun d hd hunder =>
      hfree d hd (hunder.trans (List.dropLast_prefix spot.path))
  have hwalk : h.walk r e.path = some (.loc spot.node) := by
    rw [walk_eq, hlocate, Option.bind_some, hk.outside _ hfree, hat.node]
  refine ⟨?_, fun r' t => (named_write t r').trans (hk.named r' t), fun p hp => ?_⟩
  · rw [Heap.assign, hwalk]
    dsimp only
    rw [hk.named, hat.slot, Option.map_some]
  · rw [List.forall_mem_cons] at hp
    rw [← hk.outside p hp.2]
    refine follow_write fun q hq hnode => hp.1 ?_
    rw [hk.outside q fun d hd hunder => hp.2 d hd
      (hunder.trans ((List.prefix_append _ _).trans hq))] at hnode
    rw [htree q spot.path spot.node hnode hat.node] at hq
    exact hq

end Assign

/-! ## Many assignments -/

section Many

variable (spot : Assignment τ α → Spot σ)

def writes (h : Heap C) (es : List (Assignment τ α)) : Heap C :=
  es.foldl (fun h e => h.write (spot e).node (spot e).slot e.value) h

variable {spot} {h₀ h : Heap C} {r : Ref α} {es es' : List (Assignment τ α)} {e : Assignment τ α}
  {done : List (List σ)}

/-- Assignments none of which is strictly below an earlier one all overwrite their spots. -/
theorem Kept.assignAll (hk : Kept h₀ h r done) (htree : h₀.Tree r)
    (hat : ∀ e ∈ es, At h₀ r e (spot e)) (hfree : ∀ d ∈ done, ∀ e ∈ es, ¬ d <+: (spot e).path)
    (horder : es.Pairwise fun a b => ¬ (spot a).full <+: (spot b).path) :
    es.foldlM (fun h e => h.assign r e) h = some (h.writes spot es) ∧
      Kept h₀ (h.writes spot es) r ((es.map fun e => (spot e).full).reverse ++ done) := by
  induction es generalizing h done with
  | nil => exact ⟨rfl, hk⟩
  | cons e es ih =>
    rw [List.pairwise_cons] at horder
    obtain ⟨hassign, hk'⟩ := hk.assign htree (hat e List.mem_cons_self)
      fun d hd => hfree d hd e List.mem_cons_self
    have hfree' : ∀ d ∈ (spot e).full :: done, ∀ e' ∈ es, ¬ d <+: (spot e').path := by
      refine List.forall_mem_cons.mpr ⟨horder.1, fun d hd e' he' => ?_⟩
      exact hfree d hd e' (List.mem_cons_of_mem _ he')
    obtain ⟨hrest, hkept⟩ := ih hk' (fun e' he' => hat e' (List.mem_cons_of_mem _ he')) hfree'
      horder.2
    refine ⟨?_, by simpa [writes] using hkept⟩
    rw [List.foldlM_cons, hassign]
    exact hrest

/-- An object that holds no spot stays as it is. -/
theorem writes_of_ne {n : ℕ} (hn : ∀ e ∈ es, (spot e).node ≠ n) : h.writes spot es n = h n := by
  induction es generalizing h with
  | nil => rfl
  | cons e es ih =>
    rw [List.forall_mem_cons] at hn
    exact (ih hn.2).trans (write_of_ne hn.1.symm)

theorem writes_perm (hperm : es.Perm es')
    (hne : ∀ a ∈ es, ∀ b ∈ es, a ≠ b →
      ((spot a).node, (spot a).slot) ≠ ((spot b).node, (spot b).slot)) :
    h.writes spot es = h.writes spot es' := by
  refine hperm.foldl_eq' (fun a ha b hb k => ?_) h
  by_cases hab : a = b
  · rw [hab]
  · exact write_comm (hne a ha b hb hab)

/-- Assignments to places none of which is above another are independent: each place holds its
value, in whatever order. -/
theorem walk_writes (htree : h.Tree r) (hat : ∀ e ∈ es, At h r e (spot e)) (hnodup : es.Nodup)
    (hapart : ∀ a ∈ es, ∀ b ∈ es, a ≠ b → ¬ (spot a).full <+: (spot b).full) (he : e ∈ es) :
    (h.writes spot es).walk r (e.path ++ [e.name]) = some e.value := by
  classical
  have hbelow : ∀ a ∈ es, ∀ b ∈ es, a ≠ b → ¬ (spot a).full <+: (spot b).path :=
    fun a ha b hb hab hunder => hapart a ha b hb hab (hunder.trans (List.prefix_append _ _))
  have hother : ∀ {a}, a ∈ es.erase e → a ∈ es ∧ a ≠ e := fun ha =>
    ⟨List.mem_of_mem_erase ha, ((hnodup.mem_erase_iff).mp ha).1⟩
  -- it is as if this one were the last
  have hlast : h.writes spot es = h.writes spot (es.erase e ++ [e]) := by
    refine writes_perm ((List.perm_cons_erase he).trans (List.perm_append_singleton _ _).symm) ?_
    intro a ha b hb hab heq
    exact hapart a ha b hb hab (by rw [(hat a ha).full_eq htree (hat b hb) heq])
  obtain ⟨-, hrest⟩ := (Kept.refl h r).assignAll htree
    (fun a (ha : a ∈ es.erase e) => hat a (hother ha).1) (by simp)
    ((hnodup.erase e).imp_of_mem fun ha hb hab => hbelow _ (hother ha).1 _ (hother hb).1 hab)
  have hfree : ∀ d ∈ ((es.erase e).map fun e => (spot e).full).reverse ++ [],
      ¬ d <+: (spot e).path := by
    intro d hd
    simp only [List.append_nil, List.mem_reverse, List.mem_map] at hd
    obtain ⟨a, ha, rfl⟩ := hd
    exact hbelow a (hother ha).1 e he (hother ha).2
  obtain ⟨-, hkept⟩ := hrest.assign htree (hat e he) hfree
  have hfree' : ∀ d ∈ (spot e).full :: (((es.erase e).map fun e => (spot e).full).reverse ++ []),
      ¬ d <+: (spot e).path := by
    refine List.forall_mem_cons.mpr ⟨fun hunder => ?_, hfree⟩
    have hlength := hunder.length_le
    simp [Spot.full] at hlength
  rw [hlast, writes, List.foldl_append]
  change ((h.writes spot (es.erase e)).write _ _ _).walk r _ = _
  rw [walk_eq, hkept.locate (q := []) rfl (hat e he).locate_full
    (by simpa only [Spot.full, List.dropLast_concat, List.nil_append] using hfree'),
    Option.bind_some, Spot.full, follow_concat_eq_some]
  refine ⟨(spot e).node, (hkept.outside _ hfree').trans (hat e he).node, read_write_self ?_⟩
  exact read_isSome_of_named ((hrest.named _ _).trans (hat e he).slot)

theorem exists_spots [Nonempty σ] (hat : ∀ e ∈ es, ∃ s, At h r e s) :
    ∃ spot : Assignment τ α → Spot σ, ∀ e ∈ es, At h r e (spot e) := by
  have hall : ∀ e, ∃ s : Spot σ, e ∈ es → At h r e s := by
    intro e
    by_cases he : e ∈ es
    · exact (hat e he).imp fun s hs _ => hs
    · exact ⟨⟨[], 0, Classical.arbitrary σ⟩, fun h => absurd h he⟩
  exact Classical.skolem.mp hall

theorem read_writes_loc {s : σ} {m : ℕ} (hatoms : ∀ e ∈ es, ∃ a, e.value = .atom a)
    (hread : (h.writes spot es).read r s = some (.loc m)) : h.read r s = some (.loc m) := by
  induction es generalizing h with
  | nil => exact hread
  | cons e es ih =>
    rw [List.forall_mem_cons] at hatoms
    obtain ⟨⟨a, ha⟩, hatoms⟩ := hatoms
    refine read_write_loc (a := a) (n := (spot e).node) (s := (spot e).slot) (ih hatoms ?_)
    rwa [writes, List.foldl_cons, ha] at hread

/-- Where only atoms were written, names that can be followed still mean the slots they meant. -/
theorem follow_of_walk {names : List τ} {p : List σ} {v : Ref α}
    (hnamed : ∀ (r : Ref α) t, h.named r t = h₀.named r t)
    (hloc : ∀ (r : Ref α) s m, h.read r s = some (.loc m) → h₀.read r s = some (.loc m))
    (hwalk : h.walk r names = some v) (hp : h₀.locate r names = some p) :
    h.follow r p = some v := by
  induction names generalizing r p with
  | nil =>
    obtain rfl : [] = p := Option.some.inj hp
    exact hwalk
  | cons t names ih =>
    obtain ⟨s, hs, hrest⟩ := Option.bind_eq_some_iff.mp hp
    obtain ⟨r', hr', hmap⟩ := Option.bind_eq_some_iff.mp hrest
    obtain ⟨path, hpath, rfl⟩ := Option.map_eq_some_iff.mp hmap
    rw [walk, hnamed, hs, Option.bind_some] at hwalk
    obtain ⟨r₁, hr₁, hwalk⟩ := Option.bind_eq_some_iff.mp hwalk
    rw [follow, hr₁, Option.bind_some]
    cases r₁ with
    | loc m =>
      obtain rfl : r' = .loc m := Option.some.inj (hr'.symm.trans (hloc r s m hr₁))
      exact ih hwalk hpath
    | atom a =>
      cases names with
      | nil =>
        obtain rfl : [] = path := Option.some.inj hpath
        exact hwalk
      | cons u names => cases hwalk

end Many

end Heap

end AeepRouter.Lib
