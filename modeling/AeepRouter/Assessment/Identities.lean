import AeepRouter.Assessment.Repository

/-!
# Identities of assessment records

`put` returns also when `UNIQUE(kind, digest)` made the insertion ignore its record, and `get` takes
an identity for an id or for a digest. A record is found again under its identity as long as no
call lets two records, or another one, answer to it.
-/

namespace AeepRouter

open Lib

namespace Definitions

structure PutCall where
  kind : String
  identity : String
  value : AssessmentValue
  deriving DecidableEq

def Named (d : Definitions) (kind identity : String) (record : AssessmentRecord) : Prop :=
  record ∈ d.records.rows ∧ record.kind = kind ∧ (record.id = identity ∨ record.digest = identity)

section Calls

variable (contentDigest : AssessmentValue → String)

def PutCall.record (call : PutCall) : AssessmentRecord :=
  ⟨call.kind, call.identity, contentDigest call.value, call.value⟩

def PutCall.Returns (d : Definitions) (call : PutCall) : Prop :=
  ∀ record ∈ d.records.rows, record.key = (call.kind, call.identity) →
    record.digest = contentDigest call.value

/-- `put`, in a transaction of its own. -/
def PutCall.apply (d : Definitions) (call : PutCall) : Definitions :=
  commit (d.put contentDigest call.kind call.identity call.value) d

def Promise (d : Definitions) (call : PutCall) : Prop :=
  ∃ record, d.Named call.kind call.identity record ∧ record.value = call.value ∧
    ∀ other, d.Named call.kind call.identity other → other = record

/-- After each call that returned, and after all calls that follow it, `get` returns the value. -/
def Kept (fetch : Fetch) (calls : List PutCall) : Prop :=
  ∀ before call after rest, calls = before ++ call :: (after ++ rest) →
    call.Returns contentDigest (run (PutCall.apply contentDigest) .empty before) →
    (run (PutCall.apply contentDigest) .empty (before ++ call :: after)).get fetch call.kind
      call.identity = .ok call.value

/-- The call raises, or its records stay apart from those of its kind: the digest of its value is
that of no other value; no other identity has that digest, or one equal to the identity of the call,
unless the call is named by the digest; and no other record is named by it. -/
def Unambiguous (d : Definitions) (call : PutCall) : Prop :=
  call.Returns contentDigest d → ∀ record ∈ d.records.rows, record.kind = call.kind →
    (record.digest = contentDigest call.value → record.value = call.value) ∧
    (record.id ≠ call.identity →
      (record.digest = contentDigest call.value ∨ record.digest = call.identity →
        call.identity = contentDigest call.value) ∧
      record.id ≠ contentDigest call.value)

instance (d : Definitions) (call : PutCall) : Decidable (call.Returns contentDigest d) := by
  unfold PutCall.Returns
  infer_instance

instance : DecidableRel (Unambiguous contentDigest) := fun _ _ => by
  unfold Unambiguous
  infer_instance

/-- The digests are those of the values, and each is stored once in its kind. -/
structure Consistent (d : Definitions) : Prop where
  digests : ∀ record ∈ d.records.rows, record.digest = contentDigest record.value
  distinct : ∀ a ∈ d.records.rows, ∀ b ∈ d.records.rows, a.clash b → a = b

end Calls

section Promises

variable {contentDigest : AssessmentValue → String} {d : Definitions} {call later : PutCall}
  {calls : List PutCall}

/-! ## One call -/

theorem named_mono {d' : Definitions} (h : ∀ record ∈ d.records.rows, record ∈ d'.records.rows)
    {kind identity : String} {record : AssessmentRecord} (hn : d.Named kind identity record) :
    d'.Named kind identity record :=
  ⟨h record hn.1, hn.2⟩

variable (contentDigest) in
/-- A call raises and changes nothing; or finds its digest stored and changes nothing; or stores its
record. -/
theorem apply_cases (d : Definitions) (call : PutCall) :
    (¬ call.Returns contentDigest d ∧ call.apply contentDigest d = d) ∨
    (call.Returns contentDigest d ∧ call.apply contentDigest d = d ∧
      ∃ record ∈ d.records.rows, record.clash (call.record contentDigest)) ∨
    (call.Returns contentDigest d ∧
      (∀ record ∈ d.records.rows, ¬ record.clash (call.record contentDigest)) ∧
      ∀ record, record ∈ (call.apply contentDigest d).records.rows ↔
        record = call.record contentDigest ∨ record ∈ d.records.rows) := by
  unfold PutCall.apply put
  by_cases hreturns : call.Returns contentDigest d
  · right
    have hsame : ¬ ∃ record ∈ d.records.rows, record.key = (call.kind, call.identity) ∧
        record.digest ≠ contentDigest call.value := by
      rintro ⟨record, hrecord, hkey, hne⟩
      exact hne (hreturns record hrecord hkey)
    simp only [raiseIf, if_neg hsame]
    change _ ∧ d.insertOrIgnore (call.record contentDigest) = d ∧ _ ∨ _ ∧ _ ∧ ∀ record,
      record ∈ (d.insertOrIgnore (call.record contentDigest)).records.rows ↔ _
    unfold insertOrIgnore
    by_cases hclash : ∃ other ∈ d.records.rows, other.clash (call.record contentDigest)
    · exact .inl ⟨hreturns, if_pos hclash, hclash⟩
    · right
      rw [if_neg hclash]
      push Not at hclash
      have hnew : d.records.find? (call.record contentDigest).key = none := by
        rw [Table.find?_eq_none]
        intro record hrecord hkey
        exact hclash record hrecord ⟨congrArg Prod.fst hkey, hreturns record hrecord hkey⟩
      exact ⟨hreturns, hclash, fun record =>
        (Table.mem_insert hnew).trans or_comm⟩
  · left
    have hdiffers : ∃ record ∈ d.records.rows, record.key = (call.kind, call.identity) ∧
        record.digest ≠ contentDigest call.value := by
      unfold PutCall.Returns at hreturns
      push Not at hreturns
      exact hreturns
    refine ⟨hreturns, ?_⟩
    simp only [raiseIf, if_pos hdiffers]
    rfl

theorem mem_apply_of_mem {record : AssessmentRecord} (h : record ∈ d.records.rows) :
    record ∈ (call.apply contentDigest d).records.rows := by
  obtain ⟨-, heq⟩ | ⟨-, heq, -⟩ | ⟨-, -, hmem⟩ := apply_cases contentDigest d call
  · rwa [heq]
  · rwa [heq]
  · exact (hmem record).mpr (.inr h)

theorem Consistent.empty : Consistent contentDigest .empty :=
  ⟨fun _ h => absurd h List.not_mem_nil, fun _ h => absurd h List.not_mem_nil⟩

theorem Consistent.apply (h : Consistent contentDigest d) (call : PutCall) :
    Consistent contentDigest (call.apply contentDigest d) := by
  obtain ⟨-, heq⟩ | ⟨-, heq, -⟩ | ⟨-, hclash, hmem⟩ :=
    apply_cases contentDigest d call
  · rwa [heq]
  · rwa [heq]
  · refine ⟨fun record hrecord => ?_, fun a ha b hb hab => ?_⟩
    · obtain rfl | hold := (hmem record).mp hrecord
      · rfl
      · exact h.digests record hold
    · obtain rfl | ha := (hmem a).mp ha
      · obtain rfl | hb := (hmem b).mp hb
        · rfl
        · exact absurd ⟨hab.1.symm, hab.2.symm⟩ (hclash b hb)
      · obtain rfl | hb := (hmem b).mp hb
        · exact absurd hab (hclash a ha)
        · exact h.distinct a ha b hb hab

variable (contentDigest) in
theorem Consistent.run (calls : List PutCall) :
    Consistent contentDigest (Lib.run (PutCall.apply contentDigest) .empty calls) :=
  @run_invariant _ _ (PutCall.apply contentDigest) (Consistent contentDigest)
    (fun _ call h => h.apply call) .empty calls .empty

theorem Consistent.eq_of_digest (h : Consistent contentDigest d) {a b : AssessmentRecord}
    (ha : a ∈ d.records.rows) (hb : b ∈ d.records.rows) (hkind : a.kind = b.kind)
    (hdigest : a.digest = b.digest) : a = b :=
  h.distinct a ha b hb ⟨hkind, hdigest⟩

/-! ## Promises -/

theorem Promise.made (h : Consistent contentDigest d) (hclear : Unambiguous contentDigest d call)
    (hreturns : call.Returns contentDigest d) :
    (call.apply contentDigest d).Promise call := by
  have hclear := hclear hreturns
  obtain ⟨hnot, -⟩ | ⟨-, heq, record, hrecord, hkind, hdigest⟩ | ⟨-, hclash, hmem⟩ :=
    apply_cases contentDigest d call
  · exact absurd hreturns hnot
  · -- the digest was stored: under this identity, or the identity is the digest
    rw [heq]
    replace hkind : record.kind = call.kind := hkind
    replace hdigest : record.digest = contentDigest call.value := hdigest
    have hsame : ∀ other ∈ d.records.rows, other.kind = call.kind →
        other.digest = contentDigest call.value → other = record := fun other hother hk hd =>
      h.eq_of_digest hother hrecord (hk.trans hkind.symm) (hd.trans hdigest.symm)
    have hnamed : record.id = call.identity ∨ record.digest = call.identity := by
      by_cases hid : record.id = call.identity
      · exact .inl hid
      · exact .inr (hdigest.trans (((hclear record hrecord hkind).2 hid).1 (.inl hdigest)).symm)
    refine ⟨record, ⟨hrecord, hkind, hnamed⟩, (hclear record hrecord hkind).1 hdigest, ?_⟩
    rintro other ⟨hother, hk, hid | hd⟩
    · exact hsame other hother hk (hreturns other hother (Prod.ext hk hid))
    · by_cases hid : other.id = call.identity
      · exact hsame other hother hk (hreturns other hother (Prod.ext hk hid))
      · exact hsame other hother hk
          (hd.trans (((hclear other hother hk).2 hid).1 (.inr hd)))
  · -- the record is new, and no stored one answers to its identity
    refine ⟨call.record contentDigest, ⟨(hmem _).mpr (.inl rfl), rfl, .inl rfl⟩, rfl, ?_⟩
    rintro other ⟨hother, hk, hname⟩
    obtain rfl | hother := (hmem other).mp hother
    · rfl
    · by_cases hid : other.id = call.identity
      · exact absurd ⟨hk, hreturns other hother (Prod.ext hk hid)⟩ (hclash other hother)
      · have hd := hname.resolve_left hid
        exact absurd ⟨hk, hd.trans (((hclear other hother hk).2 hid).1 (.inr hd))⟩
          (hclash other hother)

theorem Promise.apply (h : d.Promise call) (hclear : Unambiguous contentDigest d later) :
    (later.apply contentDigest d).Promise call := by
  obtain ⟨-, heq⟩ | ⟨-, heq, -⟩ | ⟨hreturns, hclash, hmem⟩ :=
    apply_cases contentDigest d later
  · rwa [heq]
  · rwa [heq]
  · obtain ⟨record, hnamed, hvalue, hunique⟩ := h
    refine ⟨record, named_mono (fun _ hr => (hmem _).mpr (.inr hr)) hnamed, hvalue, ?_⟩
    rintro other ⟨hother, hk, hname⟩
    obtain rfl | hother := (hmem other).mp hother
    · -- the new record answers to the older identity
      exfalso
      obtain ⟨hrecord, hkind, hfound⟩ := hnamed
      replace hk : later.kind = call.kind := hk
      have hkind' : record.kind = later.kind := hkind.trans hk.symm
      have hclear := hclear hreturns record hrecord hkind'
      have hnot : record.digest ≠ contentDigest later.value := fun hd =>
        hclash record hrecord ⟨hkind', hd⟩
      by_cases hid : record.id = later.identity
      · exact hnot (hreturns record hrecord (Prod.ext hkind' hid))
      · obtain hname | hname : later.identity = call.identity ∨
            contentDigest later.value = call.identity := hname
        · obtain hfound | hfound := hfound
          · exact hid (hfound.trans hname.symm)
          · have hd : record.digest = later.identity := hfound.trans hname.symm
            exact hnot (hd.trans ((hclear.2 hid).1 (.inr hd)))
        · obtain hfound | hfound := hfound
          · exact (hclear.2 hid).2 (hfound.trans hname.symm)
          · exact hnot (hfound.trans hname.symm)
    · exact hunique other ⟨hother, hk, hname⟩

theorem Promise.run (h : d.Promise call)
    (hclear : Admissible (PutCall.apply contentDigest) (Unambiguous contentDigest) d calls) :
    (Lib.run (PutCall.apply contentDigest) d calls).Promise call :=
  @run_invariant_of_admissible _ _ (PutCall.apply contentDigest) (Unambiguous contentDigest)
    (fun d => d.Promise call) (fun _ _ hp hc => hp.apply hc) d calls h hclear

theorem Promise.get (h : d.Promise call) (fetch : Fetch) :
    d.get fetch call.kind call.identity = .ok call.value := by
  obtain ⟨record, hnamed, hvalue, hunique⟩ := h
  have hmem : ∀ other, other ∈ d.records.rows.filter (fun record =>
      record.kind = call.kind ∧ (record.id = call.identity ∨ record.digest = call.identity)) ↔
        d.Named call.kind call.identity other := fun other => by
    rw [List.mem_filter, decide_eq_true_eq]
    rfl
  obtain ⟨found, hfound⟩ := Option.isSome_iff_exists.mp
    (fetch.isSome _ (List.ne_nil_of_mem ((hmem record).mpr hnamed)))
  obtain rfl := hunique found ((hmem found).mp (fetch.mem _ _ hfound))
  simp only [Definitions.get, bind_ok, require_ok, pure_ok]
  exact ⟨found, hfound, hvalue⟩

end Promises

/-! ## Every query -/

/-- A query that returns one record where it can. -/
def preferring (record : AssessmentRecord) : Fetch where
  one rows := if record ∈ rows then some record else rows.head?
  mem rows found h := by
    split at h
    · next hmem =>
      cases h
      exact hmem
    · exact List.mem_of_head? h
  isSome rows h := by
    split
    · rfl
    · exact Fetch.first.isSome rows h

section Law

variable {contentDigest : AssessmentValue → String} {d : Definitions} {kind identity : String}
  {value : AssessmentValue} {calls : List PutCall}

theorem named_of_get {fetch : Fetch} (h : d.get fetch kind identity = .ok value) :
    ∃ record, d.Named kind identity record ∧ record.value = value := by
  simp only [Definitions.get, bind_ok, require_ok, pure_ok] at h
  obtain ⟨record, hfound, hvalue⟩ := h
  have hmem := fetch.mem _ _ hfound
  rw [List.mem_filter, decide_eq_true_eq] at hmem
  exact ⟨record, hmem, hvalue⟩

/-- What every query returns, every record of the name holds. -/
theorem value_of_get (h : ∀ fetch, d.get fetch kind identity = .ok value)
    {record : AssessmentRecord} (hnamed : d.Named kind identity record) : record.value = value := by
  have hget := h (preferring record)
  have hmem : record ∈ d.records.rows.filter (fun record =>
      record.kind = kind ∧ (record.id = identity ∨ record.digest = identity)) := by
    rw [List.mem_filter, decide_eq_true_eq]
    exact hnamed
  simp only [Definitions.get, bind_ok, require_ok, pure_ok] at hget
  obtain ⟨found, hfound, hvalue⟩ := hget
  have hpreferred : found = record := Option.some.inj (hfound.symm.trans (if_pos hmem))
  exact hpreferred ▸ hvalue

theorem stored_by {record : AssessmentRecord}
    (h : record ∈ (Lib.run (PutCall.apply contentDigest) .empty calls).records.rows) :
    ∃ before call after, calls = before ++ call :: after ∧
      call.Returns contentDigest (Lib.run (PutCall.apply contentDigest) .empty before) ∧
      record = call.record contentDigest := by
  induction calls using List.reverseRecOn with
  | nil => exact absurd h List.not_mem_nil
  | append_singleton calls call ih =>
    have hold (hmem : record ∈ (Lib.run (PutCall.apply contentDigest) .empty calls).records.rows) :
        ∃ before earlier after, calls ++ [call] = before ++ earlier :: after ∧
          earlier.Returns contentDigest (Lib.run (PutCall.apply contentDigest) .empty before) ∧
          record = earlier.record contentDigest := by
      obtain ⟨before, earlier, after, rfl, hreturns, hrecord⟩ := ih hmem
      exact ⟨before, earlier, after ++ [call], by simp, hreturns, hrecord⟩
    rw [run_append] at h
    change record ∈ (call.apply contentDigest _).records.rows at h
    obtain ⟨-, heq⟩ | ⟨-, heq, -⟩ | ⟨hreturns, -, hmem⟩ := apply_cases contentDigest
      (Lib.run (PutCall.apply contentDigest) .empty calls) call
    · exact hold (heq ▸ h)
    · exact hold (heq ▸ h)
    · obtain hnew | hmem := (hmem record).mp h
      · exact ⟨calls, call, [], rfl, hreturns, hnew⟩
      · exact hold hmem

theorem unambiguous_of_kept (h : ∀ fetch, Kept contentDigest fetch calls) {before : List PutCall}
    {call : PutCall} {after : List PutCall} (hcalls : calls = before ++ call :: after) :
    Unambiguous contentDigest (Lib.run (PutCall.apply contentDigest) .empty before) call := by
  intro hreturns record hrecord hkind
  have hs := Consistent.run contentDigest before
  have hs' := hs.apply call
  generalize hd : Lib.run (PutCall.apply contentDigest) .empty before = d at *
  have hafter : Lib.run (PutCall.apply contentDigest) .empty (before ++ [call]) =
      call.apply contentDigest d := by
    rw [run_append, hd]
    rfl
  -- what the call put is found right after it
  have hfound : ∀ fetch, (call.apply contentDigest d).get fetch call.kind call.identity =
      .ok call.value := fun fetch => by
    rw [← hafter]
    exact h fetch before call [] after hcalls (hd ▸ hreturns)
  obtain ⟨stored, hstored, hvalue⟩ := named_of_get (hfound .first)
  have hdigest : stored.digest = contentDigest call.value := hvalue ▸ hs'.digests stored hstored.1
  have hkept : record ∈ (call.apply contentDigest d).records.rows := mem_apply_of_mem hrecord
  have hsame (hd : record.digest = contentDigest call.value) : record = stored :=
    hs'.eq_of_digest hkept hstored.1 (hkind.trans hstored.2.1.symm) (hd.trans hdigest.symm)
  refine ⟨fun hd => hsame hd ▸ hvalue, fun hid => ?_⟩
  have hnames : record.digest = contentDigest call.value ∨ record.digest = call.identity →
      call.identity = contentDigest call.value := by
    rintro (hd | hd)
    · obtain rfl := hsame hd
      exact (hstored.2.2.resolve_left hid).symm.trans hd
    · have hvalue := value_of_get hfound ⟨hkept, hkind, .inr hd⟩
      rw [← hd, hs'.digests record hkept, hvalue]
  refine ⟨hnames, fun hname => ?_⟩
  -- the record is named by the digest, which the stored one answers to as well
  obtain ⟨first, earlier, between, hbefore, hearlier, rfl⟩ := stored_by (hd ▸ hrecord)
  have hget : ∀ fetch, (call.apply contentDigest d).get fetch earlier.kind earlier.identity =
      .ok earlier.value := fun fetch => by
    rw [← hafter, hbefore, List.append_assoc, List.cons_append]
    exact h fetch first earlier (between ++ [call]) after (by simp [hcalls, hbefore]) hearlier
  replace hname : earlier.identity = contentDigest call.value := hname
  have hvalue' : stored.value = earlier.value :=
    value_of_get hget ⟨hstored.1, hstored.2.1.trans hkind.symm, .inr (hdigest.trans hname.symm)⟩
  have hd : contentDigest earlier.value = contentDigest call.value := by
    rw [← hvalue', hvalue]
  exact hid (hname.trans (hnames (.inl hd)).symm)

end Law

/-- Every query finds what the calls of a run put exactly when none of them is ambiguous. -/
theorem kept_iff (contentDigest : AssessmentValue → String) (calls : List PutCall) :
    (∀ fetch, Kept contentDigest fetch calls) ↔
      Admissible (PutCall.apply contentDigest) (Unambiguous contentDigest) .empty calls := by
  constructor
  · exact fun h => admissible_of_split fun before call after hcalls => unambiguous_of_kept h hcalls
  · rintro hclear fetch before call after rest rfl hreturns
    obtain ⟨-, hcall, hrest⟩ := admissible_append.mp hclear
    obtain ⟨hafter, -⟩ := admissible_append.mp hrest
    have hmade := Promise.made (.run contentDigest before) hcall hreturns
    rw [run_append]
    exact (hmade.run hafter).get fetch

/-- The inventories of two operations that found the same. -/
def sameInventory : List PutCall :=
  [⟨"host_inventory", "first", .other "inventory"⟩, ⟨"host_inventory", "second", .other "inventory"⟩]

/-- Digests that tell texts apart. -/
def textDigest : AssessmentValue → String
  | .other json => "digest of " ++ json
  | _ => ""

/-- The second inventory is put and not found. -/
theorem second_identity_unknown :
    let d := Lib.run (PutCall.apply textDigest) .empty sameInventory
    ((Lib.run (PutCall.apply textDigest) .empty (sameInventory.take 1)).put textDigest
      "host_inventory" "second" (.other "inventory")).isOk ∧
      d.get .first "host_inventory" "second" =
        .error (.configuration "unknown assessment host_inventory") ∧
      ¬ ∀ fetch, Kept textDigest fetch sameInventory := by
  refine ⟨by decide +kernel, by decide +kernel, fun h => ?_⟩
  have hget := h .first (sameInventory.take 1) ⟨"host_inventory", "second", .other "inventory"⟩
    [] [] rfl (by decide +kernel)
  exact absurd hget (by decide +kernel)

end Definitions

end AeepRouter
