import AeepRouter.Store.Quotes

/-!
# Quotes of several sources

A composite provider asks each source for the executors that are routed to it, and keeps the source of
every offer and quote. While it goes through the offers of a call it already records them; a call that
is refused halfway leaves behind what it has recorded.
-/

namespace AeepRouter.Composite

open Lib

inductive QuoteErrorCode where
  | invalidResponse
  | unavailable
  deriving DecidableEq, Repr

/-- What a call raises: a `QuoteProviderError` of its own, or the failure of a source. -/
inductive QuoteFailure where
  | provider (code : QuoteErrorCode) (message : String)
  | source (reason : String)
  deriving DecidableEq, Repr

structure CompositeQuoteProvider where
  sources : List String
  executorSources : String → Option String
  nonempty : sources ≠ []
  named : "" ∉ sources
  nodup : sources.Nodup
  known : ∀ executorId name, executorSources executorId = some name → executorId ≠ "" ∧ name ∈ sources

/-- `_executor_sources`, `_offer_provenance` and `_quote_provenance`. -/
@[ext] structure Maps where
  routes : String → Option String
  offerProvenance : String → Option String
  quoteProvenance : String → Option String

/-- The calls of a provider, with the responses of its sources. -/
inductive Call where
  | getOffers (capability : String) (executorIds : List String)
      (respond : String → List String → Except QuoteFailure (List CapabilityOffer))
  | requestQuote (request : QuoteRequestV2) (respond : String → Except QuoteFailure BoundedQuote)

inductive Answer where
  | offers (offers : List CapabilityOffer)
  | quote (quote : BoundedQuote)
  deriving DecidableEq

/-- What a call does: the executors each source is asked for, its answer, and the maps after it. -/
structure Outcome where
  requests : List (String × List String)
  result : Except QuoteFailure Answer
  maps : Maps

/-- An offer with the name of the source it came from. -/
abbrev Entry := String × CapabilityOffer

namespace Maps

def record (s : Maps) (entry : Entry) : Maps :=
  { s with
    routes := Function.update s.routes entry.2.executorId (some entry.1)
    offerProvenance := Function.update s.offerProvenance entry.2.offerId (some entry.1) }

def check (s : Maps) (capability : String) (requested : List String) (entry : Entry) :
    Except QuoteFailure Unit := do
  raiseIf (entry.2.capability ≠ capability ∨ entry.2.executorId ∉ requested)
    (.provider .invalidResponse "quote source returned an offer outside the requested binding")
  raiseIf (∃ previous ∈ s.offerProvenance entry.2.offerId, previous ≠ entry.1)
    (.provider .invalidResponse "offer ID collision across quote sources")
  raiseIf (∃ source ∈ s.routes entry.2.executorId, source ≠ entry.1)
    (.provider .invalidResponse "executor is advertised by multiple quote sources")

/-- The loop over the offers, with the maps it leaves. -/
def collect (s : Maps) (capability : String) (requested : List String) :
    List Entry → Except QuoteFailure (List CapabilityOffer) × Maps
  | [] => (.ok [], s)
  | entry :: entries =>
    match s.check capability requested entry with
    | .error err => (.error err, s)
    | .ok () =>
      let (rest, s') := (s.record entry).collect capability requested entries
      (rest.map (entry.2 :: ·), s')

end Maps

namespace CompositeQuoteProvider

variable (c : CompositeQuoteProvider)

/-- `__init__`. -/
def initial : Maps where
  routes := c.executorSources
  offerProvenance _ := none
  quoteProvenance _ := none

def sourceOf (s : Maps) (executorId : String) : Option String :=
  match s.routes executorId with
  | some name => some name
  | none => if c.sources.length = 1 then c.sources.head? else none

/-- The executors of a call that are routed to a source. -/
def partition (s : Maps) (requested : List String) (name : String) : List String :=
  requested.filter fun executorId => c.sourceOf s executorId = some name

def partitionNames (s : Maps) (requested : List String) : List String :=
  ((requested.filterMap (c.sourceOf s)).eraseDups).insertionSort (· ≤ ·)

/-- The offers of all sources; of several failures one is raised. -/
def gather (s : Maps) (requested : List String)
    (respond : String → List String → Except QuoteFailure (List CapabilityOffer)) :
    Except QuoteFailure (List Entry) := do
  let batches ← (c.partitionNames s requested).mapM fun name =>
    (respond name (c.partition s requested name)).map fun batch => batch.map fun offer => (name, offer)
  pure batches.flatten

def getOffers (s : Maps) (capability : String) (executorIds : List String)
    (respond : String → List String → Except QuoteFailure (List CapabilityOffer)) : Outcome :=
  let requested := executorIds.eraseDups
  let requests := (c.partitionNames s requested).map fun name => (name, c.partition s requested name)
  match c.gather s requested respond with
  | .error err => ⟨requests, .error err, s⟩
  | .ok entries =>
    let (offers, s') := s.collect capability requested entries
    ⟨requests, offers.map .offers, s'⟩

def requestQuote (s : Maps) (request : QuoteRequestV2)
    (respond : String → Except QuoteFailure BoundedQuote) : Outcome :=
  match c.sourceOf s request.executorId with
  | none =>
    ⟨[], .error (.provider .unavailable "no quote source is configured for this executor"), s⟩
  | some name =>
    let requests := [(name, [request.executorId])]
    match respond name with
    | .error err => ⟨requests, .error err, s⟩
    | .ok quote =>
      if ∃ previous ∈ s.quoteProvenance quote.quoteId, previous ≠ name then
        ⟨requests, .error (.provider .invalidResponse "quote ID collision across quote sources"), s⟩
      else
        let quoteProvenance := Function.update s.quoteProvenance quote.quoteId (some name)
        ⟨requests, .ok (.quote quote), { s with quoteProvenance := quoteProvenance }⟩

def call (s : Maps) : Call → Outcome
  | .getOffers capability executorIds respond => c.getOffers s capability executorIds respond
  | .requestQuote request respond => c.requestQuote s request respond

def step (s : Maps) (call : Call) : Maps := (c.call s call).maps

/-- The configured source of an executor, or the single source. -/
def home (executorId : String) : Option String := c.sourceOf c.initial executorId

end CompositeQuoteProvider

/-! ## What a call is to keep -/

/-- The source with this name was asked for these executors and returned the offer. -/
def Call.Sent (offer : CapabilityOffer) (request : String × List String) : Call → Prop
  | .getOffers _ _ respond => ∃ batch, respond request.1 request.2 = .ok batch ∧ offer ∈ batch
  | .requestQuote _ _ => False

/-- The source with this name returned the quote. -/
def Call.SentQuote (quote : BoundedQuote) (name : String) : Call → Prop
  | .getOffers _ _ _ => False
  | .requestQuote _ respond => respond name = .ok quote

def Call.isGetOffers : Call → Bool
  | .getOffers _ _ _ => true
  | .requestQuote _ _ => false

/-- The law of one call: executors are asked for at home alone, now and in the calls that follow;
what is returned has its source as provenance, once and for all; and a call for offers that raises
leaves the maps as they were. -/
structure Lawful (c : CompositeQuoteProvider) (s : Maps) (call : Call) : Prop where
  requests : ∀ request ∈ (c.call s call).requests, ∀ executorId ∈ request.2,
    c.home executorId = some request.1
  home : ∀ executorId, c.sourceOf (c.step s call) executorId = c.home executorId
  offers : ∀ offers, (c.call s call).result = .ok (.offers offers) → ∀ offer ∈ offers,
    ∃ request ∈ (c.call s call).requests, call.Sent offer request ∧
      (c.step s call).offerProvenance offer.offerId = some request.1
  quote : ∀ quote, (c.call s call).result = .ok (.quote quote) →
    ∃ request ∈ (c.call s call).requests, call.SentQuote quote request.1 ∧
      (c.step s call).quoteProvenance quote.quoteId = some request.1
  offerProvenance : ∀ id name, s.offerProvenance id = some name →
    (c.step s call).offerProvenance id = some name
  quoteProvenance : ∀ id name, s.quoteProvenance id = some name →
    (c.step s call).quoteProvenance id = some name
  unchanged : call.isGetOffers = true → ∀ err, (c.call s call).result = .error err →
    c.step s call = s

namespace Maps

def Accepts (s : Maps) (capability : String) (requested : List String) (entry : Entry) : Prop :=
  (entry.2.capability = capability ∧ entry.2.executorId ∈ requested) ∧
    (∀ previous ∈ s.offerProvenance entry.2.offerId, previous = entry.1) ∧
    ∀ source ∈ s.routes entry.2.executorId, source = entry.1

def Agree (entry other : Entry) : Prop :=
  (entry.2.offerId = other.2.offerId → entry.1 = other.1) ∧
    (entry.2.executorId = other.2.executorId → entry.1 = other.1)

/-- Offers that go together with the maps and with each other. -/
def Consistent (s : Maps) (capability : String) (requested : List String) (entries : List Entry) :
    Prop :=
  (∀ entry ∈ entries, s.Accepts capability requested entry) ∧ entries.Pairwise Agree

def Recorded (s : Maps) (entry : Entry) : Prop :=
  s.offerProvenance entry.2.offerId = some entry.1 ∧ s.routes entry.2.executorId = some entry.1

end Maps

/-- The offers of a call go together and are for executors that have a source, or those in front of
the first that is refused are recorded already. -/
def Careful (c : CompositeQuoteProvider) (s : Maps) : Call → Prop
  | .requestQuote _ _ => True
  | .getOffers capability executorIds respond =>
    ∀ entries, c.gather s executorIds.eraseDups respond = .ok entries →
      (s.Consistent capability executorIds.eraseDups entries ∧
        ∀ entry ∈ entries, c.home entry.2.executorId ≠ none) ∨
      ∃ before entry after, entries = before ++ entry :: after ∧ (∀ e ∈ before, s.Recorded e) ∧
        ¬ s.Accepts capability executorIds.eraseDups entry

/-! ## The loop over the offers -/

namespace Maps

variable {s : Maps} {capability : String} {requested : List String} {entry other : Entry}
  {entries : List Entry}

theorem check_ok : s.check capability requested entry = .ok () ↔
    s.Accepts capability requested entry := by
  unfold check Accepts
  simp only [bind_ok, raiseIf_ok, exists_const, not_or, not_not, not_exists, not_and]

def recordAll (s : Maps) (entries : List Entry) : Maps := entries.foldl record s

theorem recorded_record (s : Maps) (entry : Entry) : (s.record entry).Recorded entry :=
  ⟨Function.update_self .., Function.update_self ..⟩

/-- To record again changes nothing. -/
theorem record_of_recorded (h : s.Recorded entry) : s.record entry = s := by
  refine Maps.ext ?_ ?_ rfl
  · exact Function.update_eq_self_iff.mpr h.2.symm
  · exact Function.update_eq_self_iff.mpr h.1.symm

/-- A key asks for its own name and, where it was set, for the name it was set to. -/
theorem forall_mem_update {f : String → Option String} {k k' n n' : String}
    (h : ∀ previous ∈ f k, previous = n) :
    (∀ previous ∈ Function.update f k (some n) k', previous = n') ↔
      (∀ previous ∈ f k', previous = n') ∧ (k = k' → n = n') := by
  by_cases hk : k' = k
  · subst hk
    rw [Function.update_self]
    simp only [Option.mem_some_iff, forall_eq', true_implies]
    exact ⟨fun hn => ⟨fun previous hp => (h previous hp).trans hn, hn⟩, fun hn => hn.2⟩
  · rw [Function.update_of_ne hk]
    exact ⟨fun hp => ⟨hp, fun heq => absurd heq.symm hk⟩, fun hp => hp.1⟩

theorem accepts_record (hentry : s.Accepts capability requested entry) :
    (s.record entry).Accepts capability requested other ↔
      s.Accepts capability requested other ∧ Agree entry other := by
  obtain ⟨-, hid, hexecutor⟩ := hentry
  unfold Accepts Agree record
  dsimp only
  rw [forall_mem_update hid, forall_mem_update hexecutor]
  tauto

theorem consistent_cons : s.Consistent capability requested (entry :: entries) ↔
    s.Accepts capability requested entry ∧
      (s.record entry).Consistent capability requested entries := by
  unfold Consistent
  rw [List.forall_mem_cons, List.pairwise_cons]
  constructor
  · rintro ⟨⟨hentry, hentries⟩, hagree, hpairs⟩
    exact ⟨hentry, fun other hother =>
      (accepts_record hentry).mpr ⟨hentries other hother, hagree other hother⟩, hpairs⟩
  · rintro ⟨hentry, hentries, hpairs⟩
    have hboth := fun other hother => (accepts_record hentry).mp (hentries other hother)
    exact ⟨⟨hentry, fun other hother => (hboth other hother).1⟩,
      fun other hother => (hboth other hother).2, hpairs⟩

/-- The loop takes all offers, or the consistent ones in front of one that is refused. -/
theorem collect_cases (s : Maps) (capability : String) (requested : List String)
    (entries : List Entry) :
    (s.Consistent capability requested entries ∧
        s.collect capability requested entries =
          (.ok (entries.map Prod.snd), s.recordAll entries)) ∨
      ∃ before entry after err, entries = before ++ entry :: after ∧
        s.Consistent capability requested before ∧
        ¬ (s.recordAll before).Accepts capability requested entry ∧
        s.collect capability requested entries = (.error err, s.recordAll before) := by
  induction entries generalizing s with
  | nil => exact .inl ⟨⟨fun _ h => absurd h List.not_mem_nil, List.Pairwise.nil⟩, rfl⟩
  | cons entry entries ih =>
    rw [collect]
    cases hcheck : s.check capability requested entry with
    | error err =>
      refine .inr ⟨[], entry, entries, err, rfl, ⟨fun _ h => absurd h List.not_mem_nil,
        List.Pairwise.nil⟩, fun haccepts => ?_, rfl⟩
      have hok : s.check capability requested entry = .ok () := check_ok.mpr haccepts
      rw [hok] at hcheck
      cases hcheck
    | ok done =>
      have haccepts := check_ok.mp hcheck
      rcases ih (s.record entry) with ⟨hconsistent, hcollect⟩ |
        ⟨before, refused, after, err, rfl, hconsistent, hrefused, hcollect⟩
      · refine .inl ⟨consistent_cons.mpr ⟨haccepts, hconsistent⟩, ?_⟩
        dsimp only
        rw [hcollect]
        rfl
      · refine .inr ⟨entry :: before, refused, after, err, rfl,
          consistent_cons.mpr ⟨haccepts, hconsistent⟩, hrefused, ?_⟩
        dsimp only
        rw [hcollect]
        rfl

/-- What is in the maps stays as it is. -/
theorem kept_recordAll (h : s.Consistent capability requested entries) :
    (∀ id name, s.offerProvenance id = some name →
        (s.recordAll entries).offerProvenance id = some name) ∧
      ∀ executorId name, s.routes executorId = some name →
        (s.recordAll entries).routes executorId = some name := by
  induction entries generalizing s with
  | nil => exact ⟨fun _ _ => id, fun _ _ => id⟩
  | cons entry entries ih =>
    obtain ⟨⟨-, hid, hexecutor⟩, hentries⟩ := consistent_cons.mp h
    obtain ⟨hoffers, hroutes⟩ := ih hentries
    refine ⟨fun id name hname => hoffers id name ?_, fun executorId name hname =>
      hroutes executorId name ?_⟩
    · change Function.update s.offerProvenance entry.2.offerId (some entry.1) id = some name
      by_cases heq : id = entry.2.offerId
      · subst heq
        rw [Function.update_self, hid name hname]
      · rwa [Function.update_of_ne heq]
    · change Function.update s.routes entry.2.executorId (some entry.1) executorId = some name
      by_cases heq : executorId = entry.2.executorId
      · subst heq
        rw [Function.update_self, hexecutor name hname]
      · rwa [Function.update_of_ne heq]

theorem recorded_recordAll (h : s.Consistent capability requested entries) (hentry : entry ∈ entries) :
    (s.recordAll entries).Recorded entry := by
  induction entries generalizing s with
  | nil => exact absurd hentry List.not_mem_nil
  | cons first entries ih =>
    obtain ⟨-, hentries⟩ := consistent_cons.mp h
    rcases List.mem_cons.mp hentry with rfl | hentry
    · obtain ⟨hoffers, hroutes⟩ := kept_recordAll hentries
      have hrecorded := recorded_record s entry
      exact ⟨hoffers _ _ hrecorded.1, hroutes _ _ hrecorded.2⟩
    · exact ih hentries hentry

theorem quoteProvenance_recordAll (s : Maps) (entries : List Entry) :
    (s.recordAll entries).quoteProvenance = s.quoteProvenance := by
  induction entries generalizing s with
  | nil => rfl
  | cons entry entries ih => exact ih (s.record entry)

/-- A route after the offers was there before, or is that of one of them. -/
theorem routes_recordAll {executorId name : String}
    (h : (s.recordAll entries).routes executorId = some name) :
    s.routes executorId = some name ∨
      ∃ entry ∈ entries, entry.2.executorId = executorId ∧ entry.1 = name := by
  induction entries generalizing s with
  | nil => exact .inl h
  | cons entry entries ih =>
    rcases ih h with hroute | ⟨found, hfound, hentry⟩
    · change Function.update s.routes entry.2.executorId (some entry.1) executorId = some name at hroute
      by_cases heq : executorId = entry.2.executorId
      · rw [heq, Function.update_self] at hroute
        exact .inr ⟨entry, List.mem_cons_self, heq.symm, Option.some_inj.mp hroute⟩
      · rw [Function.update_of_ne heq] at hroute
        exact .inl hroute
    · exact .inr ⟨found, List.mem_cons_of_mem _ hfound, hentry⟩

/-- What goes together with the rest is accepted after what is in front of it. -/
theorem accepts_of_consistent {before after : List Entry}
    (h : s.Consistent capability requested (before ++ entry :: after)) :
    (s.recordAll before).Accepts capability requested entry := by
  induction before generalizing s with
  | nil => exact (consistent_cons.mp h).1
  | cons first before ih => exact ih (consistent_cons.mp h).2

/-- Offers that are recorded already change nothing, and the loop does not get past one that is
refused. -/
theorem collect_refused {before : List Entry} (after : List Entry) (hbefore : ∀ e ∈ before, s.Recorded e)
    (hentry : ¬ s.Accepts capability requested entry) :
    ∃ err, s.collect capability requested (before ++ entry :: after) = (.error err, s) := by
  induction before with
  | nil =>
    rw [List.nil_append, collect]
    cases hcheck : s.check capability requested entry with
    | error err => exact ⟨err, rfl⟩
    | ok done => exact absurd (check_ok.mp hcheck) hentry
  | cons first before ih =>
    obtain ⟨hfirst, hrest⟩ := List.forall_mem_cons.mp hbefore
    rw [List.cons_append, collect]
    cases hcheck : s.check capability requested first with
    | error err => exact ⟨err, rfl⟩
    | ok done =>
      obtain ⟨err, herr⟩ := ih hrest
      dsimp only
      rw [record_of_recorded hfirst, herr]
      exact ⟨err, rfl⟩

end Maps

/-! ## One call -/

namespace CompositeQuoteProvider

variable {c : CompositeQuoteProvider} {s : Maps} {requested : List String} {entry : Entry}
  {entries : List Entry} {respond : String → List String → Except QuoteFailure (List CapabilityOffer)}

def AtHome (c : CompositeQuoteProvider) (s : Maps) : Prop :=
  ∀ executorId, c.sourceOf s executorId = c.home executorId

theorem sourceOf_of_route {executorId name : String} (h : s.routes executorId = some name) :
    c.sourceOf s executorId = some name := by
  rw [sourceOf, h]

theorem home_mem {executorId name : String} (h : c.home executorId = some name) : name ∈ c.sources := by
  unfold home sourceOf initial at h
  cases hroute : c.executorSources executorId with
  | some source =>
    simp only [hroute, Option.some_inj] at h
    exact h ▸ (c.known executorId source hroute).2
  | none =>
    simp only [hroute] at h
    split_ifs at h
    exact List.mem_of_head? h

theorem eq_of_single {name name' : String} (h : c.sources.length = 1) (hname : name ∈ c.sources)
    (hname' : name' ∈ c.sources) : name = name' := by
  obtain ⟨single, hsingle⟩ := List.length_eq_one_iff.mp h
  rw [hsingle, List.mem_singleton] at hname hname'
  rw [hname, hname']

theorem mem_requests {request : String × List String}
    (h : request ∈ (c.partitionNames s requested).map fun name =>
      (name, c.partition s requested name)) {executorId : String} (hexecutor : executorId ∈ request.2) :
    c.sourceOf s executorId = some request.1 := by
  obtain ⟨name, -, rfl⟩ := List.mem_map.mp h
  exact of_decide_eq_true (List.mem_filter.mp hexecutor).2

theorem mem_partitionNames {name : String} (h : name ∈ c.partitionNames s requested) :
    ∃ executorId ∈ requested, c.sourceOf s executorId = some name := by
  have hname := (List.perm_insertionSort _ _).mem_iff.mp h
  exact List.mem_filterMap.mp (List.mem_eraseDups.mp hname)

theorem exists_of_forall₂ {α β : Type} {R : α → β → Prop} {as : List α} {bs : List β}
    (h : List.Forall₂ R as bs) {b : β} (hb : b ∈ bs) : ∃ a ∈ as, R a b := by
  induction h with
  | nil => exact absurd hb List.not_mem_nil
  | cons hfirst hrest ih =>
    rcases List.mem_cons.mp hb with rfl | hb
    · exact ⟨_, List.mem_cons_self, hfirst⟩
    · obtain ⟨a, ha, hab⟩ := ih hb
      exact ⟨a, List.mem_cons_of_mem _ ha, hab⟩

/-- Every offer is one that a source returned which was asked. -/
theorem gather_mem (h : c.gather s requested respond = .ok entries) (hentry : entry ∈ entries) :
    entry.1 ∈ c.partitionNames s requested ∧
      ∃ batch, respond entry.1 (c.partition s requested entry.1) = .ok batch ∧ entry.2 ∈ batch := by
  obtain ⟨batches, hbatches, h⟩ := bind_ok.mp h
  obtain rfl := pure_ok.mp h
  obtain ⟨batch, hbatch, hmem⟩ := List.mem_flatten.mp hentry
  obtain ⟨name, hname, hresponse⟩ := exists_of_forall₂ (forall₂_of_mapM hbatches) hbatch
  obtain ⟨offers, hoffers, rfl⟩ := map_ok.mp hresponse
  obtain ⟨offer, hoffer, rfl⟩ := List.mem_map.mp hmem
  exact ⟨hname, offers, hoffers, hoffer⟩

theorem atHome_recordAll {capability : String} (h : c.AtHome s)
    (hconsistent : s.Consistent capability requested entries)
    (hsources : ∀ entry ∈ entries, entry.1 ∈ c.sources) :
    c.AtHome (s.recordAll entries) ↔ ∀ entry ∈ entries, c.home entry.2.executorId ≠ none := by
  constructor
  · intro hafter entry hentry
    rw [← hafter, sourceOf_of_route (Maps.recorded_recordAll hconsistent hentry).2]
    exact Option.some_ne_none _
  · intro hhome executorId
    cases hroute : (s.recordAll entries).routes executorId with
    | none =>
      have hbefore : s.routes executorId = none := by
        by_contra hsome
        obtain ⟨name, hname⟩ := Option.ne_none_iff_exists'.mp hsome
        rw [(Maps.kept_recordAll hconsistent).2 executorId name hname] at hroute
        cases hroute
      rw [← h executorId, sourceOf, sourceOf, hroute, hbefore]
    | some name =>
      rw [sourceOf_of_route hroute]
      rcases Maps.routes_recordAll hroute with hbefore | ⟨entry, hentry, rfl, rfl⟩
      · rw [← h executorId, sourceOf_of_route hbefore]
      · -- a new route leads home: it was there, or there is one source only
        obtain ⟨home, hhome⟩ := Option.ne_none_iff_exists'.mp (hhome entry hentry)
        have hsource := (h entry.2.executorId).trans hhome
        rw [hhome]
        unfold sourceOf at hsource
        cases hbefore : s.routes entry.2.executorId with
        | some source =>
          rw [hbefore] at hsource
          have haccepts := (hconsistent.1 entry hentry).2.2 source hbefore
          rw [← Option.some_inj.mp hsource, haccepts]
        | none =>
          rw [hbefore] at hsource
          dsimp only at hsource
          split_ifs at hsource with hsingle
          rw [eq_of_single hsingle (hsources entry hentry) (home_mem hhome)]

/-- A call for offers of which the sources return theirs. -/
theorem getOffers_of_gather {capability : String} {executorIds : List String}
    (h : c.gather s executorIds.eraseDups respond = .ok entries) :
    c.getOffers s capability executorIds respond =
      ⟨(c.partitionNames s executorIds.eraseDups).map fun name =>
          (name, c.partition s executorIds.eraseDups name),
        (s.collect capability executorIds.eraseDups entries).1.map .offers,
        (s.collect capability executorIds.eraseDups entries).2⟩ := by
  rw [getOffers, h]

theorem requests_getOffers {capability : String} {executorIds : List String} :
    (c.getOffers s capability executorIds respond).requests =
      (c.partitionNames s executorIds.eraseDups).map fun name =>
        (name, c.partition s executorIds.eraseDups name) := by
  unfold getOffers
  dsimp only
  cases c.gather s executorIds.eraseDups respond with
  | error err => rfl
  | ok entries => rfl

theorem getOffers_requests {capability : String} {executorIds : List String} (h : c.AtHome s) :
    ∀ request ∈ (c.getOffers s capability executorIds respond).requests, ∀ executorId ∈ request.2,
      c.home executorId = some request.1 := by
  intro request hrequest executorId hexecutor
  rw [requests_getOffers] at hrequest
  exact (h executorId).symm.trans (mem_requests hrequest hexecutor)

theorem gather_sources (h : c.AtHome s) (hgather : c.gather s requested respond = .ok entries) :
    ∀ entry ∈ entries, entry.1 ∈ c.sources := by
  intro entry hentry
  obtain ⟨executorId, -, hsource⟩ := mem_partitionNames (gather_mem hgather hentry).1
  exact home_mem ((h executorId).symm.trans hsource)

/-- A call for offers in which all that is recorded goes together keeps all the law asks for but the
homes. -/
theorem lawful_of_consistent {capability : String} {executorIds : List String} (h : c.AtHome s)
    (hgather : c.gather s executorIds.eraseDups respond = .ok entries)
    (hconsistent : s.Consistent capability executorIds.eraseDups entries)
    (hcollect : s.collect capability executorIds.eraseDups entries =
      (.ok (entries.map Prod.snd), s.recordAll entries))
    (hhome : c.AtHome (s.recordAll entries)) :
    Lawful c s (.getOffers capability executorIds respond) := by
  have hcall : c.call s (.getOffers capability executorIds respond) =
      ⟨(c.partitionNames s executorIds.eraseDups).map fun name =>
          (name, c.partition s executorIds.eraseDups name),
        .ok (.offers (entries.map Prod.snd)), s.recordAll entries⟩ := by
    change c.getOffers s capability executorIds respond = _
    rw [getOffers_of_gather hgather, hcollect]
    rfl
  have hstep : c.step s (.getOffers capability executorIds respond) = s.recordAll entries := by
    rw [step, hcall]
  refine ⟨getOffers_requests h, ?_, ?_, ?_, ?_, ?_, ?_⟩
  · rw [hstep]
    exact hhome
  · intro offers hoffers offer hoffer
    rw [hcall] at hoffers ⊢
    obtain rfl := Answer.offers.inj (Except.ok.inj hoffers)
    obtain ⟨entry, hentry, rfl⟩ := List.mem_map.mp hoffer
    obtain ⟨hname, batch, hbatch, hmem⟩ := gather_mem hgather hentry
    refine ⟨_, List.mem_map_of_mem hname, ⟨batch, hbatch, hmem⟩, ?_⟩
    rw [hstep]
    exact (Maps.recorded_recordAll hconsistent hentry).1
  · intro quote hquote
    rw [hcall] at hquote
    cases hquote
  · rw [hstep]
    exact (Maps.kept_recordAll hconsistent).1
  · rw [hstep, Maps.quoteProvenance_recordAll]
    exact fun _ _ h => h
  · intro _ err herr
    rw [hcall] at herr
    cases herr

/-- A call for offers that raises keeps the law when it leaves the maps as they were. -/
theorem lawful_of_unchanged {capability : String} {executorIds : List String} (h : c.AtHome s)
    {err : QuoteFailure}
    (hresult : (c.call s (.getOffers capability executorIds respond)).result = .error err)
    (hstep : c.step s (.getOffers capability executorIds respond) = s) :
    Lawful c s (.getOffers capability executorIds respond) := by
  refine ⟨getOffers_requests h, ?_, ?_, ?_, ?_, ?_, fun _ _ _ => hstep⟩
  · rw [hstep]
    exact h
  · intro offers hoffers
    rw [hresult] at hoffers
    cases hoffers
  · intro quote hquote
    rw [hresult] at hquote
    cases hquote
  · rw [hstep]
    exact fun _ _ h => h
  · rw [hstep]
    exact fun _ _ h => h

/-- A call for offers keeps the law just when the offers go together, or those in front of the first
that is refused are recorded already. -/
theorem getOffers_lawful_iff {capability : String} {executorIds : List String} (h : c.AtHome s) :
    Lawful c s (.getOffers capability executorIds respond) ↔
      Careful c s (.getOffers capability executorIds respond) := by
  constructor
  · intro hlaw entries hgather
    have hcall : c.call s (.getOffers capability executorIds respond) = _ :=
      getOffers_of_gather hgather
    have hstep : c.step s (.getOffers capability executorIds respond) = _ :=
      congrArg Outcome.maps hcall
    rcases Maps.collect_cases s capability executorIds.eraseDups entries with
      ⟨hconsistent, hcollect⟩ | ⟨before, entry, after, err, rfl, hconsistent, hrefused, hcollect⟩
    · refine .inl ⟨hconsistent, (atHome_recordAll h hconsistent (gather_sources h hgather)).mp ?_⟩
      have hhome := hlaw.home
      rw [hstep, hcollect] at hhome
      exact hhome
    · right
      rw [hcollect] at hcall hstep
      have hsame : s.recordAll before = s :=
        hstep.symm.trans (hlaw.unchanged rfl err (congrArg Outcome.result hcall))
      refine ⟨before, entry, after, rfl, fun e he => ?_, ?_⟩
      · have hrecorded := Maps.recorded_recordAll hconsistent he
        rwa [hsame] at hrecorded
      · rwa [hsame] at hrefused
  · intro hcareful
    cases hgather : c.gather s executorIds.eraseDups respond with
    | error err =>
      have hcall : c.getOffers s capability executorIds respond =
          ⟨(c.partitionNames s executorIds.eraseDups).map fun name =>
            (name, c.partition s executorIds.eraseDups name), .error err, s⟩ := by
        rw [getOffers, hgather]
      exact lawful_of_unchanged h (congrArg Outcome.result hcall) (congrArg Outcome.maps hcall)
    | ok entries =>
      rcases hcareful entries hgather with ⟨hconsistent, hhome⟩ |
        ⟨before, entry, after, rfl, hbefore, hrefused⟩
      · rcases Maps.collect_cases s capability executorIds.eraseDups entries with
          ⟨-, hcollect⟩ | ⟨before, entry, after, err, rfl, hprefix, hrefused, -⟩
        · exact lawful_of_consistent h hgather hconsistent hcollect
            ((atHome_recordAll h hconsistent (gather_sources h hgather)).mpr hhome)
        · exact absurd (Maps.accepts_of_consistent hconsistent) hrefused
      · obtain ⟨err, hcollect⟩ := Maps.collect_refused after hbefore hrefused
        have hcall : c.call s (.getOffers capability executorIds respond) = _ :=
          getOffers_of_gather hgather
        rw [hcollect] at hcall
        exact lawful_of_unchanged h (congrArg Outcome.result hcall) (congrArg Outcome.maps hcall)

/-- A call for a quote keeps the law. -/
theorem requestQuote_lawful {request : QuoteRequestV2}
    {respondQuote : String → Except QuoteFailure BoundedQuote} (h : c.AtHome s) :
    Lawful c s (.requestQuote request respondQuote) := by
  have hsame {outcome : Outcome} {err : QuoteFailure}
      (hcall : c.call s (.requestQuote request respondQuote) = outcome)
      (hresult : outcome.result = .error err) (hmaps : outcome.maps = s)
      (hrequests : ∀ r ∈ outcome.requests, ∀ executorId ∈ r.2, c.home executorId = some r.1) :
      Lawful c s (.requestQuote request respondQuote) := by
    have hstep : c.step s (.requestQuote request respondQuote) = s := by
      rw [step, hcall, hmaps]
    have hrefused := (congrArg Outcome.result hcall).trans hresult
    refine ⟨hcall ▸ hrequests, ?_, ?_, ?_, ?_, ?_, fun hcalls => by cases hcalls⟩
    · rw [hstep]
      exact h
    · intro offers hoffers
      rw [hrefused] at hoffers
      cases hoffers
    · intro quote hquote
      rw [hrefused] at hquote
      cases hquote
    · rw [hstep]
      exact fun _ _ h => h
    · rw [hstep]
      exact fun _ _ h => h
  have hcall : c.call s (.requestQuote request respondQuote) = c.requestQuote s request respondQuote :=
    rfl
  unfold requestQuote at hcall
  cases hsource : c.sourceOf s request.executorId with
  | none =>
    rw [hsource] at hcall
    exact hsame hcall rfl rfl fun r hr => absurd hr List.not_mem_nil
  | some name =>
    rw [hsource] at hcall
    dsimp only at hcall
    have hhome : ∀ r ∈ [(name, [request.executorId])], ∀ executorId ∈ r.2,
        c.home executorId = some r.1 := by
      intro r hr executorId hexecutor
      rw [List.mem_singleton] at hr
      subst hr
      rw [List.mem_singleton] at hexecutor
      subst hexecutor
      exact (h request.executorId).symm.trans hsource
    cases hresponse : respondQuote name with
    | error err =>
      rw [hresponse] at hcall
      exact hsame hcall rfl rfl hhome
    | ok quote =>
      rw [hresponse] at hcall
      dsimp only at hcall
      by_cases hcollision : ∃ previous ∈ s.quoteProvenance quote.quoteId, previous ≠ name
      · rw [if_pos hcollision] at hcall
        exact hsame hcall rfl rfl hhome
      · rw [if_neg hcollision] at hcall
        have hstep := congrArg Outcome.maps hcall
        change c.step s (.requestQuote request respondQuote) = _ at hstep
        push Not at hcollision
        refine ⟨hcall ▸ hhome, ?_, ?_, ?_, ?_, ?_, fun hcalls => by cases hcalls⟩
        · rw [hstep]
          exact h
        · intro offers hoffers
          rw [hcall] at hoffers
          cases hoffers
        · intro found hfound
          rw [hcall] at hfound ⊢
          obtain rfl := Answer.quote.inj (Except.ok.inj hfound)
          refine ⟨_, List.mem_singleton_self _, hresponse, ?_⟩
          rw [hstep]
          exact Function.update_self ..
        · rw [hstep]
          exact fun _ _ h => h
        · rw [hstep]
          intro id previous hprevious
          change Function.update s.quoteProvenance quote.quoteId (some name) id = some previous
          by_cases heq : id = quote.quoteId
          · subst heq
            rw [Function.update_self, hcollision previous hprevious]
          · rwa [Function.update_of_ne heq]

theorem lawful_iff {call : Call} (h : c.AtHome s) : Lawful c s call ↔ Careful c s call := by
  cases call with
  | getOffers capability executorIds respond => exact getOffers_lawful_iff h
  | requestQuote request respond => exact iff_of_true (requestQuote_lawful h) trivial

/-- Runs of one kind are those of another where the kinds agree on the states that are reached. -/
theorem admissible_iff {σ ι : Type} {step : σ → ι → σ} {P Q : σ → ι → Prop} {Inv : σ → Prop}
    (hiff : ∀ s i, Inv s → (P s i ↔ Q s i)) (hstep : ∀ s i, P s i → Inv (step s i)) {s : σ}
    {is : List ι} (hs : Inv s) : Admissible step P s is ↔ Admissible step Q s is := by
  induction is generalizing s with
  | nil => exact Iff.rfl
  | cons i is ih =>
    have hfirst := hiff s i hs
    constructor
    · exact fun h => ⟨hfirst.mp h.1, (ih (hstep s i h.1)).mp h.2⟩
    · intro h
      have hlaw := hfirst.mpr h.1
      exact ⟨hlaw, (ih (hstep s i hlaw)).mpr h.2⟩

/-- All calls of a run keep the law just when all are careful in the maps they find. -/
theorem composite_lawful_iff (c : CompositeQuoteProvider) (calls : List Call) :
    Admissible c.step (Lawful c) c.initial calls ↔ Admissible c.step (Careful c) c.initial calls :=
  have hiff (s : Maps) (call : Call) (h : c.AtHome s) : Lawful c s call ↔ Careful c s call :=
    lawful_iff h
  have hstart : c.AtHome c.initial := fun _ => rfl
  admissible_iff hiff (fun _ _ h => h.home) hstart

end CompositeQuoteProvider

def twoRoutes (executorId : String) : Option String :=
  if executorId = "fast" then some "first" else if executorId = "slow" then some "second" else none

theorem twoRoutes_known (executorId name : String) (h : twoRoutes executorId = some name) :
    executorId ≠ "" ∧ name ∈ ["first", "second"] := by
  unfold twoRoutes at h
  split_ifs at h with hfast hslow
  · obtain rfl := Option.some_inj.mp h
    subst hfast
    decide
  · obtain rfl := Option.some_inj.mp h
    subst hslow
    decide

theorem sources_nonempty : ["first", "second"] ≠ [] := by decide

theorem sources_named : "" ∉ ["first", "second"] := by decide

theorem sources_nodup : ["first", "second"].Nodup := by decide

def twoSources : CompositeQuoteProvider where
  sources := ["first", "second"]
  executorSources := twoRoutes
  nonempty := sources_nonempty
  named := sources_named
  nodup := sources_nodup
  known := twoRoutes_known

def offerOf (offerId executorId : String) : CapabilityOffer where
  offerId := offerId
  providerId := "provider.example"
  capability := "text.statistics@1"
  executorId := executorId
  executorFingerprint := ""
  pricingRules := []
  fixedAttemptFee := none
  settlementCurrency := "USD"
  validFrom := 0
  validUntil := 10
  rest := ""

/-- Both sources use one id. -/
def collidingCall : Call :=
  .getOffers "text.statistics@1" ["fast", "slow"] fun name _ =>
    .ok [offerOf "offer-1" (if name = "first" then "fast" else "slow")]

/-- The first source offers for an executor without a source. -/
def strayCall : Call :=
  .getOffers "text.statistics@1" ["fast", "unmapped"] fun _ _ => .ok [offerOf "offer-2" "unmapped"]

/-- A refused call leaves the offers before the collision behind, and an executor without a source is
routed to one that advertises it. -/
theorem refused_call_records :
    (twoSources.call twoSources.initial collidingCall).result =
        .error (.provider .invalidResponse "offer ID collision across quote sources") ∧
      (twoSources.step twoSources.initial collidingCall).offerProvenance "offer-1" = some "first" ∧
      twoSources.initial.offerProvenance "offer-1" = none ∧
      twoSources.home "unmapped" = none ∧
      twoSources.sourceOf (twoSources.step twoSources.initial strayCall) "unmapped" = some "first" ∧
      ¬ Lawful twoSources twoSources.initial collidingCall := by
  have hresult : (twoSources.call twoSources.initial collidingCall).result =
      .error (.provider .invalidResponse "offer ID collision across quote sources") := by
    decide +kernel
  have hafter : (twoSources.step twoSources.initial collidingCall).offerProvenance "offer-1" =
      some "first" := by
    decide +kernel
  refine ⟨hresult, hafter, rfl, by decide +kernel, by decide +kernel, fun hlaw => ?_⟩
  rw [hlaw.unchanged rfl _ hresult] at hafter
  cases hafter

end AeepRouter.Composite
