import FacetedSearch.Proofs.Browse.Catalog

namespace FacetedSearch

namespace SegmentId

theorem toNat_next {id : SegmentId} (room : id.value.toNat + 1 < 2 ^ 64) :
    id.next.value.toNat = id.value.toNat + 1 := by
  unfold next
  rw [UInt64.toNat_add]
  exact Nat.mod_eq_of_lt room

end SegmentId

def Registry.Crowds (r : Registry) (s : Source) : Prop :=
  ∃ f, .simple f ∈ r.facets ∧ ∃ docno < s.documentCount, 2 ≤ (s.storedValues docno f.field).length

theorem Registry.crowds_exact {r : Registry} {s : Source} :
    ¬ r.Crowds s ↔ ∀ f ∈ r.facets, ∀ docno < s.documentCount, f.Admits (s.storedValues docno) := by
  unfold Crowds
  push Not
  constructor
  · intro single f member docno inside
    cases f with
    | simple f => exact Nat.le_of_lt_succ (single f member docno inside)
    | keyed f => trivial
    | combo => trivial
  · intro admits f member docno inside
    exact Nat.lt_succ_of_le (admits (.simple f) member docno inside)

namespace Catalog

inductive Call where
  | publish (s : Source)
  | retire (id : SegmentId)

inductive Reply where
  | published (id : SegmentId)
  | refused (e : Error)
  | retired (wasLive : Bool)
deriving Repr, DecidableEq

def call (c : Catalog) : Call → Catalog × Reply
  | .publish s =>
    match c.publish s with
    | .ok (next, id) => (next, .published id)
    | .error e => (c, .refused e)
  | .retire id => ((c.retire id).1, .retired (c.retire id).2)

def run (c : Catalog) : List Call → Catalog × List Reply
  | [] => (c, [])
  | first :: rest =>
    let (last, replies) := (c.call first).1.run rest
    (last, (c.call first).2 :: replies)

def issued (replies : List Reply) : List SegmentId :=
  replies.filterMap fun
    | .published id => some id
    | _ => none

variable {r : Registry} {c : Catalog} {s : Source} {count : Nat}

theorem call_refused (crowds : c.registry.Crowds s) : ∃ e, c.call (.publish s) = (c, .refused e) := by
  cases loaded : LoadedFacets.load c.registry s with
  | error e => exact ⟨.segmentNotLoaded c.nextId.label e.message, by simp only [call, publish, loaded]⟩
  | ok facets => exact absurd crowds (Registry.crowds_exact.mpr (LoadedFacets.load_exact.mp loaded).2)

theorem call_published (fits : ¬ c.registry.Crowds s) : ∃ facets, LoadedFacets.load c.registry s = .ok facets ∧
    c.call (.publish s) = ({ c with live := c.live ++ [⟨c.nextId, s, facets⟩], nextId := c.nextId.next },
      .published c.nextId) := by
  have loaded := LoadedFacets.load_exact.mpr ⟨rfl, Registry.crowds_exact.mp fits⟩
  exact ⟨_, loaded, by simp only [call, publish, loaded]⟩

theorem call_retired {front back : List LiveSegment} {seg : LiveSegment} (listed : c.live = front ++ seg :: back)
    (apart : ∀ other ∈ front ++ back, other.id ≠ seg.id) :
    c.call (.retire seg.id) = ({ c with live := front ++ back }, .retired true) := by
  have live : c.live.any (·.id = seg.id) = true := by simp [listed]
  have kept : c.live.filter (·.id ≠ seg.id) = front ++ back := by
    rw [listed, List.filter_append, List.filter_cons_of_neg (by simp), ← List.filter_append]
    exact List.filter_eq_self.mpr fun other member => decide_eq_true (apart other member)
  simp only [call, retire, live, if_true, kept]

theorem call_passed {id : SegmentId} (unknown : ∀ seg ∈ c.live, seg.id ≠ id) :
    c.call (.retire id) = (c, .retired false) := by
  have none : ¬ c.live.any (·.id = id) = true := by simpa using unknown
  simp only [call, retire, if_neg none]

-- What every call keeps: live numbers ascend below the next one, which is how
-- many were given out.
structure Ordered (r : Registry) (count : Nat) (c : Catalog) : Prop where
  registry : c.registry = r
  next : c.nextId.value.toNat = count
  ascending : c.live.Pairwise fun s t => s.id.value < t.id.value
  below : ∀ s ∈ c.live, s.id.value < c.nextId.value
  loads : ∀ s ∈ c.live, s.Loads r

theorem Ordered.start (r : Registry) : Ordered r 0 { registry := r } := ⟨rfl, rfl, .nil, nofun, nofun⟩

theorem Ordered.publish (ordered : Ordered r count c) {facets : LoadedFacets} (room : count + 1 < 2 ^ 64)
    (loaded : LoadedFacets.load r s = .ok facets) :
    Ordered r (count + 1) { c with live := c.live ++ [⟨c.nextId, s, facets⟩], nextId := c.nextId.next } := by
  have next : c.nextId.next.value.toNat = count + 1 := by
    rw [SegmentId.toNat_next (ordered.next ▸ room), ordered.next]
  have grows : c.nextId.value < c.nextId.next.value := by
    rw [UInt64.lt_iff_toNat_lt, next, ordered.next]
    exact Nat.lt_succ_self count
  refine ⟨ordered.registry, next, ?_, ?_, ?_⟩
  · refine List.pairwise_append.mpr ⟨ordered.ascending, List.pairwise_singleton _ _, ?_⟩
    exact fun t old last new => List.mem_singleton.mp new ▸ ordered.below t old
  · refine List.forall_mem_append.mpr ⟨?_, List.forall_mem_singleton.mpr grows⟩
    exact fun t old => UInt64.lt_trans (ordered.below t old) grows
  · exact List.forall_mem_append.mpr ⟨ordered.loads, List.forall_mem_singleton.mpr loaded⟩

theorem Ordered.retire (ordered : Ordered r count c) (id : SegmentId) : Ordered r count (c.retire id).1 := by
  unfold Catalog.retire
  split
  · exact ⟨ordered.registry, ordered.next, ordered.ascending.filter _,
      fun t kept => ordered.below t (List.mem_filter.mp kept).1, fun t kept => ordered.loads t (List.mem_filter.mp kept).1⟩
  · exact ordered

theorem Ordered.call (ordered : Ordered r count c) (call : Call)
    (room : count + (issued [(c.call call).2]).length < 2 ^ 64) :
    Ordered r (count + (issued [(c.call call).2]).length) (c.call call).1 ∧
      issued [(c.call call).2] = (List.range' count (issued [(c.call call).2]).length).map fun n => ⟨UInt64.ofNat n⟩ := by
  cases call with
  | retire id => exact ⟨ordered.retire id, rfl⟩
  | publish s =>
    by_cases crowds : c.registry.Crowds s
    · obtain ⟨e, refused⟩ := call_refused crowds
      rw [refused] at room ⊢
      exact ⟨ordered, rfl⟩
    · obtain ⟨facets, loaded, published⟩ := call_published crowds
      rw [published] at room ⊢
      refine ⟨ordered.publish room (ordered.registry ▸ loaded), ?_⟩
      have own : c.nextId = ⟨UInt64.ofNat count⟩ := by
        rw [← ordered.next, UInt64.ofNat_toNat]
      exact congrArg (fun id => [id]) own

theorem Ordered.run (ordered : Ordered r count c) (calls : List Call)
    (room : count + (issued (c.run calls).2).length < 2 ^ 64) :
    Ordered r (count + (issued (c.run calls).2).length) (c.run calls).1 ∧
      issued (c.run calls).2 = (List.range' count (issued (c.run calls).2).length).map fun n => ⟨UInt64.ofNat n⟩ := by
  induction calls generalizing c count with
  | nil => exact ⟨ordered, rfl⟩
  | cons first rest ih =>
    have step : issued (c.run (first :: rest)).2 = issued [(c.call first).2] ++ issued ((c.call first).1.run rest).2 :=
      List.filterMap_append (l := [(c.call first).2])
    rw [step, List.length_append] at room ⊢
    obtain ⟨after, given⟩ := ordered.call first (by omega)
    obtain ⟨last, later⟩ := ih after (by omega)
    refine ⟨Nat.add_assoc _ _ _ ▸ last, ?_⟩
    rw [← List.range'_append_1, List.map_append, ← given, ← later]

-- What a further call does and answers, told from what it is called with. The
-- guards leave no call out and no two of them hold of one.
structure Answers (r : Registry) (c : Catalog) : Prop where
  refused : ∀ s, r.Crowds s → ∃ e, c.call (.publish s) = (c, .refused e)
  published : ∀ s, ¬ r.Crowds s → ∃ facets, LoadedFacets.load r s = .ok facets ∧ c.call (.publish s) =
    ({ c with live := c.live ++ [⟨c.nextId, s, facets⟩], nextId := c.nextId.next }, .published c.nextId)
  retired : ∀ front seg back, c.live = front ++ seg :: back →
    c.call (.retire seg.id) = ({ c with live := front ++ back }, .retired true)
  passed : ∀ id, (∀ seg ∈ c.live, seg.id ≠ id) → c.call (.retire id) = (c, .retired false)

theorem Ordered.answers (ordered : Ordered r count c) : Answers r c := by
  obtain ⟨rfl, _, ascending, _, _⟩ := ordered
  refine ⟨fun s => call_refused, fun s => call_published, fun front seg back listed => ?_, fun id => call_passed⟩
  apply call_retired listed
  rw [listed, List.pairwise_append, List.pairwise_cons] at ascending
  obtain ⟨_, ⟨after, _⟩, before⟩ := ascending
  intro other member same
  rcases List.mem_append.mp member with early | late
  · have less := before other early seg List.mem_cons_self
    rw [same] at less
    exact UInt64.lt_irrefl _ less
  · have less := after other late
    rw [same] at less
    exact UInt64.lt_irrefl _ less

theorem Ordered.docCount (ordered : Ordered r count c) : c.docCount = (c.live.map (·.source.documentCount)).sum :=
  congrArg List.sum (List.map_congr_left fun s live => (ordered.loads s live).docCount)

theorem numbers_distinct {count : Nat} (few : count < 2 ^ 64) :
    ((List.range' 0 count).map fun n => SegmentId.mk (UInt64.ofNat n)).Nodup := by
  refine List.Nodup.map_on (fun m early n late same => ?_) List.nodup_range'
  have below : ∀ n ∈ List.range' 0 count, n < 2 ^ 64 := fun n member => by
    rw [List.mem_range'_1] at member
    omega
  rw [SegmentId.mk.injEq, ← UInt64.toNat_inj] at same
  rwa [UInt64.toNat_ofNat_of_lt' (below m early), UInt64.toNat_ofNat_of_lt' (below n late)] at same

theorem run_in_order (r : Registry) (calls : List Call) (c : Catalog) (replies : List Reply)
    (ran : run { registry := r } calls = (c, replies)) (few : (issued replies).length < 2 ^ 64) :
    Ordered r (issued replies).length c ∧ (issued replies).Nodup ∧ c.segmentCount = c.live.length ∧
      c.docCount = (c.live.map (·.source.documentCount)).sum ∧ Answers r c := by
  have all := (Ordered.start r).run calls
  rw [ran, Nat.zero_add] at all
  obtain ⟨ordered, numbers⟩ := all few
  refine ⟨ordered, ?_, rfl, ordered.docCount, ordered.answers⟩
  rw [numbers]
  exact numbers_distinct few

def shades : Registry := Registry.add ∅ (.simple { name := "shade" }) (by decide) nofun

def pale : Source := Segment.toSource { documents := [{ stored := [("shade", "pale")] }] }

def mixed : Source := Segment.toSource { documents := [{}, { stored := [("shade", "pale"), ("shade", "dark")] }] }

theorem run_in_order_shades : ∃ c replies,
    run { registry := shades } [.publish pale, .publish mixed, .publish pale, .retire ⟨0⟩, .retire ⟨0⟩, .publish pale] =
      (c, replies) ∧ issued replies = [⟨0⟩, ⟨1⟩, ⟨2⟩] ∧ Ordered shades 3 c ∧ (issued replies).Nodup ∧ c.docCount = 2 ∧
      Answers shades c := by
  obtain ⟨c, replies, ran, given, documents⟩ : ∃ c replies, run { registry := shades }
      [.publish pale, .publish mixed, .publish pale, .retire ⟨0⟩, .retire ⟨0⟩, .publish pale] = (c, replies) ∧
        issued replies = [⟨0⟩, ⟨1⟩, ⟨2⟩] ∧ c.docCount = 2 := ⟨_, _, rfl, rfl, rfl⟩
  obtain ⟨ordered, distinct, _, _, answers⟩ := run_in_order shades _ c replies ran (by rw [given]; decide)
  rw [given] at ordered
  exact ⟨c, replies, ran, given, ordered, distinct, documents, answers⟩

end Catalog

end FacetedSearch
