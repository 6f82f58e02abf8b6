import FacetedSearch.Proofs.Browse.Hits

namespace FacetedSearch

def Answer.outcome (a : Answer) : Nat × List Nat × Std.ExtTreeMap String FacetAnswer := (a.hitCount, a.docIds, a.facets)

namespace Browser

def erase (k : RankedHit) : Nat × List (Option String) := (k.hit.docId, k.keys)

-- Contributions that add up to the same answer: the same documents in the same
-- order, and the same counts whatever they are added to.
structure Amounts (shares shares' : List Share) : Prop where
  documents : ∀ base, (numbered base shares).map erase = (numbered base shares').map erase
  sizes : (shares.map (·.docCount)).sum = (shares'.map (·.docCount)).sum
  counts : ∀ found : List ValueCounts, shares.foldl (fun counts s => counts.zipWith ValueCounts.merge s.counts) found =
    shares'.foldl (fun counts s => counts.zipWith ValueCounts.merge s.counts) found

namespace Amounts

variable {shares shares' shares'' : List Share}

theorem trans (first : Amounts shares shares') (second : Amounts shares' shares'') : Amounts shares shares'' where
  documents base := (first.documents base).trans (second.documents base)
  sizes := first.sizes.trans second.sizes
  counts found := (first.counts found).trans (second.counts found)

theorem cons (share : Share) (rest : Amounts shares shares') : Amounts (share :: shares) (share :: shares') where
  documents base := by rw [numbered, numbered, List.map_append, List.map_append, rest.documents]
  sizes := by rw [List.map_cons, List.map_cons, List.sum_cons, List.sum_cons, rest.sizes]
  counts found := by rw [List.foldl_cons, List.foldl_cons, rest.counts]

end Amounts

theorem outcome_assemble {r : Request} {tasks : List CountTask} {shares shares' : List Share}
    (amounts : Amounts shares shares') : (assemble r tasks shares).outcome = (assemble r tasks shares').outcome := by
  have order : ∀ shares : List Share, (ranked r shares).map (·.docId) =
      (((numbered 0 shares).map erase).mergeSort fun a b =>
        ((RankedHit.compareKeys r.sort a.2 b.2).then (Ord.compare a.1 b.1)).isLE).map Prod.fst := by
    intro shares
    have sorted := List.map_mergeSort (f := erase) (r := fun a b => (RankedHit.compare r.sort a b).isLE)
      (s := fun a b => ((RankedHit.compareKeys r.sort a.2 b.2).then (Ord.compare a.1 b.1)).isLE)
      (l := numbered 0 shares) fun _ _ _ _ => rfl
    unfold ranked RankedHit.sort
    rw [← sorted, List.map_map, List.map_map]
    rfl
  have ids : (ranked r shares).map (·.docId) = (ranked r shares').map (·.docId) := by
    rw [order, order, amounts.documents]
  have count := congrArg List.length ids
  rw [List.length_map, List.length_map] at count
  unfold Answer.outcome Answer.docIds assemble totals
  simp only [List.map_take, List.map_drop, ids, count, amounts.counts]

end Browser

def Segment.plain (sectionField : String) (documents : List Document) : Segment := { documents, sectionField }

theorem DocSet.toList_cut {whole front back : DocSet} {n : Nat} (low : ∀ i < n, (i ∈ whole ↔ i ∈ front))
    (high : ∀ i, n + i ∈ whole ↔ i ∈ back) (inside : ∀ i ∈ front, i < n) :
    whole.toList = front.toList ++ back.toList.map (n + ·) := by
  have ascending : (front.toList ++ back.toList.map (n + ·)).Pairwise fun a b => compare a b = .lt := by
    refine List.pairwise_append.mpr ⟨front.ascending, List.pairwise_map.mpr (back.ascending.imp fun less => ?_), ?_⟩
    · exact Nat.compare_eq_lt.mpr (Nat.add_lt_add_left (Nat.compare_eq_lt.mp less) n)
    · intro i member j later
      obtain ⟨k, _, rfl⟩ := List.mem_map.mp later
      exact Nat.compare_eq_lt.mpr (Nat.lt_of_lt_of_le (inside i member) (Nat.le_add_right n k))
  refine congrArg SortedSet.toList (SortedSet.eq_of_mem_iff (t := ⟨_, ascending⟩) fun i => ?_)
  refine Iff.trans ?_ List.mem_append.symm
  rw [List.mem_map]
  by_cases below : i < n
  · rw [low i below]
    refine (or_iff_left ?_).symm
    intro parts
    obtain ⟨k, _, rfl⟩ := parts
    exact absurd below (Nat.not_lt.mpr (Nat.le_add_right n k))
  · obtain ⟨k, rfl⟩ := Nat.exists_eq_add_of_le (Nat.not_lt.mp below)
    rw [high k]
    constructor
    · exact fun member => .inr ⟨k, member, rfl⟩
    · intro parts
      rcases parts with early | ⟨k', member, same⟩
      · exact absurd (inside _ early) below
      · exact Nat.add_left_cancel same ▸ member

namespace Browser

section Halves

variable {b : Browser} {r : Request} {filter : Option Filter} {tasks : List CountTask} {sectionField : String}
  {xs ys : List Document} {w s t : LiveSegment} {queried left right : Option DocSet}

theorem shares_front {docno : Nat} (inside : docno < xs.length) :
    (Segment.plain sectionField (xs ++ ys)).Shares (.plain sectionField xs) docno docno :=
  ⟨rfl, rfl, rfl, List.getElem?_append_left inside⟩

theorem shares_back (docno : Nat) :
    (Segment.plain sectionField (xs ++ ys)).Shares (.plain sectionField ys) (xs.length + docno) docno :=
  ⟨rfl, rfl, rfl, (List.getElem?_append_right (Nat.le_add_right _ _)).trans (by rw [Nat.add_sub_cancel_left]; rfl)⟩

theorem restrict_cut (opensW : w.Opens b.registry (.plain sectionField (xs ++ ys)))
    (opensS : s.Opens b.registry (.plain sectionField xs)) (opensT : t.Opens b.registry (.plain sectionField ys))
    (askedW : b.queryDocs r w = .ok queried) (askedS : b.queryDocs r s = .ok left)
    (askedT : b.queryDocs r t = .ok right) (filter : Option Filter) :
    (restrict w.facets filter queried).toList =
      (restrict s.facets filter left).toList ++ (restrict t.facets filter right).toList.map (xs.length + ·) := by
  apply DocSet.toList_cut
  · exact fun docno inside => mem_restrict_alike opensW opensS (shares_front inside) askedW askedS filter
  · exact fun docno => mem_restrict_alike opensW opensT (shares_back docno) askedW askedT filter
  · exact fun docno member => lt_of_mem_restrict opensS.loads member |>.trans_eq opensS.docCount

theorem map_restrict_cut {α : Type} (opensW : w.Opens b.registry (.plain sectionField (xs ++ ys)))
    (opensS : s.Opens b.registry (.plain sectionField xs)) (opensT : t.Opens b.registry (.plain sectionField ys))
    (askedW : b.queryDocs r w = .ok queried) (askedS : b.queryDocs r s = .ok left)
    (askedT : b.queryDocs r t = .ok right) (filter : Option Filter) (read : Nat → (String → List String) → α) :
    (restrict w.facets filter queried).toList.map (fun i => read i fun facet => w.facets.valuesAt facet i) =
      (restrict s.facets filter left).toList.map (fun i => read i fun facet => s.facets.valuesAt facet i) ++
        (restrict t.facets filter right).toList.map fun i =>
          read (xs.length + i) fun facet => t.facets.valuesAt facet i := by
  rw [restrict_cut opensW opensS opensT askedW askedS askedT, List.map_append, List.map_map]
  refine congrArg₂ _ (List.map_congr_left fun i member => ?_) (List.map_congr_left fun i _ => ?_)
  · have inside : i < xs.length := opensS.docCount ▸ lt_of_mem_restrict opensS.loads member
    rw [opensW.loaded, opensS.loaded]
    simp only [LoadedFacets.valuesAt_alike (shares_front inside).document]
  · rw [Function.comp_apply, opensW.loaded, opensT.loaded]
    simp only [LoadedFacets.valuesAt_alike (shares_back i).document]

theorem contribution_cut (opensW : w.Opens b.registry (.plain sectionField (xs ++ ys)))
    (opensS : s.Opens b.registry (.plain sectionField xs)) (opensT : t.Opens b.registry (.plain sectionField ys))
    (askedW : b.queryDocs r w = .ok queried) (askedS : b.queryDocs r s = .ok left)
    (askedT : b.queryDocs r t = .ok right) :
    Amounts [contribution r filter tasks w queried]
      [contribution r filter tasks s left, contribution r filter tasks t right] := by
  have read := fun {α} => map_restrict_cut (α := α) opensW opensS opensT askedW askedS askedT
  constructor
  · intro base
    have found := read filter fun i values => (base + i, r.sort.map fun field => (values field.facet).head?)
    simp only [numbered, contribution, List.append_nil, List.map_append, List.map_map, Function.comp_def, erase,
      opensS.docCount, Nat.add_assoc]
    exact found
  · simp only [contribution, List.map_cons, List.map_nil, List.sum_cons, List.sum_nil, opensW.docCount,
      opensS.docCount, opensT.docCount, Segment.plain, List.length_append, Nat.add_zero]
  · intro found
    have counts : (contribution r filter tasks w queried).counts = (contribution r filter tasks s left).counts.zipWith
        ValueCounts.merge (contribution r filter tasks t right).counts := by
      simp only [contribution, List.zipWith_map_left, List.zipWith_map_right, List.zipWith_self, ValueCounts.merge_ofRows]
      refine List.map_congr_left fun task _ => congrArg ValueCounts.ofRows ?_
      exact read (task.expanded.getD filter) fun _ values => values task.facet.name
    simp only [List.foldl_cons, List.foldl_nil, counts, ValueCounts.zipWith_merge_assoc]

theorem share_cut {whole front back : Share} (opensW : w.Opens b.registry (.plain sectionField (xs ++ ys)))
    (opensS : s.Opens b.registry (.plain sectionField xs)) (opensT : t.Opens b.registry (.plain sectionField ys))
    (known : ∀ task ∈ tasks, task.facet ∈ b.registry.facets) (askedW : b.share r filter tasks w = .ok whole)
    (askedS : b.share r filter tasks s = .ok front) (askedT : b.share r filter tasks t = .ok back) :
    Amounts [whole] [front, back] := by
  obtain ⟨_, queriedW, rfl⟩ := share_parts opensW.loads known askedW
  obtain ⟨_, queriedS, rfl⟩ := share_parts opensS.loads known askedS
  obtain ⟨_, queriedT, rfl⟩ := share_parts opensT.loads known askedT
  exact contribution_cut opensW opensS opensT queriedW queriedS queriedT

end Halves

namespace Amounts

theorem of_same {share share' : Share} (documents : share.matching = share'.matching)
    (sizes : share.docCount = share'.docCount) (counts : share.counts = share'.counts) : Amounts [share] [share'] where
  documents base := by
    simp only [numbered, List.append_nil, List.map_map, Function.comp_def, erase, documents]
  sizes := by simp [sizes]
  counts found := by simp [counts]

end Amounts

section Chunks

variable {b : Browser} {r : Request} {filter : Option Filter} {tasks : List CountTask} {sectionField : String}

theorem share_same (r : Request) (filter : Option Filter) {m : Segment} {s s' : LiveSegment}
    (opens : s.Opens b.registry m) (opens' : s'.Opens b.registry m)
    (known : ∀ task ∈ tasks, task.facet ∈ b.registry.facets) :
    Matched (fun share share' => Amounts [share] [share']) (b.share r filter tasks s) (b.share r filter tasks s') := by
  have asked : b.queryDocs r s = b.queryDocs r s' := by
    unfold queryDocs
    rw [opens.source, opens'.source]
  have facets : s.facets = s'.facets := opens.loaded.trans opens'.loaded.symm
  rw [share_exact opens.loads known, share_exact opens'.loads known, asked]
  cases b.queryDocs r s' with
  | error e => exact .error e
  | ok queried =>
    cases b.checks r tasks with
    | error e => exact .error e
    | ok _ =>
      refine .ok (.of_same ?_ (opens.docCount.trans opens'.docCount.symm) ?_)
      · simp only [contribution, facets]
      · simp only [contribution, facets]

-- The rest of the chunks stands in for a segment of its own in the induction.
theorem shares_cut (r : Request) (filter : Option Filter) (known : ∀ task ∈ tasks, task.facet ∈ b.registry.facets)
    {chunks : List (List Document)} {segments : List LiveSegment} {w : LiveSegment} (filled : chunks ≠ [])
    (opened : List.Forall₂ (fun ds s => LiveSegment.Opens b.registry (.plain sectionField ds) s) chunks segments)
    (opensW : w.Opens b.registry (.plain sectionField chunks.flatten)) :
    Matched (fun whole shares => Amounts [whole] shares) (b.share r filter tasks w)
      (segments.mapM (b.share r filter tasks)) := by
  induction opened generalizing w with
  | nil => exact absurd rfl filled
  | @cons ds s rest segments opensS opened ih =>
    rw [List.mapM_cons]
    cases opened with
    | nil =>
      rw [List.flatten_singleton] at opensW
      exact (share_same r filter opensW opensS known).bind_right fun _ _ amounts => .ok amounts
    | @cons ds' s' rest segments second more =>
      rw [List.flatten_cons] at opensW
      have opensT : LiveSegment.Opens b.registry (.plain sectionField (ds' :: rest).flatten)
          ((Segment.plain sectionField (ds' :: rest).flatten).live b.registry ⟨0⟩) :=
        Segment.opens_live _ fun f registered d member =>
          opensW.admits f registered d (List.mem_append_right _ member)
      have others := ih (by exact nofun) opensT
      have frontError := share_error r filter opensW opensS known
      have backError := share_error r filter opensW opensT known
      cases askedW : b.share r filter tasks w with
      | error e =>
        rw [askedW] at frontError
        rw [frontError.error_left]
        exact .error e
      | ok whole =>
        rw [askedW] at frontError backError
        obtain ⟨front, askedS, _⟩ := frontError.ok_left
        obtain ⟨back, askedT, _⟩ := backError.ok_left
        rw [askedT] at others
        obtain ⟨shares, askedRest, amounts⟩ := others.ok_left
        rw [askedS, askedRest]
        exact .ok ((share_cut opensW opensS opensT known askedW askedS askedT).trans (.cons front amounts))

end Chunks

theorem outcome_cut {b : Browser} {request : Request} {sectionField : String} {chunks : List (List Document)}
    {segments : List LiveSegment} {w : LiveSegment} (filled : chunks ≠ [])
    (opened : List.Forall₂ (fun ds s => LiveSegment.Opens b.registry (.plain sectionField ds) s) chunks segments)
    (opensW : w.Opens b.registry (.plain sectionField chunks.flatten)) :
    (Browser.browse { b with segments } request).map Answer.outcome =
      (Browser.browse { b with segments := [w] } request).map Answer.outcome := by
  rw [browse_steps, browse_steps]
  change ((b.prepare request).bind _).map _ = ((b.prepare request).bind _).map _
  cases prepared : b.prepare request with
  | error e => rfl
  | ok pair =>
    obtain ⟨filter, tasks⟩ := pair
    obtain ⟨_, known⟩ := prepare_parts prepared
    have same := shares_cut request filter known filled opened opensW
    change (do let shares ← segments.mapM (b.share request filter tasks); return assemble request tasks shares).map _ =
      (do let shares ← [w].mapM (b.share request filter tasks); return assemble request tasks shares).map _
    rw [List.mapM_cons, List.mapM_nil]
    cases asked : b.share request filter tasks w with
    | error e =>
      rw [asked] at same
      rw [same.error_left]
      rfl
    | ok whole =>
      rw [asked] at same
      obtain ⟨shares, found, amounts⟩ := same.ok_left
      rw [found]
      exact congrArg Except.ok (outcome_assemble amounts).symm

theorem browse_cutting (r : Registry) (sectionField : String) (chunks : List (List Document)) (settings : Settings)
    (request : Request) (cut : Catalog) (filled : chunks ≠ [])
    (published : Catalog.publishAll { registry := r } (chunks.map fun ds => (Segment.plain sectionField ds).toSource) =
      .ok cut) :
    ∃ one, Catalog.publishAll { registry := r } [(Segment.plain sectionField chunks.flatten).toSource] = .ok one ∧
      ((Browser.of cut settings).browse request).map Answer.outcome =
        ((Browser.of one settings).browse request).map Answer.outcome := by
  have sources : (chunks.map fun ds => (Segment.plain sectionField ds).toSource) =
      (chunks.map (Segment.plain sectionField)).map (·.toSource) := by
    rw [List.map_map]
    rfl
  rw [sources] at published
  obtain ⟨registry, live, listed, opened⟩ := Catalog.publishAll_parts published
  rw [List.forall₂_map_left_iff] at opened
  have admits : ∀ f ∈ r.facets, ∀ d ∈ (Segment.plain sectionField chunks.flatten).documents, f.Admits d.valuesOf := by
    intro f known d member
    obtain ⟨ds, chunk, inside⟩ := List.mem_flatten.mp member
    obtain ⟨s, _, opens⟩ := exists_of_related (List.Forall₂.flip opened) chunk
    exact opens.admits f known d inside
  have opensW := (Segment.plain sectionField chunks.flatten).opens_live ⟨0⟩ admits
  refine ⟨⟨r, [(Segment.plain sectionField chunks.flatten).live r ⟨0⟩], SegmentId.next ⟨0⟩⟩, ?_, ?_⟩
  · simp only [Catalog.publishAll, List.foldlM_cons, Catalog.publish, opensW.facets]
    rfl
  · obtain ⟨_, _, nextId⟩ := cut
    cases registry
    cases listed
    exact outcome_cut (b := ⟨r, [], settings⟩) filled opened opensW

def languages : Registry := Registry.add ∅ (.simple { name := "lang" }) (by decide) nofun

def library : List (List Document) :=
  [[{ stored := [("lang", "la")] }], [], [{ tokens := [⟨"body", "rara"⟩], stored := [("lang", "it")] }, {}]]

theorem browse_cutting_library :
    ∃ cut one, Catalog.publishAll { registry := languages }
        (library.map fun ds => (Segment.plain defaultSectionField ds).toSource) = .ok cut ∧
      Catalog.publishAll { registry := languages } [(Segment.plain defaultSectionField library.flatten).toSource] =
        .ok one ∧
      ((Browser.of cut {}).browse
          { facets := ["lang"], query := some (.term ⟨"body", "rara"⟩), sort := [{ facet := "lang" }] }).map Answer.outcome =
        ((Browser.of one {}).browse
          { facets := ["lang"], query := some (.term ⟨"body", "rara"⟩), sort := [{ facet := "lang" }] }).map Answer.outcome := by
  obtain ⟨cut, published⟩ : ∃ cut, Catalog.publishAll { registry := languages }
      (library.map fun ds => (Segment.plain defaultSectionField ds).toSource) = .ok cut := ⟨_, rfl⟩
  obtain ⟨one, whole, same⟩ := browse_cutting languages defaultSectionField library {} _ cut (by decide) published
  exact ⟨cut, one, published, whole, same⟩

end Browser

end FacetedSearch
