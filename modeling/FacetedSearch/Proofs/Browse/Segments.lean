import FacetedSearch.Proofs.Browse.Catalog
import FacetedSearch.Proofs.Browse.Selected
import FacetedSearch.Proofs.Facet.Counts
import FacetedSearch.Proofs.Plan.Alike

namespace FacetedSearch

namespace LoadedFacets

theorem valuesAt_alike {r : Registry} {m m' : Segment} {docno docno' : Nat}
    (document : m.documents[docno]? = m'.documents[docno']?) (facet : String) :
    (ofSource r m.toSource).valuesAt facet docno =
      (ofSource r m'.toSource).valuesAt facet docno' := by
  by_cases known : facet ∈ r.facets.map Facet.name
  · obtain ⟨f, member, rfl⟩ := List.mem_map.mp known
    have inside := Segment.length_lt_iff_of_documents document
    rw [valuesAt_exact member, valuesAt_exact member, m.documentCount_toSource,
      m'.documentCount_toSource]
    cases found : m.documents[docno]? with
    | none =>
      have past := Nat.not_lt.mpr (List.getElem?_eq_none_iff.mp found)
      rw [if_neg past, if_neg (inside.not.mp past)]
    | some d =>
      rw [Segment.storedValues_of_document found, Segment.storedValues_of_document (document ▸ found)]
      simp only [inside]
  · rw [valuesAt_unknown known, valuesAt_unknown known]

end LoadedFacets

namespace Browser

theorem mem_restrict {r : Registry} {s : Source} {filter : Option Filter} {queried : Option DocSet} {docno : Nat} :
    docno ∈ restrict (.ofSource r s) filter queried ↔ docno < s.documentCount ∧
      Filter.Passes (fun facet => (LoadedFacets.ofSource r s).valuesAt facet docno) filter ∧
        ∀ docs, queried = some docs → docno ∈ docs := by
  have filtered : docno ∈ restrict (.ofSource r s) filter none ↔ docno < s.documentCount ∧
      Filter.Passes (fun facet => (LoadedFacets.ofSource r s).valuesAt facet docno) filter := by
    unfold restrict
    cases filter with
    | none => exact DocSet.mem_below.trans (and_iff_left Filter.passes_none).symm
    | some f => exact (Filter.mem_docs f).trans (and_congr_right fun _ => Filter.passes_some.symm)
  rw [← and_assoc, ← filtered]
  cases queried with
  | none => exact (and_iff_left fun docs same => absurd same.symm (Option.some_ne_none docs)).symm
  | some docs =>
    refine SortedSet.mem_inter.trans (and_congr_right fun _ => ?_)
    exact ⟨fun member _ same => Option.some.inj same ▸ member, fun every => every docs rfl⟩

theorem lt_of_mem_restrict {r : Registry} {s : LiveSegment} {filter : Option Filter} {queried : Option DocSet}
    {docno : Nat} (loads : s.Loads r) (member : docno ∈ restrict s.facets filter queried) : docno < s.docCount := by
  rw [loads.loaded] at member
  rw [loads.docCount]
  exact (mem_restrict.mp member).1

def checks (b : Browser) (r : Request) (tasks : List CountTask) : Except Error Unit := do
  tasks.forM fun task => task.facet.countable
  r.sort.forM fun field : SortField => do (← b.registry.require field.facet).sortable

def contribution (r : Request) (filter : Option Filter) (tasks : List CountTask) (s : LiveSegment)
    (queried : Option DocSet) : Share where
  segment := s.id
  docCount := s.docCount
  matching := (restrict s.facets filter queried).toList.map fun docno =>
    ⟨docno, r.sort.map fun field => (s.facets.valuesAt field.facet docno).head?⟩
  counts := tasks.map fun task => .ofRows
    ((restrict s.facets (task.expanded.getD filter) queried).toList.map (s.facets.valuesAt task.facet.name))

section Shares

variable {b : Browser} {s : LiveSegment} {r : Request} {filter : Option Filter} {tasks : List CountTask}

theorem counts_exact (loads : s.Loads b.registry) (known : ∀ task ∈ tasks, task.facet ∈ b.registry.facets)
    (docs : CountTask → List Nat) : (tasks.mapM fun task => task.facet.count s.facets (docs task)) =
      (tasks.forM fun task => task.facet.countable).map fun _ =>
        tasks.map fun task => .ofRows ((docs task).map (s.facets.valuesAt task.facet.name)) := by
  rw [← mapM_checked]
  apply mapM_congr_on
  intro task member
  rw [loads.loaded]
  exact Facet.count_ofSource (known task member) (docs task)

theorem columns_exact (b : Browser) (r : Request) (s : LiveSegment) :
    (r.sort.mapM fun field : SortField => do (← b.registry.require field.facet).sortColumn s.facets) =
      (r.sort.forM fun field : SortField => do (← b.registry.require field.facet).sortable).map fun _ =>
        r.sort.map fun field : SortField => s.facets.column? field.facet := by
  rw [← mapM_checked]
  apply mapM_congr_on
  intro field _
  cases required : b.registry.require field.facet with
  | error e => rfl
  | ok f =>
    rw [← (Registry.require_exact.mp required).2]
    exact f.sortColumn_ofSource s.facets

theorem share_steps : b.share r filter tasks s = do
    let queried ← b.queryDocs r s
    let counts ← tasks.mapM fun task =>
      task.facet.count s.facets (restrict s.facets (task.expanded.getD filter) queried).toList
    let columns ← r.sort.mapM fun field : SortField => do (← b.registry.require field.facet).sortColumn s.facets
    return {
      segment := s.id
      docCount := s.docCount
      matching := (restrict s.facets filter queried).toList.map fun docno =>
        ⟨docno, columns.map fun column => SortValue.of column docno⟩
      counts } := by
  unfold share
  refine bind_congr fun queried => congrArg (· >>= _) (mapM_congr_on fun task _ => ?_)
  cases task.expanded <;> rfl

theorem share_exact (loads : s.Loads b.registry) (known : ∀ task ∈ tasks, task.facet ∈ b.registry.facets) :
    b.share r filter tasks s = do
      let queried ← b.queryDocs r s
      b.checks r tasks
      return contribution r filter tasks s queried := by
  have keys : ∀ docno,
      (r.sort.map fun field => s.facets.column? field.facet).map (fun column => SortValue.of column docno) =
      r.sort.map fun field => (s.facets.valuesAt field.facet docno).head? := by
    intro docno
    rw [List.map_map, loads.loaded]
    exact List.map_congr_left fun field _ => SortValue.of_ofSource field.facet docno
  rw [share_steps]
  apply bind_congr
  intro queried
  rw [counts_exact loads known, columns_exact]
  unfold checks contribution
  cases tasks.forM fun task => task.facet.countable with
  | error e => rfl
  | ok _ =>
    cases r.sort.forM fun field : SortField => do (← b.registry.require field.facet).sortable with
    | error e => rfl
    | ok _ =>
      simp only [Except.map, bind, Except.bind, pure, Except.pure, keys]

end Shares

theorem queryDocs_exact {b : Browser} {r : Request} {s : LiveSegment} {queried : Option DocSet}
    (asked : b.queryDocs r s = .ok queried) (docno : Nat) :
    (∀ docs, queried = some docs → docno ∈ docs) ↔
      ∀ q, r.query = some q →
        ∃ docs, s.source.searchQuery b.settings.sectionField q r.within = .ok docs ∧ docno ∈ docs := by
  unfold queryDocs at asked
  cases given : r.query with
  | none =>
    rw [given] at asked
    cases asked
    exact iff_of_true nofun nofun
  | some q =>
    rw [given] at asked
    obtain ⟨docs, found, same⟩ := bind_ok_exact.mp asked
    cases same
    constructor
    · intro every other same
      cases same
      exact ⟨docs, found, every docs rfl⟩
    · intro every others same
      cases same
      obtain ⟨others, also, member⟩ := every q rfl
      rw [found] at also
      exact Except.ok.inj also ▸ member

-- What a request finds in a segment: a document that is what all selections ask
-- for, but those on the facet left out, and that the query, if any, finds there.
structure Finds (b : Browser) (r : Request) (leftOut : Option String) (s : LiveSegment) (docno : Nat) : Prop where
  inside : docno < s.docCount
  accepted : b.registry.AcceptsAll (s.source.storedValues docno) leftOut r.selections
  queried : ∀ q, r.query = some q →
    ∃ docs, s.source.searchQuery b.settings.sectionField q r.within = .ok docs ∧ docno ∈ docs

theorem mem_restrict_finds {b : Browser} {r : Request} {s : LiveSegment} {leftOut : Option String}
    {filter : Option Filter} {queried : Option DocSet} (loads : s.Loads b.registry)
    (composed : b.registry.compose r.selections leftOut = .ok filter) (asked : b.queryDocs r s = .ok queried)
    {docno : Nat} : docno ∈ restrict s.facets filter queried ↔ b.Finds r leftOut s docno := by
  have found : docno ∈ restrict s.facets filter queried ↔ docno < s.docCount ∧
      Filter.Passes (fun facet => s.facets.valuesAt facet docno) filter ∧ ∀ docs, queried = some docs → docno ∈ docs := by
    rw [loads.docCount, loads.loaded]
    exact mem_restrict
  apply found.trans
  constructor
  · intro ⟨inside, passes, asks⟩
    exact ⟨inside, (Registry.passes_compose (loads.shows inside) composed).mp passes, (queryDocs_exact asked docno).mp asks⟩
  · intro ⟨inside, accepted, asks⟩
    exact ⟨inside, (Registry.passes_compose (loads.shows inside) composed).mpr accepted,
      (queryDocs_exact asked docno).mpr asks⟩

section Alike

variable {b : Browser} {r : Request} {filter : Option Filter} {tasks : List CountTask}

theorem share_error (r : Request) (filter : Option Filter) {m m' : Segment} {s s' : LiveSegment}
    (opens : s.Opens b.registry m)
    (opens' : s'.Opens b.registry m') (known : ∀ task ∈ tasks, task.facet ∈ b.registry.facets) :
    Matched (fun _ _ => True) (b.share r filter tasks s) (b.share r filter tasks s') := by
  have asked : Matched (fun _ _ => True) (b.queryDocs r s) (b.queryDocs r s') := by
    unfold queryDocs
    rw [opens.source, opens'.source]
    cases r.query with
    | none => exact .ok trivial
    | some q => exact (Segment.searchQuery_error m m' _ q r.within).map fun _ _ _ => trivial
  rw [share_exact opens.loads known, share_exact opens'.loads known]
  apply asked.bind
  intro queried queried' _
  cases b.checks r tasks with
  | error e => exact .error e
  | ok _ => exact .ok trivial

variable {m m' : Segment} {s s' : LiveSegment} {queried queried' : Option DocSet} {docno docno' : Nat}

theorem mem_restrict_alike (opens : s.Opens b.registry m) (opens' : s'.Opens b.registry m')
    (shares : m.Shares m' docno docno') (asked : b.queryDocs r s = .ok queried)
    (asked' : b.queryDocs r s' = .ok queried') (filter : Option Filter) :
    docno ∈ restrict s.facets filter queried ↔ docno' ∈ restrict s'.facets filter queried' := by
  have inside := Segment.length_lt_iff_of_documents shares.document
  rw [opens.loaded, opens'.loaded, mem_restrict, mem_restrict, queryDocs_exact asked, queryDocs_exact asked',
    opens.source, opens'.source, m.documentCount_toSource, m'.documentCount_toSource, inside]
  simp only [LoadedFacets.valuesAt_alike shares.document]
  refine and_congr_right fun _ => and_congr_right fun _ => forall₂_congr fun q _ => ?_
  exact (Segment.searchQuery_alike shares b.settings.sectionField q r.within).exists_iff fun _ _ same => same

end Alike

end Browser

end FacetedSearch
