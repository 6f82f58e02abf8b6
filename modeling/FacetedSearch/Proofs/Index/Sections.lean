import FacetedSearch.Proofs.Index.Postings

namespace FacetedSearch

namespace Interval

-- Sections one after another. They may touch, and need not have any extent.
structure InOrder (sections : List Interval) : Prop where
  each : ∀ i ∈ sections, i.start ≤ i.stop
  next : sections.IsChain fun i j => i.stop ≤ j.start

def boundaries (sections : List Interval) : List Position := sections.flatMap fun i => [i.start, i.stop]

variable {sections : List Interval}

theorem pairs_boundaries (sections : List Interval) : pairs (boundaries sections) = sections := by
  induction sections with
  | nil => rfl
  | cons i rest ih => exact congrArg (i :: ·) ih

theorem boundaries_eq_nil : boundaries sections = [] ↔ sections = [] := by
  cases sections with
  | nil => exact iff_of_true rfl rfl
  | cons i rest => exact iff_of_false nofun nofun

theorem InOrder.boundaries_ascending (ordered : InOrder sections) : (boundaries sections).Pairwise (· ≤ ·) := by
  obtain ⟨each, next⟩ := ordered
  apply List.isChain_iff_pairwise.mp
  induction sections with
  | nil => exact .nil
  | cons i rest ih =>
    obtain ⟨extent, later⟩ := List.forall_mem_cons.mp each
    cases rest with
    | nil => exact .cons_cons extent (.singleton _)
    | cons j more =>
      obtain ⟨apart, onward⟩ := List.isChain_cons_cons.mp next
      exact .cons_cons extent (.cons_cons apart (ih later onward))

theorem InOrder.starts_ascending (ordered : InOrder sections) : sections.Pairwise fun i j => i.start ≤ j.start := by
  have ascending := ordered.boundaries_ascending
  have starts : (sections.map (·.start)).Sublist (boundaries sections) := by
    clear ordered ascending
    induction sections with
    | nil => exact .slnil
    | cons i rest ih => exact (ih.cons i.stop).cons_cons i.start
  exact List.pairwise_map.mp (ascending.sublist starts)

end Interval

namespace Document

def tagged (d : Document) (tag : String) : List Interval := (d.sections.filter (·.1 = tag)).map (·.2)

theorem tagged_ne_nil {d : Document} {tag : String} : d.tagged tag ≠ [] ↔ ∃ sec ∈ d.sections, sec.1 = tag := by
  unfold tagged
  simp

variable {d : Document} {sectionField tag : String}

theorem boundaries_tagged (t : Term) (sections : List (String × Interval)) :
    ((sections.flatMap fun s => [(Term.mk sectionField s.1, s.2.start), (⟨sectionField, s.1⟩, s.2.stop)]).filter
      (·.1 = t)).map (·.2) = Interval.boundaries ((sections.filter fun s => ⟨sectionField, s.1⟩ = t).map (·.2)) := by
  induction sections with
  | nil => rfl
  | cons sec rest ih =>
    rw [List.flatMap_cons, List.filter_append, List.map_append, ih]
    by_cases same : ⟨sectionField, sec.1⟩ = t
    · simp [same, Interval.boundaries]
    · simp [same]

theorem occurrences_untyped (untyped : ⟨sectionField, tag⟩ ∉ d.tokens) :
    ((d.occurrences sectionField).filter (·.1 = ⟨sectionField, tag⟩)).map (·.2) = Interval.boundaries (d.tagged tag) := by
  have words : (d.tokens.zipIdx.map fun token => (token.1, UInt32.ofNat token.2)).filter
      (·.1 = ⟨sectionField, tag⟩) = [] := by
    rw [List.filter_eq_nil_iff, List.forall_mem_map]
    intro token member equal
    exact untyped (of_decide_eq_true equal ▸ List.fst_mem_of_mem_zipIdx member)
  rw [occurrences, List.filter_append, words, List.nil_append, boundaries_tagged, tagged]
  simp only [Term.mk.injEq, true_and]

theorem positionsOf_arranged (untyped : ⟨sectionField, tag⟩ ∉ d.tokens) {sections : List Interval}
    (arranged : sections.Perm (d.tagged tag)) (ordered : Interval.InOrder sections) :
    d.positionsOf sectionField ⟨sectionField, tag⟩ = Interval.boundaries sections := by
  have same : (d.positionsOf sectionField ⟨sectionField, tag⟩).Perm (Interval.boundaries sections) := by
    unfold positionsOf
    rw [occurrences_untyped untyped]
    exact (List.mergeSort_perm _ _).trans (arranged.symm.flatMap_right _)
  exact same.eq_of_pairwise (fun _ _ _ _ => UInt32.le_antisymm) (Segment.positionsOf_ascending d sectionField _)
    ordered.boundaries_ascending

theorem positionsOf_eq_nil (untyped : ⟨sectionField, tag⟩ ∉ d.tokens) :
    d.positionsOf sectionField ⟨sectionField, tag⟩ = [] ↔ d.tagged tag = [] := by
  unfold positionsOf
  rw [← List.length_eq_zero_iff, List.length_mergeSort, List.length_eq_zero_iff, occurrences_untyped untyped,
    Interval.boundaries_eq_nil]

end Document

namespace Segment

variable {s : Segment} {t : Term} {docno : Nat}

theorem mem_docs_postings : docno ∈ (IntervalSet.ofPostings (s.postings t)).docs ↔ s.positionsIn t docno ≠ [] := by
  constructor
  · intro member
    obtain ⟨p, inside, rfl⟩ := IntervalSet.exists_posting_of_mem_docs member
    obtain ⟨equal, filled⟩ := mem_postings.mp inside
    exact equal ▸ filled
  · intro filled
    obtain ⟨i, first⟩ : ∃ i, i ∈ s.sectionsIn t docno := by
      unfold sectionsIn
      match read : s.positionsIn t docno with
      | [] => exact absurd read filled
      | [start] => exact ⟨_, List.mem_singleton_self _⟩
      | start :: stop :: rest => exact ⟨_, List.mem_cons_self⟩
    exact IntervalSet.mem_docs_of_mem_sectionsOf (mem_sectionsOf_postings.mpr first)

theorem sectionsOf_arranged {d : Document} {tag : String} (found : s.documents[docno]? = some d)
    (untyped : ⟨s.sectionField, tag⟩ ∉ d.tokens) {sections : List Interval} (arranged : sections.Perm (d.tagged tag))
    (ordered : Interval.InOrder sections) :
    (IntervalSet.ofPostings (s.postings ⟨s.sectionField, tag⟩)).sectionsOf docno = sections := by
  rw [sectionsOf_postings, sectionsIn, positionsIn, found, Option.map_some, Option.getD_some,
    Document.positionsOf_arranged untyped arranged ordered, Interval.pairs_boundaries,
    Interval.sorted_of_ascending ordered.starts_ascending]

theorem mem_docs_tagged {tag : String} (untyped : ∀ d ∈ s.documents, ⟨s.sectionField, tag⟩ ∉ d.tokens) :
    docno ∈ (IntervalSet.ofPostings (s.postings ⟨s.sectionField, tag⟩)).docs ↔
      ∃ d, s.documents[docno]? = some d ∧ d.tagged tag ≠ [] := by
  rw [mem_docs_postings, positionsIn]
  cases found : s.documents[docno]? with
  | none => simp
  | some d =>
    have bare := Document.positionsOf_eq_nil (untyped d (List.mem_of_getElem? found))
    simp [bare]

theorem mem_sectionTerms_tagged : t ∈ s.sectionTerms ↔
    ∃ d ∈ s.documents, ∃ tag, d.tagged tag ≠ [] ∧ t = ⟨s.sectionField, tag⟩ := by
  rw [mem_sectionTerms]
  simp only [Document.tagged_ne_nil]
  constructor
  · intro ⟨d, held, sec, inside, equal⟩
    exact ⟨d, held, sec.1, ⟨sec, inside, rfl⟩, equal⟩
  · rintro ⟨d, held, _, ⟨sec, inside, rfl⟩, equal⟩
    exact ⟨d, held, sec, inside, equal⟩

theorem exists_lookup (prepares : s.preparesSections = true) : ∃ lookup, s.toSource.sectionLookup = some lookup ∧
    ∀ t, lookup t = if t ∈ s.sectionTerms then some (.ofPostings (s.postings t)) else none := by
  obtain ⟨lookup, ready⟩ : ∃ lookup, s.toSource.sectionLookup = some lookup := by
    unfold toSource
    rw [if_pos prepares]
    exact ⟨_, rfl⟩
  refine ⟨lookup, ready, fun t => ?_⟩
  have read := s.lookup_toSource t
  rw [ready] at read
  simpa [prepares] using read

theorem stored_sections_read_back (s : Segment) (tag : String)
    (untyped : ∀ d ∈ s.documents, ⟨s.sectionField, tag⟩ ∉ d.tokens) :
    (∀ docno d sections, s.documents[docno]? = some d → sections.Perm (d.tagged tag) → Interval.InOrder sections →
      (IntervalSet.ofPostings (s.toSource.postings ⟨s.sectionField, tag⟩)).sectionsOf docno = sections) ∧
    (∀ docno, docno ∈ (IntervalSet.ofPostings (s.toSource.postings ⟨s.sectionField, tag⟩)).docs ↔
      ∃ d, s.documents[docno]? = some d ∧ d.tagged tag ≠ []) ∧
    (s.preparesSections = true → ∃ lookup, s.toSource.sectionLookup = some lookup ∧
      ((∃ d ∈ s.documents, d.tagged tag ≠ []) → lookup ⟨s.sectionField, tag⟩ =
        some (.ofPostings (s.toSource.postings ⟨s.sectionField, tag⟩))) ∧
      ∀ t, (∀ d ∈ s.documents, ∀ other, d.tagged other ≠ [] → t ≠ ⟨s.sectionField, other⟩) → lookup t = none) := by
  rw [postings_toSource]
  refine ⟨?_, fun docno => mem_docs_tagged untyped, fun prepares => ?_⟩
  · intro docno d sections found arranged ordered
    exact sectionsOf_arranged found (untyped d (List.mem_of_getElem? found)) arranged ordered
  · obtain ⟨lookup, ready, prepared⟩ := exists_lookup prepares
    refine ⟨lookup, ready, ?_, ?_⟩
    · rintro ⟨d, held, used⟩
      rw [prepared, if_pos (mem_sectionTerms_tagged.mpr ⟨d, held, tag, used, rfl⟩)]
    · intro t other
      have untagged : t ∉ s.sectionTerms := by
        intro member
        obtain ⟨d, held, tag, used, equal⟩ := mem_sectionTerms_tagged.mp member
        exact other d held tag used equal
      rw [prepared, if_neg untagged]

-- The verses of the first carol were not added in order: two of them touch one
-- without extent, and the last one stays open. The second one has no sections.
def carols : Segment where
  documents := [
    { tokens := [⟨"text", "fa"⟩, ⟨"text", "la"⟩, ⟨"part", "solo"⟩],
      sections := [("verse", ⟨4, documentEnd⟩), ("verse", ⟨0, 2⟩), ("chorus", ⟨1, 3⟩), ("verse", ⟨4, 4⟩), ("verse", ⟨2, 4⟩)] },
    { tokens := [⟨"text", "verse"⟩] }]
  sectionField := "part"
  preparesSections := true

theorem stored_sections_read_back_carols :
    (∀ d ∈ carols.documents, ⟨carols.sectionField, "verse"⟩ ∉ d.tokens) ∧
      (IntervalSet.ofPostings (carols.toSource.postings ⟨"part", "verse"⟩)).sectionsOf 0 =
        [⟨0, 2⟩, ⟨2, 4⟩, ⟨4, 4⟩, ⟨4, documentEnd⟩] ∧
      0 ∈ (IntervalSet.ofPostings (carols.toSource.postings ⟨"part", "verse"⟩)).docs ∧
      ∃ lookup, carols.toSource.sectionLookup = some lookup ∧
        lookup ⟨"part", "verse"⟩ = some (.ofPostings (carols.toSource.postings ⟨"part", "verse"⟩)) ∧
        lookup ⟨"part", "solo"⟩ = none := by
  have untyped : ∀ d ∈ carols.documents, ⟨carols.sectionField, "verse"⟩ ∉ d.tokens := by decide
  obtain ⟨sections, docs, prepared⟩ := stored_sections_read_back carols "verse" untyped
  obtain ⟨lookup, ready, tagged, other⟩ := prepared rfl
  refine ⟨untyped, ?_, ?_, lookup, ready, ?_, ?_⟩
  · exact sections 0 _ _ rfl (by decide) ⟨by decide, by decide⟩
  · exact (docs 0).mpr ⟨_, rfl, by decide⟩
  · exact tagged (by decide)
  · apply other
    have tags : ∀ d ∈ carols.documents, ∀ sec ∈ d.sections, sec.1 ≠ "solo" := by decide
    rintro d held tag used equal
    obtain ⟨sec, inside, rfl⟩ := Document.tagged_ne_nil.mp used
    exact tags d held sec inside (Term.mk.inj equal).2.symm

end Segment

end FacetedSearch
