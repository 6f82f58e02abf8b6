import FacetedSearch.Index.Segment
import FacetedSearch.Proofs.Index.Intervals
import Mathlib

namespace FacetedSearch

-- What the postings of a source are to keep to: documents ascend, and so do the
-- positions in each of them, with or without repeats.
structure Source.Ascending (s : Source) : Prop where
  documents : ∀ t, (s.postings t).Pairwise fun a b => a.docno < b.docno
  positions : ∀ t, ∀ row ∈ s.postings t, row.positions.Pairwise (· ≤ ·)

theorem Position.mergeSort_ascending (positions : List Position) : positions.mergeSort.Pairwise (· ≤ ·) := by
  refine (List.pairwise_mergeSort (fun a b c first second => ?_) (fun a b => ?_) _).imp of_decide_eq_true
  · exact decide_eq_true (UInt32.le_trans (of_decide_eq_true first) (of_decide_eq_true second))
  · rw [Bool.or_eq_true, decide_eq_true_eq, decide_eq_true_eq]
    exact UInt32.le_total a b

namespace Segment

def positionsIn (s : Segment) (t : Term) (docno : Nat) : List Position :=
  (s.documents[docno]?.map (·.positionsOf s.sectionField t)).getD []

def sectionsIn (s : Segment) (t : Term) (docno : Nat) : List Interval :=
  Interval.pairs (s.positionsIn t docno)

theorem positionsIn_of_documents {s s' : Segment} {docno docno' : Nat} (t : Term)
    (fields : s.sectionField = s'.sectionField)
    (same : s.documents[docno]? = s'.documents[docno']?) :
    s.positionsIn t docno = s'.positionsIn t docno' := by
  unfold positionsIn
  rw [fields, same]

end Segment

theorem filter_mapIdx_number {α β : Type} (number : β → Nat) (make : Nat → α → β) (items : List α)
    (start wanted : Nat) (numbered : ∀ i a, number (make i a) = start + i) :
    (items.mapIdx make).filter (number · = wanted) =
      if start ≤ wanted then (items[wanted - start]?.map (make (wanted - start))).toList else [] := by
  induction items generalizing make start with
  | nil => simp
  | cons item rest ih =>
    have tail := ih (fun i => make (i + 1)) (start + 1) fun i a => by rw [numbered]; omega
    rw [List.mapIdx_cons, List.filter_cons, tail]
    have first : number (make 0 item) = start := numbered 0 item
    rcases Nat.lt_trichotomy wanted start with below | rfl | above
    · have other : ¬ start = wanted := by omega
      simp [first, other, Nat.not_le.mpr below, show ¬ start + 1 ≤ wanted by omega]
    · simp [first]
    · obtain ⟨k, rfl⟩ : ∃ k, wanted = start + 1 + k := ⟨wanted - start - 1, by omega⟩
      have inner : start + 1 + k - start = k + 1 := by omega
      simp [first, inner, show start ≤ start + 1 + k by omega, show ¬ start = start + 1 + k by omega]

namespace Segment

theorem filter_postings (s : Segment) (t : Term) (docno : Nat) :
    (s.postings t).filter (·.docno = docno) =
      if s.positionsIn t docno = [] then [] else [⟨docno, s.positionsIn t docno⟩] := by
  unfold postings
  have numbered := filter_mapIdx_number (fun p : Posting => p.docno)
    (fun docno d => Posting.mk docno (d.positionsOf s.sectionField t)) s.documents 0 docno (by simp)
  rw [List.filter_filter, List.filter_congr (fun p _ => Bool.and_comm _ _), ← List.filter_filter, numbered]
  unfold positionsIn
  cases found : s.documents[docno]? with
  | none => simp
  | some d =>
    by_cases bare : d.positionsOf s.sectionField t = []
    · simp [bare]
    · simp [bare]

theorem mem_postings {s : Segment} {t : Term} {p : Posting} :
    p ∈ s.postings t ↔ p.positions = s.positionsIn t p.docno ∧ p.positions ≠ [] := by
  have kept : p ∈ s.postings t ↔ p ∈ (s.postings t).filter (·.docno = p.docno) := by simp
  rw [kept, filter_postings]
  obtain ⟨docno, positions⟩ := p
  by_cases bare : s.positionsIn t docno = []
  · simp only [bare, if_true, List.not_mem_nil, false_iff]
    exact fun ⟨equal, filled⟩ => filled equal
  · simp only [bare, if_false, List.mem_singleton, Posting.mk.injEq, true_and]
    exact ⟨fun equal => ⟨equal, equal ▸ bare⟩, And.left⟩

theorem docno_lt_of_mem_postings {s : Segment} {t : Term} {p : Posting} (member : p ∈ s.postings t) :
    p.docno < s.documents.length := by
  obtain ⟨equal, filled⟩ := mem_postings.mp member
  refine Nat.lt_of_not_le fun past => filled ?_
  rw [equal, positionsIn, List.getElem?_eq_none past]
  rfl

theorem postings_ascending (s : Segment) (t : Term) :
    (s.postings t).Pairwise fun a b => a.docno < b.docno := by
  refine List.Pairwise.filter _ (List.pairwise_iff_getElem.mpr ?_)
  intro i j _ _ less
  simpa using less

theorem documentCount_toSource (s : Segment) : s.toSource.documentCount = s.documents.length := by
  unfold toSource
  split <;> rfl

theorem postings_toSource (s : Segment) (t : Term) : s.toSource.postings t = s.postings t := by
  have plain := s.postings_plainSource t
  unfold toSource
  split <;> exact plain

theorem positionsOf_ascending (d : Document) (sectionField : String) (t : Term) :
    (d.positionsOf sectionField t).Pairwise (· ≤ ·) := Position.mergeSort_ascending _

theorem toSource_ascending (s : Segment) : s.toSource.Ascending where
  documents t := by
    rw [postings_toSource]
    exact s.postings_ascending t
  positions t row member := by
    rw [postings_toSource] at member
    rw [(mem_postings.mp member).1, positionsIn]
    cases s.documents[row.docno]? with
    | none => exact .nil
    | some d => exact positionsOf_ascending d s.sectionField t

theorem storedValues_toSource (s : Segment) (docno : Nat) (field : String) :
    s.toSource.storedValues docno field = (s.documents[docno]?.map (·.valuesOf field)).getD [] := by
  unfold toSource
  split <;> simp [plainSource]

theorem storedValues_of_document {s : Segment} {docno : Nat} {d : Document} (found : s.documents[docno]? = some d) :
    s.toSource.storedValues docno = d.valuesOf := by
  funext field
  rw [storedValues_toSource, found]
  rfl

theorem length_lt_iff_of_documents {s s' : Segment} {docno docno' : Nat}
    (same : s.documents[docno]? = s'.documents[docno']?) :
    docno < s.documents.length ↔ docno' < s'.documents.length := by
  rw [← Nat.not_le, ← Nat.not_le, ← List.getElem?_eq_none_iff, ← List.getElem?_eq_none_iff, same]

end Segment

theorem SectionTable.lookup_prepare {s : Source} {terms : List Term} (t : Term)
    (ascending : terms.Pairwise fun a b => compare a b = .lt) :
    (prepare s terms).lookup t = if t ∈ terms then some (.ofPostings (s.postings t)) else none := by
  unfold lookup prepare
  split
  · rename_i member
    refine Std.ExtTreeMap.getElem?_ofList_of_mem Std.ReflCmp.compare_self ?_ (List.mem_map_of_mem member)
    refine List.pairwise_map.mpr (ascending.imp fun less equal => ?_)
    rw [less] at equal
    cases equal
  · rename_i absent
    apply Std.ExtTreeMap.getElem?_ofList_of_contains_eq_false
    rw [List.map_map]
    simpa [Function.comp_def] using absent

namespace Segment

theorem sectionLookup_toSource {s : Segment} {t : Term} {prepared : IntervalSet}
    (found : s.toSource.sectionLookup.bind (· t) = some prepared) :
    prepared = .ofPostings (s.postings t) := by
  unfold toSource at found
  split at found
  · simp only [Option.bind_some] at found
    have ascending : s.sectionTerms.Pairwise fun a b => compare a b = .lt := SortedSet.ascending _
    rw [SectionTable.lookup_prepare t ascending, postings_plainSource] at found
    split at found
    · exact (Option.some.inj found).symm
    · cases found
  · cases found

theorem sections_toSource (s : Segment) (t : Term) :
    s.toSource.sections s.toSource.sectionLookup t = .ofPostings (s.postings t) := by
  unfold Source.sections
  split
  · rename_i prepared found
    exact sectionLookup_toSource found
  · rw [postings_toSource]

theorem lookup_toSource (s : Segment) (t : Term) : s.toSource.sectionLookup.bind (· t) =
    if s.preparesSections = true ∧ t ∈ s.sectionTerms then some (.ofPostings (s.postings t)) else none := by
  have ascending : s.sectionTerms.Pairwise fun a b => compare a b = .lt := SortedSet.ascending _
  unfold toSource
  cases ready : s.preparesSections with
  | false =>
    simp only [Bool.false_eq_true, if_false, false_and]
    rfl
  | true => simp only [if_true, true_and, Option.bind_some, SectionTable.lookup_prepare t ascending, postings_plainSource]

theorem mem_sectionTerms {s : Segment} {t : Term} :
    t ∈ s.sectionTerms ↔ ∃ d ∈ s.documents, ∃ sec ∈ d.sections, t = ⟨s.sectionField, sec.1⟩ := by
  refine SortedSet.mem_ofList.trans ?_
  simp only [List.mem_flatMap, List.mem_map, eq_comm]

theorem sectionsOf_postings (s : Segment) (t : Term) (docno : Nat) :
    (IntervalSet.ofPostings (s.postings t)).sectionsOf docno = Interval.sorted (s.sectionsIn t docno) := by
  rw [IntervalSet.sectionsOf_ofPostings, filter_postings]
  unfold sectionsIn
  split
  · rename_i bare
    rw [bare]
    rfl
  · simp

theorem mem_sectionsOf_postings {s : Segment} {t : Term} {docno : Nat} {i : Interval} :
    i ∈ (IntervalSet.ofPostings (s.postings t)).sectionsOf docno ↔ i ∈ s.sectionsIn t docno := by
  rw [sectionsOf_postings, Interval.mem_sorted]

end Segment

end FacetedSearch
