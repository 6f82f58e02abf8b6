import FacetedSearch.Proofs.Plan.Candidates

namespace FacetedSearch

namespace Source

theorem mem_openCandidates {count : Nat} {plan : Plan} {docno : Nat} {lo hi : Position} (within : plan.Within count)
    (holding : plan.holds docno lo hi = true) :
    docno ∈ plan.candidates.getD (.below count) ↔ docno < count := by
  cases found : plan.candidates with
  | none => exact DocSet.mem_below
  | some docs =>
    exact iff_of_true (Plan.admits_of_holds holding docs found)
      (Plan.lt_of_mem_candidates within found (Plan.admits_of_holds holding docs found))

variable {s : Source} {plan : Plan} {docno : Nat}

theorem mem_search_anywhere (sectionField : String) (within : plan.Within s.documentCount) :
    docno ∈ s.search sectionField plan none ↔
      docno < s.documentCount ∧ plan.holds docno 0 documentEnd = true := by
  unfold search
  rw [SortedSet.mem_filter]
  exact and_congr_left fun holding => mem_openCandidates within holding

theorem mem_search_sections (sectionField tag : String) (within : plan.Within s.documentCount) :
    docno ∈ s.search sectionField plan (some tag) ↔ docno < s.documentCount ∧
      ∃ i ∈ (s.sections s.sectionLookup ⟨sectionField, tag⟩).sectionsOf docno,
        plan.holds docno i.start i.stop = true := by
  unfold search
  rw [SortedSet.mem_filter, SortedSet.mem_inter, List.any_eq_true, and_assoc]
  constructor
  · intro parts
    obtain ⟨candidate, _, i, member, holding⟩ := parts
    exact ⟨(mem_openCandidates within holding).mp candidate, i, member, holding⟩
  · intro parts
    obtain ⟨inside, i, member, holding⟩ := parts
    exact ⟨(mem_openCandidates within holding).mpr inside, IntervalSet.mem_docs_of_mem_sectionsOf member,
      i, member, holding⟩

end Source

namespace Segment

def Matches (s : Segment) (sectionField : String) (plan : Plan) (docno : Nat) : Option String → Prop
  | none => plan.holds docno 0 documentEnd = true
  | some tag => ∃ i ∈ s.sectionsIn ⟨sectionField, tag⟩ docno, plan.holds docno i.start i.stop = true

theorem mem_search {s : Segment} {plan : Plan} (sectionField : String) (tag : Option String) {docno : Nat}
    (within : plan.Within s.documents.length) :
    docno ∈ s.toSource.search sectionField plan tag ↔
      docno < s.documents.length ∧ s.Matches sectionField plan docno tag := by
  rw [← documentCount_toSource] at within ⊢
  cases tag with
  | none => exact Source.mem_search_anywhere sectionField within
  | some tag =>
    rw [Source.mem_search_sections sectionField tag within, sections_toSource]
    unfold Matches
    simp only [mem_sectionsOf_postings]

theorem search_exact (s : Segment) :
    (∀ (q : Query) (plan : Plan), q.compile s.toSource s.toSource.sectionLookup = .ok (some plan) →
      plan.Within s.documents.length) ∧
    ∀ (plan : Plan) (sectionField : String) (tag : Option String) (docno : Nat),
      plan.Within s.documents.length →
      (docno ∈ s.toSource.search sectionField plan tag ↔
        docno < s.documents.length ∧ s.Matches sectionField plan docno tag) :=
  ⟨fun _ _ compiled => compile_within compiled, fun _ sectionField tag _ within =>
    mem_search sectionField tag within⟩

def titled : Segment := { documents := [{}, { sections := [("title", ⟨0, 1⟩)] }] }

-- An empty conjunction matches anywhere, so the exclusion below a disjunction
-- decides, and it looks at the section only.
theorem search_exact_titled :
    (∃ plan, (Query.tag ⟨defaultSectionField, "title"⟩).compile titled.toSource titled.toSource.sectionLookup =
        .ok (some plan) ∧ plan.Within titled.documents.length) ∧
      1 ∈ titled.toSource.search defaultSectionField (.anyOf [.phrase [], .butNot (.allOf [])
        (.term ⟨⟨"body", "b"⟩, .positions (.ofList [(1, #[(1 : Position)])]), 0⟩)]) (some "title") := by
  refine ⟨⟨_, rfl, (search_exact titled).1 (.tag ⟨defaultSectionField, "title"⟩) _ rfl⟩, ?_⟩
  have boundaries : titled.sectionsIn ⟨defaultSectionField, "title"⟩ 1 = [⟨0, 1⟩] := by cbv
  refine ((search_exact titled).2 _ _ _ _ (by unfold Plan.Within; decide)).mpr ⟨by decide, ⟨0, 1⟩, ?_, by decide⟩
  rw [boundaries]
  exact List.mem_singleton_self _

end Segment

end FacetedSearch
