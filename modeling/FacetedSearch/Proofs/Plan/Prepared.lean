import FacetedSearch.Proofs.Plan.Search

namespace FacetedSearch

namespace Query

-- A term that a query asks for as a plain word, in a clause of any kind and
-- however deep. The words of a phrase and the terms of tags are none.
inductive Asks (t : Term) : Query → Prop where
  | term : Asks t (.term t)
  | clause {clauses : List (Occur × Query)} {c : Occur × Query} (member : c ∈ clauses) (asks : Asks t c.2) :
    Asks t (.boolean clauses)

theorem compile_same {s s' : Source} {lookup lookup' : Option SectionLookup} {q : Query}
    (term : ∀ t, q.Asks t → Leaf.ofTerm s lookup t = Leaf.ofTerm s' lookup' t)
    (tag : ∀ t, Leaf.ofTag s lookup t = Leaf.ofTag s' lookup' t) (word : ∀ t, s.postings t = s'.postings t) :
    q.compile s lookup = q.compile s' lookup' := by
  induction q using byClauses with
  | boolean clauses ih =>
    have each : ∀ occur, (group occur clauses).mapM (·.compile s lookup) =
        (group occur clauses).mapM (·.compile s' lookup') := by
      intro occur
      apply mapM_congr_on
      intro q member
      have clause := mem_group.mp member
      exact ih _ clause fun t asks => term t (.clause clause asks)
    rw [compile_boolean, compile_boolean, each, each]
  | simple q other =>
    cases q with
    | boolean clauses => exact absurd rfl (other clauses)
    | term t => rw [compile, compile, term t .term]
    | tag t => rw [compile, compile, tag]
    | phrase words =>
      have leaves : Leaf.ofPhrase s words = Leaf.ofPhrase s' words := by
        unfold Leaf.ofPhrase
        simp only [word]
      rw [compile, compile, leaves]
    | beginning | wildcard | fuzzy | range | everything => rfl

end Query

theorem Source.search_same (s s' : Source) (count : s.documentCount = s'.documentCount)
    (sections : ∀ t, s.sections s.sectionLookup t = s'.sections s'.sectionLookup t) (sectionField : String) (plan : Plan)
    (tag : Option String) : s.search sectionField plan tag = s'.search sectionField plan tag := by
  cases tag with
  | none => simp only [search, count]
  | some tag => simp only [search, count, sections]

namespace Segment

theorem ofTerm_untagged (s : Segment) {t : Term} (untagged : t ∉ s.sectionTerms) :
    Leaf.ofTerm s.toSource s.toSource.sectionLookup t = .ofPostings t (s.postings t) := by
  unfold Leaf.ofTerm
  rw [lookup_toSource, if_neg fun both => untagged both.2, postings_toSource]

theorem sections_prepared (documents : List Document) (field : String) (t : Term) :
    (toSource ⟨documents, field, true⟩).sections (toSource ⟨documents, field, true⟩).sectionLookup t =
      (toSource ⟨documents, field, false⟩).sections (toSource ⟨documents, field, false⟩).sectionLookup t := by
  rw [sections_toSource, sections_toSource]
  rfl

theorem compile_prepared {documents : List Document} {field : String} {q : Query}
    (unasked : ∀ d ∈ documents, ∀ sec ∈ d.sections, ¬ q.Asks ⟨field, sec.1⟩) :
    q.compile (toSource ⟨documents, field, true⟩) (toSource ⟨documents, field, true⟩).sectionLookup =
      q.compile (toSource ⟨documents, field, false⟩) (toSource ⟨documents, field, false⟩).sectionLookup := by
  have untagged : ∀ t, q.Asks t → ∀ ready, t ∉ sectionTerms ⟨documents, field, ready⟩ := by
    intro t asks ready tagged
    obtain ⟨d, held, sec, tags, rfl⟩ := mem_sectionTerms.mp tagged
    exact unasked d held sec tags asks
  apply Query.compile_same
  · intro t asks
    rw [ofTerm_untagged _ (untagged t asks true), ofTerm_untagged _ (untagged t asks false)]
    rfl
  · exact fun t => congrArg (Leaf.ofSections t) (sections_prepared documents field t)
  · intro t
    rw [postings_toSource, postings_toSource]
    rfl

theorem prepared_search (documents : List Document) (field : String) (q : Query)
    (unasked : ∀ d ∈ documents, ∀ sec ∈ d.sections, ¬ q.Asks ⟨field, sec.1⟩) :
    q.compile (toSource ⟨documents, field, true⟩) (toSource ⟨documents, field, true⟩).sectionLookup =
        q.compile (toSource ⟨documents, field, false⟩) (toSource ⟨documents, field, false⟩).sectionLookup ∧
      ∀ sectionField tag, (toSource ⟨documents, field, true⟩).searchQuery sectionField q tag =
        (toSource ⟨documents, field, false⟩).searchQuery sectionField q tag := by
  have compiled := compile_prepared unasked
  refine ⟨compiled, fun sectionField tag => ?_⟩
  have searched : ∀ plan, (toSource ⟨documents, field, true⟩).search sectionField plan tag =
      (toSource ⟨documents, field, false⟩).search sectionField plan tag := by
    intro plan
    apply Source.search_same
    · rw [documentCount_toSource, documentCount_toSource]
    · exact sections_prepared documents field
  simp only [Source.searchQuery, Query.plan?, compiled, searched]

def songs : List Document :=
  [{ tokens := [⟨"text", "la"⟩, ⟨"text", "lo"⟩], sections := [("chorus", ⟨1, 2⟩)] },
    { tokens := [⟨"text", "lo"⟩, ⟨"part", "coda"⟩], sections := [("coda", ⟨0, 1⟩)] }]

-- Inside the chorus, next to it as a tag and as a word of a phrase, and not in a
-- section that is never tagged.
def refrain : Query := .boolean [(.must, .term ⟨"text", "lo"⟩), (.must, .tag ⟨"part", "chorus"⟩),
  (.mustNot, .phrase [⟨⟨"part", "coda"⟩, 0⟩]), (.mustNot, .term ⟨"part", "verse"⟩)]

theorem asks_refrain {t : Term} (asks : refrain.Asks t) : t.text = "lo" ∨ t.text = "verse" := by
  cases asks with
  | clause member asks =>
    simp only [List.mem_cons, List.not_mem_nil, or_false] at member
    rcases member with rfl | rfl | rfl | rfl
    · cases asks
      exact .inl rfl
    · cases asks
    · cases asks
    · cases asks
      exact .inr rfl

theorem prepared_search_songs : (∀ d ∈ songs, ∀ sec ∈ d.sections, ¬ refrain.Asks ⟨"part", sec.1⟩) ∧
    ∃ docs, (toSource ⟨songs, "part", true⟩).searchQuery "part" refrain (some "chorus") = .ok docs ∧
      (toSource ⟨songs, "part", false⟩).searchQuery "part" refrain (some "chorus") = .ok docs ∧ docs.toList = [0] := by
  have unasked : ∀ d ∈ songs, ∀ sec ∈ d.sections, ¬ refrain.Asks ⟨"part", sec.1⟩ := by
    intro d held sec tags asks
    have tagged : ∀ d ∈ songs, ∀ sec ∈ d.sections, sec.1 ≠ "lo" ∧ sec.1 ≠ "verse" := by decide
    obtain ⟨other, another⟩ := tagged d held sec tags
    exact (asks_refrain asks).elim other another
  obtain ⟨docs, found, listed⟩ : ∃ docs, (toSource ⟨songs, "part", true⟩).searchQuery "part" refrain (some "chorus") =
      .ok docs ∧ docs.toList = [0] := ⟨_, rfl, by cbv⟩
  have same := (prepared_search songs "part" refrain unasked).2 "part" (some "chorus")
  exact ⟨unasked, docs, found, same ▸ found, listed⟩

end Segment

end FacetedSearch
