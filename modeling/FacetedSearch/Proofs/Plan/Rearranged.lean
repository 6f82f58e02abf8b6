import FacetedSearch.Proofs.Plan.Shape

namespace FacetedSearch

namespace Query

section Members

variable {clauses clauses' : List (Occur × Query)}

theorem mem_group_same (same : ∀ c, c ∈ clauses ↔ c ∈ clauses') (occur : Occur) (q : Query) :
    q ∈ group occur clauses ↔ q ∈ group occur clauses' := by
  rw [mem_group, mem_group, same]

theorem leading_same (same : ∀ c, c ∈ clauses ↔ c ∈ clauses') : leading clauses = leading clauses' := by
  have required : clauses.any (·.1 = .must) = clauses'.any (·.1 = .must) := by
    rw [Bool.eq_iff_iff, List.any_eq_true, List.any_eq_true]
    simp only [same]
  unfold leading
  rw [required]

theorem present_same (same : ∀ c, c ∈ clauses ↔ c ∈ clauses') : (boolean clauses).Present ↔ (boolean clauses').Present := by
  rw [present_boolean, present_boolean, leading_same same]
  simp only [mem_group_same same]

theorem holds_same (same : ∀ c, c ∈ clauses ↔ c ∈ clauses') (s : Source) (lookup : Option SectionLookup) (docno : Nat)
    (lo hi : Position) :
    (boolean clauses).Holds s lookup docno lo hi ↔ (boolean clauses').Holds s lookup docno lo hi := by
  rw [holds_boolean, holds_boolean, leading_same same]
  simp only [mem_group_same same]

theorem faults_same (same : ∀ c, c ∈ clauses ↔ c ∈ clauses') :
    (boolean clauses).faults = [] ↔ (boolean clauses').faults = [] := by
  simp only [faults_boolean, List.append_eq_nil_iff, List.flatMap_eq_nil_iff, leading_same same, mem_group_same same]

theorem negates_same (same : ∀ c, c ∈ clauses ↔ c ∈ clauses') (alone : LoneExclusion clauses ↔ LoneExclusion clauses') :
    (boolean clauses).Negates ↔ (boolean clauses').Negates := by
  rw [negates_boolean, negates_boolean, alone, leading_same same]
  simp only [mem_group_same same]

theorem repeats_lone (same : ∀ c, c ∈ clauses ↔ c ∈ clauses') (alone : LoneExclusion clauses)
    (several : ¬ LoneExclusion clauses') : ∃ q n, q.Negates ∧ group (leading clauses) clauses = [q] ∧
      group (leading clauses') clauses' = List.replicate (n + 2) q := by
  obtain ⟨⟨q, single, negates⟩, free⟩ := alone
  have only : ∀ p, p ∈ group (leading clauses') clauses' ↔ p = q := by
    intro p
    rw [← mem_group_same same, ← leading_same same, single, List.mem_singleton]
  have copies : group (leading clauses') clauses' = List.replicate (group (leading clauses') clauses').length q :=
    List.eq_replicate_iff.mpr ⟨rfl, fun p member => (only p).mp member⟩
  match count : (group (leading clauses') clauses').length with
  | 0 =>
    rw [List.length_eq_zero_iff.mp count] at only
    exact nomatch (only q).mpr rfl
  | 1 =>
    rw [count] at copies
    have free' : ∀ p ∈ group .mustNot clauses', ¬ p.Present := fun p member =>
      free p ((mem_group_same same .mustNot p).mpr member)
    exact absurd ⟨⟨q, copies, negates⟩, free'⟩ several
  | n + 2 =>
    rw [count] at copies
    exact ⟨q, n, negates, single, copies⟩

end Members

end Query

namespace Segment

def Fulfils (s : Segment) (sectionField : String) (q : Query) (docno : Nat) : Option String → Prop
  | none => q.Holds s.toSource s.toSource.sectionLookup docno 0 documentEnd
  | some tag => ∃ i ∈ s.sectionsIn ⟨sectionField, tag⟩ docno,
      q.Holds s.toSource s.toSource.sectionLookup docno i.start i.stop

theorem matches_iff_fulfils {s : Segment} {q : Query} {plan : Plan}
    (compiled : q.compile s.toSource s.toSource.sectionLookup = .ok (some plan)) (sectionField : String) (docno : Nat)
    (tag : Option String) : s.Matches sectionField plan docno tag ↔ s.Fulfils sectionField q docno tag := by
  have means := (Query.compile_means compiled).holds plan rfl docno
  cases tag with
  | none => exact means 0 documentEnd
  | some tag =>
    unfold Matches Fulfils
    simp only [means]

theorem mem_searchQuery {s : Segment} {sectionField : String} {q : Query} {tag : Option String} {docs : DocSet}
    (found : s.toSource.searchQuery sectionField q tag = .ok docs) (docno : Nat) : docno ∈ docs ↔
      (q.Present ∧ ¬ q.Negates) ∧ docno < s.documents.length ∧ s.Fulfils sectionField q docno tag := by
  unfold Source.searchQuery at found
  cases compiled : q.compile s.toSource s.toSource.sectionLookup with
  | error e =>
    unfold Query.plan? at found
    rw [compiled] at found
    cases found
  | ok plan =>
    rcases Query.plan?_cases compiled with ⟨planned, none⟩ | ⟨p, rfl, planned, some⟩
    · rw [planned] at found
      cases found
      exact iff_of_false (SortedSet.not_mem_empty docno) fun parts => none parts.1
    · rw [planned] at found
      cases found
      simp only [mem_search sectionField tag (compile_within compiled), matches_iff_fulfils compiled, some, not_false_eq_true,
        and_self, true_and]

section Members

variable {s : Segment} {sectionField : String} {tag : Option String} {clauses clauses' : List (Occur × Query)}

theorem fulfils_same (same : ∀ c, c ∈ clauses ↔ c ∈ clauses') (docno : Nat) :
    s.Fulfils sectionField (.boolean clauses) docno tag ↔ s.Fulfils sectionField (.boolean clauses') docno tag := by
  cases tag with
  | none => exact Query.holds_same same ..
  | some tag =>
    unfold Fulfils
    simp only [Query.holds_same same]

theorem succeeds_same (same : ∀ c, c ∈ clauses ↔ c ∈ clauses') :
    (∃ docs, s.toSource.searchQuery sectionField (.boolean clauses) tag = .ok docs) ↔
      ∃ docs, s.toSource.searchQuery sectionField (.boolean clauses') tag = .ok docs := by
  rw [(Query.reports_searchQuery ..).ok_iff, (Query.reports_searchQuery ..).ok_iff, Query.faults_same same]

theorem found_same (same : ∀ c, c ∈ clauses ↔ c ∈ clauses')
    (alone : Query.LoneExclusion clauses ↔ Query.LoneExclusion clauses') {docs : DocSet}
    (found : s.toSource.searchQuery sectionField (.boolean clauses) tag = .ok docs) :
    s.toSource.searchQuery sectionField (.boolean clauses') tag = .ok docs := by
  obtain ⟨docs', found'⟩ := (succeeds_same same).mp ⟨docs, found⟩
  have equal : docs = docs' := by
    apply SortedSet.eq_of_mem_iff
    intro docno
    rw [mem_searchQuery found, mem_searchQuery found', Query.present_same same, Query.negates_same same alone,
      fulfils_same same]
  rw [equal, found']

end Members

theorem search_rearranged (s : Segment) (sectionField : String) (tag : Option String)
    (clauses clauses' : List (Occur × Query)) (same : ∀ c, c ∈ clauses ↔ c ∈ clauses') :
    ((∃ docs, s.toSource.searchQuery sectionField (.boolean clauses) tag = .ok docs) ↔
      ∃ docs, s.toSource.searchQuery sectionField (.boolean clauses') tag = .ok docs) ∧
    ((Query.LoneExclusion clauses ↔ Query.LoneExclusion clauses') → ∀ docs,
      (s.toSource.searchQuery sectionField (.boolean clauses) tag = .ok docs ↔
        s.toSource.searchQuery sectionField (.boolean clauses') tag = .ok docs)) ∧
    (Query.LoneExclusion clauses → ¬ Query.LoneExclusion clauses' → ∃ q n, q.Negates ∧
      Query.group (Query.leading clauses) clauses = [q] ∧
      Query.group (Query.leading clauses') clauses' = List.replicate (n + 2) q) := by
  refine ⟨succeeds_same same, ?_, Query.repeats_lone same⟩
  intro alone docs
  exact ⟨found_same same alone, found_same (fun c => (same c).symm) alone.symm⟩

def letters : Segment where
  documents := ["a", "b", "c"].map fun letter => { tokens := [⟨"text", letter⟩], sections := [("chapter", ⟨0, 1⟩)] }
  sectionField := "part"

def withoutA : Query := .boolean [(.mustNot, .term ⟨"text", "a"⟩)]

-- The one required clause is an exclusion, but not the only one, so it may be
-- repeated. The optional clause could not be evaluated, were it looked at.
def onlyB : List (Occur × Query) := [(.must, withoutA), (.should, .everything), (.mustNot, .term ⟨"text", "c"⟩)]

def onlyBAgain : List (Occur × Query) :=
  [(.mustNot, .term ⟨"text", "c"⟩), (.must, withoutA), (.should, .everything), (.must, withoutA)]

theorem search_rearranged_letters : (∀ c, c ∈ onlyB ↔ c ∈ onlyBAgain) ∧ ∃ docs, docs.toList = [1] ∧
    letters.toSource.searchQuery "part" (.boolean onlyB) (some "chapter") = .ok docs ∧
    letters.toSource.searchQuery "part" (.boolean onlyBAgain) (some "chapter") = .ok docs := by
  have same : ∀ c, c ∈ onlyB ↔ c ∈ onlyBAgain := by
    intro c
    simp only [onlyB, onlyBAgain, List.mem_cons, List.not_mem_nil, or_false]
    tauto
  have excludes : ∀ clauses : List (Occur × Query), (.mustNot, .term ⟨"text", "c"⟩) ∈ clauses →
      ¬ Query.LoneExclusion clauses :=
    fun clauses member alone => alone.2 _ (Query.mem_group.mpr member) .term
  obtain ⟨docs, found, listed⟩ : ∃ docs, letters.toSource.searchQuery "part" (.boolean onlyB) (some "chapter") =
      .ok docs ∧ docs.toList = [1] := ⟨_, rfl, by cbv⟩
  have rearranged := (search_rearranged letters "part" (some "chapter") onlyB onlyBAgain same).2.1
    (iff_of_false (excludes _ (by simp [onlyB])) (excludes _ (by simp [onlyBAgain]))) docs
  exact ⟨same, docs, listed, found, rearranged.mp found⟩

-- Required once, the exclusion is all of the query and finds nothing; required
-- twice, it finds the other documents.
theorem repeated_exclusion_finds :
    (∀ c, c ∈ [(Occur.must, withoutA)] ↔ c ∈ [(.must, withoutA), (.must, withoutA)]) ∧
    ∃ docs docs', letters.toSource.searchQuery "part" (.boolean [(.must, withoutA)]) none = .ok docs ∧
      letters.toSource.searchQuery "part" (.boolean [(.must, withoutA), (.must, withoutA)]) none = .ok docs' ∧
      docs.toList = [] ∧ docs'.toList = [1, 2] := by
  refine ⟨fun c => by simp, _, _, rfl, rfl, ?_, ?_⟩
  · cbv
  · cbv

end Segment

end FacetedSearch
