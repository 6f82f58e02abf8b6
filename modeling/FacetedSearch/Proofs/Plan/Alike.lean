import FacetedSearch.Proofs.Plan.Leaves
import FacetedSearch.Proofs.Plan.Search

namespace FacetedSearch

namespace Plan

inductive Alike (leaf : Leaf → Leaf → Prop) : Plan → Plan → Prop where
  | term {l l' : Leaf} (pair : leaf l l') : Alike leaf (.term l) (.term l')
  | phrase {ls ls' : List Leaf} (pairs : List.Forall₂ leaf ls ls') : Alike leaf (.phrase ls) (.phrase ls')
  | allOf {ps ps' : List Plan} (pairs : List.Forall₂ (Alike leaf) ps ps') : Alike leaf (.allOf ps) (.allOf ps')
  | anyOf {ps ps' : List Plan} (pairs : List.Forall₂ (Alike leaf) ps ps') : Alike leaf (.anyOf ps) (.anyOf ps')
  | not {p p' : Plan} (pair : Alike leaf p p') : Alike leaf (.not p) (.not p')
  | butNot {keep keep' drop drop' : Plan} (left : Alike leaf keep keep') (right : Alike leaf drop drop') :
    Alike leaf (.butNot keep drop) (.butNot keep' drop')

section Compilation

variable {leaf : Leaf → Leaf → Prop}

theorem filterMap_alike {plans plans' : List (Option Plan)}
    (pairs : List.Forall₂ (Option.Rel (Alike leaf)) plans plans') :
    List.Forall₂ (Alike leaf) (plans.filterMap id) (plans'.filterMap id) := by
  induction pairs with
  | nil => exact .nil
  | cons first _ ih =>
    cases first with
    | none => exact ih
    | some pair => exact .cons pair ih

theorem join_alike {make : List Plan → Plan} {plans plans' : List (Option Plan)}
    (built : ∀ ps ps', List.Forall₂ (Alike leaf) ps ps' → Alike leaf (make ps) (make ps'))
    (pairs : List.Forall₂ (Option.Rel (Alike leaf)) plans plans') :
    Option.Rel (Alike leaf) (join make plans) (join make plans') := by
  cases pairs with
  | nil => exact .none
  | cons first rest =>
    cases rest with
    | nil => exact first
    | cons second more =>
      have parts := filterMap_alike (.cons first (.cons second more))
      simp only [join]
      generalize List.filterMap id (_ :: _ :: _) = present at parts ⊢
      generalize List.filterMap id (_ :: _ :: _) = present' at parts ⊢
      cases parts with
      | nil => exact .none
      | cons pair others => exact .some (built _ _ (.cons pair others))

theorem joined_alike (occur : Occur) {ps ps' : List Plan} (pairs : List.Forall₂ (Alike leaf) ps ps') :
    Alike leaf (occur.joined ps) (occur.joined ps') := by
  cases occur with
  | must => exact .allOf pairs
  | should => exact .anyOf pairs
  | mustNot => exact .anyOf pairs

theorem subtract_alike {keep keep' drop drop' : Option Plan} (left : Option.Rel (Alike leaf) keep keep')
    (right : Option.Rel (Alike leaf) drop drop') :
    Option.Rel (Alike leaf) (subtract keep drop) (subtract keep' drop') := by
  cases left with
  | none =>
    cases right with
    | none => exact .none
    | some pair => exact .some (.not pair)
  | some first =>
    cases right with
    | none => exact .some first
    | some second => exact .some (.butNot first second)

end Compilation

end Plan

structure Source.Paired (s s' : Source) (lookup lookup' : Option SectionLookup) (leaf : Leaf → Leaf → Prop) : Prop where
  term : ∀ t, leaf (.ofTerm s lookup t) (.ofTerm s' lookup' t)
  tag : ∀ t, leaf (.ofTag s lookup t) (.ofTag s' lookup' t)
  word : ∀ t offset, leaf { Leaf.ofPostings t (s.postings t) with offset }
    { Leaf.ofPostings t (s'.postings t) with offset }

theorem Source.paired_shapes (s s' : Source) (lookup lookup' : Option SectionLookup) :
    s.Paired s' lookup lookup' fun _ _ => True :=
  ⟨fun _ => trivial, fun _ => trivial, fun _ _ => trivial⟩

namespace Query

variable {s s' : Source} {lookup lookup' : Option SectionLookup} {leaf : Leaf → Leaf → Prop}

theorem ofPhrase_alike (paired : s.Paired s' lookup lookup' leaf) (words : List PhraseWord) :
    Option.Rel (Plan.Alike leaf) ((Leaf.ofPhrase s words).map .phrase) ((Leaf.ofPhrase s' words).map .phrase) := by
  unfold Leaf.ofPhrase
  cases (words.map (·.position)).min? with
  | none => exact .none
  | some base =>
    refine .some (.phrase ?_)
    rw [List.forall₂_map_left_iff, List.forall₂_map_right_iff, List.forall₂_same]
    exact fun w _ => paired.word w.term (w.position - base)

theorem compile_alike (paired : s.Paired s' lookup lookup' leaf) (q : Query) :
    Matched (Option.Rel (Plan.Alike leaf)) (q.compile s lookup) (q.compile s' lookup') := by
  induction q using byClauses with
  | boolean clauses ih =>
    have each : ∀ occur, Matched (List.Forall₂ (Option.Rel (Plan.Alike leaf)))
        ((group occur clauses).mapM (·.compile s lookup)) ((group occur clauses).mapM (·.compile s' lookup')) :=
      fun occur => .mapM (List.forall₂_same.mpr (motive_of_group ih))
    rw [compile_boolean, compile_boolean]
    refine (each _).bind fun keep keep' kept => (each _).bind fun drop drop' dropped => .ok ?_
    exact Plan.subtract_alike (Plan.join_alike (fun _ _ => Plan.joined_alike _) kept)
      (Plan.join_alike (fun _ _ => .anyOf) dropped)
  | simple q other =>
    cases q with
    | boolean clauses => exact absurd rfl (other clauses)
    | term t => exact .ok (.some (.term (paired.term t)))
    | tag t => exact .ok (.some (.term (paired.tag t)))
    | phrase words => exact .ok (ofPhrase_alike paired words)
    | beginning | wildcard | fuzzy | range | everything => exact .error _

theorem plan?_alike (paired : s.Paired s' lookup lookup' leaf) (q : Query) :
    Matched (Option.Rel (Plan.Alike leaf)) (q.plan? s lookup) (q.plan? s' lookup') := by
  apply (compile_alike paired q).map
  intro plan plan' pair
  cases pair with
  | none => exact .none
  | some pair =>
    cases pair with
    | not _ => exact .none
    | term pair => exact .some (.term pair)
    | phrase pairs => exact .some (.phrase pairs)
    | allOf pairs => exact .some (.allOf pairs)
    | anyOf pairs => exact .some (.anyOf pairs)
    | butNot left right => exact .some (.butNot left right)

end Query

structure Leaf.SameAt (docno docno' : Nat) (l l' : Leaf) : Prop where
  offset : l.offset = l'.offset
  positions : l.positionsIn docno = l'.positionsIn docno'
  occursAt : ∀ position, l.occursAt docno position = l'.occursAt docno' position
  holds : ∀ lo hi, l.holds docno lo hi = l'.holds docno' lo hi

section Phrases

variable {docno docno' : Nat} {ls ls' : List Leaf} {lo hi : Position}

theorem Phrase.holdsFrom_alike (pairs : List.Forall₂ (Leaf.SameAt docno docno') ls ls') (base : Position) :
    holdsFrom ls docno lo hi base = holdsFrom ls' docno' lo hi base := by
  have offsets : List.Forall₂ Eq (ls.map (·.offset)) (ls'.map (·.offset)) := by
    rw [List.forall₂_map_left_iff, List.forall₂_map_right_iff]
    exact pairs.imp fun _ _ pair => pair.offset
  rw [List.forall₂_eq_eq_eq] at offsets
  have occurring : (ls.all fun l => l.occursAt docno (base + l.offset)) =
      ls'.all fun l => l.occursAt docno' (base + l.offset) := by
    rw [Bool.eq_iff_iff, List.all_eq_true, List.all_eq_true]
    exact forall_iff_of_related pairs fun l _ l' pair => by rw [pair.occursAt, pair.offset]
  unfold holdsFrom span
  rw [offsets, occurring]

theorem Phrase.holds_alike (pairs : List.Forall₂ (Leaf.SameAt docno docno') ls ls') :
    Phrase.holds ls docno lo hi = Phrase.holds ls' docno' lo hi := by
  have each : ∀ base, holdsFrom ls docno lo hi base = holdsFrom ls' docno' lo hi base := holdsFrom_alike pairs
  cases pairs with
  | nil => rfl
  | cons first rest =>
    simp only [Phrase.holds]
    rw [first.positions, first.offset]
    simp only [each]

end Phrases

theorem Plan.holds_alike {docno docno' : Nat} {p p' : Plan} (alike : p.Alike (Leaf.SameAt docno docno') p')
    (lo hi : Position) : p.holds docno lo hi = true ↔ p'.holds docno' lo hi = true := by
  induction p using byParts generalizing p' with
  | term l =>
    cases alike with
    | term pair => rw [holds, holds, pair.holds]
  | phrase ls =>
    cases alike with
    | phrase pairs => rw [holds, holds, Phrase.holds_alike pairs]
  | allOf parts ih =>
    cases alike with
    | allOf pairs =>
      rw [holds_allOf, holds_allOf]
      exact forall_iff_of_related pairs fun p member _ pair => ih p member pair
  | anyOf parts ih =>
    cases alike with
    | anyOf pairs =>
      rw [holds_anyOf, holds_anyOf]
      exact exists_iff_of_related pairs fun p member _ pair => ih p member pair
  | not part ih =>
    cases alike with
    | not pair => rw [holds_not, holds_not, ih pair]
  | butNot keep drop left right =>
    cases alike with
    | butNot first second => rw [holds_butNot, holds_butNot, left first, right second]

namespace Leaf

variable {docno docno' : Nat} {l l' : Leaf}

theorem sameAt_of_positions {m m' : Std.ExtTreeMap Nat (Array Position)} (single : l.occurrences = .positions m)
    (single' : l'.occurrences = .positions m') (offset : l.offset = l'.offset)
    (same : l.positionsIn docno = l'.positionsIn docno') : l.SameAt docno docno' l' where
  offset := offset
  positions := same
  occursAt position := by simp only [occursAt, single, single', same]
  holds lo hi := by simp only [holds, single, single', same]

theorem sameAt_ofSections {t : Term} {sections sections' : IntervalSet}
    (same : sections.sectionsOf docno = sections'.sectionsOf docno') :
    (ofSections t sections).SameAt docno docno' (ofSections t sections') where
  offset := rfl
  positions := rfl
  occursAt position := by simp only [occursAt, ofSections, IntervalSet.meets, same]
  holds lo hi := by simp only [holds, ofSections, IntervalSet.meets, same]

end Leaf

namespace Segment

theorem positionsIn_ofPostings (s : Segment) (t : Term) (docno : Nat) :
    (Leaf.ofPostings t (s.postings t)).positionsIn docno = (s.positionsIn t docno).toArray := by
  by_cases bare : s.positionsIn t docno = []
  · have absent : ∀ row ∈ s.postings t, row.docno ≠ docno := by
      rintro row member rfl
      obtain ⟨equal, filled⟩ := mem_postings.mp member
      exact filled (equal.trans bare)
    rw [Leaf.positionsIn_unlisted absent, bare]
  · have listed : ⟨docno, s.positionsIn t docno⟩ ∈ s.postings t := mem_postings.mpr ⟨rfl, bare⟩
    exact Leaf.positionsIn_ofPostings (s.postings_ascending t) listed

-- Segments without prepared sections that have the same document, each under a
-- number of its own.
structure Shares (s s' : Segment) (docno docno' : Nat) : Prop where
  plain : s.preparesSections = false
  plain' : s'.preparesSections = false
  fields : s.sectionField = s'.sectionField
  document : s.documents[docno]? = s'.documents[docno']?

theorem sectionLookup_plain {s : Segment} (plain : s.preparesSections = false) : s.toSource.sectionLookup = none := by
  unfold toSource
  rw [plain]
  rfl

variable {s s' : Segment} {docno docno' : Nat}

theorem paired (shares : s.Shares s' docno docno') :
    s.toSource.Paired s'.toSource s.toSource.sectionLookup s'.toSource.sectionLookup (Leaf.SameAt docno docno') := by
  have positions : ∀ t, s.positionsIn t docno = s'.positionsIn t docno' := fun t =>
    positionsIn_of_documents t shares.fields shares.document
  have word : ∀ t offset, Leaf.SameAt docno docno' { Leaf.ofPostings t (s.toSource.postings t) with offset }
      { Leaf.ofPostings t (s'.toSource.postings t) with offset } := by
    intro t offset
    refine Leaf.sameAt_of_positions rfl rfl rfl ?_
    rw [postings_toSource, postings_toSource]
    refine (s.positionsIn_ofPostings t docno).trans ?_
    rw [positions]
    exact (s'.positionsIn_ofPostings t docno').symm
  constructor
  · intro t
    rw [sectionLookup_plain shares.plain, sectionLookup_plain shares.plain']
    exact word t 0
  · intro t
    unfold Leaf.ofTag
    rw [sections_toSource, sections_toSource]
    apply Leaf.sameAt_ofSections
    rw [sectionsOf_postings, sectionsOf_postings, sectionsIn, sectionsIn, positions]
  · exact word

theorem matches_alike (shares : s.Shares s' docno docno') {p p' : Plan}
    (alike : p.Alike (Leaf.SameAt docno docno') p') (sectionField : String) (tag : Option String) :
    s.Matches sectionField p docno tag ↔ s'.Matches sectionField p' docno' tag := by
  have holding := fun lo hi => Plan.holds_alike alike lo hi
  cases tag with
  | none => exact holding 0 documentEnd
  | some tag =>
    unfold Matches sectionsIn
    simp only [holding, positionsIn_of_documents ⟨sectionField, tag⟩ shares.fields shares.document]

theorem plan?_within {q : Query} {plan : Plan} (planned : q.plan? s.toSource s.toSource.sectionLookup = .ok (some plan)) :
    plan.Within s.documents.length :=
  compile_within (Query.compile_of_plan? planned)

theorem searchQuery_alike (shares : s.Shares s' docno docno') (sectionField : String) (q : Query)
    (tag : Option String) : Matched (fun docs docs' => docno ∈ docs ↔ docno' ∈ docs')
      (s.toSource.searchQuery sectionField q tag) (s'.toSource.searchQuery sectionField q tag) := by
  have inside := length_lt_iff_of_documents shares.document
  have within : ∀ plan, q.plan? s.toSource s.toSource.sectionLookup = .ok (some plan) →
      plan.Within s.documents.length := fun _ => plan?_within
  have within' : ∀ plan, q.plan? s'.toSource s'.toSource.sectionLookup = .ok (some plan) →
      plan.Within s'.documents.length := fun _ => plan?_within
  have planned := Query.plan?_alike (paired shares) q
  unfold Source.searchQuery
  generalize q.plan? s.toSource s.toSource.sectionLookup = plan at planned within ⊢
  generalize q.plan? s'.toSource s'.toSource.sectionLookup = plan' at planned within' ⊢
  cases planned with
  | error e => exact .error e
  | ok pair =>
    cases pair with
    | none => exact .ok (iff_of_false (SortedSet.not_mem_empty docno) (SortedSet.not_mem_empty docno'))
    | some alike =>
      refine .ok ?_
      simp only
      rw [mem_search sectionField tag (within _ rfl), mem_search sectionField tag (within' _ rfl), inside,
        matches_alike shares alike]

theorem searchQuery_error (s s' : Segment) (sectionField : String) (q : Query) (tag : Option String) :
    Matched (fun _ _ => True) (s.toSource.searchQuery sectionField q tag)
      (s'.toSource.searchQuery sectionField q tag) :=
  (Query.plan?_alike (Source.paired_shapes ..) q).map fun _ _ _ => trivial

end Segment

end FacetedSearch
