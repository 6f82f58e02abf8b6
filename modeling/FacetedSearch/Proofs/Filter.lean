import FacetedSearch.Proofs.Facet.Loaded

namespace FacetedSearch

namespace Filter

theorem byParts {motive : Filter → Prop} (empty : motive .empty)
    (values : ∀ facet matcher, motive (.values facet matcher))
    (allOf : ∀ parts, (∀ f ∈ parts, motive f) → motive (.allOf parts))
    (anyOf : ∀ parts, (∀ f ∈ parts, motive f) → motive (.anyOf parts))
    (except : ∀ part, motive part → motive (.except part)) : ∀ f, motive f
  | .empty => empty
  | .values facet matcher => values facet matcher
  | .allOf parts => allOf parts fun f _ => byParts empty values allOf anyOf except f
  | .anyOf parts => anyOf parts fun f _ => byParts empty values allOf anyOf except f
  | .except part => except part (byParts empty values allOf anyOf except part)

-- What a filter says of a document, told from the values the document has of
-- each facet. An intersection of nothing covers no document.
def Covers (values : String → List String) : Filter → Prop
  | .empty => False
  | .values facet matcher => ∃ value ∈ values facet, matcher.accepts value = true
  | .allOf parts => parts ≠ [] ∧ ∀ f, (_ : f ∈ parts) → Covers values f
  | .anyOf parts => ∃ f, ∃ _ : f ∈ parts, Covers values f
  | .except part => ¬ Covers values part

section Sets

variable {l : LoadedFacets} {docno : Nat} {fs : List Filter}

theorem mem_docsOfAll : docno ∈ docsOfAll l fs ↔ fs ≠ [] ∧ ∀ f ∈ fs, docno ∈ f.docs l := by
  induction fs with
  | nil => simp [docsOfAll, SortedSet.not_mem_empty]
  | cons f rest ih =>
    cases rest with
    | nil => simp [docsOfAll]
    | cons g rest =>
      rw [docsOfAll, SortedSet.mem_inter, ih]
      simp

theorem mem_docsOfAny : docno ∈ docsOfAny l fs ↔ ∃ f ∈ fs, docno ∈ f.docs l := by
  induction fs with
  | nil => simp [docsOfAny, SortedSet.not_mem_empty]
  | cons f rest ih => rw [docsOfAny, SortedSet.mem_union, ih, List.exists_mem_cons_iff]

end Sets

-- A complement stays in the segment, so the bound is part of the induction.
theorem mem_docs {r : Registry} {s : Source} {docno : Nat} (f : Filter) :
    docno ∈ f.docs (.ofSource r s) ↔ docno < s.documentCount ∧
      f.Covers fun facet => (LoadedFacets.ofSource r s).valuesAt facet docno := by
  induction f using byParts with
  | empty => simp [docs, Covers, SortedSet.not_mem_empty]
  | values facet matcher =>
    unfold docs Covers LoadedFacets.valuesAt
    cases found : (LoadedFacets.ofSource r s).column? facet with
    | none => simp [SortedSet.not_mem_empty]
    | some c =>
      obtain ⟨f, rfl⟩ := LoadedFacets.column?_built found
      simp only [Option.map_some, Option.getD_some, Matcher.mem_docs]
      refine (and_iff_right_of_imp fun covered => ?_).symm
      obtain ⟨value, member, _⟩ := covered
      exact LoadedFacets.lt_of_mem_values member
  | allOf parts ih =>
    rw [docs, mem_docsOfAll, Covers]
    constructor
    · intro ⟨filled, every⟩
      obtain ⟨f, member⟩ := List.exists_mem_of_ne_nil parts filled
      exact ⟨((ih f member).mp (every f member)).1, filled, fun f member => ((ih f member).mp (every f member)).2⟩
    · intro ⟨inside, filled, every⟩
      exact ⟨filled, fun f member => (ih f member).mpr ⟨inside, every f member⟩⟩
  | anyOf parts ih =>
    rw [docs, mem_docsOfAny, Covers]
    constructor
    · intro ⟨f, member, found⟩
      exact ⟨((ih f member).mp found).1, f, member, ((ih f member).mp found).2⟩
    · intro ⟨inside, f, member, covered⟩
      exact ⟨f, member, (ih f member).mpr ⟨inside, covered⟩⟩
  | except part ih =>
    rw [docs, SortedSet.mem_diff, ih, Covers, LoadedFacets.allDocs, DocSet.mem_below]
    apply and_congr_right
    intro inside
    rw [not_and]
    exact ⟨fun outside => outside inside, fun outside _ => outside⟩

-- What a filter may be taken to say, be it of a document or of some values. Of an
-- intersection of nothing this leaves open what it says.
structure Reading (P : Filter → Prop) : Prop where
  empty : ¬ P empty
  allOf : ∀ {fs}, fs ≠ [] → (P (allOf fs) ↔ ∀ f ∈ fs, P f)
  anyOf : ∀ {fs}, P (anyOf fs) ↔ ∃ f ∈ fs, P f

section Parts

variable {f : Filter} {fs : List Filter}

theorem isEmpty_iff : f.isEmpty = true ↔ f = empty := decide_eq_true_iff

theorem any_isEmpty : fs.any isEmpty = true ↔ empty ∈ fs := by
  simp only [List.any_eq_true, isEmpty_iff, exists_eq_right]

theorem mem_nonempty : f ∈ fs.filter (!·.isEmpty) ↔ f ∈ fs ∧ f ≠ empty := by
  rw [List.mem_filter, Bool.not_eq_true', ← Bool.not_eq_true, isEmpty_iff]

theorem node_cases (make : List Filter → Filter) (fs : List Filter) :
    (fs = [] ∧ node make fs = empty) ∨ (∃ f, fs = [f] ∧ node make fs = f) ∨
      (2 ≤ fs.length ∧ node make fs = make fs) := by
  match fs with
  | [] => exact .inl ⟨rfl, rfl⟩
  | [f] => exact .inr (.inl ⟨f, rfl, rfl⟩)
  | f :: g :: rest => exact .inr (.inr ⟨Nat.le_add_left 2 rest.length, rfl⟩)

theorem ne_nil_of_several (several : 2 ≤ fs.length) : fs ≠ [] :=
  List.ne_nil_of_length_pos (Nat.lt_of_lt_of_le Nat.two_pos several)

end Parts

namespace Reading

variable {P : Filter → Prop} {fs : List Filter}

theorem node_allOf (reads : Reading P) : P (node Filter.allOf fs) ↔ fs ≠ [] ∧ ∀ f ∈ fs, P f := by
  rcases node_cases Filter.allOf fs with ⟨rfl, bare⟩ | ⟨f, rfl, single⟩ | ⟨several, joined⟩
  · exact bare ▸ iff_of_false reads.empty fun every => every.1 rfl
  · simp [single]
  · have some := ne_nil_of_several several
    rw [joined, reads.allOf some, and_iff_right some]

theorem node_anyOf (reads : Reading P) : P (node Filter.anyOf fs) ↔ ∃ f ∈ fs, P f := by
  rcases node_cases Filter.anyOf fs with ⟨rfl, bare⟩ | ⟨f, rfl, single⟩ | ⟨_, joined⟩
  · exact bare ▸ iff_of_false reads.empty (by simp)
  · simp [single]
  · rw [joined, reads.anyOf]

theorem and (reads : Reading P) : P (and fs) ↔ fs ≠ [] ∧ ∀ f ∈ fs, P f := by
  unfold Filter.and
  split
  · rename_i absorbed
    exact iff_of_false reads.empty fun every => reads.empty (every.2 Filter.empty (any_isEmpty.mp absorbed))
  · rw [reads.node_allOf]
    simp only [ne_eq, List.eq_nil_iff_forall_not_mem, List.mem_eraseDups]

theorem or (reads : Reading P) : P (or fs) ↔ ∃ f ∈ fs, P f := by
  unfold Filter.or
  rw [reads.node_anyOf]
  simp only [List.mem_eraseDups, mem_nonempty]
  constructor
  · intro ⟨f, member, said⟩
    exact ⟨f, member.1, said⟩
  · intro ⟨f, member, said⟩
    refine ⟨f, ⟨member, ?_⟩, said⟩
    rintro rfl
    exact reads.empty said

end Reading

section Covers

variable {values : String → List String} {f : Filter} {fs : List Filter}

theorem covers_values {facet : String} {matcher : Matcher} :
    (Filter.values facet matcher).Covers values ↔ ∃ value ∈ values facet, matcher.accepts value = true := by
  rw [Covers]

theorem not_covers_empty : ¬ empty.Covers values := by
  rw [Covers]
  exact id

theorem covers_not : (not f).Covers values ↔ ¬ f.Covers values := by
  rw [not, Covers]

theorem covers_allOf : (allOf fs).Covers values ↔ fs ≠ [] ∧ ∀ f ∈ fs, f.Covers values := by
  rw [Covers]

theorem covers_anyOf : (anyOf fs).Covers values ↔ ∃ f ∈ fs, f.Covers values := by
  rw [Covers]
  simp only [exists_prop]

theorem reading_covers (values : String → List String) : Reading (Covers values) where
  empty := not_covers_empty
  allOf some := covers_allOf.trans (and_iff_right some)
  anyOf := covers_anyOf

theorem covers_and : (and fs).Covers values ↔ fs ≠ [] ∧ ∀ f ∈ fs, f.Covers values := (reading_covers values).and

theorem covers_or : (or fs).Covers values ↔ ∃ f ∈ fs, f.Covers values := (reading_covers values).or

end Covers

end Filter

end FacetedSearch
