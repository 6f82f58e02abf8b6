import FacetedSearch.Proofs.Facet.Selector

namespace FacetedSearch

namespace Filter

-- No intersection of nothing stands anywhere in the filter: its two readings
-- differ, it finds no document and holds of every one.
def Filled : Filter → Prop
  | .empty | .values _ _ => True
  | .allOf parts => parts ≠ [] ∧ ∀ f, (_ : f ∈ parts) → Filled f
  | .anyOf parts => ∀ f, (_ : f ∈ parts) → Filled f
  | .except part => Filled part

section Tests

variable {l : LoadedFacets} {docno : Nat} {fs : List Filter}

theorem holdsAll_iff : holdsAll l docno fs = true ↔ ∀ f ∈ fs, f.holds l docno = true := by
  induction fs with
  | nil => simp [holdsAll]
  | cons f rest ih => rw [holdsAll, Bool.and_eq_true, ih, List.forall_mem_cons]

theorem holdsAny_iff : holdsAny l docno fs = true ↔ ∃ f ∈ fs, f.holds l docno = true := by
  induction fs with
  | nil => simp [holdsAny]
  | cons f rest ih => rw [holdsAny, Bool.or_eq_true, ih, List.exists_mem_cons_iff]

end Tests

theorem lt_of_mem_docs {r : Registry} {s : Source} {docno : Nat} {f : Filter} (found : docno ∈ f.docs (.ofSource r s)) :
    docno < s.documentCount :=
  ((mem_docs f).mp found).1

theorem holds_iff_mem_docs {r : Registry} {s : Source} (docno : Nat) {f : Filter} (filled : f.Filled) :
    f.holds (.ofSource r s) docno = true ↔ docno ∈ f.docs (.ofSource r s) := by
  induction f using byParts with
  | empty => simp [holds, docs, SortedSet.not_mem_empty]
  | values facet matcher =>
    unfold holds docs
    cases found : (LoadedFacets.ofSource r s).column? facet with
    | none => simp [SortedSet.not_mem_empty]
    | some c =>
      obtain ⟨f, rfl⟩ := LoadedFacets.column?_built found
      exact List.any_eq_true.trans (Matcher.mem_docs matcher).symm
  | allOf parts ih =>
    rw [Filled] at filled
    obtain ⟨some, every⟩ := filled
    rw [holds, docs, holdsAll_iff, mem_docsOfAll, and_iff_right some]
    exact forall₂_congr fun f member => ih f member (every f member)
  | anyOf parts ih =>
    rw [Filled] at filled
    rw [holds, docs, holdsAny_iff, mem_docsOfAny]
    exact exists_congr fun f => and_congr_right fun member => ih f member (filled f member)
  | except part ih =>
    rw [Filled] at filled
    rw [holds, docs, SortedSet.mem_diff, ← ih filled, LoadedFacets.allDocs, DocSet.mem_below, Bool.and_eq_true,
      decide_eq_true_eq, Bool.not_eq_true', Bool.not_eq_true]

section Constructors

variable {fs : List Filter}

theorem filled_node {make : List Filter → Filter} (several : ∀ fs, fs ≠ [] → (∀ f ∈ fs, f.Filled) → (make fs).Filled)
    (parts : ∀ f ∈ fs, f.Filled) : (node make fs).Filled := by
  rcases node_cases make fs with ⟨_, bare⟩ | ⟨f, rfl, single⟩ | ⟨many, joined⟩
  · rw [bare, Filled]
    trivial
  · exact single ▸ parts f (List.mem_singleton_self f)
  · exact joined ▸ several fs (ne_nil_of_several many) parts

theorem filled_and (parts : ∀ f ∈ fs, f.Filled) : (and fs).Filled := by
  unfold and
  split
  · rw [Filled]; trivial
  · apply filled_node
    · intro fs some every
      rw [Filled]
      exact ⟨some, every⟩
    · exact fun f member => parts f (List.mem_eraseDups.mp member)

theorem filled_or (parts : ∀ f ∈ fs, f.Filled) : (or fs).Filled := by
  apply filled_node
  · intro fs _ every
    rw [Filled]
    exact every
  · exact fun f member => parts f (List.mem_filter.mp (List.mem_eraseDups.mp member)).1

theorem filled_not {f : Filter} (part : f.Filled) : (not f).Filled := by
  rw [not, Filled]
  exact part

end Constructors

end Filter

structure Selector.Filled (s : Selector) : Prop where
  value : ∀ v, (s.value v).Filled
  every : ∀ vs, (s.every vs).Filled
  any : ∀ vs, (s.any vs).Filled
  exclude : ∀ vs, (s.exclude vs).Filled

namespace Selector

theorem filled_ofLeaf {leaf : String → Filter} (each : ∀ v, (leaf v).Filled) : (ofLeaf leaf).Filled := by
  have listed : ∀ vs : List String, ∀ f ∈ vs.map leaf, f.Filled := by
    intro vs f member
    obtain ⟨v, _, rfl⟩ := List.mem_map.mp member
    exact each v
  exact ⟨each, fun vs => Filter.filled_and (listed vs), fun vs => Filter.filled_or (listed vs),
    fun vs => Filter.filled_not (Filter.filled_or (listed vs))⟩

theorem filled_elim {found : Option Selector} (known : ∀ d, found = some d → d.Filled) {use : Selector → Filter}
    (used : ∀ d : Selector, d.Filled → (use d).Filled) : (found.elim .empty use).Filled := by
  cases found with
  | none => rw [Option.elim_none, Filter.Filled]; trivial
  | some d => exact used d (known d rfl)

theorem filled_combine {separator : String} {dependent : String → Option Selector}
    (known : ∀ name d, dependent name = some d → d.Filled) : (combine separator dependent).Filled := by
  have listed : ∀ (use : List String → Selector → Filter), (∀ vs (d : Selector), d.Filled → (use vs d).Filled) →
      ∀ vs, ∀ f ∈ (groups separator vs).map fun group => (dependent group.1).elim .empty (use group.2), f.Filled := by
    intro use used vs f member
    obtain ⟨group, _, rfl⟩ := List.mem_map.mp member
    exact filled_elim (known group.1) (used group.2)
  constructor
  · intro v
    simp only [combine]
    split
    · exact filled_elim (known _) fun d filled => filled.value _
    · rw [Filter.Filled]; trivial
  · exact fun vs => Filter.filled_and (listed (fun vs d => d.every vs) (fun vs _ filled => filled.every vs) vs)
  · exact fun vs => Filter.filled_or (listed (fun vs d => d.any vs) (fun vs _ filled => filled.any vs) vs)
  · intro vs
    simp only [combine]
    split
    · apply Filter.filled_not
      rw [Filter.Filled]; trivial
    · apply Filter.filled_and
      intro f member
      obtain ⟨group, _, made⟩ := List.mem_filterMap.mp member
      obtain ⟨d, answers, rfl⟩ := Option.map_eq_some_iff.mp made
      exact (known _ d answers).exclude group.2

end Selector

theorem Facet.filled_selector (f : Facet) : f.selector.Filled := by
  induction f using byDependents with
  | simple f => exact Selector.filled_ofLeaf fun v => by rw [Filter.Filled]; trivial
  | keyed f => exact Selector.filled_ofLeaf fun v => by rw [Filter.Filled]; trivial
  | combo name separator dependents ih =>
    rw [selector_combo]
    apply Selector.filled_combine
    intro name d answers
    rw [selectorIn_eq] at answers
    obtain ⟨f, found, rfl⟩ := Option.map_eq_some_iff.mp answers
    exact ih f (List.mem_of_find?_eq_some found)

namespace Filter

theorem readings_agree (r : Registry) (s : Source) (l : LoadedFacets) (loaded : LoadedFacets.load r s = .ok l) :
    (∀ f : Filter, f.Filled → ∀ docno, f.holds l docno = true ↔ docno ∈ f.docs l) ∧
      (∀ (f : Filter) (docno : Nat), docno ∈ f.docs l → docno < s.documentCount) ∧
      (∀ fs : List Filter, (∀ f ∈ fs, f.Filled) → (and fs).Filled ∧ (or fs).Filled) ∧
      (∀ f : Filter, f.Filled → (not f).Filled) ∧ ∀ f ∈ r.facets, f.selector.Filled := by
  obtain ⟨rfl, _⟩ := LoadedFacets.load_exact.mp loaded
  refine ⟨fun f filled docno => holds_iff_mem_docs docno filled, fun f docno => lt_of_mem_docs, ?_, ?_, ?_⟩
  · exact fun fs parts => ⟨filled_and parts, filled_or parts⟩
  · exact fun f part => filled_not part
  · exact fun f _ => f.filled_selector

def tagged : Registry := Registry.add ∅ (.keyed { name := "tags", separator := "::" }) (by decide) nofun

def tags : Source where
  documentCount := 2
  postings _ := []
  storedValues docno _ := if docno = 0 then ["é::", "é::a"] else ["é::a::b", "é"]

def longer : Filter :=
  .except (.anyOf [.except (.values "tags" (.under "é::a" "::")), .values "tags" (.exact "é::a")])

theorem readings_agree_longer :
    ∃ l, LoadedFacets.load tagged tags = .ok l ∧ longer.Filled ∧ (longer.holds l 1 = true ↔ 1 ∈ longer.docs l) ∧
      1 ∈ longer.docs l ∧ 2 ∉ longer.docs l ∧ (and [longer, longer]).Filled := by
  have loaded : LoadedFacets.load tagged tags = .ok (.ofSource tagged tags) := rfl
  have filled : longer.Filled := by simp [longer, Filled]
  obtain ⟨agree, within, joined, _⟩ := readings_agree tagged tags _ loaded
  refine ⟨_, loaded, filled, agree longer filled 1, (agree longer filled 1).mp (by decide), fun found => ?_, ?_⟩
  · exact absurd (within longer 2 found) (by decide)
  · exact (joined [longer, longer] (by simp [filled])).1

end Filter

end FacetedSearch
