import FacetedSearch.Proofs.Facet.Selector

namespace FacetedSearch

namespace Facet

section Found

variable {r : Registry} {s : Source} {l : LoadedFacets} {f : Facet} {docno : Nat} {v : String} {vs : List String}

theorem mem_docs_of_means (loaded : LoadedFacets.load r s = .ok l) (known : f ∈ r.facets) {g : Filter} {P : Prop}
    (told : f.Means (s.storedValues docno) (fun facet => l.valuesAt facet docno) →
      (g.Covers (fun facet => l.valuesAt facet docno) ↔ P)) :
    docno ∈ g.docs l ↔ docno < s.documentCount ∧ P := by
  have found : docno ∈ g.docs l ↔ docno < s.documentCount ∧ g.Covers fun facet => l.valuesAt facet docno := by
    rw [(LoadedFacets.load_exact.mp loaded).1]
    exact Filter.mem_docs g
  rw [found]
  exact and_congr_right fun inside => told (means_of_mem (LoadedFacets.shows_of_load loaded inside) f known)

theorem mem_value (loaded : LoadedFacets.load r s = .ok l) (known : f ∈ r.facets) :
    docno ∈ (f.selector.value v).docs l ↔ docno < s.documentCount ∧ f.Satisfies (s.storedValues docno) v :=
  mem_docs_of_means loaded known fun means => means.value v

theorem mem_any (loaded : LoadedFacets.load r s = .ok l) (known : f ∈ r.facets) :
    docno ∈ (f.selector.any vs).docs l ↔ docno < s.documentCount ∧ ∃ v ∈ vs, f.Satisfies (s.storedValues docno) v :=
  mem_docs_of_means loaded known fun means => means.any vs

theorem mem_every (loaded : LoadedFacets.load r s = .ok l) (known : f ∈ r.facets) (filled : vs ≠ []) :
    docno ∈ (f.selector.every vs).docs l ↔ docno < s.documentCount ∧ f.AllHold (s.storedValues docno) vs :=
  mem_docs_of_means loaded known fun means => means.every vs filled

theorem mem_exclude (loaded : LoadedFacets.load r s = .ok l) (known : f ∈ r.facets) :
    docno ∈ (f.selector.exclude vs).docs l ↔
      docno < s.documentCount ∧ ¬ ∃ v ∈ vs, f.Satisfies (s.storedValues docno) v :=
  mem_docs_of_means loaded known fun means => means.exclude vs

end Found

theorem any_union_exclude_rest (r : Registry) (s : Source) (l : LoadedFacets) (loaded : LoadedFacets.load r s = .ok l)
    (f : Facet) (known : f ∈ r.facets) (vs : List String) (docno : Nat) :
    (docno ∈ (f.selector.any vs).docs l ↔ ∃ v ∈ vs, docno ∈ (f.selector.value v).docs l) ∧
      (docno ∈ (f.selector.exclude vs).docs l ↔
        docno ∈ l.allDocs ∧ ¬ ∃ v ∈ vs, docno ∈ (f.selector.value v).docs l) := by
  have union : (∃ v ∈ vs, docno ∈ (f.selector.value v).docs l) ↔
      docno < s.documentCount ∧ ∃ v ∈ vs, f.Satisfies (s.storedValues docno) v := by
    simp only [mem_value loaded known]
    constructor
    · intro ⟨v, member, inside, satisfied⟩
      exact ⟨inside, v, member, satisfied⟩
    · intro ⟨inside, v, member, satisfied⟩
      exact ⟨v, member, inside, satisfied⟩
  have whole : docno ∈ l.allDocs ↔ docno < s.documentCount := by
    rw [(LoadedFacets.load_exact.mp loaded).1]
    exact DocSet.mem_below
  rw [union, whole]
  refine ⟨mem_any loaded known, (mem_exclude loaded known).trans (and_congr_right fun inside => not_congr ?_)⟩
  exact (and_iff_right inside).symm

def hue : Facet := .simple { name := "hue" }

def mix : Facet := .combo "mix" ":" [hue]

def palette : Facet := .combo "palette" "/" [mix]

def mixed : Registry :=
  (((∅ : Registry).add hue (by decide) nofun).add mix (by decide) fun _ member => member).add palette (by decide)
    fun _ member => List.mem_append_right _ member

def hues : Source where
  documentCount := 3
  postings _ := []
  storedValues docno _ := if docno = 0 then ["red"] else if docno = 1 then ["blue"] else []

theorem any_union_exclude_rest_hues : ∃ l, LoadedFacets.load mixed hues = .ok l ∧
    (1 ∈ (palette.selector.any ["mix/hue:blue", "red", "tone/dark", "mix/hue:blue"]).docs l ↔
      ∃ v ∈ ["mix/hue:blue", "red", "tone/dark", "mix/hue:blue"], 1 ∈ (palette.selector.value v).docs l) ∧
    1 ∈ (palette.selector.value "mix/hue:blue").docs l ∧
    1 ∉ (palette.selector.exclude ["mix/hue:blue", "red", "tone/dark", "mix/hue:blue"]).docs l ∧
    2 ∈ (palette.selector.exclude ["mix/hue:blue", "red", "tone/dark", "mix/hue:blue"]).docs l := by
  have loaded : LoadedFacets.load mixed hues = .ok (.ofSource mixed hues) := rfl
  have known : palette ∈ mixed.facets := List.mem_append_right _ (List.mem_singleton_self palette)
  have parts := any_union_exclude_rest mixed hues _ loaded palette known
    ["mix/hue:blue", "red", "tone/dark", "mix/hue:blue"]
  have blue : 1 ∈ (palette.selector.value "mix/hue:blue").docs (.ofSource mixed hues) := by decide +kernel
  refine ⟨_, loaded, (parts 1).1, blue, fun kept => ?_, (parts 2).2.mpr (by decide +kernel)⟩
  exact ((parts 1).2.mp kept).2 ⟨_, .head _, blue⟩

-- A further value joins those there are: it is not the first well-formed one of
-- a combination, nor of any combination that it is handed on to with others.
def Joins : Facet → List String → String → Prop
  | .combo _ separator dependents, vs, w => ∀ part rest, Text.Pair separator w part rest →
      (∃ v ∈ vs, ∃ part rest, Text.Pair separator v part rest) ∧
        (Selector.addressed separator part vs ≠ [] → ∀ d, (_ : d ∈ dependents) → d.name = part →
          Joins d (Selector.addressed separator part vs) rest)
  | _, _, _ => True

section Narrowing

variable {r : Registry} {stored : String → List String} {f : Facet} {vs : List String} {w : String}

theorem allHold_of_joins (joins : f.Joins vs w) (held : f.AllHold stored (vs ++ [w])) : f.AllHold stored vs := by
  induction f using byDependents generalizing vs w with
  | simple f =>
    simp only [AllHold] at held ⊢
    exact fun v member => held v (List.mem_append_left _ member)
  | keyed f =>
    simp only [AllHold] at held ⊢
    exact fun v member => held v (List.mem_append_left _ member)
  | combo name separator dependents ih =>
    rw [Joins] at joins
    rw [AllHold] at held ⊢
    obtain ⟨⟨v, member, part, rest, formed⟩, every⟩ := held
    constructor
    · rcases List.mem_append.mp member with old | new
      · exact ⟨v, old, part, rest, formed⟩
      · rw [List.mem_singleton.mp new] at formed
        exact (joins part rest formed).1
    · intro v member part rest formed
      obtain ⟨d, dependent, named, held⟩ := every v (List.mem_append_left _ member) part rest formed
      refine ⟨d, dependent, named, ?_⟩
      have filled := List.ne_nil_of_mem (Selector.mem_addressed.mpr ⟨v, member, formed⟩)
      rw [Selector.addressed_append] at held
      -- Only what is addressed to the same dependent is more than before.
      split at held
      · rename_i parsed
        split at held
        · rename_i same
          subst same
          exact ih d dependent ((joins _ _ (Text.pair?_exact.mp parsed)).2 filled d dependent named) held
        · rwa [List.append_nil] at held
      · rwa [List.append_nil] at held

theorem joins_of_allHold (known : f ∈ r.facets) (held : f.AllHold stored vs) (w : String) : f.Joins vs w := by
  induction f using byDependents generalizing vs w with
  | simple f => simp only [Joins]
  | keyed f => simp only [Joins]
  | combo name separator dependents ih =>
    rw [AllHold] at held
    rw [Joins]
    refine fun part rest _ => ⟨held.1, fun filled d dependent named => ?_⟩
    obtain ⟨_, inside⟩ := List.exists_mem_of_ne_nil _ filled
    obtain ⟨v, member, formed⟩ := Selector.mem_addressed.mp inside
    obtain ⟨e, other, also, held⟩ := held.2 v member part _ formed
    have own := fun d dependent => r.mem_of_mem_dependents (d := d) known dependent
    rw [r.eq_of_name (own e other) (own d dependent) (also.trans named.symm)] at held
    exact ih d dependent (own d dependent) held rest

end Narrowing

theorem added_value_narrows (r : Registry) (s : Source) (l : LoadedFacets) (loaded : LoadedFacets.load r s = .ok l)
    (f : Facet) (known : f ∈ r.facets) (vs : List String) (filled : vs ≠ []) (w : String) :
    (f.Joins vs w → ∀ docno ∈ (f.selector.every (vs ++ [w])).docs l, docno ∈ (f.selector.every vs).docs l) ∧
      (¬ f.Joins vs w → ∀ docno, docno ∉ (f.selector.every vs).docs l) ∧
      (∀ docno ∈ (f.selector.any vs).docs l, docno ∈ (f.selector.any (vs ++ [w])).docs l) ∧
      ∀ docno ∈ (f.selector.exclude (vs ++ [w])).docs l, docno ∈ (f.selector.exclude vs).docs l := by
  have more : vs ++ [w] ≠ [] := List.append_ne_nil_of_left_ne_nil filled _
  have wider : ∀ {stored}, (∃ v ∈ vs, f.Satisfies stored v) → ∃ v ∈ vs ++ [w], f.Satisfies stored v :=
    fun ⟨v, member, satisfied⟩ => ⟨v, List.mem_append_left _ member, satisfied⟩
  simp only [mem_every loaded known filled, mem_every loaded known more, mem_any loaded known, mem_exclude loaded known]
  refine ⟨fun joins docno found => ?_, fun apart docno found => ?_, fun docno found => ?_, fun docno found => ?_⟩
  · exact ⟨found.1, allHold_of_joins joins found.2⟩
  · exact apart (joins_of_allHold known found.2 w)
  · exact ⟨found.1, wider found.2⟩
  · exact ⟨found.1, fun satisfied => found.2 (wider satisfied)⟩

theorem added_value_narrows_hues : ∃ l, LoadedFacets.load mixed hues = .ok l ∧
    palette.Joins ["red", "mix/hue:red"] "mix/hue:blue" ∧
    0 ∈ (palette.selector.every ["red", "mix/hue:red"]).docs l ∧
    1 ∉ (palette.selector.every ["red", "mix/hue:red", "mix/hue:blue"]).docs l ∧
    0 ∈ (palette.selector.any ["red", "mix/hue:red", "mix/hue:blue"]).docs l := by
  have loaded : LoadedFacets.load mixed hues = .ok (.ofSource mixed hues) := rfl
  have known : palette ∈ mixed.facets := List.mem_append_right _ (List.mem_singleton_self palette)
  have filled : ["red", "mix/hue:red"] ≠ [] := List.cons_ne_nil _ _
  obtain ⟨narrows, nothing, widens, _⟩ := added_value_narrows mixed hues _ loaded palette known
    ["red", "mix/hue:red"] filled "mix/hue:blue"
  have red : 0 ∈ (palette.selector.every ["red", "mix/hue:red"]).docs (.ofSource mixed hues) := by decide +kernel
  have joins : palette.Joins ["red", "mix/hue:red"] "mix/hue:blue" :=
    Classical.byContradiction fun apart => nothing apart 0 red
  refine ⟨_, loaded, joins, red, fun found => ?_, widens 0 (by decide +kernel)⟩
  exact absurd (narrows joins 1 found) (by decide +kernel)

-- Red alone is no pair and finds nothing, red as a hue on top of it is found.
theorem added_value_widens : ¬ ∀ (r : Registry) (s : Source) (l : LoadedFacets), LoadedFacets.load r s = .ok l →
    ∀ f ∈ r.facets, ∀ (vs : List String) (w : String), vs ≠ [] →
      ∀ docno ∈ (f.selector.every (vs ++ [w])).docs l, docno ∈ (f.selector.every vs).docs l := by
  intro narrows
  have known : mix ∈ mixed.facets := List.mem_append_left _ (List.mem_append_right _ (List.mem_singleton_self mix))
  have found := narrows mixed hues _ rfl mix known ["red"] "hue:red" (List.cons_ne_nil _ _) 0 (by decide +kernel)
  exact absurd found (by decide +kernel)

end Facet

end FacetedSearch
