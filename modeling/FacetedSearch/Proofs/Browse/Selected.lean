import FacetedSearch.Browse.Browser
import FacetedSearch.Proofs.Facet.Selector

namespace FacetedSearch

def Filter.Passes (values : String → List String) (filter : Option Filter) : Prop :=
  ∀ f, filter = some f → f.Covers values

theorem Filter.passes_some {values : String → List String} {f : Filter} : Passes values (some f) ↔ f.Covers values :=
  ⟨fun passes => passes f rfl, fun covered _ same => Option.some.inj same ▸ covered⟩

theorem Filter.passes_none {values : String → List String} : Passes values none := nofun

namespace Selection

structure Accepts (stored : String → List String) (s : Selection) (f : Facet) : Prop where
  included : s.values = [] ∨ (s.combination = .any ∧ ∃ v ∈ s.values, f.Satisfies stored v) ∨
    (s.combination = .every ∧ f.AllHold stored s.values)
  excluded : ¬ ∃ v ∈ s.excluded, f.Satisfies stored v

theorem accepts_parts {stored : String → List String} {s : Selection} {f : Facet} : s.Accepts stored f ↔
    (s.values = [] ∨ (s.combination = .any ∧ ∃ v ∈ s.values, f.Satisfies stored v) ∨
      (s.combination = .every ∧ f.AllHold stored s.values)) ∧ ¬ ∃ v ∈ s.excluded, f.Satisfies stored v :=
  ⟨fun accepts => ⟨accepts.included, accepts.excluded⟩, fun parts => ⟨parts.1, parts.2⟩⟩

theorem passes_filter? {stored values : String → List String} {f : Facet} (means : f.Means stored values) (s : Selection) :
    Filter.Passes values (s.filter? f) ↔ s.Accepts stored f := by
  obtain ⟨facet, vs, excluded, combination, properties⟩ := s
  rw [accepts_parts]
  unfold filter?
  cases vs with
  | nil =>
    cases excluded with
    | nil => simp [Filter.passes_none]
    | cons w others => simp [Filter.passes_some, means.exclude]
  | cons v rest =>
    have every := means.every (v :: rest) nofun
    have any := means.any (v :: rest)
    cases excluded with
    | nil => cases combination <;> simp [Filter.passes_some, any, every]
    | cons w others => cases combination <;> simp [Filter.passes_some, Filter.covers_and, any, every, means.exclude]

end Selection

namespace Registry

variable {r : Registry} {stored values : String → List String} {f : Facet}

def AcceptsAll (r : Registry) (stored : String → List String) (leftOut : Option String) (selections : List Selection) :
    Prop :=
  ∀ s ∈ selections, leftOut ≠ some s.facet → ∃ f ∈ r.facets, f.name = s.facet ∧ s.Accepts stored f

theorem exists_accepts {s : Selection} (known : f ∈ r.facets) (named : f.name = s.facet) :
    (∃ g ∈ r.facets, g.name = s.facet ∧ s.Accepts stored g) ↔ s.Accepts stored f := by
  constructor
  · intro ⟨g, other, also, accepts⟩
    exact r.eq_of_name other known (also.trans named.symm) ▸ accepts
  · exact fun accepts => ⟨f, known, named, accepts⟩

theorem covers_selectionFilters (shows : r.Shows stored values) {leftOut : Option String} {selections : List Selection}
    {filters : List Filter} (composed : r.selectionFilters leftOut selections = .ok filters) :
    (∀ g ∈ filters, g.Covers values) ↔ r.AcceptsAll stored leftOut selections := by
  unfold AcceptsAll
  induction selections generalizing filters with
  | nil =>
    cases composed
    simp
  | cons s rest ih =>
    unfold selectionFilters at composed
    cases required : r.require s.facet with
    | error e => simp [required, bind, Except.bind] at composed
    | ok f =>
      cases tail : r.selectionFilters leftOut rest with
      | error e => simp [required, tail, bind, Except.bind] at composed
      | ok others =>
        simp only [required, tail, bind, Except.bind, pure, Except.pure, Except.ok.injEq] at composed
        subst composed
        obtain ⟨known, named⟩ := require_exact.mp required
        have means : f.Means stored values := Facet.means_of_mem shows f known
        rw [List.forall_mem_cons, exists_accepts known named, ← ih tail, ← s.passes_filter? means]
        split
        · rename_i left
          simp [left]
        · rename_i kept
          rw [List.forall_mem_append]
          simp [kept, Filter.Passes]

theorem passes_compose (shows : r.Shows stored values) {leftOut : Option String} {selections : List Selection}
    {filter : Option Filter} (composed : r.compose selections leftOut = .ok filter) :
    Filter.Passes values filter ↔ r.AcceptsAll stored leftOut selections := by
  unfold compose at composed
  cases found : r.selectionFilters leftOut selections with
  | error e => simp [found, Except.map] at composed
  | ok filters =>
    rw [← covers_selectionFilters shows found]
    rw [found, Except.map, Except.ok.injEq] at composed
    subst composed
    cases filters with
    | nil => exact iff_of_true Filter.passes_none (List.forall_mem_nil _)
    | cons f rest =>
      simp only
      rw [Filter.passes_some, Filter.covers_and]
      exact and_iff_right (List.cons_ne_nil f rest)

end Registry

end FacetedSearch
