import FacetedSearch.Error
import FacetedSearch.Facet.Basic

namespace FacetedSearch

-- The facets of an index in order of registration. Names are distinct and what
-- a facet depends on was registered before it.
structure Registry where
  facets : List Facet := []
  distinct : (facets.map Facet.name).Nodup := by exact .nil
  earlier : ∀ (slot : Nat) (found : slot < facets.length), ∀ d ∈ facets[slot].dependents,
    d ∈ facets.take slot := by exact fun _ found => absurd found (Nat.not_lt_zero _)

namespace Registry

instance : EmptyCollection Registry := ⟨{}⟩

def get? (r : Registry) (name : String) : Option Facet := r.facets.find? (·.name = name)

def slot? (r : Registry) (name : String) : Option Nat := r.facets.findIdx? (·.name = name)

def require (r : Registry) (name : String) : Except Error Facet :=
  match r.get? name with
  | some f => .ok f
  | none => .error (.unknownFacet name)

def dependents (r : Registry) (facet : String) : List String → Except Error (List Facet)
  | [] => .ok []
  | dependency :: rest =>
    match r.get? dependency with
    | none => .error (.unknownDependency facet dependency)
    | some f => (r.dependents facet rest).map (f :: ·)

theorem mem_of_dependents {r : Registry} {facet : String} {names : List String} {found : List Facet}
    (resolved : r.dependents facet names = .ok found) : ∀ f ∈ found, f ∈ r.facets := by
  induction names generalizing found with
  | nil => cases resolved; exact fun _ member => nomatch member
  | cons name rest ih =>
    unfold dependents at resolved
    cases got : r.get? name with
    | none => simp [got] at resolved
    | some f =>
      cases tail : r.dependents facet rest with
      | error e => simp [got, tail, Except.map] at resolved
      | ok fs =>
        simp only [got, tail, Except.map, Except.ok.injEq] at resolved
        subst resolved
        intro g member
        rcases List.mem_cons.mp member with rfl | member
        · exact List.mem_of_find?_eq_some got
        · exact ih tail g member

def add (r : Registry) (f : Facet) (fresh : f.name ∉ r.facets.map Facet.name)
    (known : ∀ d ∈ f.dependents, d ∈ r.facets) : Registry where
  facets := r.facets ++ [f]
  distinct := by
    rw [List.map_append]
    refine List.nodup_append.mpr ⟨r.distinct, by simp, fun name old other new same => fresh ?_⟩
    rw [List.map_cons, List.map_nil, List.mem_singleton] at new
    exact new ▸ same ▸ old
  earlier := by
    intro slot found d member
    by_cases old : slot < r.facets.length
    · rw [List.getElem_append_left old] at member
      rw [List.take_append_of_le_length (Nat.le_of_lt old)]
      exact r.earlier slot old d member
    · have last : slot = r.facets.length := by
        simp only [List.length_append, List.length_cons, List.length_nil] at found; omega
      subst last
      rw [List.getElem_append_right (Nat.le_refl _)] at member
      rw [List.take_left]
      exact known d (by simpa using member)

-- A missing dependency is found before a repeated name.
def declare (r : Registry) (d : Declaration) : Except Error Registry :=
  match resolved : r.dependents d.name d.dependsOn with
  | .error e => .error e
  | .ok dependents =>
    if fresh : d.name ∉ r.facets.map Facet.name then
      .ok (r.add (d.resolved dependents) (d.name_resolved dependents ▸ fresh) fun f member =>
        mem_of_dependents resolved f (Declaration.mem_dependents_resolved member))
    else .error (.duplicateFacet d.name)

def ofDeclarations (declarations : List Declaration) : Except Error Registry :=
  declarations.foldlM declare ∅

end Registry

end FacetedSearch
