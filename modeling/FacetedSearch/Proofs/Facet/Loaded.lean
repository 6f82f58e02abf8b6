import FacetedSearch.Facet.Loaded
import FacetedSearch.Proofs.Facet.Column
import FacetedSearch.Proofs.Outcome
import FacetedSearch.Proofs.Sorted.Bindings

namespace FacetedSearch

namespace Facet

-- What loading keeps of the values a document stores under each field.
def kept (stored : String → List String) : Facet → List String
  | simple f => stored f.field
  | keyed f => (stored f.field).filter fun entry => (f.parse entry).isSome
  | combo _ _ _ => []

def Admits (stored : String → List String) : Facet → Prop
  | simple f => (stored f.field).length ≤ 1
  | _ => True

def keptRows (s : Source) (f : Facet) : List (List String) :=
  (List.range s.documentCount).map fun docno => f.kept (s.storedValues docno)

def column (s : Source) : Facet → Option Column
  | combo _ _ _ => none
  | f => some (.ofValues (f.keptRows s))

theorem find?_storedRows (s : Source) (field : String) :
    (storedRows s field).zipIdx.find? (fun row => decide (1 < row.1.length)) = none ↔
      ∀ docno < s.documentCount, (s.storedValues docno field).length ≤ 1 := by
  rw [List.find?_eq_none]
  simp only [Prod.forall, List.mem_zipIdx_iff_getElem?, decide_eq_true_eq, Nat.not_lt]
  constructor
  · intro single docno inside
    apply single _ docno
    rw [storedRows, List.getElem?_map, List.getElem?_range inside]
    rfl
  · intro single values docno found
    rw [storedRows, List.getElem?_map, Option.map_eq_some_iff] at found
    obtain ⟨number, at_, rfl⟩ := found
    obtain ⟨inside, rfl⟩ := List.getElem?_eq_some_iff.mp at_
    rw [List.getElem_range]
    exact single docno (by simpa using inside)

theorem load_exact {s : Source} {f : Facet} {loaded : Option Column} :
    f.load s = .ok loaded ↔
      loaded = f.column s ∧ ∀ docno < s.documentCount, f.Admits (s.storedValues docno) := by
  cases f with
  | simple f =>
    have single := find?_storedRows s f.field
    have built : (simple f).column s = some (.ofValues (storedRows s f.field)) := rfl
    unfold load Admits
    rw [built]
    cases several : (storedRows s f.field).zipIdx.find? fun row => decide (1 < row.1.length) with
    | none =>
      simp only [several, Except.ok.injEq]
      exact ⟨fun equal => ⟨equal.symm, single.mp several⟩, fun pair => pair.1.symm⟩
    | some row =>
      simp only [several, reduceCtorEq, false_iff, not_and]
      exact fun _ fits => nomatch several.symm.trans (single.mpr fits)
  | keyed f => simp [load, column, keptRows, storedRows, kept, Admits, Function.comp_def, eq_comm]
  | combo => simp [load, column, Admits, eq_comm]

end Facet

namespace LoadedFacets

def ofSource (r : Registry) (s : Source) : LoadedFacets :=
  ⟨r, s.documentCount, r.facets.map fun f => (f.name, f.column s)⟩

theorem loadAll_exact {s : Source} {fs : List Facet} {columns : List (String × Option Column)} :
    (fs.mapM fun f => return (f.name, ← f.load s)) = .ok columns ↔
      columns = fs.map (fun f => (f.name, f.column s)) ∧
        ∀ f ∈ fs, ∀ docno < s.documentCount, f.Admits (s.storedValues docno) := by
  have one : ∀ (f : Facet) (named : String × Option Column), (do return (f.name, ← f.load s)) = .ok named ↔
      (∀ docno < s.documentCount, f.Admits (s.storedValues docno)) ∧ (f.name, f.column s) = named := by
    intro f named
    rw [bind_ok_exact]
    constructor
    · intro ⟨loaded, accepted, same⟩
      obtain ⟨rfl, fits⟩ := Facet.load_exact.mp accepted
      exact ⟨fits, Except.ok.inj same⟩
    · intro ⟨fits, same⟩
      exact ⟨_, Facet.load_exact.mpr ⟨rfl, fits⟩, congrArg Except.ok same⟩
  rw [mapM_ok_exact]
  simp only [one]
  rw [List.forall₂_and_left, ← List.forall₂_map_left_iff (R := Eq), List.forall₂_eq_eq_eq, and_comm]
  exact and_congr_left fun _ => eq_comm

theorem load_exact {r : Registry} {s : Source} {l : LoadedFacets} :
    load r s = .ok l ↔
      l = ofSource r s ∧ ∀ f ∈ r.facets, ∀ docno < s.documentCount, f.Admits (s.storedValues docno) := by
  unfold load ofSource
  rw [bind_ok_exact]
  constructor
  · intro ⟨columns, accepted, same⟩
    obtain ⟨rfl, fits⟩ := loadAll_exact.mp accepted
    exact ⟨(Except.ok.inj same).symm, fits⟩
  · intro ⟨same, fits⟩
    exact ⟨_, loadAll_exact.mpr ⟨rfl, fits⟩, congrArg Except.ok same.symm⟩

variable {r : Registry} {s : Source} {f : Facet}

theorem column?_ofSource (member : f ∈ r.facets) : (ofSource r s).column? f.name = f.column s := by
  have distinct : ((r.facets.map fun f => (f.name, f.column s)).map Prod.fst).Nodup := by
    rw [List.map_map]
    exact r.distinct
  unfold column? ofSource
  rw [lookup_of_mem distinct (List.mem_map_of_mem member), Option.join_some]

def valuesAt (l : LoadedFacets) (facet : String) (docno : Nat) : List String :=
  ((l.column? facet).map (·.values docno)).getD []

theorem rowOf_keptRows (docno : Nat) : Column.rowOf (f.keptRows s) docno =
    if docno < s.documentCount then f.kept (s.storedValues docno) else [] := by
  unfold Column.rowOf Facet.keptRows
  split
  · rename_i inside
    rw [List.getElem?_map, List.getElem?_range inside]
    rfl
  · rename_i past
    rw [List.getElem?_eq_none (by simpa using past)]
    rfl

theorem column?_built {name : String} {c : Column} (found : (ofSource r s).column? name = some c) :
    ∃ f : Facet, c = .ofValues (f.keptRows s) := by
  unfold column? at found
  obtain ⟨front, back, listed, _⟩ := List.lookup_eq_some_iff.mp (Option.join_eq_some_iff.mp found)
  have member : (name, some c) ∈ (ofSource r s).columns := by simp [listed]
  obtain ⟨f, _, same⟩ := List.mem_map.mp member
  refine ⟨f, ?_⟩
  cases f with
  | combo => cases (Prod.mk.inj same).2
  | simple f => exact (Option.some.inj (Prod.mk.inj same).2).symm
  | keyed f => exact (Option.some.inj (Prod.mk.inj same).2).symm

theorem lt_of_mem_values {docno : Nat} {value : String}
    (member : value ∈ (Column.ofValues (f.keptRows s)).values docno) : docno < s.documentCount := by
  rw [Column.mem_values, rowOf_keptRows] at member
  split at member
  · assumption
  · cases member

theorem valuesAt_exact (member : f ∈ r.facets) (docno : Nat) : (ofSource r s).valuesAt f.name docno =
    (SortedSet.ofList (if docno < s.documentCount then f.kept (s.storedValues docno) else [])).toList := by
  unfold valuesAt
  rw [column?_ofSource member]
  cases f with
  | combo =>
    simp only [Facet.kept, ite_self]
    rfl
  | simple f => simp only [Facet.column, Option.map_some, Option.getD_some, Column.values_ofValues, rowOf_keptRows]
  | keyed f => simp only [Facet.column, Option.map_some, Option.getD_some, Column.values_ofValues, rowOf_keptRows]

theorem valuesAt_ofSource (member : f ∈ r.facets) {docno : Nat} (inside : docno < s.documentCount) :
    (ofSource r s).valuesAt f.name docno = (SortedSet.ofList (f.kept (s.storedValues docno))).toList := by
  rw [valuesAt_exact member, if_pos inside]

theorem lt_of_mem_valuesAt (member : f ∈ r.facets) {docno : Nat} {value : String}
    (shown : value ∈ (ofSource r s).valuesAt f.name docno) : docno < s.documentCount := by
  rw [valuesAt_exact member] at shown
  by_contra past
  rw [if_neg past] at shown
  cases SortedSet.mem_ofList.mp shown

theorem valuesAt_unknown {name : String} (unknown : name ∉ r.facets.map Facet.name) (docno : Nat) :
    (ofSource r s).valuesAt name docno = [] := by
  have absent : (ofSource r s).columns.lookup name = none := by
    refine List.lookup_eq_none_iff.mpr fun p member => bne_iff_ne.mpr ?_
    rintro rfl
    obtain ⟨f, known, rfl⟩ := List.mem_map.mp member
    exact unknown (List.mem_map_of_mem known)
  unfold valuesAt column?
  rw [absent]
  rfl

end LoadedFacets

end FacetedSearch
