import FacetedSearch.Facet.Counts
import FacetedSearch.Facet.Loaded

namespace FacetedSearch

namespace Facet

mutual

-- The values of a document as the facet shows them. A combination lists its
-- dependents in order of declaration and puts their names in front.
def valuesOf (l : LoadedFacets) (docno : Nat) : Facet → List String
  | simple f => ((l.column? f.name).map (·.values docno)).getD []
  | keyed f => ((l.column? f.name).map (·.values docno)).getD []
  | combo _ separator dependents => valuesOfAll l docno separator dependents

def valuesOfAll (l : LoadedFacets) (docno : Nat) (separator : String) : List Facet → List String
  | [] => []
  | f :: rest => (f.valuesOf l docno).map (fun value => f.name ++ separator ++ value) ++
    valuesOfAll l docno separator rest

end

mutual

def itemCount (l : LoadedFacets) (docno : Nat) : Facet → Nat
  | simple f => ((l.column? f.name).map fun c => (c.ordinals docno).size).getD 0
  | keyed f => ((l.column? f.name).map fun c => (c.ordinals docno).size).getD 0
  | combo _ _ dependents => carriedCount l docno dependents

def carriedCount (l : LoadedFacets) (docno : Nat) : List Facet → Nat
  | [] => 0
  | f :: rest => (if 0 < f.itemCount l docno then 1 else 0) + carriedCount l docno rest

end

-- Only facets that own a column can be counted or sorted by.
def count (f : Facet) (l : LoadedFacets) (docs : List Nat) : Except Error ValueCounts :=
  match f with
  | combo name _ _ => .error (.unsupported "facet counting" name)
  | _ => .ok (((l.column? f.name).map fun c => ValueCounts.collect c docs).getD ∅)

def sortColumn (f : Facet) (l : LoadedFacets) : Except Error (Option Column) :=
  match f with
  | combo name _ _ => .error (.unsupported "sorting" name)
  | _ => .ok (l.column? f.name)

def countOptions (f : Facet) (selected : Option Selection) : CountOptions :=
  match f with
  | keyed k =>
    { maxPerKey := k.maxPerKey (selected.map (·.properties))
      separator := some k.separator
      keys := (selected.filter (!·.values.isEmpty)).map fun s => s.values.map k.keyOf }
  | _ => {}

end Facet

namespace SortValue

def of (column : Option Column) (docno : Nat) : Option String :=
  column.bind fun c => (c.ordinals docno).toList.head?.bind c.value?

def compare : Option String → Option String → Ordering
  | some x, some y => Ord.compare x y
  | some _, none => .lt
  | none, some _ => .gt
  | none, none => .eq

def sort (column : Option Column) (docs : List Nat) : List Nat :=
  docs.mergeSort fun a b => (compare (of column a) (of column b)).isLE

end SortValue

end FacetedSearch
