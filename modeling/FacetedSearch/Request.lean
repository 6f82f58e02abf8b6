import FacetedSearch.Facet.Properties
import FacetedSearch.Index.Segment
import FacetedSearch.Query

namespace FacetedSearch

structure Entry where
  value : String
  hits : UInt32
deriving Repr, DecidableEq

inductive Combination where
  | every
  | any
deriving Repr, DecidableEq

structure Selection where
  facet : String
  values : List String := []
  excluded : List String := []
  combination : Combination := .any
  properties : Properties := {}
deriving Repr, DecidableEq

-- The order of counted entries; entries that tie stand in order of value. An
-- order supplied by the caller exists in memory only and has no written form.
inductive EntryOrder where
  | byValue
  | byHits
  | custom (compare : Entry → Entry → Ordering)

-- How the entries of one facet are cut down. A limit of zero is none.
structure CountSpec where
  minHits : UInt32 := 1
  order : EntryOrder := .byValue
  limit : Nat := 0
  expandsSelection : Bool := false

structure SortField where
  facet : String
  reverse : Bool := false
deriving Repr, DecidableEq

structure Request where
  selections : List Selection := []
  countSpecs : Std.ExtTreeMap String CountSpec := ∅
  facets : List String := []
  query : Option Query := none
  within : Option String := none
  offset : Nat := 0
  count : Nat := 10
  sort : List SortField := []

namespace Request

def selection? (r : Request) (facet : String) : Option Selection :=
  r.selections.find? (·.facet = facet)

end Request

structure Settings where
  sectionField : String := defaultSectionField
  countSpec : CountSpec := {}

structure FacetAnswer where
  entries : List Entry
  total : UInt32
deriving Repr, DecidableEq

namespace FacetAnswer

def hits? (a : FacetAnswer) (value : String) : Option UInt32 :=
  (a.entries.find? (·.value = value)).map (·.hits)

end FacetAnswer

structure Hit where
  docId : Nat
  segment : SegmentId
  docno : Nat
deriving Repr, DecidableEq

structure Answer where
  hitCount : Nat
  hits : List Hit
  facets : Std.ExtTreeMap String FacetAnswer
deriving DecidableEq

namespace Answer

def docIds (a : Answer) : List Nat := a.hits.map (·.docId)

end Answer

end FacetedSearch
