import FacetedSearch.Facet.Column
import FacetedSearch.Facet.Registry
import FacetedSearch.Index.Source

namespace FacetedSearch

-- The columns of every registered facet for one segment, by facet name.
-- Combinations own no column.
structure LoadedFacets where
  registry : Registry
  docCount : Nat
  columns : List (String × Option Column)

namespace Facet

def storedRows (s : Source) (field : String) : List (List String) :=
  (List.range s.documentCount).map fun docno => s.storedValues docno field

-- A simple facet refuses the first document with several values; a keyed
-- facet drops the entries that are not well-formed.
def load (s : Source) : Facet → Except Error (Option Column)
  | simple f =>
    let rows := storedRows s f.field
    match rows.zipIdx.find? fun row => 1 < row.1.length with
    | some (values, docno) =>
      .error (.facetNotLoaded f.name
        s!"document {docno} has {values.length} values for single-valued field {f.field}")
    | none => .ok (some (.ofValues rows))
  | keyed f =>
    .ok (some (.ofValues ((storedRows s f.field).map fun entries =>
      entries.filter fun entry => (f.parse entry).isSome)))
  | combo _ _ _ => .ok none

end Facet

namespace LoadedFacets

def load (r : Registry) (s : Source) : Except Error LoadedFacets := do
  let columns ← r.facets.mapM fun f => return (f.name, ← f.load s)
  return ⟨r, s.documentCount, columns⟩

def column? (l : LoadedFacets) (facet : String) : Option Column := (l.columns.lookup facet).join

def allDocs (l : LoadedFacets) : DocSet := .below l.docCount

end LoadedFacets

end FacetedSearch
