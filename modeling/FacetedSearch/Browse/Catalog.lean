import FacetedSearch.Facet.Loaded

namespace FacetedSearch

structure LiveSegment where
  id : SegmentId
  source : Source
  facets : LoadedFacets

namespace LiveSegment

def docCount (s : LiveSegment) : Nat := s.facets.docCount

def summary (s : LiveSegment) : String :=
  "BrowseSegment \x7b id: SegmentId(" ++ toString s.id.value.toNat ++ "), doc_count: " ++
    toString s.docCount ++ " \x7d"

end LiveSegment

structure Catalog where
  registry : Registry
  live : List LiveSegment := []
  nextId : SegmentId := ⟨0⟩

namespace Catalog

-- Publication needs every facet to load; a refused segment uses up no number.
def publish (c : Catalog) (s : Source) : Except Error (Catalog × SegmentId) :=
  match LoadedFacets.load c.registry s with
  | .error e => .error (.segmentNotLoaded c.nextId.label e.message)
  | .ok facets => .ok
    ({ c with live := c.live ++ [⟨c.nextId, s, facets⟩], nextId := c.nextId.next }, c.nextId)

def retire (c : Catalog) (id : SegmentId) : Catalog × Bool :=
  if c.live.any (·.id = id) then ({ c with live := c.live.filter (·.id ≠ id) }, true) else (c, false)

def segmentCount (c : Catalog) : Nat := c.live.length

def docCount (c : Catalog) : Nat := (c.live.map (·.docCount)).foldr (· + ·) 0

end Catalog

end FacetedSearch
