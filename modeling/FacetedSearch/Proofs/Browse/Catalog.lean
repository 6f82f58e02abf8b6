import FacetedSearch.Browse.Catalog
import FacetedSearch.Proofs.Facet.Selector
import FacetedSearch.Proofs.Index.Postings

namespace FacetedSearch

namespace LiveSegment

-- A live segment as publication leaves it, whatever its source is.
def Loads (r : Registry) (s : LiveSegment) : Prop := LoadedFacets.load r s.source = .ok s.facets

structure Opens (r : Registry) (m : Segment) (s : LiveSegment) : Prop where
  source : s.source = m.toSource
  facets : LoadedFacets.load r m.toSource = .ok s.facets

variable {r : Registry} {m : Segment} {s : LiveSegment}

theorem Loads.loaded (loads : Loads r s) : s.facets = .ofSource r s.source := (LoadedFacets.load_exact.mp loads).1

theorem Loads.docCount (loads : Loads r s) : s.docCount = s.source.documentCount := by
  unfold LiveSegment.docCount
  rw [loads.loaded]
  rfl

theorem Loads.shows (loads : Loads r s) {docno : Nat} (inside : docno < s.docCount) :
    r.Shows (s.source.storedValues docno) fun facet => s.facets.valuesAt facet docno := by
  rw [loads.docCount] at inside
  exact LoadedFacets.shows_of_load loads inside

theorem Opens.loads (opens : Opens r m s) : Loads r s := by
  unfold Loads
  rw [opens.source]
  exact opens.facets

theorem Opens.loaded (opens : Opens r m s) : s.facets = .ofSource r m.toSource :=
  (LoadedFacets.load_exact.mp opens.facets).1

theorem Opens.docCount (opens : Opens r m s) : s.docCount = m.documents.length := by
  rw [opens.loads.docCount, opens.source]
  exact m.documentCount_toSource

theorem Opens.shows (opens : Opens r m s) {docno : Nat} {d : Document} (found : m.documents[docno]? = some d) :
    r.Shows d.valuesOf fun facet => s.facets.valuesAt facet docno := by
  have inside : docno < s.docCount := by
    rw [opens.docCount]
    exact (List.getElem?_eq_some_iff.mp found).1
  have stored : s.source.storedValues docno = d.valuesOf := by
    rw [opens.source]
    exact Segment.storedValues_of_document found
  exact stored ▸ opens.loads.shows inside

theorem Opens.admits (opens : Opens r m s) : ∀ f ∈ r.facets, ∀ d ∈ m.documents, f.Admits d.valuesOf := by
  intro f known d member
  obtain ⟨docno, found⟩ := List.mem_iff_getElem?.mp member
  exact (opens.shows found).admits f known

end LiveSegment

def Segment.live (r : Registry) (m : Segment) (id : SegmentId) : LiveSegment := ⟨id, m.toSource, .ofSource r m.toSource⟩

theorem Segment.opens_live {r : Registry} {m : Segment} (id : SegmentId)
    (admits : ∀ f ∈ r.facets, ∀ d ∈ m.documents, f.Admits d.valuesOf) : LiveSegment.Opens r m (m.live r id) := by
  refine ⟨rfl, LoadedFacets.load_exact.mpr ⟨rfl, fun f member docno inside => ?_⟩⟩
  rw [m.documentCount_toSource] at inside
  rw [storedValues_of_document (List.getElem?_eq_getElem inside)]
  exact admits f member _ (List.getElem_mem inside)

namespace Catalog

variable {c next : Catalog} {id : SegmentId}

theorem publish_parts {s : Source} (published : c.publish s = .ok (next, id)) :
    ∃ facets, LoadedFacets.load c.registry s = .ok facets ∧ id = c.nextId ∧
      next = { c with live := c.live ++ [⟨c.nextId, s, facets⟩], nextId := c.nextId.next } := by
  unfold publish at published
  split at published
  · cases published
  · rename_i facets loaded
    cases published
    exact ⟨facets, loaded, rfl, rfl⟩

def publishAll (c : Catalog) (sources : List Source) : Except Error Catalog :=
  sources.foldlM (fun c s => do return (← c.publish s).1) c

theorem publishAll_parts {memory : List Segment} (published : c.publishAll (memory.map (·.toSource)) = .ok next) :
    next.registry = c.registry ∧ ∃ live, next.live = c.live ++ live ∧
      List.Forall₂ (fun m s => LiveSegment.Opens c.registry m s) memory live := by
  induction memory generalizing c with
  | nil =>
    cases published
    exact ⟨rfl, [], (List.append_nil _).symm, .nil⟩
  | cons m rest ih =>
    obtain ⟨_, first, later⟩ := bind_ok_exact.mp published
    obtain ⟨⟨one, id⟩, accepted, same⟩ := bind_ok_exact.mp first
    cases same
    obtain ⟨facets, loaded, _, rfl⟩ := publish_parts accepted
    obtain ⟨registry, live, listed, opened⟩ := ih later
    exact ⟨registry, _, by rw [listed, List.append_assoc, List.singleton_append], .cons ⟨rfl, loaded⟩ opened⟩

end Catalog

end FacetedSearch
