import FacetedSearch.Browse.Catalog
import FacetedSearch.Browse.Selected
import FacetedSearch.Facet.Values
import FacetedSearch.Plan.Search

namespace FacetedSearch

structure Browser where
  registry : Registry
  segments : List LiveSegment
  settings : Settings := {}

-- One facet to count. The expanded filter, if any, stands in for the request's:
-- the facet's own selections do not apply to it.
structure CountTask where
  name : String
  facet : Facet
  spec : CountSpec
  expanded : Option (Option Filter)

structure Match where
  docno : Nat
  keys : List (Option String)
deriving Repr, DecidableEq

structure Share where
  segment : SegmentId
  docCount : Nat
  matching : List Match
  counts : List ValueCounts

structure RankedHit where
  hit : Hit
  keys : List (Option String)
deriving Repr, DecidableEq

namespace RankedHit

-- Reversing a field turns present values round; documents without a value stay
-- last.
def compareKey (field : SortField) (x y : Option String) : Ordering :=
  if field.reverse && x.isSome && y.isSome then (SortValue.compare x y).swap else SortValue.compare x y

def compareKeys : List SortField → List (Option String) → List (Option String) → Ordering
  | field :: fields, x :: xs, y :: ys => (compareKey field x y).then (compareKeys fields xs ys)
  | _, _, _ => .eq

def compare (fields : List SortField) (a b : RankedHit) : Ordering :=
  (compareKeys fields a.keys b.keys).then (Ord.compare a.hit.docId b.hit.docId)

def sort (fields : List SortField) (hits : List RankedHit) : List RankedHit :=
  hits.mergeSort fun a b => (compare fields a b).isLE

end RankedHit

namespace Browser

def of (c : Catalog) (settings : Settings) : Browser := ⟨c.registry, c.live, settings⟩

-- Facets named without a spec of their own get the default one. Tasks stand in
-- order of name.
def specs (b : Browser) (r : Request) : Std.ExtTreeMap String CountSpec :=
  r.facets.foldl (fun specs name => specs.insertIfNew name b.settings.countSpec) r.countSpecs

def countTask (b : Browser) (r : Request) (name : String) (spec : CountSpec) : Except Error CountTask := do
  let facet ← b.registry.require name
  let expanded ←
    if spec.expandsSelection && (r.selection? name).isSome then
      some <$> b.registry.compose r.selections (some name)
    else pure none
  return { name, facet, spec, expanded }

def queryDocs (b : Browser) (r : Request) (s : LiveSegment) : Except Error (Option DocSet) :=
  match r.query with
  | none => .ok none
  | some q => some <$> s.source.searchQuery b.settings.sectionField q r.within

def restrict (facets : LoadedFacets) (filter : Option Filter) (queried : Option DocSet) : DocSet :=
  let docs := match filter with
    | some f => f.docs facets
    | none => facets.allDocs
  match queried with
  | some matching => docs.inter matching
  | none => docs

def share (b : Browser) (r : Request) (filter : Option Filter) (tasks : List CountTask) (s : LiveSegment) :
    Except Error Share := do
  let queried ← b.queryDocs r s
  let docs := (restrict s.facets filter queried).toList
  let counts ← tasks.mapM fun task =>
    match task.expanded with
    | some expanded => task.facet.count s.facets (restrict s.facets expanded queried).toList
    | none => task.facet.count s.facets docs
  let columns ← r.sort.mapM fun field => do (← b.registry.require field.facet).sortColumn s.facets
  return {
    segment := s.id
    docCount := s.docCount
    matching := docs.map fun docno => ⟨docno, columns.map fun column => SortValue.of column docno⟩
    counts }

def numbered (base : Nat) : List Share → List RankedHit
  | [] => []
  | s :: rest => s.matching.map (fun m => ⟨⟨base + m.docno, s.segment, m.docno⟩, m.keys⟩) ++
    numbered (base + s.docCount) rest

def facetAnswer (r : Request) (task : CountTask) (counted : ValueCounts) : FacetAnswer :=
  task.spec.finish (task.facet.countOptions (r.selection? task.name)) counted

def ranked (r : Request) (shares : List Share) : List Hit :=
  (RankedHit.sort r.sort (numbered 0 shares)).map (·.hit)

def totals (tasks : List CountTask) (shares : List Share) : List ValueCounts :=
  shares.foldl (fun counts s => counts.zipWith ValueCounts.merge s.counts) (tasks.map fun _ => ∅)

-- The request is checked against the registry first, then every segment is
-- asked in order; the first thing wrong is the answer.
def browse (b : Browser) (r : Request) : Except Error Answer := do
  if r.within.isSome && r.query.isNone then
    throw (.invalidRequest "section given without a query")
  let filter ← b.registry.compose r.selections none
  let tasks ← (b.specs r).toList.mapM fun (name, spec) => b.countTask r name spec
  r.sort.forM fun field => discard (b.registry.require field.facet)
  let shares ← b.segments.mapM (b.share r filter tasks)
  let hits := ranked r shares
  return {
    hitCount := hits.length
    hits := (hits.drop r.offset).take r.count
    facets := .ofList ((tasks.zip (totals tasks shares)).map fun (task, counted) =>
      (task.name, facetAnswer r task counted)) }

end Browser

end FacetedSearch
