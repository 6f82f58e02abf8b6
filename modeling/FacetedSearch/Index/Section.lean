import FacetedSearch.Index.Term

namespace FacetedSearch

-- A section of a document: the positions from start up to but not including stop.
structure Interval where
  start : Position
  stop : Position
deriving Repr, DecidableEq

namespace Interval

def whole : Interval := ⟨0, documentEnd⟩

-- Overlap with the range from lo up to hi. A section without extent still
-- occupies its start.
def meets (i : Interval) (lo hi : Position) : Bool :=
  i.start < hi && lo < max i.stop (Position.plus i.start 1)

-- Boundary positions are read in pairs; an unpaired last start stays open.
def pairs : List Position → List Interval
  | start :: stop :: rest => ⟨start, stop⟩ :: pairs rest
  | [start] => [⟨start, documentEnd⟩]
  | [] => []

-- After every interval that starts no later, so equal starts keep their order
-- of arrival.
def place (i : Interval) (sections : List Interval) : List Interval :=
  sections.takeWhile (·.start ≤ i.start) ++ i :: sections.dropWhile (·.start ≤ i.start)

end Interval

-- The sections of one tag, by document and in order of start. Only documents
-- that have a section are bound.
structure IntervalSet where
  byDoc : Std.ExtTreeMap Nat (List Interval) := ∅
deriving DecidableEq

namespace IntervalSet

instance : EmptyCollection IntervalSet := ⟨{}⟩

def insert (s : IntervalSet) (docno : Nat) (i : Interval) : IntervalSet :=
  ⟨s.byDoc.alter docno fun sections => some (i.place (sections.getD []))⟩

def ofPostings (postings : List Posting) : IntervalSet :=
  postings.foldl (fun s p => (Interval.pairs p.positions).foldl (fun s i => s.insert p.docno i) s) ∅

def sectionsOf (s : IntervalSet) (docno : Nat) : List Interval := s.byDoc[docno]?.getD []

def meets (s : IntervalSet) (docno : Nat) (lo hi : Position) : Bool :=
  (s.sectionsOf docno).any (·.meets lo hi)

def docs (s : IntervalSet) : DocSet := .ofKeys s.byDoc

def size (s : IntervalSet) : Nat := s.byDoc.size

def isEmpty (s : IntervalSet) : Bool := s.byDoc.isEmpty

end IntervalSet

end FacetedSearch
