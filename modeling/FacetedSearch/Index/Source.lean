import FacetedSearch.Index.Section

namespace FacetedSearch

abbrev SectionLookup := Term → Option IntervalSet

-- What the engine reads of one segment. Nothing here forces the postings to
-- ascend; results that need it say so.
structure Source where
  documentCount : Nat
  postings : Term → List Posting
  storedValues : Nat → String → List String
  sectionLookup : Option SectionLookup := none

namespace Source

def storedValue (s : Source) (docno : Nat) (field : String) : Option String :=
  (s.storedValues docno field).head?

def docs (s : Source) (t : Term) : DocSet := SortedSet.ofList ((s.postings t).map (·.docno))

-- The same postings behind an index that stores one value a field and keeps no
-- sections ready.
def firstValues (s : Source) : Source where
  documentCount := s.documentCount
  postings := s.postings
  storedValues docno field := (s.storedValue docno field).toList

def sections (s : Source) (lookup : Option SectionLookup) (t : Term) : IntervalSet :=
  match lookup.bind (· t) with
  | some prepared => prepared
  | none => .ofPostings (s.postings t)

end Source

abbrev SectionTable := Std.ExtTreeMap Term IntervalSet

namespace SectionTable

def prepare (s : Source) (terms : List Term) : SectionTable :=
  .ofList (terms.map fun t => (t, IntervalSet.ofPostings (s.postings t)))

def lookup (table : SectionTable) : SectionLookup := fun t => table[t]?

end SectionTable

end FacetedSearch
