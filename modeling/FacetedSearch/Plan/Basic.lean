import FacetedSearch.Index.Section
import FacetedSearch.Sorted.Search

namespace FacetedSearch

-- Where a term stands: at single positions, which ascend, or over whole
-- sections.
inductive Occurrences where
  | positions (byDoc : Std.ExtTreeMap Nat (Array Position))
  | intervals (sections : IntervalSet)
deriving DecidableEq

-- A term bound to a segment. The offset is its distance from the first word of
-- the phrase it belongs to.
structure Leaf where
  term : Term
  occurrences : Occurrences
  offset : Position := 0
deriving DecidableEq

namespace Leaf

def ofPostings (t : Term) (postings : List Posting) : Leaf :=
  ⟨t, .positions (.ofList (postings.map fun p => (p.docno, p.positions.toArray))), 0⟩

def ofSections (t : Term) (sections : IntervalSet) : Leaf := ⟨t, .intervals sections, 0⟩

def positionsIn (l : Leaf) (docno : Nat) : Array Position :=
  match l.occurrences with
  | .positions byDoc => byDoc[docno]?.getD #[]
  | .intervals _ => #[]

def occursAt (l : Leaf) (docno : Nat) (position : Position) : Bool :=
  match l.occurrences with
  | .positions _ =>
    let positions := l.positionsIn docno
    positions[passing (· < position) positions]? = some position
  | .intervals sections => sections.meets docno position (Position.plus position 1)

def holds (l : Leaf) (docno : Nat) (lo hi : Position) : Bool :=
  match l.occurrences with
  | .positions _ =>
    let positions := l.positionsIn docno
    positions[passing (· < lo) positions]?.any (· < hi)
  | .intervals sections => sections.meets docno lo hi

def candidates (l : Leaf) : DocSet :=
  match l.occurrences with
  | .positions byDoc => .ofKeys byDoc
  | .intervals sections => sections.docs

end Leaf

-- A phrase is anchored at the positions of its first leaf. From each of them a
-- base is reckoned back; every leaf must then stand at its offset from the base,
-- all of it within the range.
namespace Phrase

def span (leaves : List Leaf) : Position := (leaves.map (·.offset)).foldl max 0

def holdsFrom (leaves : List Leaf) (docno : Nat) (lo hi base : Position) : Bool :=
  lo ≤ base && Position.plus base (span leaves) < hi &&
    leaves.all fun l => l.occursAt docno (base + l.offset)

def holds (leaves : List Leaf) (docno : Nat) (lo hi : Position) : Bool :=
  match leaves with
  | [] => false
  | anchor :: _ => (anchor.positionsIn docno).any fun position =>
    anchor.offset ≤ position && holdsFrom leaves docno lo hi (position - anchor.offset)

def candidates : List Leaf → DocSet
  | [] => ∅
  | l :: rest => rest.foldl (fun docs other => docs.inter other.candidates) l.candidates

end Phrase

-- Every node answers one question: does a document match within the range from
-- lo up to hi.
inductive Plan where
  | term (leaf : Leaf)
  | phrase (leaves : List Leaf)
  | allOf (parts : List Plan)
  | anyOf (parts : List Plan)
  | not (part : Plan)
  | butNot (keep drop : Plan)

namespace Plan

def kind : Plan → String
  | term _ => "term"
  | phrase _ => "phrase"
  | allOf _ => "and"
  | anyOf _ => "or"
  | not _ => "not"
  | butNot _ _ => "and_not"

mutual

def holds (docno : Nat) (lo hi : Position) : Plan → Bool
  | term leaf => leaf.holds docno lo hi
  | phrase leaves => Phrase.holds leaves docno lo hi
  | allOf parts => holdsAll docno lo hi parts
  | anyOf parts => holdsAny docno lo hi parts
  | not part => !part.holds docno lo hi
  | butNot keep drop => keep.holds docno lo hi && !drop.holds docno lo hi

def holdsAll (docno : Nat) (lo hi : Position) : List Plan → Bool
  | [] => true
  | p :: rest => p.holds docno lo hi && holdsAll docno lo hi rest

def holdsAny (docno : Nat) (lo hi : Position) : List Plan → Bool
  | [] => false
  | p :: rest => p.holds docno lo hi || holdsAny docno lo hi rest

end

mutual

-- Documents outside the candidates never match. No answer means that any
-- document can: a negation excludes nothing beforehand.
def candidates : Plan → Option DocSet
  | term leaf => some leaf.candidates
  | phrase leaves => some (Phrase.candidates leaves)
  | allOf parts => candidatesAll parts
  | anyOf parts => candidatesAny parts
  | not _ => none
  | butNot keep _ => keep.candidates

def candidatesAll : List Plan → Option DocSet
  | [] => none
  | p :: rest =>
    match p.candidates, candidatesAll rest with
    | some docs, some others => some (docs.inter others)
    | some docs, none => some docs
    | none, others => others

def candidatesAny : List Plan → Option DocSet
  | [] => some ∅
  | p :: rest =>
    match p.candidates, candidatesAny rest with
    | some docs, some others => some (docs.union others)
    | _, _ => none

end

end Plan

end FacetedSearch
