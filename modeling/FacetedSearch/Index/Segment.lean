import FacetedSearch.Index.Source
import FacetedSearch.Sorted.Group
import FacetedSearch.Text.Blank

namespace FacetedSearch

-- One document as it is added: its tokens on a single position axis shared by
-- all fields, its stored values in order of arrival, its tagged sections.
structure Document where
  tokens : List Term := []
  stored : List (String × String) := []
  sections : List (String × Interval) := []
deriving Repr, DecidableEq

namespace Document

def addText (d : Document) (field text : String) : Document :=
  { d with tokens := d.tokens ++ (Text.words text).map fun word => ⟨field, word⟩ }

def store (d : Document) (field : String) (values : List String) : Document :=
  { d with stored := d.stored ++ values.map fun value => (field, value) }

def addSection (d : Document) (tag : String) (i : Interval) : Document :=
  { d with sections := d.sections ++ [(tag, i)] }

def valuesOf (d : Document) (field : String) : List String :=
  (d.stored.filter (·.1 = field)).map (·.2)

-- Every term of the document with each of its positions: its places among the
-- tokens, then the boundaries of the sections it tags.
def occurrences (d : Document) (sectionField : String) : List (Term × Position) :=
  d.tokens.zipIdx.map (fun token => (token.1, UInt32.ofNat token.2)) ++
    d.sections.flatMap fun s => [(⟨sectionField, s.1⟩, s.2.start), (⟨sectionField, s.1⟩, s.2.stop)]

-- Both kinds of position share one list, which is sorted whether or not a section adds to it.
def positionsOf (d : Document) (sectionField : String) (t : Term) : List Position :=
  (((d.occurrences sectionField).filter (·.1 = t)).map (·.2)).mergeSort

def positionTable (d : Document) (sectionField : String) : Std.ExtTreeMap Term (List Position) :=
  (groupByKey (d.occurrences sectionField)).map fun _ positions => positions.mergeSort

theorem getD_positionTable (d : Document) (sectionField : String) (t : Term) :
    (d.positionTable sectionField).getD t [] = d.positionsOf sectionField t := by
  unfold positionTable positionsOf
  rw [← getD_groupByKey, Std.ExtTreeMap.getD_map, Std.ExtTreeMap.getD_eq_getD_getElem?]
  cases (groupByKey (d.occurrences sectionField))[t]? with
  | none => simp
  | some positions => rfl

end Document

def defaultSectionField : String := "_SECTION"

structure Segment where
  documents : List Document := []
  sectionField : String := defaultSectionField
  preparesSections : Bool := false
deriving Repr, DecidableEq

namespace Segment

def postings (s : Segment) (t : Term) : List Posting :=
  (s.documents.mapIdx fun docno d => Posting.mk docno (d.positionsOf s.sectionField t)).filter
    (!·.positions.isEmpty)

-- Positions and stored values are looked up, not searched for. Documents past
-- the end store nothing.
def plainSource (s : Segment) : Source :=
  let tables := s.documents.map (·.positionTable s.sectionField)
  let numbered := s.documents.toArray
  { documentCount := s.documents.length
    postings t := (tables.mapIdx fun docno table => Posting.mk docno (table.getD t [])).filter
      (!·.positions.isEmpty)
    storedValues docno field := (numbered[docno]?.map (·.valuesOf field)).getD [] }

theorem postings_plainSource (s : Segment) (t : Term) : s.plainSource.postings t = s.postings t := by
  refine congrArg (List.filter _) (List.ext_getElem? fun docno => ?_)
  simp [List.getElem?_mapIdx, Document.getD_positionTable, Function.comp_def]

def sectionTerms (s : Segment) : List Term :=
  (SortedSet.ofList (s.documents.flatMap fun d =>
    d.sections.map fun sec => Term.mk s.sectionField sec.1)).toList

def toSource (s : Segment) : Source :=
  if s.preparesSections then
    let table := SectionTable.prepare s.plainSource s.sectionTerms
    { s.plainSource with sectionLookup := some table.lookup }
  else s.plainSource

end Segment

end FacetedSearch
