import FacetedSearch.Index.Term
import FacetedSearch.Sorted.Group
import FacetedSearch.Sorted.Search
import FacetedSearch.Text.Separator

namespace FacetedSearch

-- The values of one facet over the documents of a segment. The dictionary lists
-- each value once in ascending order and its index is the value's ordinal; rows
-- hold the ordinals of each document, inverted the documents of each ordinal.
structure Column where
  dictionary : Array String
  rows : Array (SortedSet Nat)
  inverted : Array DocSet
deriving DecidableEq

namespace Column

def ordinalIn (dictionary : Array String) (value : String) : Option Nat :=
  let place := passing (· < value) dictionary
  if dictionary[place]? = some value then some place else none

def ofRows (dictionary : Array String) (rows : List (SortedSet Nat)) : Column where
  dictionary := dictionary
  rows := rows.toArray
  inverted :=
    let carriers := groupByKey (rows.zipIdx.flatMap fun (row, docno) => row.toList.map (·, docno))
    (Array.range dictionary.size).map fun ordinal => .ofList (carriers.getD ordinal [])

def ofValues (documents : List (List String)) : Column :=
  let dictionary := (SortedSet.ofList documents.flatten).toList.toArray
  ofRows dictionary (documents.map fun values => .ofList (values.filterMap (ordinalIn dictionary)))

def docCount (c : Column) : Nat := c.rows.size

def valueCount (c : Column) : Nat := c.dictionary.size

def value? (c : Column) (ordinal : Nat) : Option String := c.dictionary[ordinal]?

def ordinal? (c : Column) (value : String) : Option Nat := ordinalIn c.dictionary value

-- Documents past the end carry nothing.
def ordinals (c : Column) (docno : Nat) : SortedSet Nat := c.rows[docno]?.getD ∅

def values (c : Column) (docno : Nat) : List String := (c.ordinals docno).toList.filterMap c.value?

def docs? (c : Column) (ordinal : Nat) : Option DocSet := c.inverted[ordinal]?

def docsOf (c : Column) (value : String) : DocSet := ((c.ordinal? value).bind c.docs?).getD ∅

-- Ordinals of the values that start with the given text, as first and one past
-- the last. Such values stand together in the dictionary, right after those
-- that are smaller than the text.
def startRange (c : Column) (start : String) : Nat × Nat :=
  (passing (· < start) c.dictionary,
    passing (fun value => value < start || Text.startsWith start value) c.dictionary)

def docsInRange (c : Column) (range : Nat × Nat) : DocSet :=
  (c.inverted.extract range.1 range.2).foldl .union ∅

end Column

end FacetedSearch
