import FacetedSearch.Facet.Selector
import FacetedSearch.Request

namespace FacetedSearch

namespace Selection

-- The filter of one selection. Without values of either kind it restricts
-- nothing and there is none.
def filter? (s : Selection) (f : Facet) : Option Filter :=
  let included := if s.values.isEmpty then none else
    match s.combination with
    | .every => some (f.selector.every s.values)
    | .any => some (f.selector.any s.values)
  let excluded := if s.excluded.isEmpty then none else some (f.selector.exclude s.excluded)
  match included, excluded with
  | some a, some b => some (Filter.and [a, b])
  | some a, none => some a
  | none, b => b

end Selection

namespace Registry

-- The filters of all selections but those on the facet left out. An unknown
-- facet is an error even where its selection would restrict nothing.
def selectionFilters (r : Registry) (leftOut : Option String) : List Selection → Except Error (List Filter)
  | [] => .ok []
  | s :: rest => do
    let f ← r.require s.facet
    let filters ← r.selectionFilters leftOut rest
    return if leftOut = some s.facet then filters else (s.filter? f).toList ++ filters

-- No filter means that no selection restricts the result.
def compose (r : Registry) (selections : List Selection) (leftOut : Option String) :
    Except Error (Option Filter) :=
  (r.selectionFilters leftOut selections).map fun
    | [] => none
    | filters => some (Filter.and filters)

end Registry

end FacetedSearch
