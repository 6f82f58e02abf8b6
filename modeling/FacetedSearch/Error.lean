namespace FacetedSearch

inductive Error where
  | unsupportedQuery (kind : String)
  | unsupported (operation facet : String)
  | unknownFacet (facet : String)
  | duplicateFacet (facet : String)
  | unknownDependency (facet dependency : String)
  | facetNotLoaded (facet reason : String)
  | segmentNotLoaded (segment reason : String)
  | invalidRequest (reason : String)
deriving Repr, DecidableEq

namespace Error

def message : Error → String
  | unsupportedQuery kind => s!"unable to translate query kind: {kind}"
  | unsupported operation facet => s!"{operation} not supported for facet {facet}"
  | unknownFacet facet => s!"Unknown facet: {facet}"
  | duplicateFacet facet => s!"Duplicate facet handler: {facet}"
  | unknownDependency facet dependency => s!"Facet {facet} depends on unregistered facet {dependency}"
  | facetNotLoaded facet reason => s!"Failed to load facet {facet}: {reason}"
  | segmentNotLoaded segment reason => s!"Failed to load segment {segment}: {reason}"
  | invalidRequest reason => s!"Invalid request: {reason}"

-- The request is at fault, not the index or the registry it is run on.
def isRequestError : Error → Bool
  | unsupportedQuery _ | unsupported _ _ | unknownFacet _ | invalidRequest _ => true
  | duplicateFacet _ | unknownDependency _ _ | facetNotLoaded _ _ | segmentNotLoaded _ _ => false

end Error

end FacetedSearch
