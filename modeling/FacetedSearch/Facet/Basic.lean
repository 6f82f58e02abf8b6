import FacetedSearch.Facet.Properties
import FacetedSearch.Text.Separator

namespace FacetedSearch

-- At most one value a document, read from a stored field.
structure SimpleFacet where
  name : String
  field : String := name
deriving Repr, DecidableEq

-- Many entries a document, each a key, the separator and a value.
structure KeyedFacet where
  name : String
  field : String := name
  separator : String := "="
  properties : Properties := {}
deriving Repr, DecidableEq

namespace KeyedFacet

-- Properties replace the former ones as a whole; the separator changes only if
-- they give one.
def withProperties (f : KeyedFacet) (properties : Properties) : KeyedFacet :=
  { f with properties, separator := properties.separator.getD f.separator }

def parse (f : KeyedFacet) (entry : String) : Option (String × String) := Text.pair? f.separator entry

def keyOf (f : KeyedFacet) (entry : String) : String := Text.keyOf f.separator entry

def maxPerKey (f : KeyedFacet) : Option Properties → Option Nat
  | some selected => (f.properties.overlaid selected).maxPerKey
  | none => f.properties.maxPerKey

end KeyedFacet

-- A combination of facets, addressed as dependent name, separator, value.
structure ComboDeclaration where
  name : String
  separator : String := ":"
  dependsOn : List String := []
deriving Repr, DecidableEq

inductive Declaration where
  | simple (f : SimpleFacet)
  | keyed (f : KeyedFacet)
  | combo (f : ComboDeclaration)
deriving Repr, DecidableEq

namespace Declaration

def name : Declaration → String
  | simple f => f.name
  | keyed f => f.name
  | combo f => f.name

def dependsOn : Declaration → List String
  | combo f => f.dependsOn
  | _ => []

end Declaration

-- A facet as it is used: a combination holds what it depends on, so every
-- operation on it recurses on its parts and no name is looked up twice.
inductive Facet where
  | simple (f : SimpleFacet)
  | keyed (f : KeyedFacet)
  | combo (name separator : String) (dependents : List Facet)

namespace Facet

def name : Facet → String
  | simple f => f.name
  | keyed f => f.name
  | combo name _ _ => name

def kind : Facet → String
  | simple _ => "simple"
  | keyed _ => "attribute"
  | combo _ _ _ => "combo"

def dependents : Facet → List Facet
  | combo _ _ dependents => dependents
  | _ => []

end Facet

def Declaration.resolved : Declaration → List Facet → Facet
  | simple f, _ => .simple f
  | keyed f, _ => .keyed f
  | combo f, dependents => .combo f.name f.separator dependents

theorem Declaration.name_resolved (d : Declaration) (dependents : List Facet) :
    (d.resolved dependents).name = d.name := by
  cases d <;> rfl

theorem Declaration.mem_dependents_resolved {d : Declaration} {dependents : List Facet} {f : Facet}
    (member : f ∈ (d.resolved dependents).dependents) : f ∈ dependents := by
  cases d with
  | simple => cases member
  | keyed => cases member
  | combo => exact member

end FacetedSearch
