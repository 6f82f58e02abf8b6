import FacetedSearch.Filter

namespace FacetedSearch

-- How a facet turns selected values into filters: one value, all of several,
-- any of several, none of several.
structure Selector where
  value : String → Filter
  every : List String → Filter
  any : List String → Filter
  exclude : List String → Filter

namespace Selector

def ofLeaf (leaf : String → Filter) : Selector where
  value := leaf
  every values := Filter.and (values.map leaf)
  any values := Filter.or (values.map leaf)
  exclude values := Filter.not (Filter.or (values.map leaf))

def addToGroup (name value : String) : List (String × List String) → List (String × List String)
  | [] => [(name, [value])]
  | (other, values) :: rest =>
    if other = name then (other, values ++ [value]) :: rest
    else (other, values) :: addToGroup name value rest

-- Values by the dependent they name, dependents in order of first appearance.
-- What is no well-formed pair belongs to no group.
def groups (separator : String) (values : List String) : List (String × List String) :=
  values.foldl (fun found value =>
    match Text.pair? separator value with
    | some (name, rest) => addToGroup name rest found
    | none => found) []

-- A combination hands each group to the dependent it names. One unknown group
-- empties an intersection, while a union and an exclusion pass over it; to
-- exclude nothing keeps every document.
def combine (separator : String) (dependent : String → Option Selector) : Selector where
  value v :=
    match Text.pair? separator v with
    | some (name, rest) => (dependent name).elim .empty fun d => d.value rest
    | none => .empty
  every values := Filter.and ((groups separator values).map fun group =>
    (dependent group.1).elim .empty fun d => d.every group.2)
  any values := Filter.or ((groups separator values).map fun group =>
    (dependent group.1).elim .empty fun d => d.any group.2)
  exclude values :=
    match (groups separator values).filterMap fun group =>
      (dependent group.1).map fun d => d.exclude group.2 with
    | [] => Filter.not .empty
    | excluded => Filter.and excluded

end Selector

namespace Facet

mutual

def selector : Facet → Selector
  | simple f => .ofLeaf fun value => .values f.name (.exact value)
  | keyed f => .ofLeaf fun value => .values f.name (.under value f.separator)
  | combo _ separator dependents => .combine separator fun name => selectorIn name dependents

-- Only the dependent that is asked for is looked into: the paths through
-- combinations of combinations can be many more than the facets.
def selectorIn (name : String) : List Facet → Option Selector
  | [] => none
  | f :: rest => if f.name = name then some f.selector else selectorIn name rest

end

end Facet

end FacetedSearch
