import FacetedSearch.Json.Query
import FacetedSearch.Request

namespace FacetedSearch

namespace Properties

def toJson (p : Properties) : Json :=
  .obj ((p.maxPerKey.map fun n => (maxPerKeyName, Json.nat n)).toList ++
    (p.separator.map fun s => (separatorName, Json.str s)).toList)

def ofJson? (j : Json) : Option Properties := do
  let [maxPerKey, separator] ← j.record? [maxPerKeyName, separatorName] | none
  return {
    maxPerKey := ← Json.defaulted (Json.optional? (Json.natBelow? UInt64.size)) none maxPerKey
    separator := ← Json.defaulted (Json.optional? Json.str?) none separator }

end Properties

namespace Combination

def name : Combination → String
  | every => "and"
  | any => "or"

def ofName? : String → Option Combination
  | "and" => some every
  | "or" => some any
  | _ => none

def toJson (c : Combination) : Json := .str c.name

def ofJson? (j : Json) : Option Combination := j.name?.bind ofName?

end Combination

namespace Selection

def toJson (s : Selection) : Json :=
  .obj [("field_name", .str s.facet), ("values", .ofList .str s.values),
    ("not_values", .ofList .str s.excluded), ("operation", s.combination.toJson),
    ("properties", s.properties.toJson)]

def ofJson? (j : Json) : Option Selection := do
  let [facet, values, excluded, combination, properties] ←
    j.record? ["field_name", "values", "not_values", "operation", "properties"] | none
  return {
    facet := ← Json.required Json.str? facet
    values := ← Json.defaulted (Json.list? Json.str?) [] values
    excluded := ← Json.defaulted (Json.list? Json.str?) [] excluded
    combination := ← Json.defaulted Combination.ofJson? .any combination
    properties := ← Json.defaulted Properties.ofJson? {} properties }

def listOfJson? : Json → Option (List Selection) := Json.list? ofJson?

end Selection

namespace EntryOrder

def toJson? : EntryOrder → Option Json
  | byValue => some (.str "value")
  | byHits => some (.str "hits_desc")
  | custom _ => none

def ofName? : String → Option EntryOrder
  | "value" => some byValue
  | "hits_desc" => some byHits
  | _ => none

def ofJson? (j : Json) : Option EntryOrder := j.name?.bind ofName?

end EntryOrder

namespace CountSpec

def toJson? (s : CountSpec) : Option Json := do
  return .obj [("min_hit_count", .ofWord32 s.minHits), ("order_by", ← s.order.toJson?),
    ("max_count", .nat s.limit), ("expand_selection", .bool s.expandsSelection)]

def ofJson? (j : Json) : Option CountSpec := do
  let [minHits, order, limit, expandsSelection] ←
    j.record? ["min_hit_count", "order_by", "max_count", "expand_selection"] | none
  return {
    minHits := ← Json.defaulted Json.word32? 1 minHits
    order := ← Json.defaulted EntryOrder.ofJson? .byValue order
    limit := ← Json.defaulted (Json.natBelow? UInt64.size) 0 limit
    expandsSelection := ← Json.defaulted Json.bool? false expandsSelection }

def mapToJson? (specs : Std.ExtTreeMap String CountSpec) : Option Json :=
  (specs.toList.mapM fun binding => (toJson? binding.2).map fun written => (binding.1, written)).map .obj

def mapOfJson? (j : Json) : Option (Std.ExtTreeMap String CountSpec) := (j.entries? ofJson?).map (.ofList ·)

end CountSpec

namespace SortField

def toJson (f : SortField) : Json := .obj [("facet", .str f.facet), ("reverse", .bool f.reverse)]

def ofJson? (j : Json) : Option SortField := do
  let [facet, reverse] ← j.record? ["facet", "reverse"] | none
  return {
    facet := ← Json.required Json.str? facet
    reverse := ← Json.defaulted Json.bool? false reverse }

end SortField

namespace Request

def toJson? (r : Request) : Option Json := do
  return .obj [("selections", .ofList Selection.toJson r.selections),
    ("facet_specs", ← CountSpec.mapToJson? r.countSpecs), ("facets", .ofList .str r.facets),
    ("query", .ofOption Query.toJson r.query), ("section", .ofOption .str r.within),
    ("offset", .nat r.offset), ("count", .nat r.count), ("sort", .ofList SortField.toJson r.sort)]

def ofJson? (j : Json) : Option Request := do
  let [selections, countSpecs, facets, query, tag, offset, count, sort] ←
    j.record? ["selections", "facet_specs", "facets", "query", "section", "offset", "count", "sort"] | none
  return {
    selections := ← Json.defaulted Selection.listOfJson? [] selections
    countSpecs := ← Json.defaulted CountSpec.mapOfJson? ∅ countSpecs
    facets := ← Json.defaulted (Json.list? Json.str?) [] facets
    query := ← Json.defaulted (Json.optional? Query.ofJson?) none query
    within := ← Json.defaulted (Json.optional? Json.str?) none tag
    offset := ← Json.defaulted (Json.natBelow? UInt64.size) 0 offset
    count := ← Json.defaulted (Json.natBelow? UInt64.size) 10 count
    sort := ← Json.defaulted (Json.list? SortField.ofJson?) [] sort }

end Request

namespace Settings

def toJson? (s : Settings) : Option Json := do
  return .obj [("section_field", .str s.sectionField), ("default_facet_spec", ← s.countSpec.toJson?)]

-- Settings are read as a whole: neither field may be missing.
def ofJson? (j : Json) : Option Settings := do
  let [sectionField, countSpec] ← j.record? ["section_field", "default_facet_spec"] | none
  return ⟨← Json.required Json.str? sectionField, ← Json.required CountSpec.ofJson? countSpec⟩

end Settings

end FacetedSearch
