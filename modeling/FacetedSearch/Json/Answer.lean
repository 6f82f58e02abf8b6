import FacetedSearch.Json.Value
import FacetedSearch.Request

namespace FacetedSearch

namespace Entry

def toJson (e : Entry) : Json := .obj [("value", .str e.value), ("hit_count", .ofWord32 e.hits)]

def ofJson? (j : Json) : Option Entry := do
  let [value, hits] ← j.record? ["value", "hit_count"] | none
  return ⟨← Json.required Json.str? value, ← Json.required Json.word32? hits⟩

end Entry

namespace FacetAnswer

def toJson (a : FacetAnswer) : Json :=
  .obj [("facets", .ofList Entry.toJson a.entries), ("total", .ofWord32 a.total)]

def ofJson? (j : Json) : Option FacetAnswer := do
  let [entries, total] ← j.record? ["facets", "total"] | none
  return ⟨← Json.required (Json.list? Entry.ofJson?) entries, ← Json.required Json.word32? total⟩

def mapOfJson? (j : Json) : Option (Std.ExtTreeMap String FacetAnswer) := (j.entries? ofJson?).map (.ofList ·)

end FacetAnswer

namespace Hit

def toJson (h : Hit) : Json :=
  .obj [("doc_id", .nat h.docId), ("segment", .ofWord64 h.segment.value), ("docno", .nat h.docno)]

def ofJson? (j : Json) : Option Hit := do
  let [docId, segment, docno] ← j.record? ["doc_id", "segment", "docno"] | none
  return ⟨← Json.required (Json.natBelow? UInt64.size) docId, ⟨← Json.required Json.word64? segment⟩,
    ← Json.required (Json.natBelow? UInt32.size) docno⟩

end Hit

namespace Answer

def toJson (a : Answer) : Json :=
  .obj [("num_hits", .nat a.hitCount), ("hits", .ofList Hit.toJson a.hits),
    ("facets", .obj (a.facets.toList.map fun (name, answer) => (name, answer.toJson)))]

def ofJson? (j : Json) : Option Answer := do
  let [hitCount, hits, facets] ← j.record? ["num_hits", "hits", "facets"] | none
  return ⟨← Json.required (Json.natBelow? UInt64.size) hitCount,
    ← Json.required (Json.list? Hit.ofJson?) hits, ← Json.required FacetAnswer.mapOfJson? facets⟩

end Answer

end FacetedSearch
