import FacetedSearch.Json.Answer
import FacetedSearch.Proofs.Json.Request

namespace FacetedSearch

theorem Entry.ofJson?_toJson (e : Entry) : ofJson? e.toJson = some e := by
  simp [ofJson?, toJson]

namespace FacetAnswer

theorem ofJson?_toJson (a : FacetAnswer) : ofJson? a.toJson = some a := by
  have entries : Json.list? Entry.ofJson? (.ofList Entry.toJson a.entries) = some a.entries :=
    Json.list?_ofList fun e _ => e.ofJson?_toJson
  simp [ofJson?, toJson, entries]

@[simp] theorem mapOfJson?_written (answers : Std.ExtTreeMap String FacetAnswer) :
    mapOfJson? (.obj (answers.toList.map fun (name, answer) => (name, answer.toJson))) = some answers := by
  have listed : answers.toList.mapM (fun binding => (some binding.2.toJson).map fun j => (binding.1, j)) =
      some (answers.toList.map fun (name, answer) => (name, answer.toJson)) := List.mapM_pure
  have each : ∀ binding ∈ answers.toList, ∀ j, some binding.2.toJson = some j → ofJson? j = some binding.2 := by
    rintro binding - _ ⟨⟩
    exact binding.2.ofJson?_toJson
  rw [mapOfJson?, Json.entries?_of_written (fun a => some a.toJson) listed each, Option.map_some, ofList_toList]

end FacetAnswer

namespace Answer

structure Fits (a : Answer) : Prop where
  hitCount : a.hitCount < UInt64.size
  docId : ∀ h ∈ a.hits, h.docId < UInt64.size
  docno : ∀ h ∈ a.hits, h.docno < UInt32.size

end Answer

theorem Hit.ofJson?_toJson {h : Hit} (docId : h.docId < UInt64.size) (docno : h.docno < UInt32.size) :
    ofJson? h.toJson = some h := by
  simp [ofJson?, toJson, docId, docno]

theorem Answer.ofJson?_toJson {a : Answer} (fits : a.Fits) : ofJson? a.toJson = some a := by
  have hits : Json.list? Hit.ofJson? (.ofList Hit.toJson a.hits) = some a.hits :=
    Json.list?_ofList fun h member => Hit.ofJson?_toJson (fits.docId h member) (fits.docno h member)
  simp [ofJson?, toJson, fits.hitCount, hits]

namespace Json

theorem read_written :
    (∀ r : Request,
      (r.toJson? = none ↔ ∃ (name : String) (s : CountSpec), r.countSpecs[name]? = some s ∧ s.Unwritable) ∧
        (r.Fits → ∀ j, r.toJson? = some j → Request.ofJson? j = some r)) ∧
    (∀ s : Settings, (s.toJson? = none ↔ s.countSpec.Unwritable) ∧
      (s.countSpec.limit < UInt64.size → ∀ j, s.toJson? = some j → Settings.ofJson? j = some s)) ∧
    (∀ s : CountSpec, (s.toJson? = none ↔ s.Unwritable) ∧
      (s.limit < UInt64.size → ∀ j, s.toJson? = some j → CountSpec.ofJson? j = some s)) ∧
    (∀ s : Selection, s.properties.Fits → Selection.ofJson? s.toJson = some s) ∧
    (∀ p : Properties, p.Fits → Properties.ofJson? p.toJson = some p) ∧
    (∀ f : SortField, SortField.ofJson? f.toJson = some f) ∧
    (∀ a : Answer, a.Fits → Answer.ofJson? a.toJson = some a) ∧
    (∀ p : Posting, p.docno < UInt32.size → Posting.ofJson? p.toJson = some p) ∧
    (∀ t : Term, Term.ofJson? t.toJson = some t) ∧
    ∀ q : Query, Query.ofJson? q.toJson = some q := by
  refine ⟨fun r => ⟨Request.toJson?_eq_none, ?_⟩, fun s => ⟨Settings.toJson?_eq_none, ?_⟩,
    fun s => ⟨CountSpec.toJson?_eq_none, ?_⟩, fun _ => Selection.ofJson?_toJson, fun _ => Properties.ofJson?_toJson,
    SortField.ofJson?_toJson, fun _ => Answer.ofJson?_toJson, fun _ => Posting.ofJson?_toJson, Term.ofJson?_toJson,
    Query.ofJson?_toJson⟩
  · exact fun fits _ => Request.ofJson?_of_written fits
  · exact fun inside _ => Settings.ofJson?_of_written inside
  · exact fun inside _ => CountSpec.ofJson?_of_written inside

def asking : Request where
  selections := [{ facet := "hue", values := ["red"], combination := .every, properties := { maxPerKey := some 3 } }]
  countSpecs := (∅ : Std.ExtTreeMap String CountSpec).insert "hue" { minHits := 0, order := .byHits, limit := 7 }
  query := some (.boolean [(.mustNot, .boolean [(.should, .phrase [⟨⟨"body", "far"⟩, 0⟩, ⟨⟨"body", "away"⟩, 2⟩])]),
    (.must, .range "year" none (some "1999"))])
  within := some "title"
  sort := [{ facet := "hue", reverse := true }]

def answered : Answer where
  hitCount := 18446744073709551615
  hits := [⟨9, ⟨18446744073709551615⟩, 4294967295⟩]
  facets := (∅ : Std.ExtTreeMap String FacetAnswer).insert "hue" ⟨[⟨"red", 1⟩], 4294967295⟩

theorem read_written_asking : ∃ j, asking.toJson? = some j ∧ Request.ofJson? j = some asking ∧
    { asking with countSpecs := asking.countSpecs.insert "hue" { order := .custom fun _ _ => .eq } }.toJson? = none ∧
    Answer.ofJson? answered.toJson = some answered := by
  obtain ⟨requests, _, _, _, _, _, answers, _⟩ := read_written
  obtain ⟨j, written⟩ : ∃ j, asking.toJson? = some j := ⟨_, rfl⟩
  have limited : ∀ (name : String) (s : CountSpec), asking.countSpecs[name]? = some s → s.limit < UInt64.size := by
    intro name s bound
    rw [asking, Std.ExtTreeMap.getElem?_insert] at bound
    split at bound
    · obtain rfl := Option.some.inj bound
      decide
    · cases bound
  have fits : asking.Fits :=
    ⟨List.forall_mem_singleton.mpr fun n set => Option.some.inj set ▸ by decide, limited, by decide, by decide⟩
  have whole : answered.Fits :=
    ⟨by decide, List.forall_mem_singleton.mpr (by decide), List.forall_mem_singleton.mpr (by decide)⟩
  refine ⟨j, written, (requests asking).2 fits j written, (requests _).1.mpr ?_, answers answered whole⟩
  exact ⟨"hue", _, Std.ExtTreeMap.getElem?_insert_self, _, rfl⟩

end Json

end FacetedSearch
