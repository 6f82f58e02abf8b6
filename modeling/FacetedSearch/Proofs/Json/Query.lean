import FacetedSearch.Json.Query
import FacetedSearch.Proofs.Json.Value
import FacetedSearch.Proofs.Plan.Trees

namespace FacetedSearch

@[simp] theorem Term.ofJson?_toJson (t : Term) : ofJson? t.toJson = some t := rfl

theorem Posting.ofJson?_toJson {p : Posting} (inside : p.docno < UInt32.size) : ofJson? p.toJson = some p := by
  have positions : Json.list? Json.word32? (.ofList Json.ofWord32 p.positions) = some p.positions :=
    Json.list?_ofList fun w _ => Json.word32?_ofWord32 w
  simp [ofJson?, toJson, positions, inside]

namespace PhraseWord

theorem ofJson?_toJson (w : PhraseWord) : ofJson? w.toJson = some w := by
  simp [ofJson?, toJson]

@[simp] theorem listOfJson?_toJson (words : List PhraseWord) :
    listOfJson? (.obj [("terms", .ofList toJson words)]) = some words :=
  Json.list?_ofList fun w _ => ofJson?_toJson w

end PhraseWord

@[simp] theorem Occur.ofJson?_toJson (o : Occur) : ofJson? o.toJson = some o := by
  cases o <;> rfl

namespace Query

theorem clauseList?_toJson {clauses : List (Occur × Query)} (each : ∀ c ∈ clauses, ofJson? c.2.toJson = some c.2) :
    clauseList? (clausesToJson clauses) = some clauses := by
  induction clauses with
  | nil => rfl
  | cons c rest ih =>
    obtain ⟨first, others⟩ := List.forall_mem_cons.mp each
    have clause : clauseOfJson? (.obj [("query", c.2.toJson), ("occur", c.1.toJson)]) = some c := by
      simp [clauseOfJson?, queryField?, first, List.lookup]
    rw [clausesToJson, clauseList?, clause, ih others]
    rfl

theorem ofJson?_toJson (q : Query) : ofJson? q.toJson = some q := by
  induction q using byClauses with
  | boolean clauses each =>
    simp [toJson, ofJson?, booleanOfJson?, clausesField?, clausesOfJson?, clauseList?_toJson each]
  | simple q single =>
    cases q with
    | boolean clauses => exact absurd rfl (single clauses)
    | term t | tag t | beginning t | wildcard t => simp [toJson, ofJson?, plainOfJson?]
    | phrase words => simp [toJson, ofJson?, plainOfJson?]
    | fuzzy t maxEdits => simp [toJson, ofJson?, plainOfJson?, fuzzyOfJson?, List.lookup]
    | range field lower upper =>
      -- An open end is written as null and not left out.
      have bound := fun b => Json.optional?_ofOption b Json.str?_str fun _ => nofun
      simp [toJson, ofJson?, plainOfJson?, rangeOfJson?, List.lookup, bound]
    | everything => simp [toJson, ofJson?]

theorem toJson_ne_null (q : Query) : q.toJson ≠ .null := by
  cases q <;> simp [toJson]

end Query

end FacetedSearch
