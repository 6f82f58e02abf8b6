import FacetedSearch.Json.Value
import FacetedSearch.Query

namespace FacetedSearch

namespace Term

def toJson (t : Term) : Json := .obj [("field", .str t.field), ("text", .str t.text)]

def ofJson? (j : Json) : Option Term := do
  let [field, text] ← j.record? ["field", "text"] | none
  return ⟨← Json.required Json.str? field, ← Json.required Json.str? text⟩

end Term

namespace Posting

def toJson (p : Posting) : Json :=
  .obj [("docno", .nat p.docno), ("positions", .ofList Json.ofWord32 p.positions)]

def ofJson? (j : Json) : Option Posting := do
  let [docno, positions] ← j.record? ["docno", "positions"] | none
  return ⟨← Json.required (Json.natBelow? UInt32.size) docno,
    ← Json.required (Json.list? Json.word32?) positions⟩

end Posting

namespace PhraseWord

def toJson (w : PhraseWord) : Json := .obj [("term", w.term.toJson), ("position", .ofWord32 w.position)]

def ofJson? (j : Json) : Option PhraseWord := do
  let [term, position] ← j.record? ["term", "position"] | none
  return ⟨← Json.required Term.ofJson? term, ← Json.required Json.word32? position⟩

def listOfJson? (j : Json) : Option (List PhraseWord) := do
  let [words] ← j.record? ["terms"] | none
  Json.required (Json.list? ofJson?) words

end PhraseWord

namespace Occur

def name : Occur → String
  | must => "must"
  | mustNot => "must_not"
  | should => "should"

def ofName? : String → Option Occur
  | "must" => some must
  | "must_not" => some mustNot
  | "should" => some should
  | _ => none

def toJson (o : Occur) : Json := .str o.name

def ofJson? (j : Json) : Option Occur := j.name?.bind ofName?

end Occur

namespace Query

mutual

def toJson : Query → Json
  | term t => .obj [("term", t.toJson)]
  | phrase words => .obj [("phrase", .obj [("terms", .ofList PhraseWord.toJson words)])]
  | boolean clauses => .obj [("boolean", .obj [("clauses", .arr (clausesToJson clauses))])]
  | tag t => .obj [("metadata", t.toJson)]
  | beginning t => .obj [("prefix", t.toJson)]
  | wildcard t => .obj [("wildcard", t.toJson)]
  | fuzzy t maxEdits => .obj [("fuzzy", .obj [("term", t.toJson), ("max_edits", .ofWord32 maxEdits)])]
  | range field lower upper => .obj [("range", .obj [("field", .str field),
    ("lower", .ofOption .str lower), ("upper", .ofOption .str upper)])]
  | everything => .str "match_all"

def clausesToJson : List (Occur × Query) → List Json
  | [] => []
  | (o, q) :: rest => .obj [("query", q.toJson), ("occur", o.toJson)] :: clausesToJson rest

end

def fuzzyOfJson? : Json → Option Query
  | .obj fields => do
    return .fuzzy (← Json.required Term.ofJson? (fields.lookup "term"))
      (← Json.required Json.word32? (fields.lookup "max_edits"))
  | _ => none

def rangeOfJson? : Json → Option Query
  | .obj fields => do
    return .range (← Json.required Json.str? (fields.lookup "field"))
      (← Json.defaulted (Json.optional? Json.str?) none (fields.lookup "lower"))
      (← Json.defaulted (Json.optional? Json.str?) none (fields.lookup "upper"))
  | _ => none

def plainOfJson? (kind : String) (content : Json) : Option Query :=
  match kind with
  | "term" => (Term.ofJson? content).map .term
  | "phrase" => (PhraseWord.listOfJson? content).map .phrase
  | "metadata" => (Term.ofJson? content).map .tag
  | "prefix" => (Term.ofJson? content).map .beginning
  | "wildcard" => (Term.ofJson? content).map .wildcard
  | "fuzzy" => fuzzyOfJson? content
  | "range" => rangeOfJson? content
  | "match_all" => if content matches .null then some .everything else none
  | _ => none

mutual

-- A query is read along the tree: each of these functions reads one role that
-- a part of it can have.
def ofJson? : Json → Option Query
  | .str kind => if kind = "match_all" then some .everything else none
  | .obj [(kind, content)] =>
    if kind = "boolean" then (booleanOfJson? content).map .boolean else plainOfJson? kind content
  | _ => none

def booleanOfJson? : Json → Option (List (Occur × Query))
  | .obj fields => clausesField? fields
  | .arr [clauses] => clausesOfJson? clauses
  | _ => none

def clausesField? : List (String × Json) → Option (List (Occur × Query))
  | [] => none
  | (name, value) :: rest => if name = "clauses" then clausesOfJson? value else clausesField? rest

def clausesOfJson? : Json → Option (List (Occur × Query))
  | .arr items => clauseList? items
  | _ => none

def clauseList? : List Json → Option (List (Occur × Query))
  | [] => some []
  | item :: rest => do
    let clause ← clauseOfJson? item
    return clause :: (← clauseList? rest)

def clauseOfJson? : Json → Option (Occur × Query)
  | .obj fields => do
    let q ← queryField? fields
    return (← Json.required Occur.ofJson? (fields.lookup "occur"), q)
  | .arr [query, occur] => do
    let q ← ofJson? query
    return (← Occur.ofJson? occur, q)
  | _ => none

def queryField? : List (String × Json) → Option Query
  | [] => none
  | (name, value) :: rest => if name = "query" then ofJson? value else queryField? rest

end

end Query

end FacetedSearch
