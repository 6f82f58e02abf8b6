import FacetedSearch.Error
import FacetedSearch.Index.Source
import FacetedSearch.Plan.Basic
import FacetedSearch.Query

namespace FacetedSearch

namespace Leaf

-- A plain term reads prepared sections when there are any for it.
def ofTerm (s : Source) (lookup : Option SectionLookup) (t : Term) : Leaf :=
  match lookup.bind (· t) with
  | some prepared => .ofSections t prepared
  | none => .ofPostings t (s.postings t)

def ofTag (s : Source) (lookup : Option SectionLookup) (t : Term) : Leaf :=
  .ofSections t (s.sections lookup t)

-- Offsets count from the smallest position in the phrase; without words there
-- is no phrase.
def ofPhrase (s : Source) (words : List PhraseWord) : Option (List Leaf) :=
  (words.map (·.position)).min?.map fun base =>
    words.map fun w => { ofPostings w.term (s.postings w.term) with offset := w.position - base }

end Leaf

namespace Plan

-- One clause stands for itself, even if it has no plan. Several are joined from
-- those that have one.
def join (make : List Plan → Plan) : List (Option Plan) → Option Plan
  | [] => none
  | [plan] => plan
  | plans =>
    match plans.filterMap id with
    | [] => none
    | parts => some (make parts)

def subtract : Option Plan → Option Plan → Option Plan
  | keep, none => keep
  | none, some drop => some (.not drop)
  | some keep, some drop => some (.butNot keep drop)

end Plan

namespace Query

mutual

-- Optional clauses count only if none is required, and are not even looked at
-- otherwise. A query without any part to evaluate has no plan.
def compile (s : Source) (lookup : Option SectionLookup) : Query → Except Error (Option Plan)
  | term t => .ok (some (.term (.ofTerm s lookup t)))
  | tag t => .ok (some (.term (.ofTag s lookup t)))
  | phrase words => .ok ((Leaf.ofPhrase s words).map .phrase)
  | boolean clauses => do
    let keep ←
      if clauses.any (·.1 = .must) then (Plan.join .allOf) <$> compileAll s lookup .must clauses
      else (Plan.join .anyOf) <$> compileAll s lookup .should clauses
    let drop ← (Plan.join .anyOf) <$> compileAll s lookup .mustNot clauses
    return Plan.subtract keep drop
  | beginning t => .error (.unsupportedQuery (beginning t).kind)
  | wildcard t => .error (.unsupportedQuery (wildcard t).kind)
  | fuzzy t maxEdits => .error (.unsupportedQuery (fuzzy t maxEdits).kind)
  | range field lower upper => .error (.unsupportedQuery (range field lower upper).kind)
  | everything => .error (.unsupportedQuery everything.kind)

def compileAll (s : Source) (lookup : Option SectionLookup) (occur : Occur) :
    List (Occur × Query) → Except Error (List (Option Plan))
  | [] => .ok []
  | (o, q) :: rest =>
    if o = occur then do
      let plan ← q.compile s lookup
      return plan :: (← compileAll s lookup occur rest)
    else compileAll s lookup occur rest

end

-- At the top a query that only excludes has nothing to subtract from.
def plan? (q : Query) (s : Source) (lookup : Option SectionLookup) : Except Error (Option Plan) :=
  (q.compile s lookup).map fun
    | some (.not _) => none
    | other => other

end Query

end FacetedSearch
