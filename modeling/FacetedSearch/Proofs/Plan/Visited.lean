import FacetedSearch.Plan.Search
import FacetedSearch.Proofs.Plan.Trees

namespace FacetedSearch

namespace Query

-- The kinds that can be evaluated; a boolean query is one whatever its clauses.
def evaluable : Query → Bool
  | term _ | phrase _ | boolean _ | tag _ => true
  | _ => false

mutual

-- The parts of a query in the order in which they are looked at: those that are
-- to hold, then those that are not. Optional clauses next to required ones are
-- passed over.
def visited : Query → List Query
  | boolean clauses => boolean clauses :: (visitedIn (leading clauses) clauses ++ visitedIn .mustNot clauses)
  | q => [q]

def visitedIn (occur : Occur) : List (Occur × Query) → List Query
  | [] => []
  | (o, q) :: rest => if o = occur then q.visited ++ visitedIn occur rest else visitedIn occur rest

end

theorem visitedIn_eq (occur : Occur) (clauses : List (Occur × Query)) :
    visitedIn occur clauses = (group occur clauses).flatMap visited := by
  induction clauses with
  | nil => rfl
  | cons clause rest ih =>
    obtain ⟨o, q⟩ := clause
    rw [visitedIn, ih]
    by_cases same : o = occur
    · simp [group, same]
    · simp [group, same]

def faults (q : Query) : List Error := (q.visited.filter (!·.evaluable)).map fun part => .unsupportedQuery part.kind

theorem faults_of_request (q : Query) : ∀ e ∈ q.faults, e.isRequestError = true :=
  List.forall_mem_map.mpr fun _ _ => rfl

theorem faults_boolean (clauses : List (Occur × Query)) : (boolean clauses).faults =
    (group (leading clauses) clauses).flatMap faults ++ (group .mustNot clauses).flatMap faults := by
  have each : ∀ occur, ((visitedIn occur clauses).filter (!·.evaluable)).map (fun part => Error.unsupportedQuery part.kind) =
      (group occur clauses).flatMap faults := by
    intro occur
    rw [visitedIn_eq, List.filter_flatMap, List.map_flatMap]
    rfl
  unfold faults
  rw [visited, List.filter_cons_of_neg (by simp [evaluable]), List.filter_append, List.map_append, each, each]
  rfl

variable {s : Source} {lookup : Option SectionLookup}

theorem reports_compile (q : Query) : Reports (q.compile s lookup) q.faults := by
  induction q using byClauses with
  | boolean clauses ih =>
    have each : ∀ occur, Reports ((group occur clauses).mapM (·.compile s lookup)) ((group occur clauses).flatMap faults) :=
      fun occur => .mapM (motive_of_group ih)
    rw [compile_boolean, faults_boolean]
    exact (each _).bind fun _ _ => (each _).map _
  | simple q other =>
    cases q with
    | boolean clauses => exact absurd rfl (other clauses)
    | term | phrase | tag => exact .clean _
    | beginning | wildcard | fuzzy | range | everything => exact .fault _ []

theorem reports_searchQuery (s : Source) (sectionField : String) (q : Query) (tag : Option String) :
    Reports (s.searchQuery sectionField q tag) q.faults :=
  (q.reports_compile.map _).map _

end Query

end FacetedSearch
