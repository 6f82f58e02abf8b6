import FacetedSearch.Plan.Compilation
import FacetedSearch.Proofs.Outcome

namespace FacetedSearch

namespace Plan

theorem byParts {motive : Plan → Prop} (term : ∀ leaf, motive (.term leaf))
    (phrase : ∀ leaves, motive (.phrase leaves))
    (allOf : ∀ parts, (∀ p ∈ parts, motive p) → motive (.allOf parts))
    (anyOf : ∀ parts, (∀ p ∈ parts, motive p) → motive (.anyOf parts))
    (not : ∀ part, motive part → motive (.not part))
    (butNot : ∀ keep drop, motive keep → motive drop → motive (.butNot keep drop)) :
    ∀ plan, motive plan
  | .term leaf => term leaf
  | .phrase leaves => phrase leaves
  | .allOf parts => allOf parts fun p _ => byParts term phrase allOf anyOf not butNot p
  | .anyOf parts => anyOf parts fun p _ => byParts term phrase allOf anyOf not butNot p
  | .not part => not part (byParts term phrase allOf anyOf not butNot part)
  | .butNot keep drop => butNot keep drop (byParts term phrase allOf anyOf not butNot keep)
      (byParts term phrase allOf anyOf not butNot drop)

theorem holdsAll_iff {docno : Nat} {lo hi : Position} {parts : List Plan} :
    holdsAll docno lo hi parts = true ↔ ∀ p ∈ parts, p.holds docno lo hi = true := by
  induction parts with
  | nil => simp [holdsAll]
  | cons p rest ih => simp [holdsAll, ih]

theorem holdsAny_iff {docno : Nat} {lo hi : Position} {parts : List Plan} :
    holdsAny docno lo hi parts = true ↔ ∃ p ∈ parts, p.holds docno lo hi = true := by
  induction parts with
  | nil => simp [holdsAny]
  | cons p rest ih => simp [holdsAny, ih]

section Evaluation

variable {docno : Nat} {lo hi : Position}

theorem holds_allOf {parts : List Plan} :
    (allOf parts).holds docno lo hi = true ↔ ∀ p ∈ parts, p.holds docno lo hi = true := by
  rw [holds, holdsAll_iff]

theorem holds_anyOf {parts : List Plan} :
    (anyOf parts).holds docno lo hi = true ↔ ∃ p ∈ parts, p.holds docno lo hi = true := by
  rw [holds, holdsAny_iff]

theorem holds_not {part : Plan} : (not part).holds docno lo hi = true ↔ ¬ part.holds docno lo hi = true := by
  simp [holds]

theorem holds_butNot {keep drop : Plan} : (butNot keep drop).holds docno lo hi = true ↔
    keep.holds docno lo hi = true ∧ ¬ drop.holds docno lo hi = true := by
  simp [holds]

end Evaluation

-- A plan with no conjunction, disjunction or phrase of nothing anywhere in it.
inductive Filled : Plan → Prop where
  | term {leaf : Leaf} : Filled (.term leaf)
  | phrase {leaves : List Leaf} (some : leaves ≠ []) : Filled (.phrase leaves)
  | allOf {parts : List Plan} (some : parts ≠ []) (each : ∀ p ∈ parts, Filled p) : Filled (.allOf parts)
  | anyOf {parts : List Plan} (some : parts ≠ []) (each : ∀ p ∈ parts, Filled p) : Filled (.anyOf parts)
  | not {part : Plan} (filled : Filled part) : Filled (.not part)
  | butNot {keep drop : Plan} (left : Filled keep) (right : Filled drop) : Filled (.butNot keep drop)

end Plan

namespace Query

theorem byClauses {motive : Query → Prop}
    (boolean : ∀ clauses, (∀ c ∈ clauses, motive c.2) → motive (.boolean clauses))
    (simple : ∀ q, (∀ clauses, q ≠ .boolean clauses) → motive q) : ∀ q, motive q
  | .boolean clauses => boolean clauses fun c member =>
      have := List.sizeOf_lt_of_mem member
      have : sizeOf c.2 < sizeOf c := by cases c; simp
      byClauses boolean simple c.2
  | .term t => simple (.term t) nofun
  | .phrase words => simple (.phrase words) nofun
  | .tag t => simple (.tag t) nofun
  | .beginning t => simple (.beginning t) nofun
  | .wildcard t => simple (.wildcard t) nofun
  | .fuzzy t maxEdits => simple (.fuzzy t maxEdits) nofun
  | .range field lower upper => simple (.range field lower upper) nofun
  | .everything => simple .everything nofun

def group (occur : Occur) (clauses : List (Occur × Query)) : List Query :=
  (clauses.filter (·.1 = occur)).map (·.2)

theorem mem_group {occur : Occur} {clauses : List (Occur × Query)} {q : Query} :
    q ∈ group occur clauses ↔ (occur, q) ∈ clauses := by
  unfold group
  simp

theorem sizeOf_lt_of_mem_group {occur : Occur} {clauses : List (Occur × Query)} {q : Query}
    (member : q ∈ group occur clauses) : sizeOf q < sizeOf (boolean clauses) := by
  have inside := List.sizeOf_lt_of_mem (mem_group.mp member)
  simp only [Prod.mk.sizeOf_spec, boolean.sizeOf_spec] at inside ⊢
  omega

theorem motive_of_group {motive : Query → Prop} {occur : Occur} {clauses : List (Occur × Query)}
    (each : ∀ c ∈ clauses, motive c.2) : ∀ q ∈ group occur clauses, motive q :=
  fun q member => each (occur, q) (mem_group.mp member)

-- The kind of clause that is to hold: the required ones, or the optional ones
-- if none is required.
def leading (clauses : List (Occur × Query)) : Occur :=
  if clauses.any (·.1 = .must) then .must else .should

end Query

def Occur.joined : Occur → List Plan → Plan
  | .must => .allOf
  | _ => .anyOf

namespace Query

variable {s : Source} {lookup : Option SectionLookup}

theorem compileAll_eq_mapM (occur : Occur) (clauses : List (Occur × Query)) :
    compileAll s lookup occur clauses = (group occur clauses).mapM (·.compile s lookup) := by
  induction clauses with
  | nil => rfl
  | cons clause rest ih =>
    obtain ⟨o, q⟩ := clause
    rw [compileAll, ih]
    by_cases same : o = occur
    · subst same
      rw [if_pos rfl, show group o ((o, q) :: rest) = q :: group o rest by simp [group], List.mapM_cons]
    · rw [if_neg same, show group occur ((o, q) :: rest) = group occur rest by simp [group, same]]

theorem compile_boolean (clauses : List (Occur × Query)) :
    (boolean clauses).compile s lookup = do
      let keep ← (group (leading clauses) clauses).mapM (·.compile s lookup)
      let drop ← (group .mustNot clauses).mapM (·.compile s lookup)
      return Plan.subtract (Plan.join (leading clauses).joined keep) (Plan.join .anyOf drop) := by
  rw [compile, ← compileAll_eq_mapM, ← compileAll_eq_mapM]
  unfold leading
  split
  · cases compileAll s lookup .must clauses <;> cases compileAll s lookup .mustNot clauses <;> rfl
  · cases compileAll s lookup .should clauses <;> cases compileAll s lookup .mustNot clauses <;> rfl

theorem compile_boolean_parts {clauses : List (Occur × Query)} {plan : Option Plan}
    (compiled : (boolean clauses).compile s lookup = .ok plan) :
    ∃ keep drop : List (Option Plan),
      List.Forall₂ (fun q plan => q.compile s lookup = .ok plan) (group (leading clauses) clauses) keep ∧
      List.Forall₂ (fun q plan => q.compile s lookup = .ok plan) (group .mustNot clauses) drop ∧
      plan = Plan.subtract (Plan.join (leading clauses).joined keep) (Plan.join .anyOf drop) := by
  rw [compile_boolean] at compiled
  obtain ⟨keep, kept, compiled⟩ := bind_ok_exact.mp compiled
  obtain ⟨drop, dropped, compiled⟩ := bind_ok_exact.mp compiled
  exact ⟨keep, drop, mapM_ok_exact.mp kept, mapM_ok_exact.mp dropped, (Except.ok.inj compiled).symm⟩

theorem related_of_group {related : Query → Option Plan → Prop} {occur : Occur} {clauses : List (Occur × Query)}
    {plans : List (Option Plan)} (each : ∀ c ∈ clauses, ∀ plan, c.2.compile s lookup = .ok plan → related c.2 plan)
    (compiled : List.Forall₂ (fun q plan => q.compile s lookup = .ok plan) (group occur clauses) plans) :
    List.Forall₂ related (group occur clauses) plans := by
  have members : ∀ q ∈ group occur clauses, ∀ plan, q.compile s lookup = .ok plan → related q plan :=
    motive_of_group each
  exact ((List.forall₂_and_left _ _).mpr ⟨members, compiled⟩).imp fun _ plan pair => pair.1 plan pair.2

end Query

end FacetedSearch
