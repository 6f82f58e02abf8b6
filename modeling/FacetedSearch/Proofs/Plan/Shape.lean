import FacetedSearch.Proofs.Plan.Alike
import FacetedSearch.Proofs.Plan.Visited

namespace FacetedSearch

namespace Query

-- The first part that is looked at and cannot be evaluated. Everything before
-- it in the order of evaluation can be.
def Refuses (q part : Query) : Prop := ∃ before after, q.visited = before ++ part :: after ∧
  (∀ p ∈ before, p.evaluable = true) ∧ part.evaluable = false

theorem refuses_iff {q part : Query} : q.Refuses part ↔ q.visited.find? (!·.evaluable) = some part := by
  rw [List.find?_eq_some_iff_append]
  constructor
  · intro ⟨before, after, parts, earlier, refused⟩
    exact ⟨by simp [refused], before, after, parts, fun p member => by simp [earlier p member]⟩
  · intro ⟨refused, before, after, parts, earlier⟩
    exact ⟨before, after, parts, fun p member => by simpa using earlier p member, by simpa using refused⟩

theorem head?_faults {q : Query} {e : Error} :
    q.faults.head? = some e ↔ ∃ part, q.Refuses part ∧ e = .unsupportedQuery part.kind := by
  unfold faults
  rw [List.head?_map, List.head?_filter, Option.map_eq_some_iff]
  simp only [refuses_iff, eq_comm]

theorem compile_refuses_first (q : Query) :
    (∀ s lookup e, q.compile s lookup = .error e ↔ ∃ part, q.Refuses part ∧ e = .unsupportedQuery part.kind) ∧
    (∀ s lookup, (∃ kind, q.compile s lookup = .error (.unsupportedQuery kind)) ↔
      ∃ part ∈ q.visited, part.evaluable = false) ∧
    ∀ s s' lookup lookup',
      Matched (fun plan plan' => plan.isSome = plan'.isSome) (q.compile s lookup) (q.compile s' lookup') ∧
      Matched (fun plan plan' => plan.isSome = plan'.isSome) (q.plan? s lookup) (q.plan? s' lookup') := by
  have reported : ∀ s lookup e, q.compile s lookup = .error e ↔ ∃ part, q.Refuses part ∧ e = .unsupportedQuery part.kind :=
    fun s lookup e => q.reports_compile.error_iff.trans head?_faults
  refine ⟨reported, fun s lookup => ?_, fun s s' lookup lookup' => ?_⟩
  · constructor
    · intro ⟨kind, failed⟩
      obtain ⟨part, ⟨before, after, parts, _, refused⟩, _⟩ := (reported s lookup _).mp failed
      exact ⟨part, parts ▸ List.mem_append_right _ List.mem_cons_self, refused⟩
    · intro ⟨part, member, refused⟩
      cases first : q.visited.find? (!·.evaluable) with
      | none => exact absurd (List.find?_eq_none.mp first part member) (by simp [refused])
      | some found => exact ⟨found.kind, (reported s lookup _).mpr ⟨found, refuses_iff.mpr first, rfl⟩⟩
  · have paired := s.paired_shapes s' lookup lookup'
    have same : ∀ plan plan' : Option Plan, Option.Rel (Plan.Alike fun _ _ => True) plan plan' →
        plan.isSome = plan'.isSome := fun _ _ pair => by cases pair <;> rfl
    exact ⟨(compile_alike paired q).imp same, (plan?_alike paired q).imp same⟩

end Query

namespace Plan

theorem subtract_eq_not {keep drop : Option Plan} : (∃ p, subtract keep drop = some (.not p)) ↔
    (keep = none ∧ ∃ d, drop = some d) ∨ (∃ p, keep = some (.not p)) ∧ drop = none := by
  cases keep <;> cases drop <;> simp [subtract]

theorem join_eq_not {occur : Occur} {plans : List (Option Plan)} :
    (∃ p, join occur.joined plans = some (.not p)) ↔ ∃ p, plans = [some (.not p)] := by
  constructor
  · intro ⟨p, joined⟩
    rcases join_eq_some joined with single | ⟨several, _⟩
    · exact ⟨p, single⟩
    · cases occur <;> cases several
  · rintro ⟨p, rfl⟩
    exact ⟨p, rfl⟩

end Plan

namespace Query

-- A query that comes down to an exclusion: nothing to keep is present and
-- something to exclude is, or the one clause to keep comes down to an exclusion
-- itself and there is nothing else to exclude.
inductive Negates : Query → Prop where
  | drop {clauses : List (Occur × Query)} (bare : ∀ q ∈ group (leading clauses) clauses, ¬ q.Present)
      (some : ∃ q ∈ group .mustNot clauses, q.Present) : Negates (.boolean clauses)
  | alone {clauses : List (Occur × Query)} {q : Query} (single : group (leading clauses) clauses = [q])
      (negates : Negates q) (free : ∀ q ∈ group .mustNot clauses, ¬ q.Present) : Negates (.boolean clauses)

-- The only clause to keep comes down to an exclusion, and nothing else is
-- excluded.
def LoneExclusion (clauses : List (Occur × Query)) : Prop :=
  (∃ q, group (leading clauses) clauses = [q] ∧ q.Negates) ∧ ∀ q ∈ group .mustNot clauses, ¬ q.Present

theorem negates_boolean {clauses : List (Occur × Query)} : (boolean clauses).Negates ↔
    ((∀ q ∈ group (leading clauses) clauses, ¬ q.Present) ∧ ∃ q ∈ group .mustNot clauses, q.Present) ∨
      LoneExclusion clauses := by
  constructor
  · intro negates
    cases negates with
    | drop bare some => exact .inl ⟨bare, some⟩
    | alone single negates free => exact .inr ⟨⟨_, single, negates⟩, free⟩
  · intro parts
    rcases parts with ⟨bare, some⟩ | ⟨⟨q, single, negates⟩, free⟩
    · exact .drop bare some
    · exact .alone single negates free

variable {s : Source} {lookup : Option SectionLookup}

theorem some_present {queries : List Query} {plans : List (Option Plan)} {make : List Plan → Plan}
    (means : List.Forall₂ (Means s lookup) queries plans) :
    (∃ p, Plan.join make plans = some p) ↔ ∃ q ∈ queries, q.Present := by
  have absent : Plan.join make plans = none ↔ _ := Plan.join_eq_none.trans (all_absent means)
  rw [← Option.ne_none_iff_exists', Ne, absent]
  push Not
  rfl

theorem single_negates {queries : List Query} {plans : List (Option Plan)}
    (each : List.Forall₂ (fun q plan => (∃ p, plan = some (.not p)) ↔ q.Negates) queries plans) :
    (∃ p, plans = [some (.not p)]) ↔ ∃ q, queries = [q] ∧ q.Negates := by
  cases each with
  | nil => exact iff_of_false nofun nofun
  | cons first rest =>
    cases rest with
    | nil => simpa using first
    | cons second more => exact iff_of_false nofun nofun

theorem compile_negates {q : Query} {plan : Option Plan} (compiled : q.compile s lookup = .ok plan) :
    (∃ p, plan = some (.not p)) ↔ q.Negates := by
  induction q using byClauses generalizing plan with
  | boolean clauses ih =>
    obtain ⟨keep, drop, kept, dropped, rfl⟩ := compile_boolean_parts compiled
    have each : List.Forall₂ (fun q plan => (∃ p, plan = some (.not p)) ↔ q.Negates)
        (group (leading clauses) clauses) keep := related_of_group (fun c member _ => ih c member) kept
    have kept_means := kept.imp fun _ _ => compile_means
    have dropped_means := dropped.imp fun _ _ => compile_means
    rw [negates_boolean, LoneExclusion, ← single_negates each, ← some_present dropped_means, ← all_absent kept_means,
      ← all_absent dropped_means, ← Plan.join_eq_none, ← Plan.join_eq_none, ← Plan.join_eq_not]
    exact Plan.subtract_eq_not
  | simple q other =>
    cases q with
    | boolean clauses => exact absurd rfl (other clauses)
    | term | tag => 
      cases compiled
      exact iff_of_false nofun nofun
    | phrase words =>
      cases compiled
      refine iff_of_false ?_ nofun
      cases Leaf.ofPhrase s words <;> simp
    | _ => cases compiled

theorem plan?_cases {q : Query} {plan : Option Plan} (compiled : q.compile s lookup = .ok plan) :
    (q.plan? s lookup = .ok none ∧ ¬ (q.Present ∧ ¬ q.Negates)) ∨
      ∃ p, plan = some p ∧ q.plan? s lookup = .ok (some p) ∧ q.Present ∧ ¬ q.Negates := by
  have present := (compile_means compiled).present
  have negates := compile_negates compiled
  unfold plan?
  rw [compiled]
  cases plan with
  | none => exact .inl ⟨rfl, fun both => nomatch present.mpr both.1⟩
  | some p =>
    have there : q.Present := present.mp ⟨p, rfl⟩
    cases p with
    | not part => exact .inl ⟨rfl, fun both => both.2 (negates.mp ⟨part, rfl⟩)⟩
    | _ => exact .inr ⟨_, rfl, rfl, there, fun excluding => nomatch negates.mpr excluding⟩

end Query

end FacetedSearch
