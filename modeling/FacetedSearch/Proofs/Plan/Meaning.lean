import FacetedSearch.Index.Segment
import FacetedSearch.Proofs.Plan.Trees

namespace FacetedSearch

namespace Query

-- A query with something to evaluate. Optional clauses next to a required one
-- do not count, and neither does a phrase without words.
inductive Present : Query → Prop where
  | term {t : Term} : Present (.term t)
  | tag {t : Term} : Present (.tag t)
  | phrase {words : List PhraseWord} (some : words ≠ []) : Present (.phrase words)
  | keep {clauses : List (Occur × Query)} {q : Query} (member : q ∈ group (leading clauses) clauses)
      (present : Present q) : Present (.boolean clauses)
  | drop {clauses : List (Occur × Query)} {q : Query} (member : q ∈ group .mustNot clauses)
      (present : Present q) : Present (.boolean clauses)

theorem present_boolean {clauses : List (Occur × Query)} : (boolean clauses).Present ↔
    (∃ q ∈ group (leading clauses) clauses, q.Present) ∨ ∃ q ∈ group .mustNot clauses, q.Present := by
  constructor
  · intro present
    cases present with
    | keep member present => exact .inl ⟨_, member, present⟩
    | drop member present => exact .inr ⟨_, member, present⟩
  · intro parts
    rcases parts with ⟨q, member, present⟩ | ⟨q, member, present⟩
    · exact .keep member present
    · exact .drop member present

-- What a query asks of a range of positions, leaves read from the source. Only
-- clauses that are present take part; a query whose positive clauses are all
-- absent keeps whatever is not excluded.
def Holds (s : Source) (lookup : Option SectionLookup) (docno : Nat) (lo hi : Position) : Query → Prop
  | term t => (Leaf.ofTerm s lookup t).holds docno lo hi = true
  | tag t => (Leaf.ofTag s lookup t).holds docno lo hi = true
  | phrase words => ∃ leaves, Leaf.ofPhrase s words = some leaves ∧ Phrase.holds leaves docno lo hi = true
  | boolean clauses =>
    ((∃ q ∈ group (leading clauses) clauses, q.Present) →
      match leading clauses with
      | .must => ∀ q, (_ : q ∈ group .must clauses) → q.Present → Holds s lookup docno lo hi q
      | _ => ∃ q, ∃ _ : q ∈ group .should clauses, q.Present ∧ Holds s lookup docno lo hi q) ∧
    ∀ q, (_ : q ∈ group .mustNot clauses) → q.Present → ¬ Holds s lookup docno lo hi q
  | _ => False
termination_by q => sizeOf q
decreasing_by all_goals exact sizeOf_lt_of_mem_group ‹_›

theorem leading_cases (clauses : List (Occur × Query)) : leading clauses = .must ∨ leading clauses = .should := by
  unfold leading
  split
  · exact .inl rfl
  · exact .inr rfl

end Query

namespace Plan

theorem join_cases (make : List Plan → Plan) (plans : List (Option Plan)) :
    (∃ plan, plans = [plan] ∧ join make plans = plan) ∨
      (plans.filterMap id = [] ∧ join make plans = none) ∨
      (plans.filterMap id ≠ [] ∧ join make plans = some (make (plans.filterMap id))) := by
  match plans with
  | [] => exact .inr (.inl ⟨rfl, rfl⟩)
  | [plan] => exact .inl ⟨plan, rfl, rfl⟩
  | first :: second :: rest =>
    cases found : (first :: second :: rest).filterMap id with
    | nil => exact .inr (.inl ⟨rfl, by simp only [join, found]⟩)
    | cons part parts => exact .inr (.inr ⟨nofun, by simp only [join, found]⟩)

theorem join_eq_none {make : List Plan → Plan} {plans : List (Option Plan)} :
    join make plans = none ↔ ∀ plan ∈ plans, plan = none := by
  have parts : plans.filterMap id = [] ↔ ∀ plan ∈ plans, plan = none := by simp
  rcases join_cases make plans with ⟨plan, rfl, single⟩ | ⟨bare, absent⟩ | ⟨filled, joined⟩
  · simp [single]
  · exact iff_of_true absent (parts.mp bare)
  · exact iff_of_false (by simp [joined]) fun absent => filled (parts.mpr absent)

theorem join_eq_some {make : List Plan → Plan} {plans : List (Option Plan)} {plan : Plan}
    (joined : join make plans = some plan) :
    plans = [some plan] ∨ plan = make (plans.filterMap id) ∧ plans.filterMap id ≠ [] := by
  rcases join_cases make plans with ⟨single, rfl, same⟩ | ⟨_, absent⟩ | ⟨filled, several⟩
  · exact .inl (by rw [← same, joined])
  · rw [absent] at joined
    cases joined
  · rw [several] at joined
    exact .inr ⟨(Option.some.inj joined).symm, filled⟩

variable {docno : Nat} {lo hi : Position} {plans : List (Option Plan)} {plan : Plan}

theorem holds_join_allOf (joined : join .allOf plans = some plan) :
    plan.holds docno lo hi = true ↔ ∀ p, some p ∈ plans → p.holds docno lo hi = true := by
  rcases join_eq_some joined with single | ⟨several, _⟩
  · simp [single]
  · rw [several, holds_allOf]
    simp

theorem holds_join_anyOf (joined : join .anyOf plans = some plan) :
    plan.holds docno lo hi = true ↔ ∃ p, some p ∈ plans ∧ p.holds docno lo hi = true := by
  rcases join_eq_some joined with single | ⟨several, _⟩
  · simp [single]
  · rw [several, holds_anyOf]
    simp

theorem filled_join {make : List Plan → Plan} (joined : join make plans = some plan)
    (node : ∀ parts : List Plan, parts ≠ [] → (∀ p ∈ parts, p.Filled) → (make parts).Filled)
    (each : ∀ p, some p ∈ plans → p.Filled) : plan.Filled := by
  rcases join_eq_some joined with single | ⟨several, some⟩
  · exact each plan (single ▸ List.mem_singleton_self _)
  · exact several ▸ node _ some fun p member => each p (by simpa using member)

theorem filled_joined (occur : Occur) (parts : List Plan) (some : parts ≠ []) (each : ∀ p ∈ parts, p.Filled) :
    (occur.joined parts).Filled := by
  cases occur with
  | must => exact .allOf some each
  | mustNot => exact .anyOf some each
  | should => exact .anyOf some each

theorem subtract_eq_none {keep drop : Option Plan} : subtract keep drop = none ↔ keep = none ∧ drop = none := by
  cases keep <;> cases drop <;> simp [subtract]

theorem filled_subtract {keep drop : Option Plan} (subtracted : subtract keep drop = some plan)
    (left : ∀ p, keep = some p → p.Filled) (right : ∀ p, drop = some p → p.Filled) : plan.Filled := by
  cases keep with
  | none =>
    cases drop with
    | none => cases subtracted
    | some d => exact Option.some.inj subtracted ▸ .not (right d rfl)
  | some k =>
    cases drop with
    | none => exact Option.some.inj subtracted ▸ left k rfl
    | some d => exact Option.some.inj subtracted ▸ .butNot (left k rfl) (right d rfl)

theorem holds_subtract {keep drop : Option Plan} (subtracted : subtract keep drop = some plan) :
    plan.holds docno lo hi = true ↔ (∀ p, keep = some p → p.holds docno lo hi = true) ∧
      ∀ p, drop = some p → ¬ p.holds docno lo hi = true := by
  cases keep with
  | none =>
    cases drop with
    | none => cases subtracted
    | some d =>
      rw [← Option.some.inj subtracted, holds_not]
      simp
  | some k =>
    cases drop with
    | none =>
      rw [← Option.some.inj subtracted]
      simp
    | some d =>
      rw [← Option.some.inj subtracted, holds_butNot]
      simp

end Plan

namespace Query

variable {s : Source} {lookup : Option SectionLookup} {docno : Nat} {lo hi : Position}

structure Means (s : Source) (lookup : Option SectionLookup) (q : Query) (plan : Option Plan) : Prop where
  absent : plan = none ↔ ¬ q.Present
  filled : ∀ p, plan = some p → p.Filled
  holds : ∀ p, plan = some p → ∀ docno lo hi, p.holds docno lo hi = true ↔ q.Holds s lookup docno lo hi

theorem Means.present {q : Query} {plan : Option Plan} (means : Means s lookup q plan) :
    (∃ p, plan = some p) ↔ q.Present := by
  rw [← not_iff_not, ← means.absent]
  cases plan <;> simp

theorem all_absent {queries : List Query} {plans : List (Option Plan)}
    (means : List.Forall₂ (Means s lookup) queries plans) :
    (∀ plan ∈ plans, plan = none) ↔ ∀ q ∈ queries, ¬ q.Present := by
  induction means with
  | nil => simp
  | cons first _ ih => simp [ih, first.absent]

theorem all_filled {queries : List Query} {plans : List (Option Plan)}
    (means : List.Forall₂ (Means s lookup) queries plans) : ∀ p, some p ∈ plans → p.Filled := by
  induction means with
  | nil => simp
  | cons first _ ih =>
    intro p member
    rcases List.mem_cons.mp member with equal | inside
    · exact first.filled p equal.symm
    · exact ih p inside

theorem all_hold {queries : List Query} {plans : List (Option Plan)}
    (means : List.Forall₂ (Means s lookup) queries plans) :
    (∀ p, some p ∈ plans → p.holds docno lo hi = true) ↔
      ∀ q ∈ queries, q.Present → q.Holds s lookup docno lo hi := by
  induction means with
  | nil => simp
  | @cons q plan _ _ first _ ih =>
    rw [List.forall_mem_cons, ← ih, ← first.present]
    constructor
    · intro each
      refine ⟨?_, fun p member => each p (List.mem_cons_of_mem _ member)⟩
      intro parts
      obtain ⟨p, equal⟩ := parts
      exact (first.holds p equal docno lo hi).mp (each p (equal ▸ List.mem_cons_self))
    · rintro ⟨head, tail⟩ p member
      rcases List.mem_cons.mp member with equal | inside
      · exact (first.holds p equal.symm docno lo hi).mpr (head ⟨p, equal.symm⟩)
      · exact tail p inside

theorem some_holds {queries : List Query} {plans : List (Option Plan)}
    (means : List.Forall₂ (Means s lookup) queries plans) :
    (∃ p, some p ∈ plans ∧ p.holds docno lo hi = true) ↔
      ∃ q ∈ queries, q.Present ∧ q.Holds s lookup docno lo hi := by
  induction means with
  | nil => simp
  | @cons q plan _ _ first _ ih =>
    rw [List.exists_mem_cons_iff, ← ih, ← first.present]
    constructor
    · intro parts
      obtain ⟨p, member, holding⟩ := parts
      rcases List.mem_cons.mp member with equal | inside
      · exact .inl ⟨⟨p, equal.symm⟩, (first.holds p equal.symm docno lo hi).mp holding⟩
      · exact .inr ⟨p, inside, holding⟩
    · intro parts
      rcases parts with ⟨⟨p, equal⟩, holding⟩ | ⟨p, inside, holding⟩
      · exact ⟨p, equal ▸ List.mem_cons_self, (first.holds p equal docno lo hi).mpr holding⟩
      · exact ⟨p, List.mem_cons_of_mem _ inside, holding⟩

theorem holds_boolean {clauses : List (Occur × Query)} : (boolean clauses).Holds s lookup docno lo hi ↔
    ((∃ q ∈ group (leading clauses) clauses, q.Present) →
      match leading clauses with
      | .must => ∀ q ∈ group .must clauses, q.Present → q.Holds s lookup docno lo hi
      | _ => ∃ q ∈ group .should clauses, q.Present ∧ q.Holds s lookup docno lo hi) ∧
    ∀ q ∈ group .mustNot clauses, q.Present → ¬ q.Holds s lookup docno lo hi := by
  rw [Holds]
  simp only [exists_prop]

theorem positive_holds {clauses : List (Occur × Query)} {plans : List (Option Plan)}
    (means : List.Forall₂ (Means s lookup) (group (leading clauses) clauses) plans) :
    (∀ p, Plan.join (leading clauses).joined plans = some p → p.holds docno lo hi = true) ↔
      ((∃ q ∈ group (leading clauses) clauses, q.Present) →
        match leading clauses with
        | .must => ∀ q ∈ group .must clauses, q.Present → q.Holds s lookup docno lo hi
        | _ => ∃ q ∈ group .should clauses, q.Present ∧ q.Holds s lookup docno lo hi) := by
  have absent : Plan.join (leading clauses).joined plans = none ↔ _ := Plan.join_eq_none.trans (all_absent means)
  cases joined : Plan.join (leading clauses).joined plans with
  | none =>
    have bare := absent.mp joined
    refine iff_of_true nofun ?_
    intro parts
    obtain ⟨q, member, present⟩ := parts
    exact absurd present (bare q member)
  | some plan =>
    have some : ∃ q ∈ group (leading clauses) clauses, q.Present := by
      refine Classical.byContradiction fun bare => ?_
      rw [absent.mpr fun q member present => bare ⟨q, member, present⟩] at joined
      cases joined
    simp only [Option.some.injEq, forall_eq', some, forall_const]
    rcases leading_cases clauses with must | should
    · rw [must] at means joined ⊢
      rw [Plan.holds_join_allOf joined, all_hold means]
    · rw [should] at means joined ⊢
      rw [Plan.holds_join_anyOf joined, some_holds means]

theorem negative_holds {queries : List Query} {plans : List (Option Plan)}
    (means : List.Forall₂ (Means s lookup) queries plans) :
    (∀ p, Plan.join .anyOf plans = some p → ¬ p.holds docno lo hi = true) ↔
      ∀ q ∈ queries, q.Present → ¬ q.Holds s lookup docno lo hi := by
  have absent : Plan.join .anyOf plans = none ↔ _ := Plan.join_eq_none.trans (all_absent means)
  cases joined : Plan.join .anyOf plans with
  | none =>
    exact iff_of_true nofun fun q member present => absurd present (absent.mp joined q member)
  | some plan =>
    simp only [Option.some.injEq, forall_eq', Plan.holds_join_anyOf joined, some_holds means]
    simp

theorem boolean_means {clauses : List (Occur × Query)} {keep drop : List (Option Plan)}
    (kept : List.Forall₂ (Means s lookup) (group (leading clauses) clauses) keep)
    (dropped : List.Forall₂ (Means s lookup) (group .mustNot clauses) drop) :
    Means s lookup (boolean clauses)
      (Plan.subtract (Plan.join (leading clauses).joined keep) (Plan.join .anyOf drop)) where
  absent := by
    rw [Plan.subtract_eq_none, Plan.join_eq_none, Plan.join_eq_none, all_absent kept, all_absent dropped,
      present_boolean]
    push Not
    rfl
  filled p subtracted := by
    refine Plan.filled_subtract subtracted (fun k joined => ?_) fun d joined => ?_
    · exact Plan.filled_join joined (Plan.filled_joined _) (all_filled kept)
    · exact Plan.filled_join joined (fun _ => .anyOf) (all_filled dropped)
  holds p subtracted docno lo hi := by
    rw [Plan.holds_subtract subtracted, positive_holds kept, negative_holds dropped, holds_boolean]

theorem ofPhrase_cases (words : List PhraseWord) :
    (words = [] ∧ Leaf.ofPhrase s words = none) ∨
      ∃ leaves, words ≠ [] ∧ leaves ≠ [] ∧ Leaf.ofPhrase s words = some leaves := by
  unfold Leaf.ofPhrase
  cases least : (words.map (·.position)).min? with
  | none => exact .inl ⟨by simpa using least, rfl⟩
  | some base =>
    have filled : words ≠ [] := by
      rintro rfl
      cases least
    exact .inr ⟨_, filled, by simpa using filled, rfl⟩

theorem phrase_means (words : List PhraseWord) :
    Means s lookup (phrase words) ((Leaf.ofPhrase s words).map .phrase) := by
  have present : (phrase words).Present ↔ words ≠ [] :=
    ⟨fun present => by cases present with | phrase filled => exact filled, .phrase⟩
  rcases ofPhrase_cases (s := s) words with ⟨bare, absent⟩ | ⟨leaves, filled, some, found⟩
  · rw [absent]
    exact ⟨iff_of_true rfl fun filled => present.mp filled bare, nofun, nofun⟩
  · rw [found]
    refine ⟨iff_of_false nofun fun absent => absent (present.mpr filled), ?_, ?_⟩
    · rintro p ⟨⟩
      exact .phrase some
    · rintro p ⟨⟩ docno lo hi
      rw [Plan.holds, Holds, found]
      simp

theorem compile_means {q : Query} {plan : Option Plan} (compiled : q.compile s lookup = .ok plan) :
    Means s lookup q plan := by
  induction q using byClauses generalizing plan with
  | boolean clauses ih =>
    obtain ⟨keep, drop, kept, dropped, rfl⟩ := compile_boolean_parts compiled
    have each : ∀ c ∈ clauses, ∀ plan, c.2.compile s lookup = .ok plan → Means s lookup c.2 plan :=
      fun c member _ => ih c member
    exact boolean_means (related_of_group each kept) (related_of_group each dropped)
  | simple q other =>
    cases q with
    | boolean clauses => exact absurd rfl (other clauses)
    | term t =>
      cases compiled
      exact ⟨iff_of_false (Option.some_ne_none _) fun absent => absent .term, fun p equal => Option.some.inj equal ▸ .term,
        fun p equal docno lo hi => by rw [← Option.some.inj equal, Plan.holds, Holds]⟩
    | tag t =>
      cases compiled
      exact ⟨iff_of_false (Option.some_ne_none _) fun absent => absent .tag, fun p equal => Option.some.inj equal ▸ .term,
        fun p equal docno lo hi => by rw [← Option.some.inj equal, Plan.holds, Holds]⟩
    | phrase words =>
      cases compiled
      exact phrase_means words
    | _ => cases compiled

theorem compile_preserves_meaning (s : Source) (lookup : Option SectionLookup) (q : Query) (plan : Option Plan)
    (compiled : q.compile s lookup = .ok plan) :
    (plan = none ↔ ¬ q.Present) ∧
      ∀ p, plan = some p → p.Filled ∧
        ∀ docno lo hi, p.holds docno lo hi = true ↔ q.Holds s lookup docno lo hi := by
  have means := compile_means compiled
  exact ⟨means.absent, fun p equal => ⟨means.filled p equal, means.holds p equal⟩⟩

theorem compile_preserves_meaning_nested :
    ∃ plan, (boolean [(.must, term ⟨"body", "a"⟩), (.must, boolean []), (.should, everything),
        (.mustNot, boolean [(.mustNot, term ⟨"body", "b"⟩)])]).compile
          (Segment.toSource { documents := [{ tokens := [⟨"body", "a"⟩] }] }) none = .ok (some plan) ∧
      plan.Filled ∧ ∀ docno lo hi, plan.holds docno lo hi = true ↔
        (boolean [(.must, term ⟨"body", "a"⟩), (.must, boolean []), (.should, everything),
          (.mustNot, boolean [(.mustNot, term ⟨"body", "b"⟩)])]).Holds
            (Segment.toSource { documents := [{ tokens := [⟨"body", "a"⟩] }] }) none docno lo hi :=
  ⟨_, rfl, (compile_preserves_meaning _ _ _ _ rfl).2 _ rfl⟩

end Query

end FacetedSearch
