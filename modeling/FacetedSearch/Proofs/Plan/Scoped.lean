import FacetedSearch.Proofs.Plan.Alike
import FacetedSearch.Proofs.Plan.Phrases

namespace FacetedSearch

-- A clause somewhere in the query excludes something, be it one that is passed
-- over.
inductive Query.Excludes : Query → Prop where
  | clause {clauses : List (Occur × Query)} {q : Query} (member : (.mustNot, q) ∈ clauses) : Excludes (.boolean clauses)
  | inside {clauses : List (Occur × Query)} {c : Occur × Query} (member : c ∈ clauses) (excludes : Excludes c.2) :
    Excludes (.boolean clauses)

inductive Plan.Affirms : Plan → Prop where
  | term (leaf : Leaf) : Affirms (.term leaf)
  | phrase (leaves : List Leaf) : Affirms (.phrase leaves)
  | allOf {parts : List Plan} (each : ∀ p ∈ parts, Affirms p) : Affirms (.allOf parts)
  | anyOf {parts : List Plan} (each : ∀ p ∈ parts, Affirms p) : Affirms (.anyOf parts)

section Widening

variable {docno : Nat} {lo hi lo' hi' : Position}

theorem Interval.meets_wider {i : Interval} (start : lo' ≤ lo) (stop : hi ≤ hi') (meeting : i.meets lo hi = true) :
    i.meets lo' hi' = true := by
  rw [meets_iff] at meeting ⊢
  exact ⟨Std.lt_of_lt_of_le meeting.1 stop, Nat.lt_of_le_of_lt (UInt32.le_iff_toNat_le.mp start) meeting.2⟩

theorem Leaf.holds_wider {l : Leaf} (ascending : l.Ascending) (start : lo' ≤ lo) (stop : hi ≤ hi')
    (holding : l.holds docno lo hi = true) : l.holds docno lo' hi' = true := by
  rw [holds_exact ascending] at holding ⊢
  rcases holding with ⟨p, member, after, before⟩ | ⟨i, member, meeting⟩
  · exact .inl ⟨p, member, UInt32.le_trans start after, Std.lt_of_lt_of_le before stop⟩
  · exact .inr ⟨i, member, Interval.meets_wider start stop meeting⟩

theorem Phrase.holds_wider {leaves : List Leaf} (start : lo' ≤ lo) (stop : hi ≤ hi')
    (holding : holds leaves docno lo hi = true) : holds leaves docno lo' hi' = true := by
  obtain ⟨base, ⟨anchored, after, before⟩, every⟩ := holds_iff_tries.mp holding
  exact holds_iff_tries.mpr
    ⟨base, ⟨anchored, UInt32.le_trans start after, Std.lt_of_lt_of_le before stop⟩, every⟩

theorem Plan.holds_wider {plan : Plan} (affirms : plan.Affirms) (ascending : ∀ l ∈ plan.leaves, l.Ascending)
    (start : lo' ≤ lo) (stop : hi ≤ hi') (holding : plan.holds docno lo hi = true) :
    plan.holds docno lo' hi' = true := by
  induction affirms with
  | term leaf =>
    rw [holds] at holding ⊢
    exact leaf.holds_wider (ascending leaf (List.mem_singleton_self leaf)) start stop holding
  | phrase leaves =>
    rw [holds] at holding ⊢
    exact Phrase.holds_wider start stop holding
  | @allOf parts _ ih =>
    rw [holds_allOf] at holding ⊢
    exact fun p member => ih p member (fun l leaf => ascending l (mem_leavesOfAll.mpr ⟨p, member, leaf⟩))
      (holding p member)
  | @anyOf parts _ ih =>
    obtain ⟨p, member, holding⟩ := holds_anyOf.mp holding
    exact holds_anyOf.mpr
      ⟨p, member, ih p member (fun l leaf => ascending l (mem_leavesOfAll.mpr ⟨p, member, leaf⟩)) holding⟩

end Widening

section Compilation

variable {s : Source} {lookup : Option SectionLookup}

theorem Leaf.Bound.ascending {l : Leaf} (bound : l.Bound s lookup) (ascending : s.Ascending) : l.Ascending := by
  cases bound with
  | term t =>
    unfold ofTerm
    split
    · exact ascending_ofSections _ _
    · exact ascending_ofPostings ascending t
  | tag t => exact ascending_ofSections _ _
  | word t offset => exact ascending_ofPostings ascending t

theorem Plan.affirms_joined {occur : Occur} {plans : List (Option Plan)} {plan : Plan}
    (joined : join occur.joined plans = some plan) (each : ∀ p, some p ∈ plans → p.Affirms) : plan.Affirms := by
  rcases join_eq_some joined with single | ⟨several, _⟩
  · exact each plan (single ▸ List.mem_singleton_self _)
  · have parts : ∀ p ∈ plans.filterMap id, p.Affirms := fun p member => each p (by simpa using member)
    rw [several]
    cases occur with
    | must => exact .allOf parts
    | mustNot | should => exact .anyOf parts

theorem Query.compile_affirms {q : Query} {plan : Plan} (free : ¬ q.Excludes)
    (compiled : q.compile s lookup = .ok (some plan)) : plan.Affirms := by
  induction q using byClauses generalizing plan with
  | boolean clauses ih =>
    obtain ⟨keep, drop, kept, dropped, subtracted⟩ := compile_boolean_parts compiled
    have none : group .mustNot clauses = [] :=
      List.eq_nil_iff_forall_not_mem.mpr fun q member => free (.clause (mem_group.mp member))
    rw [none, List.forall₂_nil_left_iff] at dropped
    rw [dropped] at subtracted
    have joined : Plan.join (leading clauses).joined keep = some plan := by
      rw [subtracted]
      cases Plan.join (leading clauses).joined keep <;> rfl
    refine Plan.affirms_joined joined fun p member => ?_
    obtain ⟨q, inside, found⟩ := exists_of_related kept member
    have clause := mem_group.mp inside
    exact ih _ clause (fun excludes => free (.inside clause excludes)) found
  | simple q other =>
    cases q with
    | boolean clauses => exact absurd rfl (other clauses)
    | term t => cases compiled; exact .term _
    | tag t => cases compiled; exact .term _
    | phrase words =>
      rw [compile, Except.ok.injEq] at compiled
      obtain ⟨leaves, _, rfl⟩ := Option.map_eq_some_iff.mp compiled
      exact .phrase leaves
    | _ => cases compiled

end Compilation

namespace Segment

theorem holds_wider {s : Segment} {q : Query} (free : ¬ q.Excludes) {lookup : Option SectionLookup} {plan : Plan}
    (compiled : q.compile s.toSource lookup = .ok (some plan)) {docno : Nat} {lo hi lo' hi' : Position}
    (start : lo' ≤ lo) (stop : hi ≤ hi') (holding : plan.holds docno lo hi = true) :
    plan.holds docno lo' hi' = true :=
  plan.holds_wider (Query.compile_affirms free compiled)
    (fun _ leaf => (Query.compile_bound compiled leaf).ascending s.toSource_ascending) start stop holding

end Segment

end FacetedSearch
