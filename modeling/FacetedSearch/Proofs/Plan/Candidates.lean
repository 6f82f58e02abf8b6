import FacetedSearch.Plan.Search
import FacetedSearch.Proofs.Index.Postings
import FacetedSearch.Proofs.Plan.Meaning

namespace FacetedSearch

namespace Leaf

theorem mem_candidates_of_positionsIn {l : Leaf} {docno : Nat} (some : l.positionsIn docno ≠ #[]) :
    docno ∈ l.candidates := by
  unfold positionsIn at some
  unfold candidates
  cases read : l.occurrences with
  | positions byDoc =>
    simp only [read] at some ⊢
    refine SortedSet.mem_ofKeys.mpr (Decidable.byContradiction fun absent => some ?_)
    rw [Std.ExtTreeMap.getElem?_eq_none absent]
    rfl
  | intervals sections => simp [read] at some

theorem ne_empty_of_getElem? {positions : Array Position} {i : Nat} {p : Position}
    (found : positions[i]? = some p) : positions ≠ #[] := by
  rintro rfl
  cases found

theorem mem_docs_of_meets {sections : IntervalSet} {docno : Nat} {lo hi : Position}
    (meeting : sections.meets docno lo hi = true) : docno ∈ sections.docs := by
  obtain ⟨i, member, _⟩ := List.any_eq_true.mp meeting
  exact IntervalSet.mem_docs_of_mem_sectionsOf member

theorem mem_candidates_of_holds {l : Leaf} {docno : Nat} {lo hi : Position}
    (holding : l.holds docno lo hi = true) : docno ∈ l.candidates := by
  unfold holds at holding
  cases read : l.occurrences with
  | positions byDoc =>
    simp only [read] at holding
    obtain ⟨p, found, _⟩ := (Option.any_eq_true _ _).mp holding
    exact mem_candidates_of_positionsIn (ne_empty_of_getElem? found)
  | intervals sections =>
    simp only [read] at holding
    unfold candidates
    rw [read]
    exact mem_docs_of_meets holding

theorem mem_candidates_of_occursAt {l : Leaf} {docno : Nat} {position : Position}
    (occurring : l.occursAt docno position = true) : docno ∈ l.candidates := by
  unfold occursAt at occurring
  cases read : l.occurrences with
  | positions byDoc =>
    simp only [read, decide_eq_true_eq] at occurring
    exact mem_candidates_of_positionsIn (ne_empty_of_getElem? occurring)
  | intervals sections =>
    simp only [read] at occurring
    unfold candidates
    rw [read]
    exact mem_docs_of_meets occurring

end Leaf

namespace Phrase

theorem mem_inter_candidates {leaves : List Leaf} {docs : DocSet} {docno : Nat} :
    docno ∈ leaves.foldl (fun docs l => docs.inter l.candidates) docs ↔
      docno ∈ docs ∧ ∀ l ∈ leaves, docno ∈ l.candidates := by
  induction leaves generalizing docs with
  | nil => simp
  | cons l rest ih =>
    rw [List.foldl_cons, ih, SortedSet.mem_inter, List.forall_mem_cons, and_assoc]

theorem mem_candidates {leaves : List Leaf} {docno : Nat} :
    docno ∈ candidates leaves ↔ leaves ≠ [] ∧ ∀ l ∈ leaves, docno ∈ l.candidates := by
  cases leaves with
  | nil => exact iff_of_false (SortedSet.not_mem_empty docno) fun both => both.1 rfl
  | cons l rest =>
    rw [candidates, mem_inter_candidates, List.forall_mem_cons]
    simp

theorem mem_candidates_of_holds {leaves : List Leaf} {docno : Nat} {lo hi : Position}
    (holding : holds leaves docno lo hi = true) : docno ∈ candidates leaves := by
  unfold holds at holding
  cases leaves with
  | nil => cases holding
  | cons anchor rest =>
    obtain ⟨i, _, holding⟩ := Array.any_eq_true.mp holding
    have every := (Bool.and_eq_true _ _ ▸ (Bool.and_eq_true _ _ ▸ holding).2).2
    exact mem_candidates.mpr ⟨nofun, fun l member =>
      Leaf.mem_candidates_of_occursAt (List.all_eq_true.mp every l member)⟩

end Phrase

namespace Plan

def Admits (plan : Plan) (docno : Nat) : Prop := ∀ docs, plan.candidates = some docs → docno ∈ docs

theorem admits_allOf {parts : List Plan} {docno : Nat} :
    (allOf parts).Admits docno ↔ ∀ p ∈ parts, p.Admits docno := by
  unfold Admits
  rw [candidates]
  induction parts with
  | nil => simp [candidatesAll]
  | cons p rest ih =>
    rw [candidatesAll, List.forall_mem_cons, ← ih]
    cases p.candidates <;> cases candidatesAll rest <;> simp [SortedSet.mem_inter]

theorem admits_anyOf {parts : List Plan} {docno : Nat} :
    (anyOf parts).Admits docno ↔ ∃ p ∈ parts, p.Admits docno := by
  unfold Admits
  rw [candidates]
  induction parts with
  | nil => simpa [candidatesAny] using SortedSet.not_mem_empty docno
  | cons p rest ih =>
    rw [candidatesAny, List.exists_mem_cons_iff, ← ih]
    cases p.candidates <;> cases candidatesAny rest <;> simp [SortedSet.mem_union]

theorem admits_of_holds {plan : Plan} {docno : Nat} {lo hi : Position}
    (holding : plan.holds docno lo hi = true) : plan.Admits docno := by
  induction plan using byParts with
  | term leaf =>
    rw [holds] at holding
    rintro docs ⟨⟩
    exact Leaf.mem_candidates_of_holds holding
  | phrase leaves =>
    rw [holds] at holding
    rintro docs ⟨⟩
    exact Phrase.mem_candidates_of_holds holding
  | allOf parts ih => exact admits_allOf.mpr fun p member => ih p member (holds_allOf.mp holding p member)
  | anyOf parts ih =>
    obtain ⟨p, member, holding⟩ := holds_anyOf.mp holding
    exact admits_anyOf.mpr ⟨p, member, ih p member holding⟩
  | not part _ =>
    intro docs found
    rw [candidates] at found
    cases found
  | butNot keep drop ih _ =>
    intro docs found
    rw [candidates] at found
    exact ih (holds_butNot.mp holding).1 docs found

mutual

def leaves : Plan → List Leaf
  | term leaf => [leaf]
  | phrase leaves => leaves
  | allOf parts => leavesOfAll parts
  | anyOf parts => leavesOfAll parts
  | not part => part.leaves
  | butNot keep drop => keep.leaves ++ drop.leaves

def leavesOfAll : List Plan → List Leaf
  | [] => []
  | p :: rest => p.leaves ++ leavesOfAll rest

end

theorem mem_leavesOfAll {parts : List Plan} {l : Leaf} : l ∈ leavesOfAll parts ↔ ∃ p ∈ parts, l ∈ p.leaves := by
  induction parts with
  | nil => simp [leavesOfAll]
  | cons p rest ih => simp [leavesOfAll, ih]

def Within (count : Nat) (plan : Plan) : Prop := ∀ l ∈ plan.leaves, ∀ docno ∈ l.candidates, docno < count

theorem exists_of_mem_candidatesAll {parts : List Plan} {docs : DocSet} {docno : Nat}
    (found : candidatesAll parts = some docs) (member : docno ∈ docs) :
    ∃ p ∈ parts, ∃ docs, p.candidates = some docs ∧ docno ∈ docs := by
  induction parts generalizing docs with
  | nil => cases found
  | cons p rest ih =>
    rw [candidatesAll] at found
    cases first : p.candidates with
    | none =>
      simp only [first] at found
      obtain ⟨q, inside, kept⟩ := ih found member
      exact ⟨q, List.mem_cons_of_mem _ inside, kept⟩
    | some own =>
      refine ⟨p, List.mem_cons_self, own, first, ?_⟩
      cases others : candidatesAll rest with
      | none =>
        simp only [first, others, Option.some.injEq] at found
        exact found ▸ member
      | some more =>
        simp only [first, others, Option.some.injEq] at found
        rw [← found, SortedSet.mem_inter] at member
        exact member.1

theorem exists_of_mem_candidatesAny {parts : List Plan} {docs : DocSet} {docno : Nat}
    (found : candidatesAny parts = some docs) (member : docno ∈ docs) :
    ∃ p ∈ parts, ∃ docs, p.candidates = some docs ∧ docno ∈ docs := by
  induction parts generalizing docs with
  | nil =>
    rw [candidatesAny, Option.some.injEq] at found
    exact absurd (found ▸ member) (SortedSet.not_mem_empty docno)
  | cons p rest ih =>
    rw [candidatesAny] at found
    cases first : p.candidates with
    | none => simp [first] at found
    | some own =>
      cases others : candidatesAny rest with
      | none => simp [first, others] at found
      | some more =>
        simp only [first, others, Option.some.injEq] at found
        rw [← found, SortedSet.mem_union] at member
        rcases member with here | later
        · exact ⟨p, List.mem_cons_self, own, first, here⟩
        · obtain ⟨q, inside, kept⟩ := ih others later
          exact ⟨q, List.mem_cons_of_mem _ inside, kept⟩

theorem lt_of_mem_candidates {count : Nat} {plan : Plan} {docs : DocSet} {docno : Nat} (within : plan.Within count)
    (found : plan.candidates = some docs) (member : docno ∈ docs) : docno < count := by
  induction plan using byParts generalizing docs with
  | term leaf =>
    cases found
    exact within leaf (by simp [leaves]) docno member
  | phrase words =>
    cases found
    obtain ⟨some, each⟩ := Phrase.mem_candidates.mp member
    obtain ⟨l, inside⟩ := List.exists_mem_of_ne_nil words some
    exact within l (by simpa [leaves] using inside) docno (each l inside)
  | allOf parts ih =>
    rw [candidates] at found
    obtain ⟨p, inside, own, kept, here⟩ := exists_of_mem_candidatesAll found member
    exact ih p inside (fun l leaf => within l (by rw [leaves, mem_leavesOfAll]; exact ⟨p, inside, leaf⟩)) kept here
  | anyOf parts ih =>
    rw [candidates] at found
    obtain ⟨p, inside, own, kept, here⟩ := exists_of_mem_candidatesAny found member
    exact ih p inside (fun l leaf => within l (by rw [leaves, mem_leavesOfAll]; exact ⟨p, inside, leaf⟩)) kept here
  | not part _ => cases found
  | butNot keep drop ih _ =>
    rw [candidates] at found
    exact ih (fun l leaf => within l (by rw [leaves]; exact List.mem_append_left _ leaf)) found member

end Plan

-- The leaves a compiler binds to a source: those of terms, of tags, and of the
-- words of a phrase.
inductive Leaf.Bound (s : Source) (lookup : Option SectionLookup) : Leaf → Prop where
  | term (t : Term) : Bound s lookup (.ofTerm s lookup t)
  | tag (t : Term) : Bound s lookup (.ofTag s lookup t)
  | word (t : Term) (offset : Position) : Bound s lookup { Leaf.ofPostings t (s.postings t) with offset }

namespace Plan

theorem leaves_of_join {make : List Plan → Plan} {plans : List (Option Plan)} {plan : Plan} {l : Leaf}
    (gathers : ∀ parts, (make parts).leaves = leavesOfAll parts) (joined : join make plans = some plan)
    (leaf : l ∈ plan.leaves) : ∃ p, some p ∈ plans ∧ l ∈ p.leaves := by
  rcases join_eq_some joined with single | ⟨several, _⟩
  · exact ⟨plan, single ▸ List.mem_singleton_self _, leaf⟩
  · rw [several, gathers, mem_leavesOfAll] at leaf
    simpa using leaf

theorem leaves_joined (occur : Occur) (parts : List Plan) : (occur.joined parts).leaves = leavesOfAll parts := by
  cases occur <;> rfl

theorem leaves_of_subtract {keep drop : Option Plan} {plan : Plan} {l : Leaf}
    (subtracted : subtract keep drop = some plan) (leaf : l ∈ plan.leaves) :
    (∃ p, keep = some p ∧ l ∈ p.leaves) ∨ ∃ p, drop = some p ∧ l ∈ p.leaves := by
  cases keep with
  | none =>
    cases drop with
    | none => cases subtracted
    | some d =>
      rw [← Option.some.inj subtracted] at leaf
      exact .inr ⟨d, rfl, leaf⟩
  | some k =>
    cases drop with
    | none =>
      rw [← Option.some.inj subtracted] at leaf
      exact .inl ⟨k, rfl, leaf⟩
    | some d =>
      rw [← Option.some.inj subtracted, leaves, List.mem_append] at leaf
      exact leaf.imp (fun inside => ⟨k, rfl, inside⟩) fun inside => ⟨d, rfl, inside⟩

end Plan

namespace Query

theorem compile_bound {s : Source} {lookup : Option SectionLookup} {q : Query} {plan : Plan} {l : Leaf}
    (compiled : q.compile s lookup = .ok (some plan)) (leaf : l ∈ plan.leaves) : l.Bound s lookup := by
  induction q using byClauses generalizing plan with
  | boolean clauses ih =>
    obtain ⟨keep, drop, kept, dropped, subtracted⟩ := compile_boolean_parts compiled
    have below : ∀ {occur plans p},
        List.Forall₂ (fun q plan => q.compile s lookup = .ok plan) (group occur clauses) plans →
        some p ∈ plans → l ∈ p.leaves → l.Bound s lookup := fun {_ _ p} each member leaf => by
      obtain ⟨q, inside, found⟩ := exists_of_related each member
      exact ih _ (mem_group.mp inside) found leaf
    rcases Plan.leaves_of_subtract subtracted.symm leaf with ⟨p, joined, leaf⟩ | ⟨p, joined, leaf⟩
    · obtain ⟨part, member, leaf⟩ := Plan.leaves_of_join (Plan.leaves_joined _) joined leaf
      exact below kept member leaf
    · obtain ⟨part, member, leaf⟩ := Plan.leaves_of_join (fun _ => rfl) joined leaf
      exact below dropped member leaf
  | simple q other =>
    cases q with
    | boolean clauses => exact absurd rfl (other clauses)
    | term t =>
      cases compiled
      rw [List.mem_singleton.mp leaf]
      exact .term t
    | tag t =>
      cases compiled
      rw [List.mem_singleton.mp leaf]
      exact .tag t
    | phrase words =>
      rw [compile, Leaf.ofPhrase] at compiled
      cases least : (words.map (·.position)).min? with
      | none => simp [least] at compiled
      | some base =>
        simp only [least, Option.map_some, Except.ok.injEq, Option.some.injEq] at compiled
        rw [← compiled, Plan.leaves] at leaf
        obtain ⟨w, _, rfl⟩ := List.mem_map.mp leaf
        exact .word w.term (w.position - base)
    | _ => cases compiled

theorem compile_of_plan? {s : Source} {lookup : Option SectionLookup} {q : Query} {plan : Plan}
    (planned : q.plan? s lookup = .ok (some plan)) : q.compile s lookup = .ok (some plan) := by
  unfold plan? at planned
  cases compiled : q.compile s lookup with
  | error e => rw [compiled] at planned; cases planned
  | ok found =>
    rw [compiled] at planned
    have kept := Except.ok.inj planned
    simp only at kept
    split at kept
    · cases kept
    · rw [kept]

end Query

namespace Segment

theorem mem_candidates_ofPostings {s : Segment} {t : Term} {offset : Position} {docno : Nat}
    (member : docno ∈ { Leaf.ofPostings t (s.postings t) with offset }.candidates) :
    docno < s.documents.length := by
  have key := SortedSet.mem_ofKeys.mp member
  rw [Std.ExtTreeMap.mem_ofList, List.contains_iff_mem] at key
  simp only [List.map_map, List.mem_map, Function.comp_apply] at key
  obtain ⟨p, inside, rfl⟩ := key
  exact docno_lt_of_mem_postings inside

theorem mem_candidates_ofSections {s : Segment} {t : Term} {docno : Nat}
    (member : docno ∈ (Leaf.ofSections t (.ofPostings (s.postings t))).candidates) :
    docno < s.documents.length := by
  obtain ⟨p, inside, rfl⟩ := IntervalSet.exists_posting_of_mem_docs member
  exact docno_lt_of_mem_postings inside

theorem lt_of_mem_bound {s : Segment} {l : Leaf} {docno : Nat}
    (bound : l.Bound s.toSource s.toSource.sectionLookup) (member : docno ∈ l.candidates) :
    docno < s.documents.length := by
  cases bound with
  | term t =>
    unfold Leaf.ofTerm at member
    split at member
    · rename_i prepared found
      rw [sectionLookup_toSource found] at member
      exact mem_candidates_ofSections member
    · rw [postings_toSource] at member
      exact mem_candidates_ofPostings member
  | tag t =>
    unfold Leaf.ofTag at member
    rw [sections_toSource] at member
    exact mem_candidates_ofSections member
  | word t offset =>
    rw [postings_toSource] at member
    exact mem_candidates_ofPostings member

theorem compile_within {s : Segment} {q : Query} {plan : Plan}
    (compiled : q.compile s.toSource s.toSource.sectionLookup = .ok (some plan)) :
    plan.Within s.documents.length :=
  fun _ leaf _ member => lt_of_mem_bound (Query.compile_bound compiled leaf) member

end Segment

end FacetedSearch
