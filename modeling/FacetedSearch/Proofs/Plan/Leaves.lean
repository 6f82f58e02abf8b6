import FacetedSearch.Plan.Basic
import Mathlib

namespace FacetedSearch

namespace Position

instance : Std.LawfulOrderLeftLeaningMin Position := .of_eq fun _ _ => rfl

instance : Std.LawfulOrderLeftLeaningMax Position := .of_eq fun a b => by
  show (if a ≤ b then b else a) = _
  grind

theorem toNat_max (a b : Position) : (max a b).toNat = max a.toNat b.toNat := by
  show (if a ≤ b then b else a).toNat = _
  simp only [UInt32.le_iff_toNat_le]
  split <;> omega

end Position

section Search

variable {positions : Array Position} {lo hi p first : Position}

theorem first_from (ascending : positions.toList.Pairwise (· ≤ ·))
    (found : positions[passing (· < lo) positions]? = some first) : first ∈ positions ∧ lo ≤ first := by
  obtain ⟨inside, rfl⟩ := Array.getElem?_eq_some_iff.mp found
  refine ⟨Array.getElem_mem inside, Std.not_lt.mp fun early => ?_⟩
  exact Nat.lt_irrefl _ ((below_passing_iff ascending inside).mpr early)

theorem exists_first_from (ascending : positions.toList.Pairwise (· ≤ ·)) (member : p ∈ positions) (late : lo ≤ p) :
    ∃ first, positions[passing (· < lo) positions]? = some first ∧ first ≤ p := by
  obtain ⟨i, inside, rfl⟩ := Array.mem_iff_getElem.mp member
  have reached : passing (· < lo) positions ≤ i :=
    Nat.le_of_not_lt fun early => Std.not_lt.mpr late ((below_passing_iff ascending inside).mp early)
  refine ⟨_, Array.getElem?_eq_getElem (Nat.lt_of_le_of_lt reached inside), ?_⟩
  rcases Nat.lt_or_eq_of_le reached with before | same
  · exact List.pairwise_iff_getElem.mp ascending _ _ (by simpa using Nat.lt_trans before inside) (by simpa using inside)
      before
  · simp only [same]
    exact UInt32.le_refl _

end Search

namespace Interval

-- The positions of a section; one without extent still has its start.
def Covers (i : Interval) (p : Position) : Prop := i.start ≤ p ∧ p.toNat < max i.stop.toNat (i.start.toNat + 1)

variable {i : Interval} {lo hi p : Position}

theorem meets_iff : i.meets lo hi = true ↔ i.start < hi ∧ lo.toNat < max i.stop.toNat (i.start.toNat + 1) := by
  unfold meets
  rw [Bool.and_eq_true, decide_eq_true_eq, decide_eq_true_eq]
  refine and_congr_right fun early => ?_
  have top : documentEnd.toNat = 2 ^ 32 - 1 := rfl
  have below := hi.toNat_lt
  have one : (1 : Position).toNat = 1 := rfl
  rw [UInt32.lt_iff_toNat_lt] at early ⊢
  rw [Position.toNat_max, Position.toNat_plus]
  omega

theorem meets_point : i.meets p (Position.plus p 1) = true ↔ p < documentEnd ∧ i.Covers p := by
  have top : documentEnd.toNat = 2 ^ 32 - 1 := rfl
  have one : (1 : Position).toNat = 1 := rfl
  have below := p.toNat_lt
  have stop := i.stop.toNat_lt
  rw [meets_iff, Covers, UInt32.lt_iff_toNat_lt, UInt32.lt_iff_toNat_lt, UInt32.le_iff_toNat_le, Position.toNat_plus]
  omega

theorem meets_iff_exists (filled : lo < hi) : i.meets lo hi = true ↔ ∃ p, lo ≤ p ∧ p < hi ∧ i.Covers p := by
  rw [meets_iff]
  unfold Covers
  simp only [UInt32.lt_iff_toNat_lt, UInt32.le_iff_toNat_le] at filled ⊢
  constructor
  · intro ⟨early, late⟩
    refine ⟨max lo i.start, ?_⟩
    rw [Position.toNat_max]
    omega
  · intro ⟨p, after, before, from_, within⟩
    omega

theorem meets_iff_of_le (bare : hi ≤ lo) : i.meets lo hi = true ↔ i.start < hi ∧ lo < i.stop := by
  rw [meets_iff]
  simp only [UInt32.lt_iff_toNat_lt, UInt32.le_iff_toNat_le] at bare ⊢
  omega

end Interval

namespace Leaf

def sectionsIn (l : Leaf) (docno : Nat) : List Interval :=
  match l.occurrences with
  | .positions _ => []
  | .intervals sections => sections.sectionsOf docno

-- Single positions ascend in every document. Sections may stand in any order.
def Ascending (l : Leaf) : Prop := ∀ docno, (l.positionsIn docno).toList.Pairwise (· ≤ ·)

variable {l : Leaf} {docno : Nat} {lo hi p : Position}

theorem occursAt_exact (ascending : l.Ascending) : l.occursAt docno p = true ↔
    p ∈ l.positionsIn docno ∨ p < documentEnd ∧ ∃ i ∈ l.sectionsIn docno, i.Covers p := by
  have sorted := ascending docno
  unfold occursAt
  cases read : l.occurrences with
  | positions byDoc =>
    simp only [sectionsIn, read, List.not_mem_nil, false_and, exists_false, and_false, or_false, decide_eq_true_eq]
    constructor
    · exact fun found => (first_from sorted found).1
    · intro member
      obtain ⟨first, found, early⟩ := exists_first_from sorted member (UInt32.le_refl p)
      rw [found, UInt32.le_antisymm early (first_from sorted found).2]
  | intervals sections =>
    simp only [positionsIn, sectionsIn, read, Array.not_mem_empty, false_or, IntervalSet.meets, List.any_eq_true,
      Interval.meets_point]
    grind

theorem holds_exact (ascending : l.Ascending) : l.holds docno lo hi = true ↔
    (∃ p ∈ l.positionsIn docno, lo ≤ p ∧ p < hi) ∨ ∃ i ∈ l.sectionsIn docno, i.meets lo hi = true := by
  have sorted := ascending docno
  unfold holds
  cases read : l.occurrences with
  | positions byDoc =>
    simp only [sectionsIn, read, List.not_mem_nil, false_and, exists_false, or_false, Option.any_eq_true,
      decide_eq_true_eq]
    constructor
    · intro ⟨first, found, before⟩
      obtain ⟨member, late⟩ := first_from sorted found
      exact ⟨first, member, late, before⟩
    · intro ⟨p, member, late, before⟩
      obtain ⟨first, found, early⟩ := exists_first_from sorted member late
      exact ⟨first, found, Std.lt_of_le_of_lt early before⟩
  | intervals sections =>
    simp only [positionsIn, sectionsIn, read, Array.not_mem_empty, false_and, exists_false, false_or,
      IntervalSet.meets, List.any_eq_true]

section Rows

variable {t : Term} {postings : List Posting}

theorem positionsIn_ofPostings (ascending : postings.Pairwise fun a b => a.docno < b.docno) {row : Posting}
    (member : row ∈ postings) : (ofPostings t postings).positionsIn row.docno = row.positions.toArray := by
  have apart : (postings.map fun row => (row.docno, row.positions.toArray)).Pairwise fun a b =>
      ¬ compare a.1 b.1 = .eq := by
    refine List.pairwise_map.mpr (ascending.imp fun less equal => ?_)
    exact absurd (Nat.compare_eq_eq.mp equal) (Nat.ne_of_lt less)
  simp only [positionsIn, ofPostings]
  rw [Std.ExtTreeMap.getElem?_ofList_of_mem Std.ReflCmp.compare_self apart (List.mem_map_of_mem member)]
  rfl

theorem positionsIn_unlisted (absent : ∀ row ∈ postings, row.docno ≠ docno) :
    (ofPostings t postings).positionsIn docno = #[] := by
  simp only [positionsIn, ofPostings]
  rw [Std.ExtTreeMap.getElem?_ofList_of_contains_eq_false (by simpa using absent)]
  rfl

end Rows

theorem ascending_ofSections (t : Term) (sections : IntervalSet) : (ofSections t sections).Ascending := fun _ => .nil

theorem exists_occursAt (ascending : l.Ascending) : (∃ p, lo ≤ p ∧ p < hi ∧ l.occursAt docno p = true) ↔
    ∃ p, lo ≤ p ∧ p < hi ∧ (p ∈ l.positionsIn docno ∨ ∃ i ∈ l.sectionsIn docno, i.Covers p) := by
  have last : hi ≤ documentEnd := UInt32.le_iff_toNat_le.mpr (Nat.le_of_lt_succ hi.toNat_lt)
  simp only [occursAt_exact ascending]
  refine exists_congr fun p => and_congr_right fun _ => and_congr_right fun before => or_congr_right ?_
  exact and_iff_right (Std.lt_of_lt_of_le before last)

theorem holds_of_filled (ascending : l.Ascending) (filled : lo < hi) :
    l.holds docno lo hi = true ↔ ∃ p, lo ≤ p ∧ p < hi ∧ l.occursAt docno p = true := by
  rw [exists_occursAt ascending, holds_exact ascending]
  simp only [Interval.meets_iff_exists filled]
  constructor
  · intro parts
    rcases parts with ⟨p, member, after, before⟩ | ⟨i, member, p, after, before, covered⟩
    · exact ⟨p, after, before, .inl member⟩
    · exact ⟨p, after, before, .inr ⟨i, member, covered⟩⟩
  · intro ⟨p, after, before, parts⟩
    rcases parts with member | ⟨i, member, covered⟩
    · exact .inl ⟨p, member, after, before⟩
    · exact .inr ⟨i, member, p, after, before, covered⟩

theorem holds_of_bare (ascending : l.Ascending) (bare : hi ≤ lo) :
    l.holds docno lo hi = true ↔ ∃ i ∈ l.sectionsIn docno, i.start < hi ∧ lo < i.stop := by
  rw [holds_exact ascending]
  simp only [Interval.meets_iff_of_le bare]
  refine or_iff_right fun parts => ?_
  obtain ⟨p, _, after, before⟩ := parts
  exact Std.not_lt.mpr bare (Std.lt_of_le_of_lt after before)

theorem holds_iff_occurs (l : Leaf) (ascending : l.Ascending) (docno : Nat) (lo hi : Position) :
    (l.holds docno lo hi = true ↔ (∃ p, lo ≤ p ∧ p < hi ∧ l.occursAt docno p = true) ∨
      hi ≤ lo ∧ ∃ i ∈ l.sectionsIn docno, i.start < hi ∧ lo < i.stop) ∧
    ((∃ p, lo ≤ p ∧ p < hi ∧ l.occursAt docno p = true) ↔
      ∃ p, lo ≤ p ∧ p < hi ∧ (p ∈ l.positionsIn docno ∨ ∃ i ∈ l.sectionsIn docno, i.Covers p)) := by
  refine ⟨?_, exists_occursAt ascending⟩
  by_cases filled : lo < hi
  · have present : ¬ hi ≤ lo := Std.not_le.mpr filled
    rw [holds_of_filled ascending filled, or_iff_left fun both => present both.1]
  · have bare : hi ≤ lo := Std.not_lt.mp filled
    have absent : ¬ ∃ p, lo ≤ p ∧ p < hi ∧ l.occursAt docno p = true := fun ⟨p, after, before, _⟩ =>
      filled (Std.lt_of_le_of_lt after before)
    rw [holds_of_bare ascending bare, or_iff_right absent, and_iff_right bare]

-- The headings of two documents: in the first one without extent and one that
-- ends before it starts, in the second one of eight words.
def headings : Leaf := .ofSections ⟨"_SECTION", "heading"⟩ (((∅ : IntervalSet).insert 0 ⟨6, 2⟩).insert 0 ⟨4, 4⟩ |>.insert 1 ⟨1, 9⟩)

theorem holds_iff_occurs_headings : headings.Ascending ∧ (∃ p, 6 ≤ p ∧ p < 7 ∧ headings.occursAt 0 p = true) ∧
    headings.holds 1 5 3 = true ∧ headings.holds 1 1 1 = false := by
  have ascending : headings.Ascending := ascending_ofSections _ _
  have heading : ⟨6, 2⟩ ∈ headings.sectionsIn 0 := by decide +kernel
  have other : ⟨1, 9⟩ ∈ headings.sectionsIn 1 := by decide +kernel
  refine ⟨ascending, (holds_iff_occurs headings ascending 0 6 7).2.mpr ⟨6, by decide, by decide, ?_⟩, ?_, ?_⟩
  · exact .inr ⟨_, heading, by decide, by decide⟩
  · exact (holds_iff_occurs headings ascending 1 5 3).1.mpr (.inr ⟨by decide, _, other, by decide, by decide⟩)
  · decide +kernel

-- In the middle of a heading nothing is asked for, and still it is there.
theorem holds_without_position : ¬ ∀ (l : Leaf), l.Ascending → ∀ (docno : Nat) (lo hi : Position),
    l.holds docno lo hi = true ↔ ∃ p, lo ≤ p ∧ p < hi ∧ l.occursAt docno p = true := by
  intro agree
  obtain ⟨p, after, before, _⟩ := (agree headings (ascending_ofSections _ _) 1 5 5).mp (by decide +kernel)
  exact Std.not_lt.mpr after before

end Leaf

end FacetedSearch
