import FacetedSearch.Index.Section
import FacetedSearch.Sorted.Search
import Mathlib

namespace FacetedSearch

namespace Interval

-- In order of start. The sort is stable, so sections that start together stay in
-- the order in which they arrived.
def sorted (arrived : List Interval) : List Interval := arrived.mergeSort fun i j => i.start ≤ j.start

variable {i j : Interval} {sections others arrived : List Interval}

theorem head_le (ascending : (i :: sections).Pairwise fun i j => i.start ≤ j.start) (member : j ∈ i :: sections) :
    i.start ≤ j.start := by
  rcases List.mem_cons.mp member with rfl | later
  · exact UInt32.le_refl j.start
  · exact List.rel_of_pairwise_cons ascending later

theorem mem_iff_of_starts (same : ∀ start, sections.filter (·.start = start) = others.filter (·.start = start)) :
    i ∈ sections ↔ i ∈ others := by
  have here : i ∈ sections.filter (·.start = i.start) ↔ i ∈ others.filter (·.start = i.start) := by rw [same]
  simpa using here

theorem eq_of_starts (ascending : sections.Pairwise fun i j => i.start ≤ j.start)
    (ascending' : others.Pairwise fun i j => i.start ≤ j.start)
    (same : ∀ start, sections.filter (·.start = start) = others.filter (·.start = start)) : sections = others := by
  induction sections generalizing others with
  | nil =>
    cases others with
    | nil => rfl
    | cons j rest => exact absurd ((mem_iff_of_starts same).mpr List.mem_cons_self) List.not_mem_nil
  | cons i rest ih =>
    cases others with
    | nil => exact absurd ((mem_iff_of_starts same).mp List.mem_cons_self) List.not_mem_nil
    | cons j rest' =>
      have lowest : i.start = j.start :=
        UInt32.le_antisymm (head_le ascending ((mem_iff_of_starts same).mpr List.mem_cons_self))
          (head_le ascending' ((mem_iff_of_starts same).mp List.mem_cons_self))
      have first := same j.start
      simp only [List.filter_cons, lowest, decide_true, if_true, List.cons.injEq] at first
      obtain ⟨rfl, _⟩ := first
      have tails : ∀ start, rest.filter (·.start = start) = rest'.filter (·.start = start) := by
        intro start
        have both := same start
        rw [List.filter_cons, List.filter_cons] at both
        split at both
        · exact (List.cons.inj both).2
        · exact both
      exact congrArg (i :: ·) (ih ascending.of_cons ascending'.of_cons tails)

theorem start_trans (i j k : Interval) (first : decide (i.start ≤ j.start) = true)
    (second : decide (j.start ≤ k.start) = true) : decide (i.start ≤ k.start) = true :=
  decide_eq_true (UInt32.le_trans (of_decide_eq_true first) (of_decide_eq_true second))

theorem start_total (i j : Interval) : (decide (i.start ≤ j.start) || decide (j.start ≤ i.start)) = true := by
  rw [Bool.or_eq_true, decide_eq_true_eq, decide_eq_true_eq]
  exact UInt32.le_total i.start j.start

theorem sorted_ascending (arrived : List Interval) : (sorted arrived).Pairwise fun i j => i.start ≤ j.start :=
  (List.pairwise_mergeSort start_trans start_total arrived).imp of_decide_eq_true

theorem filter_sorted (arrived : List Interval) (start : Position) :
    (sorted arrived).filter (·.start = start) = arrived.filter (·.start = start) := by
  have together : (arrived.filter (·.start = start)).Pairwise fun i j => decide (i.start ≤ j.start) = true := by
    refine List.pairwise_of_forall_mem_list fun i inside j inside' => decide_eq_true ?_
    have here := of_decide_eq_true (List.mem_filter.mp inside).2
    have here' := of_decide_eq_true (List.mem_filter.mp inside').2
    exact UInt32.le_of_eq (here.trans here'.symm)
  have kept : (arrived.filter (·.start = start)).Sublist ((sorted arrived).filter (·.start = start)) := by
    have stable := (List.sublist_mergeSort start_trans start_total together List.filter_sublist).filter (·.start = start)
    rwa [List.filter_filter, List.filter_congr fun i _ => Bool.and_self _] at stable
  have lengths := ((List.mergeSort_perm arrived fun i j => i.start ≤ j.start).filter (·.start = start)).length_eq
  exact (kept.eq_of_length lengths.symm).symm

theorem sorted_exact : sections = sorted arrived ↔ sections.Pairwise (fun i j => i.start ≤ j.start) ∧
    ∀ start, sections.filter (·.start = start) = arrived.filter (·.start = start) := by
  constructor
  · rintro rfl
    exact ⟨sorted_ascending arrived, filter_sorted arrived⟩
  · intro ⟨ascending, same⟩
    exact eq_of_starts ascending (sorted_ascending arrived) fun start => (same start).trans (filter_sorted arrived start).symm

example : sorted [⟨8, 9⟩, ⟨2, 2⟩, ⟨8, 1⟩, ⟨2, 0⟩] = [⟨2, 2⟩, ⟨2, 0⟩, ⟨8, 9⟩, ⟨8, 1⟩] := by cbv

theorem sorted_of_ascending (ascending : sections.Pairwise fun i j => i.start ≤ j.start) : sorted sections = sections :=
  (sorted_exact.mpr ⟨ascending, fun _ => rfl⟩).symm

theorem mem_sorted : i ∈ sorted arrived ↔ i ∈ arrived := (List.mergeSort_perm _ _).mem_iff

theorem exists_split (ascending : sections.Pairwise fun i j => i.start ≤ j.start) (i : Interval) :
    ∃ before after, sections = before ++ after ∧ i.place sections = before ++ i :: after ∧
      (∀ j ∈ before, j.start ≤ i.start) ∧ ∀ j ∈ after, i.start < j.start := by
  refine ⟨_, _, List.takeWhile_append_dropWhile.symm, rfl, ?_, ?_⟩
  · exact fun j early => of_decide_eq_true (List.all_eq_true.mp List.all_takeWhile j early)
  · intro j late
    have rest := ascending.sublist (List.dropWhile_sublist (·.start ≤ i.start))
    have first := List.head?_dropWhile_not (fun j : Interval => decide (j.start ≤ i.start)) sections
    cases listed : sections.dropWhile (·.start ≤ i.start) with
    | nil => simp [listed] at late
    | cons k later =>
      rw [listed] at late rest first
      have above : i.start < k.start := by simpa using first
      exact UInt32.lt_of_lt_of_le above (head_le rest late)

theorem ascending_place (ascending : sections.Pairwise fun i j => i.start ≤ j.start) (i : Interval) :
    (i.place sections).Pairwise fun i j => i.start ≤ j.start := by
  obtain ⟨before, after, rfl, placed, low, high⟩ := exists_split ascending i
  obtain ⟨first, last, across⟩ := List.pairwise_append.mp ascending
  rw [placed]
  refine List.pairwise_append.mpr ⟨first, List.pairwise_cons.mpr ⟨fun j late => UInt32.le_of_lt (high j late), last⟩, ?_⟩
  intro j early k rest
  rcases List.mem_cons.mp rest with rfl | late
  · exact low j early
  · exact across j early k late

theorem filter_place (ascending : sections.Pairwise fun i j => i.start ≤ j.start) (i : Interval) (start : Position) :
    (i.place sections).filter (·.start = start) = (sections ++ [i]).filter (·.start = start) := by
  obtain ⟨before, after, rfl, placed, _, high⟩ := exists_split ascending i
  rw [placed, List.append_assoc, List.filter_append, List.filter_append, List.filter_append, List.filter_cons]
  by_cases here : i.start = start
  · have none : after.filter (·.start = start) = [] := by
      refine List.filter_eq_nil_iff.mpr fun j late same => ?_
      have above := high j late
      rw [of_decide_eq_true same, here] at above
      exact UInt32.lt_irrefl start above
    simp [here, none]
  · simp [here]

theorem sorted_concat (arrived : List Interval) (i : Interval) : sorted (arrived ++ [i]) = i.place (sorted arrived) := by
  symm
  refine sorted_exact.mpr ⟨ascending_place (sorted_ascending arrived) i, fun start => ?_⟩
  rw [filter_place (sorted_ascending arrived), List.filter_append, filter_sorted, List.filter_append]

theorem place_split {before after : List Interval} (low : ∀ j ∈ before, j.start ≤ i.start)
    (high : ∀ j ∈ after, i.start < j.start) : i.place (before ++ after) = before ++ i :: after := by
  have passed : ∀ j ∈ before, decide (j.start ≤ i.start) = true := fun j early => decide_eq_true (low j early)
  have stopped : after.takeWhile (·.start ≤ i.start) = [] ∧ after.dropWhile (·.start ≤ i.start) = after := by
    cases after with
    | nil => exact ⟨rfl, rfl⟩
    | cons j later =>
      have above : ¬ j.start ≤ i.start := UInt32.not_le.mpr (high j List.mem_cons_self)
      simp [above]
  rw [place, List.takeWhile_append_of_pos passed, List.dropWhile_append_of_pos passed, stopped.1, stopped.2,
    List.append_nil]

theorem place_searched (ascending : sections.Pairwise fun i j => i.start ≤ j.start) (i : Interval) :
    let place := passing (·.start ≤ i.start) sections.toArray
    i.place sections = sections.take place ++ i :: sections.drop place := by
  intro place
  have falling : sections.toArray.toList.Pairwise fun j k =>
      decide (k.start ≤ i.start) = true → decide (j.start ≤ i.start) = true :=
    ascending.imp fun order later => decide_eq_true (UInt32.le_trans order (of_decide_eq_true later))
  obtain ⟨_, leading⟩ := passing_parts falling
  have low : ∀ j ∈ sections.take place, j.start ≤ i.start := by
    intro j early
    obtain ⟨n, inside, rfl⟩ := List.mem_take_iff_getElem.mp early
    rw [Nat.lt_min] at inside
    exact of_decide_eq_true ((leading n inside.2).mp inside.1)
  have high : ∀ j ∈ sections.drop place, i.start < j.start := by
    intro j late
    obtain ⟨n, inside, rfl⟩ := List.mem_drop_iff_getElem.mp late
    refine UInt32.not_le.mp fun holds => ?_
    have early := (leading (place + n) (Nat.add_comm n place ▸ inside)).mpr (decide_eq_true holds)
    exact Nat.not_lt.mpr (Nat.le_add_right place n) early
  have split := place_split low high
  rwa [List.take_append_drop] at split

theorem getElem?_pairs (positions : List Position) (k : Nat) : (pairs positions)[k]? =
    positions[2 * k]?.map fun start => ⟨start, positions[2 * k + 1]?.getD documentEnd⟩ := by
  induction positions using pairs.induct generalizing k with
  | case1 start stop rest ih =>
    cases k with
    | zero => rfl
    | succ k => simpa [pairs, Nat.mul_succ] using ih k
  | case2 start =>
    cases k with
    | zero => rfl
    | succ k => simp [pairs, Nat.mul_succ]
  | case3 => simp [pairs]

end Interval

namespace IntervalSet

theorem sectionsOf_insert (s : IntervalSet) (docno other : Nat) (i : Interval) :
    (s.insert docno i).sectionsOf other =
      if docno = other then i.place (s.sectionsOf other) else s.sectionsOf other := by
  unfold insert sectionsOf
  rw [Std.ExtTreeMap.getElem?_alter]
  by_cases same : docno = other
  · subst same
    simp
  · simp [same]

theorem docs_insert (s : IntervalSet) (docno other : Nat) (i : Interval) :
    other ∈ (s.insert docno i).docs ↔ other = docno ∨ other ∈ s.docs := by
  unfold docs insert
  rw [SortedSet.mem_ofKeys, SortedSet.mem_ofKeys, Std.ExtTreeMap.mem_alter]
  by_cases same : docno = other
  · subst same
    simp
  · have other : ¬ compare docno other = .eq := fun equal => same (Nat.compare_eq_eq.mp equal)
    simp [other, Ne.symm same]

theorem mem_docs_of_mem_sectionsOf {s : IntervalSet} {docno : Nat} {i : Interval}
    (member : i ∈ s.sectionsOf docno) : docno ∈ s.docs := by
  refine SortedSet.mem_ofKeys.mpr (Decidable.byContradiction fun absent => ?_)
  rw [sectionsOf, Std.ExtTreeMap.getElem?_eq_none absent] at member
  cases member

def insertEach (s : IntervalSet) (given : List (Nat × Interval)) : IntervalSet :=
  given.foldl (fun s g => s.insert g.1 g.2) s

def arrivals (given : List (Nat × Interval)) (docno : Nat) : List Interval :=
  (given.filter (·.1 = docno)).map (·.2)

def rowSections (row : Posting) : List (Nat × Interval) := (Interval.pairs row.positions).map fun i => (row.docno, i)

structure Holds (s : IntervalSet) (given : List (Nat × Interval)) : Prop where
  sections : ∀ docno, s.sectionsOf docno = Interval.sorted (arrivals given docno)
  docs : ∀ docno, docno ∈ s.docs ↔ ∃ i, (docno, i) ∈ given

variable {s : IntervalSet} {given : List (Nat × Interval)}

theorem Holds.empty : Holds ∅ [] where
  sections docno := by
    have none : (∅ : IntervalSet).sectionsOf docno = [] := by
      change ((∅ : Std.ExtTreeMap Nat (List Interval))[docno]?).getD [] = []
      rw [Std.ExtTreeMap.getElem?_empty, Option.getD_none]
    exact none.trans List.mergeSort_nil.symm
  docs docno := by
    have none : docno ∉ (∅ : IntervalSet).docs := fun member =>
      Std.ExtTreeMap.not_mem_empty (SortedSet.mem_ofKeys.mp member)
    exact iff_of_false none fun ⟨_, given⟩ => List.not_mem_nil given

theorem Holds.insert (holds : s.Holds given) (docno : Nat) (i : Interval) :
    (s.insert docno i).Holds (given ++ [(docno, i)]) where
  sections other := by
    rw [sectionsOf_insert, holds.sections, arrivals, arrivals, List.filter_append, List.map_append]
    by_cases same : docno = other
    · simp [same, Interval.sorted_concat]
    · simp [same]
  docs other := by
    rw [docs_insert, holds.docs, or_comm]
    simp only [List.mem_append, List.mem_singleton, Prod.mk.injEq, exists_or, exists_and_left, exists_eq, and_true]

theorem Holds.insertEach (holds : s.Holds given) (more : List (Nat × Interval)) :
    (s.insertEach more).Holds (given ++ more) := by
  induction more generalizing s given with
  | nil => exact (List.append_nil given).symm ▸ holds
  | cons g rest ih =>
    have moved : given ++ g :: rest = given ++ [g] ++ rest := List.append_cons given g rest
    rw [moved]
    exact ih (holds.insert g.1 g.2)

theorem ofPostings_eq (rows : List Posting) : ofPostings rows = insertEach ∅ (rows.flatMap rowSections) := by
  unfold ofPostings insertEach rowSections
  simp only [List.foldl_flatMap, List.foldl_map]

theorem holds_ofPostings (rows : List Posting) : (ofPostings rows).Holds (rows.flatMap rowSections) := by
  rw [ofPostings_eq]
  exact Holds.empty.insertEach (rows.flatMap rowSections)

theorem arrivals_rows (rows : List Posting) (docno : Nat) : arrivals (rows.flatMap rowSections) docno =
    (rows.filter (·.docno = docno)).flatMap fun row => Interval.pairs row.positions := by
  induction rows with
  | nil => rfl
  | cons row rest ih =>
    have split : arrivals ((row :: rest).flatMap rowSections) docno =
        arrivals (rowSections row) docno ++ arrivals (rest.flatMap rowSections) docno := by
      rw [arrivals, List.flatMap_cons, List.filter_append, List.map_append]
      rfl
    rw [split, ih, arrivals, rowSections, List.filter_cons]
    by_cases same : row.docno = docno
    · simp [same, List.filter_map, Function.comp_def]
    · simp [same, List.filter_map, Function.comp_def]

theorem sectionsOf_ofPostings (rows : List Posting) (docno : Nat) : (ofPostings rows).sectionsOf docno =
    Interval.sorted ((rows.filter (·.docno = docno)).flatMap fun row => Interval.pairs row.positions) := by
  rw [(holds_ofPostings rows).sections, arrivals_rows]

theorem exists_posting_of_mem_docs {rows : List Posting} {docno : Nat} (member : docno ∈ (ofPostings rows).docs) :
    ∃ row ∈ rows, row.docno = docno := by
  obtain ⟨i, given⟩ := ((holds_ofPostings rows).docs docno).mp member
  obtain ⟨row, inside, paired⟩ := List.mem_flatMap.mp given
  obtain ⟨_, _, same⟩ := List.mem_map.mp paired
  exact ⟨row, inside, congrArg Prod.fst same⟩

theorem Holds.size (holds : s.Holds given) : s.size = (given.map (·.1)).toFinset.card := by
  have distinct : s.docs.toList.Nodup := Std.ExtTreeMap.nodup_keys
  have same : s.docs.toList.toFinset = (given.map (·.1)).toFinset := by
    ext docno
    have known : docno ∈ s.docs.toList ↔ ∃ i, (docno, i) ∈ given := holds.docs docno
    simp [known]
  rw [← same, List.toFinset_card_of_nodup distinct]
  exact Std.ExtTreeMap.length_keys.symm

theorem Holds.isEmpty (holds : s.Holds given) : s.isEmpty = true ↔ given = [] := by
  have none : s.isEmpty = true ↔ s.size = 0 := by
    unfold IntervalSet.isEmpty IntervalSet.size
    rw [Std.ExtTreeMap.isEmpty_eq_size_beq_zero, beq_iff_eq]
  rw [none, holds.size, Finset.card_eq_zero, List.toFinset_eq_empty_iff, List.map_eq_nil_iff]

-- All that a set tells of what was inserted. For a further section the halving search
-- finds its place, so it does so at each step of a run.
structure Tells (s : IntervalSet) (given : List (Nat × Interval)) : Prop extends s.Holds given where
  ascending : ∀ docno, (s.sectionsOf docno).Pairwise fun i j => i.start ≤ j.start
  arrived : ∀ docno start,
    (s.sectionsOf docno).filter (·.start = start) = (arrivals given docno).filter (·.start = start)
  searched : ∀ docno i, (s.insert docno i).sectionsOf docno =
    let place := passing (·.start ≤ i.start) (s.sectionsOf docno).toArray
    (s.sectionsOf docno).take place ++ i :: (s.sectionsOf docno).drop place
  size : s.size = (given.map (·.1)).toFinset.card
  isEmpty : s.isEmpty = true ↔ given = []

theorem Holds.tells (holds : s.Holds given) : s.Tells given := by
  have ordered : ∀ docno, (s.sectionsOf docno).Pairwise (fun i j => i.start ≤ j.start) ∧ ∀ start,
      (s.sectionsOf docno).filter (·.start = start) = (arrivals given docno).filter (·.start = start) :=
    fun docno => Interval.sorted_exact.mp (holds.sections docno)
  refine ⟨holds, fun docno => (ordered docno).1, fun docno => (ordered docno).2, ?_, holds.size, holds.isEmpty⟩
  intro docno i
  rw [sectionsOf_insert, if_pos rfl]
  exact Interval.place_searched (ordered docno).1 i

theorem ordered_by_arrival (rows : List Posting) (given : List (Nat × Interval)) :
    (insertEach ∅ given).Tells given ∧
      ((ofPostings rows).insertEach given).Tells (rows.flatMap rowSections ++ given) ∧
      ofPostings rows = insertEach ∅ (rows.flatMap rowSections) ∧
      ∀ (row : Posting) (k : Nat), (rowSections row)[k]? = row.positions[2 * k]?.map fun start =>
        (row.docno, ⟨start, row.positions[2 * k + 1]?.getD documentEnd⟩) := by
  refine ⟨(Holds.empty.insertEach given).tells, ((holds_ofPostings rows).insertEach given).tells, ofPostings_eq rows, ?_⟩
  intro row k
  rw [rowSections, List.getElem?_map, Interval.getElem?_pairs, Option.map_map]
  rfl

end IntervalSet

end FacetedSearch
