import FacetedSearch.Proofs.Browse.Numbering
import FacetedSearch.Proofs.Facet.Ranking

namespace FacetedSearch

namespace SortField

-- Two values stand as the field asks, either way round; what has no value
-- stands behind all that has one.
def Puts (field : SortField) : Option String → Option String → Prop
  | some x, some y => if field.reverse then y < x else x < y
  | some _, none => True
  | none, _ => False

variable {field : SortField} {x y z : Option String}

theorem puts_trans (first : field.Puts x y) (second : field.Puts y z) : field.Puts x z := by
  match x, y, z with
  | none, _, _ => exact first.elim
  | some _, none, _ => exact second.elim
  | some _, some _, none => trivial
  | some x, some y, some z =>
    simp only [Puts] at first second ⊢
    split at first
    · rename_i reversed
      rw [if_pos reversed] at second ⊢
      exact lt_trans second first
    · rename_i forward
      rw [if_neg forward] at second ⊢
      exact lt_trans first second

theorem compareKey_lt_iff : RankedHit.compareKey field x y = .lt ↔ field.Puts x y := by
  match x, y with
  | none, none => simp [RankedHit.compareKey, SortValue.compare, Puts]
  | none, some _ => simp [RankedHit.compareKey, SortValue.compare, Puts]
  | some _, none => simp [RankedHit.compareKey, SortValue.compare, Puts]
  | some x, some y =>
    have turned : y < x ↔ compare x y = .gt := compare_lt_iff.symm.trans Std.OrientedCmp.gt_iff_lt.symm
    cases reversed : field.reverse with
    | true => simp [RankedHit.compareKey, SortValue.compare, Puts, reversed, turned]
    | false =>
      simp only [RankedHit.compareKey, SortValue.compare, Puts, reversed, Bool.false_and, Bool.false_eq_true, if_false]
      exact compare_lt_iff

theorem compareKey_eq_iff : RankedHit.compareKey field x y = .eq ↔ x = y := by
  match x, y with
  | none, none => simp [RankedHit.compareKey, SortValue.compare]
  | none, some _ => simp [RankedHit.compareKey, SortValue.compare]
  | some _, none => simp [RankedHit.compareKey, SortValue.compare]
  | some x, some y =>
    cases reversed : field.reverse <;> simp [RankedHit.compareKey, SortValue.compare, reversed]

theorem compareKey_swap : RankedHit.compareKey field x y = (RankedHit.compareKey field y x).swap := by
  match x, y with
  | none, none => simp [RankedHit.compareKey, SortValue.compare]
  | none, some _ => simp [RankedHit.compareKey, SortValue.compare]
  | some _, none => simp [RankedHit.compareKey, SortValue.compare]
  | some x, some y =>
    have turned : compare x y = (compare y x).swap := Std.OrientedCmp.eq_swap
    cases reversed : field.reverse <;> simp [RankedHit.compareKey, SortValue.compare, reversed, turned]

instance (field : SortField) : Std.TransCmp (RankedHit.compareKey field) where
  eq_swap := compareKey_swap
  isLE_trans {x y z} first second := by
    rw [Ordering.isLE_iff_eq_lt_or_eq_eq, compareKey_lt_iff, compareKey_eq_iff] at first second ⊢
    rcases first with first | rfl
    · rcases second with second | rfl
      · exact .inl (puts_trans first second)
      · exact .inl first
    · exact second

end SortField

namespace RankedHit

-- The fields in turn, the first that tells two documents apart decides; their
-- numbers come last. The key tells what a document sorts by.
def Before (key : SortField → Nat → Option String) : List SortField → Nat → Nat → Prop
  | [], m, n => m < n
  | field :: rest, m, n => field.Puts (key field m) (key field n) ∨ key field m = key field n ∧ Before key rest m n

def compareBy (key : SortField → Nat → Option String) : List SortField → Nat → Nat → Ordering
  | [] => Ord.compare
  | field :: rest => compareLex (fun m n => compareKey field (key field m) (key field n)) (compareBy key rest)

variable {key : SortField → Nat → Option String} {fields : List SortField}

theorem compareBy_lt_iff {m n : Nat} : compareBy key fields m n = .lt ↔ Before key fields m n := by
  induction fields with
  | nil => exact Nat.compare_eq_lt
  | cons field rest ih =>
    rw [compareBy, compareLex, Ordering.then_eq_lt, SortField.compareKey_lt_iff, SortField.compareKey_eq_iff, ih, Before]

theorem eq_of_compareBy {m n : Nat} (tied : compareBy key fields m n = .eq) : m = n := by
  induction fields with
  | nil => exact Nat.compare_eq_eq.mp tied
  | cons field rest ih => exact ih (compareLex_eq_eq.mp tied).2

theorem transCmp_compareBy (key : SortField → Nat → Option String) (fields : List SortField) :
    Std.TransCmp (compareBy key fields) := by
  induction fields with
  | nil => exact inferInstanceAs (Std.TransCmp (Ord.compare : Nat → Nat → Ordering))
  | cons field rest ih =>
    have first : Std.TransCmp fun m n => compareKey field (key field m) (key field n) :=
      { eq_swap := SortField.compareKey_swap
        isLE_trans := fun low high => Std.TransCmp.isLE_trans low high }
    exact inferInstanceAs (Std.TransCmp (compareLex _ (compareBy key rest)))

theorem sort_before {numbers : List Nat} (distinct : numbers.Nodup) :
    (numbers.mergeSort fun m n => (compareBy key fields m n).isLE).Pairwise (Before key fields) := by
  have order := transCmp_compareBy key fields
  have apart : numbers.Pairwise fun m n => compareBy key fields m n ≠ .eq :=
    distinct.imp fun other tied => other (eq_of_compareBy tied)
  exact (sort_strict apart).imp compareBy_lt_iff.mp

end RankedHit

theorem SortedSet.head?_ofList (xs : List String) : (SortedSet.ofList xs).toList.head? = xs.min? := by
  have listed : ∀ x, x ∈ (SortedSet.ofList xs).toList ↔ x ∈ xs := fun x => SortedSet.mem_ofList
  have ascending := (SortedSet.ofList xs).ascending
  symm
  cases members : (SortedSet.ofList xs).toList with
  | nil =>
    simp only [members, List.not_mem_nil, false_iff] at listed
    rw [List.eq_nil_iff_forall_not_mem.mpr listed]
    rfl
  | cons x rest =>
    rw [members] at ascending
    simp only [members] at listed
    refine List.min?_eq_some_iff.mpr ⟨(listed x).mp List.mem_cons_self, fun y member => ?_⟩
    rcases List.mem_cons.mp ((listed y).mpr member) with rfl | later
    · exact le_refl y
    · exact le_of_lt (compare_lt_iff.mp (List.rel_of_pairwise_cons ascending later))

namespace Browser

def sortKey (b : Browser) (field : SortField) (number : Nat) : Option String := (b.carried field.facet number).min?

variable {b : Browser} {r : Request} {asked : List (LiveSegment × Option DocSet)} {filter : Option Filter}
  {tasks : List CountTask} {leftOut : Option String}

theorem compare_keyed (key : SortField → Nat → Option String) (fields : List SortField) (m n : Nat) :
    (RankedHit.compareKeys fields (fields.map (key · m)) (fields.map (key · n))).then (compare m n) =
      RankedHit.compareBy key fields m n := by
  induction fields with
  | nil => rfl
  | cons field rest ih =>
    rw [RankedHit.compareBy, compareLex, ← ih, ← Ordering.then_assoc]
    rfl

theorem docIds_ranked (tasks : List CountTask) (answered : Asked b r asked) (loads : ∀ s ∈ b.segments, s.Loads b.registry)
    (composed : b.registry.compose r.selections none = .ok filter) :
    (ranked r (contributions r filter tasks asked)).map (·.docId) =
      ((numbered 0 (contributions r filter tasks asked)).map (·.hit.docId)).mergeSort fun m n =>
        (RankedHit.compareBy b.sortKey r.sort m n).isLE := by
  have keys : ∀ k ∈ numbered 0 (contributions r filter tasks asked), k.keys = r.sort.map (b.sortKey · k.hit.docId) := by
    intro k member
    obtain ⟨number, s, docno, found, _, rfl⟩ := (mem_numbered_contributions tasks answered loads composed).mp member
    apply List.map_congr_left
    intro field _
    rw [valuesAt_of_number loads found, SortedSet.head?_ofList]
    rfl
  unfold ranked RankedHit.sort
  rw [List.map_map]
  apply List.map_mergeSort
  intro k member k' member'
  unfold RankedHit.compare
  rw [keys k member, keys k' member', compare_keyed]
  rfl

-- Without fields to sort by, documents stand by number, and so they were collected.
theorem ranked_unsorted (plain : r.sort = []) (filter : Option Filter) (tasks : List CountTask)
    (answered : Asked b r asked) (loads : ∀ s ∈ b.segments, s.Loads b.registry) :
    ranked r (contributions r filter tasks asked) = (numbered 0 (contributions r filter tasks asked)).map (·.hit) := by
  have ascending := List.pairwise_map.mp (numbers_ascending filter tasks answered loads)
  unfold ranked RankedHit.sort
  rw [plain, List.mergeSort_of_pairwise (ascending.imp fun less => ?_)]
  exact Ordering.isLE_iff_ne_gt.mpr (Nat.compare_ne_gt.mpr (Nat.le_of_lt less))

theorem mem_ranked_contributions (answered : Asked b r asked) (loads : ∀ s ∈ b.segments, s.Loads b.registry)
    (composed : b.registry.compose r.selections none = .ok filter) {hit : Hit} :
    hit ∈ ranked r (contributions r filter tasks asked) ↔
      ∃ s, (documents b.segments)[hit.docId]? = some (s, hit.docno) ∧ b.Finds r none s hit.docno ∧ hit.segment = s.id := by
  rw [mem_ranked]
  constructor
  · intro ⟨k, member, same⟩
    obtain ⟨number, s, docno, found, finds, rfl⟩ := (mem_numbered_contributions tasks answered loads composed).mp member
    cases same
    exact ⟨s, found, finds, rfl⟩
  · intro ⟨s, found, finds, same⟩
    refine ⟨_, (mem_numbered_contributions tasks answered loads composed).mpr ⟨_, s, _, found, finds, rfl⟩, ?_⟩
    cases hit
    cases same
    rfl

theorem flatMap_pages {α : Type} (all : List α) (size pages : Nat) :
    (List.range pages).flatMap (fun page => (all.drop (page * size)).take size) = all.take (pages * size) := by
  induction pages with
  | zero => simp
  | succ pages ih => rw [List.range_succ, List.flatMap_append, ih, Nat.succ_mul, List.take_add, List.flatMap_singleton]

theorem pages_of_ordered_hits (b : Browser) (r : Request) (answer : Answer)
    (loads : ∀ s ∈ b.segments, s.Loads b.registry) (browsed : b.browse r = .ok answer) :
    ∃ all : List Hit,
      (∀ offset count, ∃ page, b.browse { r with offset, count } = .ok page ∧ page.hitCount = all.length ∧
        page.hits = (all.drop offset).take count) ∧
      (∀ hit, hit ∈ all ↔ ∃ (slot : Nat) (s : LiveSegment), b.segments[slot]? = some s ∧ b.Finds r none s hit.docno ∧
        hit.segment = s.id ∧ hit.docId = ((b.segments.take slot).map (·.docCount)).sum + hit.docno) ∧
      (all.map (·.docId)).Nodup ∧ (all.map (·.docId)).Pairwise (RankedHit.Before b.sortKey r.sort) ∧
      (r.sort = [] → (all.map (·.docId)).Pairwise (· < ·)) ∧
      ∀ size pages, all.length ≤ pages * size → ∃ answers, (List.range pages).mapM (fun page =>
        b.browse { r with offset := page * size, count := size }) = .ok answers ∧ answers.flatMap (·.hits) = all := by
  obtain ⟨filter, tasks, shares, prepared, shared, rfl⟩ := browse_parts browsed
  obtain ⟨composed, known⟩ := prepare_parts prepared
  obtain ⟨asked, same, queried, rfl⟩ := contributions_of_shares known loads shared
  have answered : Asked b r asked := ⟨same, queried⟩
  have paged : ∀ offset count, b.browse { r with offset, count } =
      .ok (assemble { r with offset, count } tasks (contributions r filter tasks asked)) :=
    fun offset count => browse_assemble prepared shared
  have distinct := (numbers_ascending filter tasks answered loads).nodup
  have sorted := docIds_ranked tasks answered loads composed
  have ordered : ((ranked r (contributions r filter tasks asked)).map (·.docId)).Pairwise
      (RankedHit.Before b.sortKey r.sort) := by
    rw [sorted]
    exact RankedHit.sort_before distinct
  refine ⟨ranked r (contributions r filter tasks asked), fun offset count => ⟨_, paged offset count, rfl, rfl⟩,
    fun hit => ?_, ?_, ordered, fun plain => ?_, fun size pages enough => ?_⟩
  · apply (mem_ranked_contributions answered loads composed).trans
    constructor
    · intro ⟨s, found, finds, same⟩
      obtain ⟨slot, live, _, number⟩ := getElem?_documents.mp found
      exact ⟨slot, s, live, finds, same, number⟩
    · intro ⟨slot, s, live, finds, same, number⟩
      exact ⟨s, getElem?_documents.mpr ⟨slot, live, finds.inside, number⟩, finds, same⟩
  · rw [sorted]
    exact (List.mergeSort_perm _ _).nodup_iff.mpr distinct
  · rw [plain] at ordered
    exact ordered
  · refine ⟨(List.range pages).map fun page => assemble { r with offset := page * size, count := size } tasks
      (contributions r filter tasks asked), mapM_ok_exact.mpr ?_, ?_⟩
    · rw [List.forall₂_map_right_iff, List.forall₂_same]
      exact fun page _ => paged (page * size) size
    · rw [List.flatMap_map]
      exact (flatMap_pages _ size pages).trans (List.take_of_length_le enough)

def shelved : Registry := Registry.add ∅ (.simple { name := "tongue", field := "lang" }) (by decide) nofun

def shelves : List LiveSegment :=
  [Segment.live shelved { documents := [{}, { stored := [("lang", "it")] }] } ⟨3⟩,
    Segment.live shelved { documents := [{ stored := [("lang", "la")] }, { stored := [("lang", "it")] }] } ⟨7⟩]

theorem shelves_load : ∀ s ∈ shelves, s.Loads shelved := by
  unfold shelves
  exact List.forall_mem_cons.mpr ⟨rfl, List.forall_mem_singleton.mpr rfl⟩

theorem pages_of_ordered_hits_shelves :
    ∃ answer, Browser.browse ⟨shelved, shelves, {}⟩ { sort := [{ facet := "tongue", reverse := true }] } = .ok answer ∧
      answer.docIds = [2, 1, 3, 0] ∧ ∃ all : List Hit, answer.hitCount = all.length ∧
        (all.map (·.docId)).Pairwise
          (RankedHit.Before (sortKey ⟨shelved, shelves, {}⟩) [{ facet := "tongue", reverse := true }]) ∧
        ∃ answers, (List.range 2).mapM (fun page => Browser.browse ⟨shelved, shelves, {}⟩
            { sort := [{ facet := "tongue", reverse := true }], offset := page * 2, count := 2 }) = .ok answers ∧
          answers.flatMap (·.hits) = all := by
  obtain ⟨answer, browsed, numbers⟩ : ∃ answer, Browser.browse ⟨shelved, shelves, {}⟩
      { sort := [{ facet := "tongue", reverse := true }] } = .ok answer ∧ answer.docIds = [2, 1, 3, 0] :=
    ⟨_, rfl, by cbv⟩
  obtain ⟨all, paged, _, _, ordered, _, pages⟩ := pages_of_ordered_hits _ _ answer shelves_load browsed
  obtain ⟨page, same, size, hits⟩ := paged 0 10
  obtain rfl : answer = page := Except.ok.inj (browsed.symm.trans same)
  have count : all.length ≤ 4 := by
    have shown := congrArg List.length (congrArg (List.map Hit.docId) hits)
    rw [← Answer.docIds, numbers] at shown
    simp at shown
    omega
  exact ⟨answer, browsed, numbers, all, size, ordered, pages 2 2 count⟩

end Browser

end FacetedSearch
