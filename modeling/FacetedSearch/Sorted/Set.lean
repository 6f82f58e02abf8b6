import Std.Data.ExtTreeSet

namespace FacetedSearch

-- Every finite set of this library (documents, value ordinals, dictionary
-- strings) is its strictly ascending list, so two sets with the same members
-- are equal. No hashing is involved and no order is left open.
structure SortedSet (α : Type) [Ord α] where
  toList : List α
  ascending : toList.Pairwise (fun a b => compare a b = .lt) := by exact .nil
deriving DecidableEq

namespace SortedSet

-- The walks over two lists use the order: what lies below the next element of
-- the left list is passed over in the right one and never revisited. What they
-- have found waits in reverse, so that a walk needs no stack.
def interInto [Ord α] (done : List α) : List α → List α → List α
  | [], _ => done.reverse
  | x :: xs, ys =>
    match ys.dropWhile (fun y => (compare y x).isLT) with
    | [] => done.reverse
    | y :: rest =>
      if compare x y = .eq then interInto (x :: done) xs rest else interInto done xs (y :: rest)

def unionInto [Ord α] (done : List α) : List α → List α → List α
  | [], ys => done.reverseAux ys
  | x :: xs, ys =>
    let lower := x :: (ys.takeWhile (fun y => (compare y x).isLT)).reverseAux done
    match ys.dropWhile (fun y => (compare y x).isLT) with
    | [] => lower.reverseAux xs
    | y :: rest => unionInto lower xs (if compare x y = .eq then rest else y :: rest)

def diffInto [Ord α] (done : List α) : List α → List α → List α
  | [], _ => done.reverse
  | x :: xs, ys =>
    match ys.dropWhile (fun y => (compare y x).isLT) with
    | [] => done.reverseAux (x :: xs)
    | y :: rest =>
      if compare x y = .eq then diffInto done xs rest else diffInto (x :: done) xs (y :: rest)

def interList [Ord α] (xs ys : List α) : List α := interInto [] xs ys

def unionList [Ord α] (xs ys : List α) : List α := unionInto [] xs ys

def diffList [Ord α] (xs ys : List α) : List α := diffInto [] xs ys

variable {α : Type} [Ord α]

theorem interInto_eq (done xs ys : List α) : interInto done xs ys = done.reverse ++ interList xs ys := by
  unfold interList
  induction xs generalizing done ys with
  | nil => simp [interInto]
  | cons x xs ih =>
    rw [interInto, interInto]
    cases ys.dropWhile (fun y => (compare y x).isLT) with
    | nil => simp
    | cons y rest =>
      simp only
      split
      · rw [ih (x :: done), ih [x]]
        simp
      · exact ih done (y :: rest)

theorem unionInto_eq (done xs ys : List α) : unionInto done xs ys = done.reverse ++ unionList xs ys := by
  unfold unionList
  induction xs generalizing done ys with
  | nil => simp [unionInto, List.reverseAux_eq]
  | cons x xs ih =>
    rw [unionInto, unionInto]
    cases ys.dropWhile (fun y => (compare y x).isLT) with
    | nil => simp [List.reverseAux_eq]
    | cons y rest =>
      simp only
      rw [ih, ih (x :: List.reverseAux _ [])]
      simp [List.reverseAux_eq]

theorem diffInto_eq (done xs ys : List α) : diffInto done xs ys = done.reverse ++ diffList xs ys := by
  unfold diffList
  induction xs generalizing done ys with
  | nil => simp [diffInto]
  | cons x xs ih =>
    rw [diffInto, diffInto]
    cases ys.dropWhile (fun y => (compare y x).isLT) with
    | nil => simp [List.reverseAux_eq]
    | cons y rest =>
      simp only
      split
      · exact ih done rest
      · rw [ih (x :: done), ih [x]]
        simp

theorem interList_cons (x : α) (xs ys : List α) : interList (x :: xs) ys =
    match ys.dropWhile (fun y => (compare y x).isLT) with
    | [] => []
    | y :: rest => if compare x y = .eq then x :: interList xs rest else interList xs (y :: rest) := by
  rw [interList, interInto]
  cases ys.dropWhile (fun y => (compare y x).isLT) with
  | nil => rfl
  | cons y rest => simp [interInto_eq]

theorem unionList_cons (x : α) (xs ys : List α) : unionList (x :: xs) ys =
    ys.takeWhile (fun y => (compare y x).isLT) ++ x ::
      match ys.dropWhile (fun y => (compare y x).isLT) with
      | [] => xs
      | y :: rest => unionList xs (if compare x y = .eq then rest else y :: rest) := by
  rw [unionList, unionInto]
  cases ys.dropWhile (fun y => (compare y x).isLT) with
  | nil => simp [List.reverseAux_eq]
  | cons y rest => simp [unionInto_eq, List.reverseAux_eq]

theorem diffList_cons (x : α) (xs ys : List α) : diffList (x :: xs) ys =
    match ys.dropWhile (fun y => (compare y x).isLT) with
    | [] => x :: xs
    | y :: rest => if compare x y = .eq then diffList xs rest else x :: diffList xs (y :: rest) := by
  rw [diffList, diffInto]
  cases ys.dropWhile (fun y => (compare y x).isLT) with
  | nil => rfl
  | cons y rest => simp [diffInto_eq]

theorem interList_sublist (xs ys : List α) : (interList xs ys).Sublist xs := by
  induction xs generalizing ys with
  | nil => exact .refl _
  | cons x xs ih =>
    rw [interList_cons]
    split
    · exact List.nil_sublist _
    · split
      · exact (ih _).cons_cons x
      · exact (ih _).cons x

theorem mem_unionList [Std.LawfulEqOrd α] {a : α} {xs ys : List α} :
    a ∈ unionList xs ys ↔ a ∈ xs ∨ a ∈ ys := by
  induction xs generalizing ys with
  | nil => simp [unionList, unionInto]
  | cons x xs ih =>
    have parts : a ∈ ys ↔ a ∈ ys.takeWhile (fun y => (compare y x).isLT) ∨
        a ∈ ys.dropWhile (fun y => (compare y x).isLT) := by
      rw [← List.mem_append, List.takeWhile_append_dropWhile]
    rw [unionList_cons]
    rw [parts]
    cases below : ys.dropWhile (fun y => (compare y x).isLT) with
    | nil => simp only [List.mem_append, List.mem_cons, List.not_mem_nil]; grind only
    | cons y rest =>
      cases order : compare x y with
      | eq =>
        have same : x = y := Std.LawfulEqCmp.eq_of_compare order
        simp only [List.mem_append, List.mem_cons, ih, same]; grind only
      | lt => simp only [order, reduceCtorEq, if_false, List.mem_append, List.mem_cons, ih]; grind only
      | gt => simp only [order, reduceCtorEq, if_false, List.mem_append, List.mem_cons, ih]; grind only

theorem not_below_of_dropWhile [Std.TransOrd α] {x a : α} {ys : List α}
    (sorted : ys.Pairwise (fun a b => compare a b = .lt))
    (member : a ∈ ys.dropWhile (fun y => (compare y x).isLT)) : compare a x ≠ .lt := by
  induction ys with
  | nil => simp at member
  | cons y ys ih =>
    obtain ⟨head, tail⟩ := List.pairwise_cons.mp sorted
    rw [List.dropWhile_cons] at member
    split at member
    · exact ih tail member
    · rename_i high
      intro low
      rcases List.mem_cons.mp member with rfl | member
      · simp [low] at high
      · exact high (by simp [Std.TransCmp.lt_trans (head a member) low])

theorem mem_dropWhile_below [Std.TransOrd α] {x a : α} {ys : List α}
    (sorted : ys.Pairwise (fun a b => compare a b = .lt)) :
    a ∈ ys.dropWhile (fun y => (compare y x).isLT) ↔ a ∈ ys ∧ compare a x ≠ .lt := by
  constructor
  · exact fun member => ⟨(List.dropWhile_sublist _).subset member, not_below_of_dropWhile sorted member⟩
  · rintro ⟨member, high⟩
    rw [← List.takeWhile_append_dropWhile (p := fun y => (compare y x).isLT) (l := ys)] at member
    rcases List.mem_append.mp member with low | member
    · exact absurd (by simpa using List.all_eq_true.mp List.all_takeWhile a low) high
    · exact member

theorem not_below_self [Std.TransOrd α] (x : α) : compare x x ≠ .lt := by
  simp

theorem not_below_cons [Std.TransOrd α] {x a : α} {xs : List α}
    (sorted : (x :: xs).Pairwise (fun a b => compare a b = .lt)) (member : a ∈ x :: xs) : compare a x ≠ .lt := by
  rcases List.mem_cons.mp member with rfl | member
  · exact not_below_self a
  · exact Std.OrientedCmp.not_lt_of_lt (List.rel_of_pairwise_cons sorted member)

theorem not_mem_tail [Std.TransOrd α] {x : α} {xs : List α}
    (sorted : (x :: xs).Pairwise (fun a b => compare a b = .lt)) : x ∉ xs :=
  fun member => not_below_self x (List.rel_of_pairwise_cons sorted member)

theorem not_mem_of_dropWhile [Std.TransOrd α] {x y : α} {ys rest : List α}
    (sorted : ys.Pairwise (fun a b => compare a b = .lt))
    (below : ys.dropWhile (fun y => (compare y x).isLT) = y :: rest) (other : compare x y ≠ .eq) : x ∉ ys := by
  intro inside
  have found : x ∈ y :: rest := below ▸ (mem_dropWhile_below sorted).mpr ⟨inside, not_below_self x⟩
  rcases List.mem_cons.mp found with rfl | found
  · exact other Std.ReflCmp.compare_self
  · have restSorted := sorted.sublist (List.dropWhile_sublist (fun y => (compare y x).isLT))
    rw [below] at restSorted
    exact not_below_of_dropWhile sorted (below ▸ List.mem_cons_self) (List.rel_of_pairwise_cons restSorted found)

theorem mem_interList [Std.TransOrd α] [Std.LawfulEqOrd α] {a : α} {xs ys : List α}
    (left : xs.Pairwise (fun a b => compare a b = .lt))
    (right : ys.Pairwise (fun a b => compare a b = .lt)) :
    a ∈ interList xs ys ↔ a ∈ xs ∧ a ∈ ys := by
  induction xs generalizing ys with
  | nil => simp [interList, interInto]
  | cons x xs ih =>
    have passed : a ∈ x :: xs → (a ∈ ys ↔ a ∈ ys.dropWhile (fun y => (compare y x).isLT)) :=
      fun member => by simp [mem_dropWhile_below right, not_below_cons left member]
    have tail := (List.pairwise_cons.mp left).2
    have rest := right.sublist (List.dropWhile_sublist (fun y => (compare y x).isLT))
    rw [interList_cons]
    cases below : ys.dropWhile (fun y => (compare y x).isLT) with
    | nil => simpa [below] using passed
    | cons y more =>
      rw [below] at passed rest
      simp only
      split
      · rename_i equal
        obtain rfl := Std.LawfulEqCmp.eq_of_compare equal
        have fresh : a ∈ xs → a ≠ x := fun member same => not_mem_tail left (same ▸ member)
        have last := not_mem_tail rest
        rw [List.mem_cons, ih tail (List.pairwise_cons.mp rest).2]
        grind only [= List.mem_cons]
      · rename_i unequal
        have absent := not_mem_of_dropWhile right below unequal
        rw [ih tail rest]
        grind only [= List.mem_cons]

theorem mem_diffList [Std.TransOrd α] [Std.LawfulEqOrd α] {a : α} {xs ys : List α}
    (left : xs.Pairwise (fun a b => compare a b = .lt))
    (right : ys.Pairwise (fun a b => compare a b = .lt)) :
    a ∈ diffList xs ys ↔ a ∈ xs ∧ a ∉ ys := by
  induction xs generalizing ys with
  | nil => simp [diffList, diffInto]
  | cons x xs ih =>
    have passed : a ∈ x :: xs → (a ∈ ys ↔ a ∈ ys.dropWhile (fun y => (compare y x).isLT)) :=
      fun member => by simp [mem_dropWhile_below right, not_below_cons left member]
    have tail := (List.pairwise_cons.mp left).2
    have rest := right.sublist (List.dropWhile_sublist (fun y => (compare y x).isLT))
    rw [diffList_cons]
    cases below : ys.dropWhile (fun y => (compare y x).isLT) with
    | nil => simpa [below] using passed
    | cons y more =>
      rw [below] at passed rest
      simp only
      split
      · rename_i equal
        obtain rfl := Std.LawfulEqCmp.eq_of_compare equal
        have fresh : a ∈ xs → a ≠ x := fun member same => not_mem_tail left (same ▸ member)
        rw [ih tail (List.pairwise_cons.mp rest).2]
        grind only [= List.mem_cons]
      · rename_i unequal
        have absent := not_mem_of_dropWhile right below unequal
        rw [List.mem_cons, ih tail rest]
        grind only [= List.mem_cons]

theorem unionList_ascending [Std.TransOrd α] [Std.LawfulEqOrd α] {xs ys : List α}
    (left : xs.Pairwise (fun a b => compare a b = .lt))
    (right : ys.Pairwise (fun a b => compare a b = .lt)) :
    (unionList xs ys).Pairwise (fun a b => compare a b = .lt) := by
  induction xs generalizing ys with
  | nil => simpa [unionList, unionInto] using right
  | cons x xs ih =>
    obtain ⟨head, tail⟩ := List.pairwise_cons.mp left
    have low : ∀ a ∈ ys.takeWhile (fun y => (compare y x).isLT), compare a x = .lt :=
      fun a member => by simpa using List.all_eq_true.mp List.all_takeWhile a member
    have high : ∀ a ∈ ys.dropWhile (fun y => (compare y x).isLT), a ≠ x → compare x a = .lt := by
      intro a member other
      cases order : compare x a with
      | lt => rfl
      | eq => exact absurd (Std.LawfulEqCmp.eq_of_compare order).symm other
      | gt => exact absurd (Std.OrientedCmp.gt_iff_lt.mp order) (not_below_of_dropWhile right member)
    have rest := right.sublist (List.dropWhile_sublist (fun y => (compare y x).isLT))
    suffices upper : ∀ zs : List α, zs.Pairwise (fun a b => compare a b = .lt) →
        (∀ a ∈ zs, compare x a = .lt) → (ys.takeWhile (fun y => (compare y x).isLT) ++ x :: zs).Pairwise
          (fun a b => compare a b = .lt) by
      rw [unionList_cons]
      cases below : ys.dropWhile (fun y => (compare y x).isLT) with
      | nil => exact upper xs tail head
      | cons y tailAbove =>
        rw [below] at high rest
        obtain ⟨above, restTail⟩ := List.pairwise_cons.mp rest
        simp only
        split
        · rename_i equal
          have same : x = y := Std.LawfulEqCmp.eq_of_compare equal
          refine upper _ (ih tail restTail) fun a member => ?_
          rcases mem_unionList.mp member with member | member
          · exact head a member
          · exact same ▸ above a member
        · rename_i unequal
          refine upper _ (ih tail rest) fun a member => ?_
          rcases mem_unionList.mp member with member | member
          · exact head a member
          · refine high a member fun equal => unequal ?_
            subst equal
            rcases List.mem_cons.mp member with rfl | inside
            · simp
            · exact absurd (above a inside) fun low => not_below_of_dropWhile right
                (below ▸ List.mem_cons_self) low
    intro zs sorted beyond
    refine List.pairwise_append.mpr ⟨right.sublist (List.takeWhile_sublist _),
      List.pairwise_cons.mpr ⟨beyond, sorted⟩, fun a lowMember b member => ?_⟩
    rcases List.mem_cons.mp member with rfl | member
    · exact low a lowMember
    · exact Std.TransCmp.lt_trans (low a lowMember) (beyond b member)

theorem diffList_sublist (xs ys : List α) : (diffList xs ys).Sublist xs := by
  induction xs generalizing ys with
  | nil => exact .refl _
  | cons x xs ih =>
    rw [diffList_cons]
    split
    · exact .refl _
    · split
      · exact (ih _).cons x
      · exact (ih _).cons_cons x

instance : EmptyCollection (SortedSet α) := ⟨{ toList := [] }⟩

instance : Inhabited (SortedSet α) := ⟨∅⟩

instance : Membership α (SortedSet α) := ⟨fun s a => a ∈ s.toList⟩

instance [DecidableEq α] (a : α) (s : SortedSet α) : Decidable (a ∈ s) :=
  inferInstanceAs (Decidable (a ∈ s.toList))

def isEmpty (s : SortedSet α) : Bool := s.toList.isEmpty

def size (s : SortedSet α) : Nat := s.toList.length

def filter (p : α → Bool) (s : SortedSet α) : SortedSet α :=
  ⟨s.toList.filter p, s.ascending.sublist List.filter_sublist⟩

def inter (s t : SortedSet α) : SortedSet α :=
  ⟨interList s.toList t.toList, s.ascending.sublist (interList_sublist _ _)⟩

def diff (s t : SortedSet α) : SortedSet α :=
  ⟨diffList s.toList t.toList, s.ascending.sublist (diffList_sublist _ _)⟩

theorem not_mem_empty (a : α) : a ∉ (∅ : SortedSet α) := List.not_mem_nil

theorem mem_filter {p : α → Bool} {a : α} {s : SortedSet α} : a ∈ s.filter p ↔ a ∈ s ∧ p a = true :=
  List.mem_filter

theorem eq_of_mem_iff [Std.TransOrd α] {s t : SortedSet α} (same : ∀ a, a ∈ s ↔ a ∈ t) : s = t := by
  have nodup : ∀ u : SortedSet α, u.toList.Nodup := fun u => by
    refine List.Pairwise.imp ?_ u.ascending
    rintro a _ less rfl
    exact not_below_self a less
  have either : ∀ a b : α, compare a b = .lt → compare b a = .lt → a = b :=
    fun _ _ less more => absurd more (Std.OrientedCmp.not_lt_of_lt less)
  have lists : s.toList = t.toList :=
    ((List.perm_ext_iff_of_nodup (nodup s) (nodup t)).mpr same).eq_of_pairwise
      (fun a b _ _ => either a b) s.ascending t.ascending
  cases s; cases t; cases lists; rfl

section Lawful

variable [Std.TransOrd α] [Std.LawfulEqOrd α]

def ofList (xs : List α) : SortedSet α :=
  ⟨(Std.ExtTreeSet.ofList xs).toList, Std.ExtTreeSet.ordered_toList⟩

def union (s t : SortedSet α) : SortedSet α :=
  ⟨unionList s.toList t.toList, unionList_ascending s.ascending t.ascending⟩

def ofKeys {β : Type} (m : Std.ExtTreeMap α β) : SortedSet α := ⟨m.keys, m.ordered_keys⟩

theorem mem_ofKeys {β : Type} {a : α} {m : Std.ExtTreeMap α β} : a ∈ ofKeys m ↔ a ∈ m :=
  Std.ExtTreeMap.mem_keys

theorem mem_ofList [DecidableEq α] {a : α} {xs : List α} : a ∈ ofList xs ↔ a ∈ xs := by
  refine (Std.ExtTreeSet.mem_toList (t := Std.ExtTreeSet.ofList xs)).trans ?_
  rw [Std.ExtTreeSet.mem_ofList, List.contains_iff_mem]

theorem mem_union {a : α} {s t : SortedSet α} : a ∈ s.union t ↔ a ∈ s ∨ a ∈ t := mem_unionList

theorem mem_inter {a : α} {s t : SortedSet α} : a ∈ s.inter t ↔ a ∈ s ∧ a ∈ t :=
  mem_interList s.ascending t.ascending

theorem mem_diff {a : α} {s t : SortedSet α} : a ∈ s.diff t ↔ a ∈ s ∧ a ∉ t :=
  mem_diffList s.ascending t.ascending

end Lawful

end SortedSet

end FacetedSearch
