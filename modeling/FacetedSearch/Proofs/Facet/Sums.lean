import FacetedSearch.Proofs.Facet.Counts

namespace FacetedSearch

namespace ValueCounts

variable {rows xs ys : List (List String)} {value : String}

theorem count_le_filled (single : ∀ row ∈ rows, row.Nodup) (value : String) : rows.flatten.count value ≤ filled rows := by
  rw [count_flatten single]
  exact carriers_le_filled rows value

theorem toNat_total_ofRows (rows : List (List String)) : (ofRows rows).total.toNat = filled rows % 2 ^ 32 :=
  UInt32.toNat_ofNat'

theorem toNat_hits_ofRows {hits : UInt32} (found : (ofRows rows).counts[value]? = some hits) :
    hits.toNat = rows.flatten.count value % 2 ^ 32 := by
  rw [getElem?_ofRows] at found
  split at found
  · cases found
  · exact Option.some.inj found ▸ UInt32.toNat_ofNat'

theorem toNat_get_ofRows (rows : List (List String)) (value : String) :
    ((ofRows rows).get value).toNat = rows.flatten.count value % 2 ^ 32 := by
  unfold get
  rw [Std.ExtTreeMap.getD_eq_getD_getElem?, getElem?_ofRows]
  split
  · rename_i none
    rw [none]
    rfl
  · exact UInt32.toNat_ofNat'

-- What is merged takes no sum past 32 bits.
structure Absorbs (a b : ValueCounts) : Prop where
  total : a.total.toNat + b.total.toNat < 2 ^ 32
  counts : ∀ value, (a.get value).toNat + (b.get value).toNat < 2 ^ 32

def AbsorbsAll : ValueCounts → List ValueCounts → Prop
  | _, [] => True
  | merged, c :: rest => merged.Absorbs c ∧ (merged.merge c).AbsorbsAll rest

theorem absorbs_ofRows (single : ∀ row ∈ xs, row.Nodup) (single' : ∀ row ∈ ys, row.Nodup) (left : filled xs < 2 ^ 32)
    (right : filled ys < 2 ^ 32) : (ofRows xs).Absorbs (ofRows ys) ↔ filled (xs ++ ys) < 2 ^ 32 := by
  have both : filled (xs ++ ys) = filled xs + filled ys := List.countP_append
  have totals : (ofRows xs).total.toNat + (ofRows ys).total.toNat = filled (xs ++ ys) := by
    rw [toNat_total_ofRows, toNat_total_ofRows, Nat.mod_eq_of_lt left, Nat.mod_eq_of_lt right, both]
  constructor
  · intro absorbs
    rw [← totals]
    exact absorbs.total
  · intro fits
    refine ⟨totals ▸ fits, fun value => ?_⟩
    have few := count_le_filled single value
    have few' := count_le_filled single' value
    rw [toNat_get_ofRows, toNat_get_ofRows, Nat.mod_eq_of_lt (by omega), Nat.mod_eq_of_lt (by omega)]
    omega

section Shares

variable (shares : List (List (List String)))

theorem foldl_merge_ofRows (before : List (List String)) :
    (shares.map ofRows).foldl merge (ofRows before) = ofRows (before ++ shares.flatten) := by
  induction shares generalizing before with
  | nil => rw [List.flatten_nil, List.append_nil]; rfl
  | cons rows rest ih => rw [List.map_cons, List.foldl_cons, merge_ofRows, ih, List.flatten_cons, List.append_assoc]

theorem absorbsAll_ofRows (before : List (List String)) (single : ∀ row ∈ before, row.Nodup)
    (singles : ∀ rows ∈ shares, ∀ row ∈ rows, row.Nodup) (few : filled before < 2 ^ 32)
    (each : ∀ rows ∈ shares, filled rows < 2 ^ 32) :
    (ofRows before).AbsorbsAll (shares.map ofRows) ↔ filled (before ++ shares.flatten) < 2 ^ 32 := by
  induction shares generalizing before with
  | nil =>
    rw [List.flatten_nil, List.append_nil]
    exact iff_of_true trivial few
  | cons rows rest ih =>
    obtain ⟨head, tail⟩ := List.forall_mem_cons.mp singles
    obtain ⟨first, others⟩ := List.forall_mem_cons.mp each
    have absorbs := absorbs_ofRows single head few first
    rw [List.map_cons, AbsorbsAll, merge_ofRows, List.flatten_cons, ← List.append_assoc, absorbs]
    constructor
    · intro ⟨fits, later⟩
      exact (ih _ (List.forall_mem_append.mpr ⟨single, head⟩) tail fits others).mp later
    · intro all
      have fits : filled (before ++ rows) < 2 ^ 32 := by
        unfold filled at all ⊢
        rw [List.countP_append] at all
        omega
      exact ⟨fits, (ih _ (List.forall_mem_append.mpr ⟨single, head⟩) tail fits others).mpr all⟩

end Shares

end ValueCounts

end FacetedSearch
