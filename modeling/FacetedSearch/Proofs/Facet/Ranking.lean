import FacetedSearch.Proofs.Facet.Finish

namespace FacetedSearch

theorem sort_strict {α : Type} {order : α → α → Ordering} [Std.TransCmp order] {xs : List α}
    (apart : xs.Pairwise fun a b => order a b ≠ .eq) :
    (xs.mergeSort fun a b => (order a b).isLE).Pairwise fun a b => order a b = .lt := by
  have total : ∀ a b, ((order a b).isLE || (order b a).isLE) = true := by
    intro a b
    cases low : (order a b).isLE with
    | true => rfl
    | false => exact Ordering.isLE_of_eq_lt (Std.OrientedCmp.lt_of_not_isLE (by simp [low]))
  have ordered : (xs.mergeSort fun a b => (order a b).isLE).Pairwise fun a b => (order a b).isLE = true := by
    apply List.pairwise_mergeSort
    · exact fun _ _ _ low high => Std.TransCmp.isLE_trans low high
    · exact total
  have sorted_apart := (List.mergeSort_perm xs fun a b => (order a b).isLE).symm.pairwise apart
    fun {a b} other tied => other (Std.OrientedCmp.eq_symm tied)
  refine (ordered.and sorted_apart).imp ?_
  intro a b ⟨low, other⟩
  exact (Ordering.isLE_iff_eq_lt_or_eq_eq.mp low).resolve_right other

namespace EntryOrder

variable {order : EntryOrder}

end EntryOrder

namespace CountOptions

def kept (o : CountOptions) (ranked : List Entry) : List Entry :=
  match o.maxPerKey with
  | none => ranked
  | some limit => (ranked.zipIdx.filter fun e =>
      (ranked.take e.2).countP (fun earlier => o.keyOf earlier.value = o.keyOf e.1.value) < limit).map (·.1)

variable (o : CountOptions) (limit : Nat)

end CountOptions

namespace CountSpec

variable {spec : CountSpec} {o : CountOptions} {counted : ValueCounts}

def sizes : ValueCounts where
  counts := .ofList [("cut=slim", (2 : UInt32)), ("new", 1), ("size=big", 2), ("size=tiny", 1), ("size=wide", 3), ("size=xl", 0)]
  total := 6

end CountSpec

end FacetedSearch
