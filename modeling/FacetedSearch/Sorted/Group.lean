import Std.Data.ExtTreeMap

namespace FacetedSearch

variable {κ α : Type} [Ord κ] [Std.TransOrd κ]

def groupByKey (items : List (κ × α)) : Std.ExtTreeMap κ (List α) :=
  items.foldr (fun (key, a) groups => groups.alter key fun found => some (a :: found.getD [])) ∅

theorem getD_groupByKey [Std.LawfulEqOrd κ] [DecidableEq κ] (items : List (κ × α)) (key : κ) :
    (groupByKey items).getD key [] = (items.filter (·.1 = key)).map (·.2) := by
  induction items with
  | nil => simp [groupByKey]
  | cons item rest ih =>
    obtain ⟨k, a⟩ := item
    have step : groupByKey ((k, a) :: rest) =
        (groupByKey rest).alter k fun found => some (a :: found.getD []) := rfl
    rw [step, Std.ExtTreeMap.getD_alter]
    by_cases same : k = key
    · subst same
      simp [← ih, Std.ExtTreeMap.getD_eq_getD_getElem?]
    · have other : compare k key ≠ .eq := fun equal => same (Std.LawfulEqCmp.eq_of_compare equal)
      simp [other, same, ih]

def tally (items : List κ) : Std.ExtTreeMap κ Nat :=
  items.foldr (fun key counts => counts.alter key fun found => some (found.getD 0 + 1)) ∅

end FacetedSearch
