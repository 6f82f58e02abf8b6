import Mathlib
import Std.Data.ExtTreeMap

namespace FacetedSearch

variable {α : Type} {entries : List (String × α)} {known : Std.ExtTreeMap String α} {key : String} {a : α}

theorem lookup_of_mem (distinct : (entries.map Prod.fst).Nodup) (member : (key, a) ∈ entries) :
    entries.lookup key = some a := by
  induction entries with
  | nil => cases member
  | cons entry rest ih =>
    rw [List.map_cons, List.nodup_cons] at distinct
    rw [List.lookup_cons]
    rcases List.mem_cons.mp member with rfl | member
    · rw [BEq.rfl]
    · have other : key ≠ entry.1 := fun same => distinct.1 (same ▸ List.mem_map_of_mem member)
      rw [beq_eq_false_iff_ne.mpr other]
      exact ih distinct.2 member

theorem keys_distinct (known : Std.ExtTreeMap String α) : (known.toList.map Prod.fst).Nodup := by
  rw [Std.ExtTreeMap.map_fst_toList_eq_keys]
  exact Std.ExtTreeMap.nodup_keys

theorem lookup_toList (known : Std.ExtTreeMap String α) (key : String) : known.toList.lookup key = known[key]? := by
  cases found : known[key]? with
  | none =>
    refine List.lookup_eq_none_iff.mpr fun p member => bne_iff_ne.mpr ?_
    rintro rfl
    rw [Std.ExtTreeMap.mem_toList_iff_getElem?_eq_some.mp member] at found
    cases found
  | some a => exact lookup_of_mem (keys_distinct known) (Std.ExtTreeMap.mem_toList_iff_getElem?_eq_some.mpr found)

theorem getElem?_ofList (distinct : (entries.map Prod.fst).Nodup) :
    (Std.ExtTreeMap.ofList entries)[key]? = some a ↔ (key, a) ∈ entries := by
  have apart : entries.Pairwise fun e e' => ¬ compare e.1 e'.1 = .eq :=
    (List.pairwise_map.mp distinct).imp fun other same => other (Std.LawfulEqCmp.eq_of_compare same)
  constructor
  · intro found
    have known : key ∈ Std.ExtTreeMap.ofList entries := Std.ExtTreeMap.mem_iff_isSome_getElem?.mpr (by rw [found]; rfl)
    obtain ⟨⟨_, a'⟩, member, rfl⟩ := List.mem_map.mp (List.contains_iff_mem.mp (Std.ExtTreeMap.mem_ofList.mp known))
    rw [Std.ExtTreeMap.getElem?_ofList_of_mem Std.ReflCmp.compare_self apart member] at found
    exact Option.some.inj found ▸ member
  · exact Std.ExtTreeMap.getElem?_ofList_of_mem Std.ReflCmp.compare_self apart

theorem ofList_toList (known : Std.ExtTreeMap String α) : Std.ExtTreeMap.ofList known.toList = known := by
  apply Std.ExtTreeMap.ext_getElem?
  intro key
  apply Option.ext
  intro a
  rw [getElem?_ofList (keys_distinct known)]
  exact Std.ExtTreeMap.mem_toList_iff_getElem?_eq_some

theorem getElem?_insertAllIfNew (names : List String) (a : α) (known : Std.ExtTreeMap String α) (name : String) :
    (names.foldl (fun known name => known.insertIfNew name a) known)[name]? =
      known[name]?.or (if name ∈ names then some a else none) := by
  induction names generalizing known with
  | nil => simp
  | cons first rest ih =>
    rw [List.foldl_cons, ih, Std.ExtTreeMap.getElem?_insertIfNew]
    rcases eq_or_ne first name with rfl | other
    · cases found : known[first]? <;> simp [found, Std.ExtTreeMap.mem_iff_isSome_getElem?]
    · simp [other, other.symm]

end FacetedSearch
