import FacetedSearch.Facet.Values
import FacetedSearch.Proofs.Facet.Loaded

namespace FacetedSearch

theorem getElem?_tally {κ : Type} [Ord κ] [Std.TransOrd κ] [Std.LawfulEqOrd κ] [DecidableEq κ] (items : List κ)
    (key : κ) : (tally items)[key]? = if items.count key = 0 then none else some (items.count key) := by
  induction items with
  | nil => simp [tally]
  | cons k rest ih =>
    have step : tally (k :: rest) = (tally rest).alter k fun found => some (found.getD 0 + 1) := rfl
    rw [step, Std.ExtTreeMap.getElem?_alter]
    by_cases same : k = key
    · subst same
      rw [if_pos Std.ReflCmp.compare_self, ih, List.count_cons_self]
      split <;> simp_all
    · have other : compare k key ≠ .eq := fun equal => same (Std.LawfulEqCmp.eq_of_compare equal)
      rw [if_neg other, ih, List.count_cons_of_ne same]

namespace ValueCounts

def ofRows (rows : List (List String)) : ValueCounts where
  counts := (tally rows.flatten).map fun _ hits => UInt32.ofNat hits
  total := UInt32.ofNat (rows.countP fun values => !values.isEmpty)

theorem collect_ofValues (rows : List (List String)) (docs : List Nat) :
    collect (.ofValues rows) docs = ofRows (docs.map (Column.ofValues rows).values) := by
  unfold collect ofRows
  rw [List.flatMap_def, List.countP_map]
  simp only [Column.isEmpty_ordinals, Function.comp_def]

theorem getElem?_addAll (entries : List (String × UInt32)) (distinct : (entries.map Prod.fst).Nodup)
    (counts : Std.ExtTreeMap String UInt32) (value : String) :
    (entries.foldl (fun counts e => counts.alter e.1 fun hits => some (hits.getD 0 + e.2)) counts)[value]? =
      counts[value]?.merge (· + ·) (entries.lookup value) := by
  induction entries generalizing counts with
  | nil =>
    rw [List.foldl_nil, List.lookup_nil]
    cases counts[value]? <;> rfl
  | cons e rest ih =>
    rw [List.map_cons, List.nodup_cons] at distinct
    rw [List.foldl_cons, ih distinct.2, Std.ExtTreeMap.getElem?_alter, List.lookup_cons]
    by_cases same : e.1 = value
    · subst same
      have absent : rest.lookup e.1 = none := List.lookup_eq_none_iff.mpr fun p member =>
        bne_iff_ne.mpr fun again => distinct.1 (again ▸ List.mem_map_of_mem member)
      rw [if_pos Std.ReflCmp.compare_self, absent, BEq.rfl]
      cases counts[e.1]? <;> simp [Option.merge]
    · have other : compare e.1 value ≠ .eq := fun equal => same (Std.LawfulEqCmp.eq_of_compare equal)
      rw [if_neg other, beq_eq_false_iff_ne.mpr (Ne.symm same)]

theorem getElem?_merge (a b : ValueCounts) (value : String) :
    (a.merge b).counts[value]? = a.counts[value]?.merge (· + ·) b.counts[value]? := by
  unfold merge
  rw [Std.ExtTreeMap.foldl_eq_foldl_toList, getElem?_addAll _ (keys_distinct b.counts), lookup_toList]

theorem merge_assoc (a b c : ValueCounts) : (a.merge b).merge c = a.merge (b.merge c) := by
  have counts : ((a.merge b).merge c).counts = (a.merge (b.merge c)).counts := by
    apply Std.ExtTreeMap.ext_getElem?
    intro value
    simp only [getElem?_merge]
    cases a.counts[value]? <;> cases b.counts[value]? <;> cases c.counts[value]? <;>
      simp [Option.merge, UInt32.add_assoc]
  exact congrArg₂ mk counts (UInt32.add_assoc _ _ _)

theorem zipWith_merge_assoc (as bs cs : List ValueCounts) :
    (as.zipWith merge bs).zipWith merge cs = as.zipWith merge (bs.zipWith merge cs) := by
  induction as generalizing bs cs with
  | nil => simp
  | cons a as ih => cases bs <;> cases cs <;> simp [merge_assoc, ih]

theorem getElem?_ofRows (rows : List (List String)) (value : String) : (ofRows rows).counts[value]? =
    if rows.flatten.count value = 0 then none else some (UInt32.ofNat (rows.flatten.count value)) := by
  unfold ofRows
  rw [Std.ExtTreeMap.getElem?_map, getElem?_tally]
  split <;> rfl

theorem merge_ofRows (xs ys : List (List String)) : (ofRows xs).merge (ofRows ys) = ofRows (xs ++ ys) := by
  have counts : ((ofRows xs).merge (ofRows ys)).counts = (ofRows (xs ++ ys)).counts := by
    apply Std.ExtTreeMap.ext_getElem?
    intro value
    rw [getElem?_merge, getElem?_ofRows, getElem?_ofRows, getElem?_ofRows, List.flatten_append, List.count_append]
    by_cases left : xs.flatten.count value = 0
    · by_cases right : ys.flatten.count value = 0
      · simp [left, right]
      · simp [left, right]
    · by_cases right : ys.flatten.count value = 0
      · simp [left, right]
      · simp [left, right, Option.merge]
  have total : ((ofRows xs).merge (ofRows ys)).total = (ofRows (xs ++ ys)).total := by
    unfold merge ofRows
    rw [List.countP_append, UInt32.ofNat_add]
  exact congrArg₂ mk counts total

theorem count_flatten {rows : List (List String)} (single : ∀ row ∈ rows, row.Nodup) (value : String) :
    rows.flatten.count value = rows.countP fun row => value ∈ row := by
  induction rows with
  | nil => rfl
  | cons row rest ih =>
    obtain ⟨head, tail⟩ := List.forall_mem_cons.mp single
    rw [List.flatten_cons, List.count_append, List.countP_cons, ih tail, Nat.add_comm]
    by_cases member : value ∈ row
    · simp [member, List.count_eq_one_of_mem head member]
    · simp [member, List.count_eq_zero_of_not_mem member]

def filled (rows : List (List String)) : Nat := rows.countP fun row => !row.isEmpty

theorem filled_le_length (rows : List (List String)) : filled rows ≤ rows.length := List.countP_le_length

theorem carriers_le_filled (rows : List (List String)) (value : String) :
    (rows.countP fun row => value ∈ row) ≤ filled rows := by
  apply List.countP_mono_left
  intro row _ member
  rw [Bool.not_eq_true', List.isEmpty_eq_false_iff]
  exact List.ne_nil_of_mem (of_decide_eq_true member)

theorem counts_ofRows {rows : List (List String)} (single : ∀ row ∈ rows, row.Nodup) (fits : filled rows < 2 ^ 32)
    {value : String} {hits : UInt32} : (ofRows rows).counts[value]? = some hits ↔
      hits.toNat = (rows.countP fun row => value ∈ row) ∧ 0 < hits.toNat := by
  have bound := Nat.lt_of_le_of_lt (carriers_le_filled rows value) fits
  rw [getElem?_ofRows, count_flatten single]
  split
  · rename_i none
    rw [none]
    refine iff_of_false nofun ?_
    omega
  · rename_i some
    rw [Option.some.injEq, ← UInt32.toNat_inj, UInt32.toNat_ofNat_of_lt' bound]
    omega

theorem total_ofRows {rows : List (List String)} (fits : filled rows < 2 ^ 32) :
    (ofRows rows).total.toNat = filled rows :=
  UInt32.toNat_ofNat_of_lt' fits

end ValueCounts

namespace Facet

variable {r : Registry} {s : Source} {f : Facet}

-- Counting is refused for what a facet is, never for what a segment holds.
def countable : Facet → Except Error Unit
  | combo name _ _ => .error (.unsupported "facet counting" name)
  | _ => .ok ()

def sortable : Facet → Except Error Unit
  | combo name _ _ => .error (.unsupported "sorting" name)
  | _ => .ok ()

theorem count_ofSource (member : f ∈ r.facets) (docs : List Nat) : f.count (.ofSource r s) docs =
    f.countable.map fun _ => .ofRows (docs.map ((LoadedFacets.ofSource r s).valuesAt f.name)) := by
  have found := LoadedFacets.column?_ofSource (s := s) member
  unfold count LoadedFacets.valuesAt
  rw [found]
  cases f with
  | combo => rfl
  | simple f => exact congrArg Except.ok (ValueCounts.collect_ofValues _ docs)
  | keyed f => exact congrArg Except.ok (ValueCounts.collect_ofValues _ docs)

theorem sortColumn_ofSource (f : Facet) (l : LoadedFacets) :
    f.sortColumn l = f.sortable.map fun _ => l.column? f.name := by
  cases f <;> rfl

end Facet

theorem SortValue.of_ofSource {r : Registry} {s : Source} (facet : String) (docno : Nat) :
    of ((LoadedFacets.ofSource r s).column? facet) docno = ((LoadedFacets.ofSource r s).valuesAt facet docno).head? := by
  unfold of LoadedFacets.valuesAt
  cases found : (LoadedFacets.ofSource r s).column? facet with
  | none => rfl
  | some c =>
    obtain ⟨f, rfl⟩ := LoadedFacets.column?_built found
    exact Column.head?_values

end FacetedSearch
