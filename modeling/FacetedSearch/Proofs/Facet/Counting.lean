import FacetedSearch.Proofs.Facet.Sums

namespace FacetedSearch

namespace ValueCounts

section Laws

variable {a b : ValueCounts} {value : String}

theorem merge_comm (a b : ValueCounts) : a.merge b = b.merge a := by
  have counts : (a.merge b).counts = (b.merge a).counts := by
    apply Std.ExtTreeMap.ext_getElem?
    intro value
    rw [getElem?_merge, getElem?_merge]
    cases a.counts[value]? <;> cases b.counts[value]? <;> simp [Option.merge, UInt32.add_comm]
  exact congrArg₂ mk counts (UInt32.add_comm _ _)

theorem empty_merge (a : ValueCounts) : (∅ : ValueCounts).merge a = a := by
  have counts : ((∅ : ValueCounts).merge a).counts = a.counts := by
    apply Std.ExtTreeMap.ext_getElem?
    intro value
    rw [getElem?_merge, show (∅ : ValueCounts).counts[value]? = none from Std.ExtTreeMap.getElem?_empty]
    cases a.counts[value]? <;> rfl
  exact congrArg₂ mk counts (UInt32.zero_add _)

theorem merge_empty (a : ValueCounts) : a.merge ∅ = a := (merge_comm a ∅).trans (empty_merge a)

instance : Std.Associative merge := ⟨merge_assoc⟩

instance : Std.Commutative merge := ⟨merge_comm⟩

end Laws

inductive Merges : List ValueCounts → ValueCounts → Prop where
  | none : Merges [] ∅
  | one (a : ValueCounts) : Merges [a] a
  | both {xs ys : List ValueCounts} {a b : ValueCounts} : Merges xs a → Merges ys b → Merges (xs ++ ys) (a.merge b)

namespace Merges

variable {xs ys : List ValueCounts} {a b : ValueCounts}

theorem eq_foldl (merges : Merges xs a) : a = xs.foldl merge ∅ := by
  induction merges with
  | none => rfl
  | one a => exact (empty_merge a).symm
  | @both xs ys a b _ _ left right =>
    have grouped : ys.foldl merge (a.merge ∅) = a.merge (ys.foldl merge ∅) := List.foldl_assoc
    rw [List.foldl_append, ← left, right, ← grouped, merge_empty]

theorem unique (merges : Merges xs a) (merges' : Merges ys b) (same : xs.Perm ys) : a = b := by
  rw [merges.eq_foldl, merges'.eq_foldl]
  exact same.foldl_op_eq

end Merges

section Documents

variable {rows : List (List String)} {docs xs ys : List Nat} {value : String}

-- Fewer documents than a word can tell give any value, one that is listed again once
-- more: no sum made in counting them takes more than 32 bits.
def Fits (rows : List (List String)) (docs : List Nat) : Prop := filled (docs.map (Column.rowOf rows)) < 2 ^ 32

instance : Decidable (Fits rows docs) := inferInstanceAs (Decidable (_ < _))

theorem nodup_values (docs : List Nat) : ∀ row ∈ docs.map (Column.ofValues rows).values, row.Nodup := by
  intro row listed
  obtain ⟨docno, _, rfl⟩ := List.mem_map.mp listed
  exact Column.values_ascending.imp fun less same => by simp [same] at less

theorem filled_values (docs : List Nat) :
    filled (docs.map (Column.ofValues rows).values) = filled (docs.map (Column.rowOf rows)) := by
  unfold filled
  rw [List.countP_map, List.countP_map]
  apply List.countP_congr
  intro docno _
  simp only [Function.comp_apply, Bool.not_eq_true', List.isEmpty_eq_false_iff, ne_eq, List.eq_nil_iff_forall_not_mem,
    Column.mem_values]

theorem carriers_values (docs : List Nat) (value : String) :
    ((docs.map (Column.ofValues rows).values).countP fun row => value ∈ row) =
      docs.countP fun docno => value ∈ Column.rowOf rows docno := by
  rw [List.countP_map]
  apply List.countP_congr
  intro docno _
  simp only [Function.comp_apply, decide_eq_true_eq, Column.mem_values]

theorem Fits.append (fits : Fits rows (xs ++ ys)) : Fits rows xs ∧ Fits rows ys := by
  unfold Fits filled at fits ⊢
  rw [List.map_append, List.countP_append] at fits
  omega

theorem Fits.perm (fits : Fits rows xs) (same : xs.Perm ys) : Fits rows ys := by
  unfold Fits filled at fits ⊢
  rwa [← (same.map _).countP_eq]

theorem total_collect (fits : Fits rows docs) :
    (collect (.ofValues rows) docs).total.toNat = filled (docs.map (Column.rowOf rows)) := by
  rw [collect_ofValues, total_ofRows ((filled_values docs).trans_lt fits), filled_values]

theorem counts_collect (fits : Fits rows docs) {hits : UInt32} :
    (collect (.ofValues rows) docs).counts[value]? = some hits ↔
      hits.toNat = (docs.countP fun docno => value ∈ Column.rowOf rows docno) ∧ 0 < hits.toNat := by
  rw [collect_ofValues, counts_ofRows (nodup_values docs) ((filled_values docs).trans_lt fits), carriers_values]

theorem ofRows_perm {xs ys : List (List String)} (same : xs.Perm ys) : ofRows xs = ofRows ys := by
  have counts : (ofRows xs).counts = (ofRows ys).counts := by
    apply Std.ExtTreeMap.ext_getElem?
    intro value
    rw [getElem?_ofRows, getElem?_ofRows, same.flatten.count_eq]
  exact congrArg₂ mk counts (congrArg UInt32.ofNat (same.countP_eq _))

theorem collect_perm (same : xs.Perm ys) : collect (.ofValues rows) xs = collect (.ofValues rows) ys := by
  rw [collect_ofValues, collect_ofValues]
  exact ofRows_perm (same.map _)

theorem collect_append (xs ys : List Nat) : collect (.ofValues rows) (xs ++ ys) =
    (collect (.ofValues rows) xs).merge (collect (.ofValues rows) ys) := by
  rw [collect_ofValues, collect_ofValues, collect_ofValues, merge_ofRows, List.map_append]

theorem absorbs_collect (fits : Fits rows (xs ++ ys)) :
    (collect (.ofValues rows) xs).Absorbs (collect (.ofValues rows) ys) := by
  obtain ⟨left, right⟩ := fits.append
  rw [collect_ofValues, collect_ofValues, absorbs_ofRows (nodup_values xs) (nodup_values ys)
    ((filled_values xs).trans_lt left) ((filled_values ys).trans_lt right), ← List.map_append]
  exact (filled_values _).trans_lt fits

end Documents

theorem add_ne_zero {x y : UInt32} (fits : x.toNat + y.toNat < 2 ^ 32) (counted : x ≠ 0) : x + y ≠ 0 := by
  intro zero
  have sum : (x + y).toNat = x.toNat + y.toNat := (UInt32.toNat_add x y).trans (Nat.mod_eq_of_lt fits)
  rw [zero, UInt32.toNat_zero] at sum
  exact counted (UInt32.toNat_inj.mp (by rw [UInt32.toNat_zero]; omega))

def Positive (a : ValueCounts) : Prop := ∀ value : String, a.counts[value]? ≠ some 0

theorem Positive.merge {a b : ValueCounts} (left : a.Positive) (right : b.Positive) (absorbs : a.Absorbs b) :
    (a.merge b).Positive := by
  intro value
  have fits := absorbs.counts value
  unfold get at fits
  rw [Std.ExtTreeMap.getD_eq_getD_getElem?, Std.ExtTreeMap.getD_eq_getD_getElem?] at fits
  rw [getElem?_merge]
  cases held : a.counts[value]? with
  | none =>
    rw [Option.merge_none_left]
    exact right value
  | some x =>
    cases held' : b.counts[value]? with
    | none =>
      rw [Option.merge_none_right]
      exact held ▸ left value
    | some y =>
      rw [held, held'] at fits
      have counted : x ≠ 0 := fun zero => left value (held.trans (congrArg some zero))
      exact fun zero => add_ne_zero fits counted (Option.some.inj zero)

theorem Fits.positive {rows : List (List String)} {docs : List Nat} (fits : Fits rows docs) :
    (collect (.ofValues rows) docs).Positive := fun _ zero =>
  absurd ((counts_collect fits).mp zero).2 (by decide)

theorem collect_positive (rows : List (List String)) {docs : List Nat} (few : docs.length < 2 ^ 32) :
    (collect (.ofValues rows) docs).Positive := by
  have listed : filled (docs.map (Column.rowOf rows)) ≤ docs.length := by
    rw [← List.length_map (Column.rowOf rows)]
    exact List.countP_le_length
  exact Fits.positive (Nat.lt_of_le_of_lt listed few)

-- The counts there are: of nothing, of documents of a segment, and merged of two,
-- as long as no sum takes more than a word.
inductive Counted : ValueCounts → Prop where
  | none : Counted ∅
  | collected {rows : List (List String)} {docs : List Nat} (fits : Fits rows docs) :
    Counted (collect (.ofValues rows) docs)
  | merged {a b : ValueCounts} : Counted a → Counted b → a.Absorbs b → Counted (a.merge b)

theorem Counted.positive {a : ValueCounts} (counted : Counted a) : a.Positive := by
  induction counted with
  | none => exact fun _ => nofun
  | collected fits => exact fits.positive
  | merged _ _ absorbs left right => exact left.merge right absorbs

theorem Merges.collected {rows : List (List String)} {shares : List ValueCounts} {a : ValueCounts}
    (merges : Merges shares a) (parts : List (List Nat)) (listed : shares = parts.map (collect (.ofValues rows)))
    (fits : Fits rows parts.flatten) : Counted a ∧ a = collect (.ofValues rows) parts.flatten := by
  induction merges generalizing parts with
  | none =>
    obtain rfl := List.map_eq_nil_iff.mp listed.symm
    exact ⟨.none, (collect_ofValues rows []).symm⟩
  | one a =>
    obtain ⟨docs, rfl, rfl⟩ := List.map_eq_singleton_iff.mp listed.symm
    rw [List.flatten_singleton] at fits ⊢
    exact ⟨.collected fits, rfl⟩
  | both _ _ left right =>
    obtain ⟨front, back, rfl, rfl, rfl⟩ := List.map_eq_append_iff.mp listed.symm
    rw [List.flatten_append] at fits ⊢
    obtain ⟨first, rfl⟩ := left front rfl fits.append.1
    obtain ⟨second, rfl⟩ := right back rfl fits.append.2
    exact ⟨.merged first second (absorbs_collect fits), (collect_append _ _).symm⟩

theorem counting_homomorphic (rows : List (List String)) :
    let count := collect (.ofValues rows)
    (∀ docs, Fits rows docs → (count docs).total.toNat = filled (docs.map (Column.rowOf rows)) ∧
      ∀ (value : String) (hits : UInt32), (count docs).counts[value]? = some hits ↔
        hits.toNat = (docs.countP fun docno => value ∈ Column.rowOf rows docno) ∧ 0 < hits.toNat) ∧
    (∀ xs ys, Fits rows (xs ++ ys) → (count xs).Absorbs (count ys) ∧ count (xs ++ ys) = (count xs).merge (count ys)) ∧
    (∀ xs ys : List Nat, xs.Perm ys → count xs = count ys) ∧
    (∀ a b c : ValueCounts, (a.merge b).merge c = a.merge (b.merge c)) ∧ (∀ a b : ValueCounts, a.merge b = b.merge a) ∧
    (∀ a : ValueCounts, a.merge ∅ = a ∧ merge ∅ a = a) ∧
    (∀ a, Counted a → ∀ value : String, a.counts[value]? ≠ some 0) ∧
    (∀ shares shares' a a', Merges shares a → Merges shares' a' → shares.Perm shares' → a = a') ∧
    ∀ (parts : List (List Nat)) docs a, parts.flatten.Perm docs → Fits rows docs → Merges (parts.map count) a →
      Counted a ∧ a = count docs := by
  intro count
  refine ⟨fun docs fits => ⟨total_collect fits, fun value hits => counts_collect fits⟩,
    fun xs ys fits => ⟨absorbs_collect fits, collect_append xs ys⟩, fun xs ys same => collect_perm same, merge_assoc,
    merge_comm, fun a => ⟨merge_empty a, empty_merge a⟩, fun a counted => counted.positive,
    fun _ _ _ _ merges merges' same => merges.unique merges' same, fun parts docs a same fits merges => ?_⟩
  obtain ⟨counted, rfl⟩ := merges.collected parts rfl (fits.perm same.symm)
  exact ⟨counted, collect_perm same⟩

def shades : List (List String) := [["red", "red"], [], ["blue", "red"]]

theorem counting_homomorphic_shades : ∃ a, Fits shades [0, 0, 1, 2, 7] ∧
    [[2, 0], [7], [0, 1]].flatten.Perm [0, 0, 1, 2, 7] ∧
    Merges ([[2, 0], [7], [0, 1]].map (collect (.ofValues shades))) a ∧ Counted a ∧
    a = collect (.ofValues shades) [0, 0, 1, 2, 7] ∧ a.total.toNat = 3 ∧ a.counts["red"]? = some 3 ∧
    (∀ value : String, a.counts[value]? ≠ some 0) ∧
    (collect (.ofValues shades) [2, 0]).merge (collect (.ofValues shades) [7]) = collect (.ofValues shades) [7, 0, 2] := by
  obtain ⟨exact, joined, turned, _, _, _, positive, _, grouped⟩ := counting_homomorphic shades
  have fits : Fits shades [0, 0, 1, 2, 7] := by decide
  have same : [[2, 0], [7], [0, 1]].flatten.Perm [0, 0, 1, 2, 7] := by decide
  have merges : Merges ([[2, 0], [7], [0, 1]].map (collect (.ofValues shades))) _ := .both (.one _) (.both (.one _) (.one _))
  obtain ⟨counted, equal⟩ := grouped [[2, 0], [7], [0, 1]] [0, 0, 1, 2, 7] _ same fits merges
  obtain ⟨total, hits⟩ := exact [0, 0, 1, 2, 7] fits
  refine ⟨_, fits, same, merges, counted, equal, equal ▸ total, equal ▸ (hits "red" 3).mpr (by decide), positive _ counted, ?_⟩
  exact (joined [2, 0] [7] (by decide)).2.symm.trans (turned _ _ (by decide))

end ValueCounts

end FacetedSearch
