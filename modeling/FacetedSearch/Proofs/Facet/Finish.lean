import FacetedSearch.Proofs.Facet.Counts

namespace FacetedSearch

namespace CountSpec

def eligible (spec : CountSpec) (o : CountOptions) (counted : ValueCounts) : List Entry :=
  counted.counts.toList.filterMap fun (value, hits) =>
    if spec.minHits ≤ hits && o.asksFor value then some (Entry.mk value hits) else none

variable {spec : CountSpec} {o : CountOptions} {counted : ValueCounts} {e : Entry}

theorem mem_eligible : e ∈ spec.eligible o counted ↔
    counted.counts[e.value]? = some e.hits ∧ spec.minHits ≤ e.hits ∧ o.asksFor e.value = true := by
  unfold eligible
  simp only [List.mem_filterMap, Option.ite_none_right_eq_some, Bool.and_eq_true, decide_eq_true_eq, Option.some.injEq]
  constructor
  · intro ⟨⟨value, hits⟩, member, kept, made⟩
    cases made
    exact ⟨Std.ExtTreeMap.mem_toList_iff_getElem?_eq_some.mp member, kept⟩
  · intro ⟨found, kept⟩
    exact ⟨(e.value, e.hits), Std.ExtTreeMap.mem_toList_iff_getElem?_eq_some.mpr found, kept, rfl⟩

theorem eligible_distinct : ((spec.eligible o counted).map (·.value)).Nodup := by
  apply List.pairwise_map.mpr
  refine List.Pairwise.filterMap _ ?_ (List.pairwise_map.mp (keys_distinct counted.counts))
  intro a b apart e made e' made'
  simp only [Option.ite_none_right_eq_some, Option.some.injEq] at made made'
  rw [← made.2, ← made'.2]
  exact apart

theorem limitKeys_sublist (o : CountOptions) (limit : Nat) (seen : List String) (entries : List Entry) :
    (o.limitKeys limit seen entries).Sublist entries := by
  induction entries generalizing seen with
  | nil => exact .slnil
  | cons e rest ih =>
    by_cases room : seen.count (o.keyOf e.value) < limit
    · simp only [CountOptions.limitKeys, if_pos room]
      exact (ih _).cons_cons e
    · simp only [CountOptions.limitKeys, if_neg room]
      exact (ih _).cons e

theorem finish_sublist (spec : CountSpec) (o : CountOptions) (counted : ValueCounts) :
    (spec.finish o counted).entries.Sublist (spec.order.sort (spec.eligible o counted)) := by
  have cut : ∀ entries : List Entry, entries.Sublist (spec.order.sort (spec.eligible o counted)) →
      (if spec.limit = 0 then entries else entries.take spec.limit).Sublist (spec.order.sort (spec.eligible o counted)) := by
    intro entries limited
    split
    · exact limited
    · exact (List.take_sublist _ _).trans limited
  unfold finish
  cases o.maxPerKey with
  | none => exact cut _ (.refl _)
  | some limit => exact cut _ (limitKeys_sublist _ _ _ _)

theorem sort_perm (order : EntryOrder) (entries : List Entry) : (order.sort entries).Perm entries :=
  List.mergeSort_perm _ _

theorem mem_finish (listed : e ∈ (spec.finish o counted).entries) :
    counted.counts[e.value]? = some e.hits ∧ spec.minHits ≤ e.hits ∧ o.asksFor e.value = true := by
  apply mem_eligible.mp
  exact (sort_perm _ _).mem_iff.mp ((finish_sublist spec o counted).subset listed)

theorem finish_distinct : ((spec.finish o counted).entries.map (·.value)).Nodup :=
  (((sort_perm _ _).map _).nodup_iff.mpr eligible_distinct).sublist ((finish_sublist spec o counted).map _)

theorem finish_unlimited (unlimited : o.maxPerKey = none) (uncut : spec.limit = 0) :
    (spec.finish o counted).entries = spec.order.sort (spec.eligible o counted) := by
  unfold finish
  simp only [unlimited, uncut, if_true]
  rfl

theorem mem_finish_unlimited (unlimited : o.maxPerKey = none) (uncut : spec.limit = 0)
    (found : counted.counts[e.value]? = some e.hits) (enough : spec.minHits ≤ e.hits)
    (asked : o.asksFor e.value = true) : e ∈ (spec.finish o counted).entries := by
  rw [finish_unlimited unlimited uncut]
  exact (sort_perm _ _).mem_iff.mpr (mem_eligible.mpr ⟨found, enough, asked⟩)

end CountSpec

namespace Facet

-- A facet with keys whose selection includes values shows only what shares a
-- key with one of them.
def AsksFor (selected : Option Selection) (value : String) : Facet → Prop
  | keyed k => ∀ s, selected = some s → s.values ≠ [] → ∃ w ∈ s.values, k.keyOf w = k.keyOf value
  | _ => True

theorem asksFor_countOptions (f : Facet) (selected : Option Selection) (value : String) :
    (f.countOptions selected).asksFor value = true ↔ f.AsksFor selected value := by
  cases f with
  | simple => exact iff_of_true rfl trivial
  | combo => exact iff_of_true rfl trivial
  | keyed k =>
    cases selected with
    | none => exact iff_of_true rfl nofun
    | some s =>
      obtain ⟨facet, values, excluded, combination, properties⟩ := s
      cases values with
      | nil => exact iff_of_true rfl fun s same filled => absurd (Option.some.inj same ▸ rfl) filled
      | cons w rest =>
        have kept : ((keyed k).countOptions (some ⟨facet, w :: rest, excluded, combination, properties⟩)).asksFor value =
            ((w :: rest).map k.keyOf).contains (k.keyOf value) := rfl
        rw [kept, List.contains_iff_mem, List.mem_map]
        constructor
        · intro shares s same _
          exact Option.some.inj same ▸ shares
        · exact fun shares => shares _ rfl nofun

end Facet

end FacetedSearch
