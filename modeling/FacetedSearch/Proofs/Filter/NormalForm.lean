import FacetedSearch.Proofs.Filter.Agreement

namespace FacetedSearch

-- Each step leaves a list without its first element and all that repeat it.
theorem nodup_eraseDups {α : Type} [BEq α] [LawfulBEq α] (xs : List α) : xs.eraseDups.Nodup := by
  induction size : xs.length using Nat.strong_induction_on generalizing xs with
  | _ n ih =>
    cases xs with
    | nil => exact List.nodup_nil
    | cons x rest =>
      have fewer := List.length_filter_le (fun y => !y == x) rest
      rw [List.length_cons] at size
      rw [List.eraseDups_cons, List.nodup_cons]
      refine ⟨fun again => ?_, ih _ (by omega) _ rfl⟩
      have other := (List.mem_filter.mp (List.mem_eraseDups.mp again)).2
      rw [BEq.rfl] at other
      cases other

namespace Filter

-- Parts worth joining: several of them, no two the same and none that is empty.
structure Joinable (parts : List Filter) : Prop where
  several : 2 ≤ parts.length
  distinct : parts.Nodup
  filled : empty ∉ parts

def Normal : Filter → Prop
  | .empty | .values _ _ => True
  | .allOf parts => Joinable parts ∧ ∀ f, (_ : f ∈ parts) → Normal f
  | .anyOf parts => Joinable parts ∧ ∀ f, (_ : f ∈ parts) → Normal f
  | .except part => Normal part

section Shape

variable {fs : List Filter} {make : List Filter → Filter}

theorem normal_empty : empty.Normal := by
  rw [Normal]
  trivial

theorem normal_node (several : ∀ parts, Joinable parts → (∀ f ∈ parts, f.Normal) → (make parts).Normal)
    (distinct : fs.Nodup) (filled : empty ∉ fs) (parts : ∀ f ∈ fs, f.Normal) : (node make fs).Normal := by
  rcases node_cases make fs with ⟨_, bare⟩ | ⟨f, rfl, single⟩ | ⟨many, joined⟩
  · exact bare ▸ normal_empty
  · exact single ▸ parts f (List.mem_singleton_self f)
  · exact joined ▸ several fs ⟨many, distinct, filled⟩ parts

theorem node_eq_empty (join : ∀ parts, make parts ≠ empty) (filled : empty ∉ fs) : node make fs = empty ↔ fs = [] := by
  rcases node_cases make fs with ⟨rfl, bare⟩ | ⟨f, rfl, single⟩ | ⟨many, joined⟩
  · exact iff_of_true bare rfl
  · rw [single]
    exact iff_of_false (fun same => filled (same ▸ List.mem_singleton_self f)) (List.cons_ne_nil _ _)
  · exact joined ▸ iff_of_false (join fs) (ne_nil_of_several many)

theorem normal_allOf : (allOf fs).Normal ↔ Joinable fs ∧ ∀ f ∈ fs, f.Normal := by
  rw [Normal]

theorem normal_anyOf : (anyOf fs).Normal ↔ Joinable fs ∧ ∀ f ∈ fs, f.Normal := by
  rw [Normal]

theorem normal_and (parts : ∀ f ∈ fs, f.Normal) : (and fs).Normal := by
  unfold and
  split
  · exact normal_empty
  · rename_i unabsorbed
    apply normal_node
    · exact fun parts joinable every => normal_allOf.mpr ⟨joinable, every⟩
    · exact nodup_eraseDups fs
    · exact fun member => unabsorbed (any_isEmpty.mpr (List.mem_eraseDups.mp member))
    · exact fun f member => parts f (List.mem_eraseDups.mp member)

theorem normal_or (parts : ∀ f ∈ fs, f.Normal) : (or fs).Normal := by
  apply normal_node
  · exact fun parts joinable every => normal_anyOf.mpr ⟨joinable, every⟩
  · exact nodup_eraseDups _
  · exact fun member => (mem_nonempty.mp (List.mem_eraseDups.mp member)).2 rfl
  · exact fun f member => parts f (mem_nonempty.mp (List.mem_eraseDups.mp member)).1

theorem normal_not {f : Filter} (part : f.Normal) : (not f).Normal := by
  rw [not, Normal]
  exact part

theorem and_eq_empty : and fs = empty ↔ fs = [] ∨ empty ∈ fs := by
  unfold and
  split
  · rename_i absorbed
    exact iff_of_true rfl (.inr (any_isEmpty.mp absorbed))
  · rename_i unabsorbed
    rw [any_isEmpty] at unabsorbed
    rw [node_eq_empty (fun _ => by simp) fun member => unabsorbed (List.mem_eraseDups.mp member),
      or_iff_left unabsorbed]
    simp only [List.eq_nil_iff_forall_not_mem, List.mem_eraseDups]

theorem or_eq_empty : or fs = empty ↔ ∀ f ∈ fs, f = empty := by
  unfold or
  rw [node_eq_empty (fun _ => by simp) fun member =>
    (mem_nonempty.mp (List.mem_eraseDups.mp member)).2 rfl]
  simp only [List.eq_nil_iff_forall_not_mem, List.mem_eraseDups, mem_nonempty, not_and, not_not]

end Shape

end Filter

-- No exclusion has to be dropped as empty before it is joined with others.
theorem Selector.exclude_combine_ne_empty {separator : String} {dependent : String → Option Selector}
    (known : ∀ name d, dependent name = some d → ∀ vs, d.exclude vs ≠ .empty) (vs : List String) :
    (combine separator dependent).exclude vs ≠ .empty := by
  intro bare
  simp only [combine] at bare
  split at bare
  · cases bare
  · rename_i excluded
    rcases Filter.and_eq_empty.mp bare with none | member
    · exact excluded none
    · obtain ⟨group, _, made⟩ := List.mem_filterMap.mp member
      obtain ⟨d, answers, bare⟩ := Option.map_eq_some_iff.mp made
      exact known group.1 d answers group.2 bare

theorem Facet.exclude_ne_empty (f : Facet) (vs : List String) : f.selector.exclude vs ≠ .empty := by
  induction f using byDependents generalizing vs with
  | simple f =>
    intro bare
    cases bare
  | keyed f =>
    intro bare
    cases bare
  | combo name separator dependents ih =>
    rw [selector_combo]
    refine Selector.exclude_combine_ne_empty (fun name d answers => ?_) vs
    rw [selectorIn_eq] at answers
    obtain ⟨f, found, rfl⟩ := Option.map_eq_some_iff.mp answers
    exact ih f (List.mem_of_find?_eq_some found)

namespace Filter

section Meaning

variable {l : LoadedFacets} {docno : Nat} {fs gs : List Filter}

theorem reading_docs (l : LoadedFacets) (docno : Nat) : Reading fun f => docno ∈ f.docs l where
  empty := SortedSet.not_mem_empty docno
  allOf some := mem_docsOfAll.trans (and_iff_right some)
  anyOf := mem_docsOfAny

theorem mem_docs_not {f : Filter} : docno ∈ (not f).docs l ↔ docno < l.docCount ∧ docno ∉ f.docs l := by
  rw [not, docs, SortedSet.mem_diff, LoadedFacets.allDocs, DocSet.mem_below]

theorem docs_and_same (same : ∀ f, f ∈ gs ↔ f ∈ fs) : (and gs).docs l = (and fs).docs l := by
  apply SortedSet.eq_of_mem_iff
  intro docno
  rw [(reading_docs l docno).and, (reading_docs l docno).and]
  simp only [ne_eq, List.eq_nil_iff_forall_not_mem, same]

theorem docs_or_same (same : ∀ f, f ∈ gs ↔ f ∈ fs) : (or gs).docs l = (or fs).docs l := by
  apply SortedSet.eq_of_mem_iff
  intro docno
  rw [(reading_docs l docno).or, (reading_docs l docno).or]
  simp only [same]

end Meaning

theorem joined_meaning_normal (l : LoadedFacets) (fs : List Filter) :
    (∀ docno, docno ∈ (and fs).docs l ↔ fs ≠ [] ∧ ∀ f ∈ fs, docno ∈ f.docs l) ∧
    (∀ docno, docno ∈ (or fs).docs l ↔ ∃ f ∈ fs, docno ∈ f.docs l) ∧
    (∀ f docno, docno ∈ (not f).docs l ↔ docno < l.docCount ∧ docno ∉ f.docs l) ∧
    (∀ gs : List Filter, (∀ f, f ∈ gs ↔ f ∈ fs) → (and gs).docs l = (and fs).docs l ∧ (or gs).docs l = (or fs).docs l) ∧
    ((∀ f ∈ fs, f.Normal) → (and fs).Normal ∧ (or fs).Normal) ∧ (∀ f : Filter, f.Normal → (not f).Normal) ∧
    (and fs = empty ↔ fs = [] ∨ empty ∈ fs) ∧ (or fs = empty ↔ ∀ f ∈ fs, f = empty) :=
  ⟨fun docno => (reading_docs l docno).and, fun docno => (reading_docs l docno).or, fun _ _ => mem_docs_not,
    fun _ same => ⟨docs_and_same same, docs_or_same same⟩, fun parts => ⟨normal_and parts, normal_or parts⟩,
    fun _ part => normal_not part, and_eq_empty, or_eq_empty⟩

def ending : Filter := .anyOf [.values "tags" (.exact "é::a"), .except (.values "tags" (.under "é::a" "::"))]

theorem joined_meaning_normal_ending :
    (∀ f ∈ [ending, .except .empty], f.Normal) ∧ (and [ending, .except .empty]).Normal ∧
    (not (and [ending, .except .empty])).Normal ∧ and [ending, .except .empty] ≠ empty ∧
    (∀ f, f ∈ [.except .empty, ending, ending] ↔ f ∈ [ending, .except .empty]) ∧
    (and [.except .empty, ending, ending]).docs (.ofSource tagged tags) =
      (and [ending, .except .empty]).docs (.ofSource tagged tags) ∧
    0 ∈ (and [ending, .except .empty]).docs (.ofSource tagged tags) ∧
    1 ∉ (and [ending, .except .empty]).docs (.ofSource tagged tags) := by
  have normal : ∀ f ∈ [ending, .except .empty], f.Normal := by
    have joinable : Joinable [.values "tags" (.exact "é::a"), .except (.values "tags" (.under "é::a" "::"))] :=
      ⟨by decide, by decide, by decide⟩
    simp [ending, Normal, joinable]
  have same : ∀ f, f ∈ [.except .empty, ending, ending] ↔ f ∈ [ending, .except .empty] := by
    simp [or_comm]
  obtain ⟨every, _, _, again, shaped, turned, bare, _⟩ :=
    joined_meaning_normal (.ofSource tagged tags) [ending, .except .empty]
  have stays := (shaped normal).1
  refine ⟨normal, stays, turned _ stays, fun gone => ?_, same, (again _ same).1, ?_, fun found => ?_⟩
  · exact absurd (bare.mp gone) (by decide)
  · exact (every 0).mpr ⟨nofun, by decide +kernel⟩
  · exact absurd ((every 1).mp found).2 (by decide +kernel)

end Filter

end FacetedSearch
