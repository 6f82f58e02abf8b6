import FacetedSearch.Facet.Selector
import FacetedSearch.Proofs.Filter
import FacetedSearch.Proofs.Text.Separator

namespace FacetedSearch

namespace Selector

def addressed (separator name : String) (values : List String) : List String :=
  values.filterMap fun value =>
    (Text.pair? separator value).bind fun parts => if parts.1 = name then some parts.2 else none

theorem mem_addressed {separator name rest : String} {values : List String} :
    rest ∈ addressed separator name values ↔ ∃ value ∈ values, Text.Pair separator value name rest := by
  unfold addressed
  rw [List.mem_filterMap]
  refine exists_congr fun value => and_congr_right fun _ => ?_
  rw [← Text.pair?_exact, Option.bind_eq_some_iff]
  constructor
  · intro ⟨parts, formed, kept⟩
    split at kept
    · rename_i named
      rw [formed, ← named, ← Option.some.inj kept]
    · cases kept
  · exact fun formed => ⟨(name, rest), formed, if_pos rfl⟩

section Groups

variable {name value other : String} {values : List String} {found : List (String × List String)}

theorem keys_addToGroup :
    other ∈ (addToGroup name value found).map Prod.fst ↔ other = name ∨ other ∈ found.map Prod.fst := by
  induction found with
  | nil => simp [addToGroup]
  | cons group rest ih =>
    obtain ⟨first, old⟩ := group
    rw [addToGroup]
    split
    · rename_i same
      subst same
      simp
    · rw [List.map_cons, List.mem_cons, ih, List.map_cons, List.mem_cons]
      tauto

theorem distinct_addToGroup (distinct : (found.map Prod.fst).Nodup) :
    ((addToGroup name value found).map Prod.fst).Nodup := by
  induction found with
  | nil => simp [addToGroup]
  | cons group rest ih =>
    obtain ⟨first, old⟩ := group
    rw [List.map_cons, List.nodup_cons] at distinct
    rw [addToGroup]
    split
    · exact List.nodup_cons.mpr distinct
    · rename_i apart
      rw [List.map_cons, List.nodup_cons, keys_addToGroup]
      refine ⟨fun again => ?_, ih distinct.2⟩
      rcases again with same | again
      · exact apart same
      · exact distinct.1 again

theorem mem_addToGroup (distinct : (found.map Prod.fst).Nodup) :
    (other, values) ∈ addToGroup name value found ↔
      if other = name then
        (∃ old, (name, old) ∈ found ∧ values = old ++ [value]) ∨ name ∉ found.map Prod.fst ∧ values = [value]
      else (other, values) ∈ found := by
  induction found with
  | nil => by_cases same : other = name <;> simp [addToGroup, same]
  | cons group rest ih =>
    obtain ⟨first, old⟩ := group
    rw [List.map_cons, List.nodup_cons] at distinct
    have tail := ih distinct.2
    have fresh : ∀ old, (first, old) ∈ rest → False := fun old member =>
      distinct.1 (List.mem_map.mpr ⟨(first, old), member, rfl⟩)
    rw [addToGroup]
    by_cases first_is : first = name
    · subst first_is
      by_cases same : other = first
      · subst same
        simp only [if_true, List.mem_cons, Prod.mk.injEq, true_and, List.map_cons]
        grind
      · simp [same]
    · rw [if_neg first_is, List.mem_cons, tail]
      by_cases same : other = name
      · subst same
        simp only [if_true, List.mem_cons, Prod.mk.injEq, List.map_cons]
        grind
      · simp [same]

theorem addressed_append {separator last : String} :
    addressed separator name (values ++ [last]) = addressed separator name values ++
      match Text.pair? separator last with
      | some (part, rest) => if part = name then [rest] else []
      | none => [] := by
  unfold addressed
  rw [List.filterMap_append, List.filterMap_cons, List.filterMap_nil]
  cases Text.pair? separator last with
  | none => rfl
  | some parts =>
    rw [Option.bind_some]
    by_cases same : parts.1 = name <;> simp [same]

theorem groups_append {separator last : String} : groups separator (values ++ [last]) =
    match Text.pair? separator last with
    | some (part, rest) => addToGroup part rest (groups separator values)
    | none => groups separator values := by
  rw [groups, List.foldl_append, List.foldl_cons, List.foldl_nil]
  rfl

theorem groups_exact (separator : String) (values : List String) :
    ((groups separator values).map Prod.fst).Nodup ∧
      ∀ name vs, (name, vs) ∈ groups separator values ↔ vs = addressed separator name values ∧ vs ≠ [] := by
  induction values using List.reverseRecOn with
  | nil => simp [groups, addressed]
  | append_singleton values last ih =>
    obtain ⟨distinct, listed⟩ := ih
    rw [groups_append]
    simp only [addressed_append]
    cases Text.pair? separator last with
    | none => simpa using ⟨distinct, listed⟩
    | some parts =>
      obtain ⟨part, rest⟩ := parts
      refine ⟨distinct_addToGroup distinct, fun name vs => ?_⟩
      have named : part ∈ (groups separator values).map Prod.fst ↔ addressed separator part values ≠ [] := by
        simp [listed]
      rw [mem_addToGroup distinct]
      by_cases same : name = part
      · subst same
        have filled : vs = addressed separator name values ++ [rest] → vs ≠ [] := by
          rintro rfl
          exact List.append_ne_nil_of_right_ne_nil _ (List.cons_ne_nil _ _)
        simp only [if_true, listed, named, and_iff_left_of_imp filled]
        by_cases bare : addressed separator name values = []
        · simp [bare]
        · simp [bare]
      · simp [same, listed, Ne.symm same]

section Forms

variable {separator : String} {vs : List String}

theorem forall_groups {P : String → List String → Prop} : (∀ group ∈ groups separator vs, P group.1 group.2) ↔
    ∀ value ∈ vs, ∀ part rest, Text.Pair separator value part rest → P part (addressed separator part vs) := by
  have listed := (groups_exact separator vs).2
  constructor
  · intro every value member part rest formed
    have inside := mem_addressed.mpr ⟨value, member, formed⟩
    exact every (part, _) ((listed _ _).mpr ⟨rfl, List.ne_nil_of_mem inside⟩)
  · intro every ⟨part, _⟩ member
    obtain ⟨rfl, filled⟩ := (listed _ _).mp member
    obtain ⟨rest, inside⟩ := List.exists_mem_of_ne_nil _ filled
    obtain ⟨value, given, formed⟩ := mem_addressed.mp inside
    exact every value given part rest formed

theorem groups_ne_nil : groups separator vs ≠ [] ↔ ∃ value ∈ vs, ∃ part rest, Text.Pair separator value part rest := by
  have none : (∀ group ∈ groups separator vs, False) ↔
      ∀ value ∈ vs, ∀ part rest, Text.Pair separator value part rest → False := forall_groups (P := fun _ _ => False)
  have empty : groups separator vs = [] ↔ ∀ group ∈ groups separator vs, False := List.eq_nil_iff_forall_not_mem
  rw [ne_eq, empty, none]
  simp only [not_forall, exists_prop, not_false_eq_true, and_true]

end Forms

end Groups

end Selector

namespace Registry

theorem mem_of_mem_dependents {r : Registry} {f d : Facet} (member : f ∈ r.facets) (dependent : d ∈ f.dependents) :
    d ∈ r.facets := by
  obtain ⟨slot, inside, rfl⟩ := List.mem_iff_getElem.mp member
  exact List.mem_of_mem_take (r.earlier slot inside d dependent)

theorem eq_of_name {r : Registry} {f g : Facet} (left : f ∈ r.facets) (right : g ∈ r.facets)
    (same : f.name = g.name) : f = g :=
  List.inj_on_of_nodup_map r.distinct left right same

theorem get?_exact {r : Registry} {f : Facet} {name : String} : r.get? name = some f ↔ f ∈ r.facets ∧ f.name = name := by
  unfold get?
  cases found : r.facets.find? (·.name = name) with
  | none =>
    refine iff_of_false nofun fun ⟨member, named⟩ => ?_
    exact List.find?_eq_none.mp found f member (decide_eq_true named)
  | some g =>
    have member := List.mem_of_find?_eq_some found
    have named : g.name = name := by simpa using List.find?_some found
    constructor
    · intro equal
      exact Option.some.inj equal ▸ ⟨member, named⟩
    · intro ⟨other, also⟩
      rw [r.eq_of_name member other (named.trans also.symm)]

theorem require_exact {r : Registry} {f : Facet} {name : String} :
    r.require name = .ok f ↔ f ∈ r.facets ∧ f.name = name := by
  rw [← get?_exact]
  unfold require
  cases r.get? name <;> simp

structure Shows (r : Registry) (stored values : String → List String) : Prop where
  admits : ∀ f ∈ r.facets, f.Admits stored
  exact : ∀ f ∈ r.facets, ∀ value, value ∈ values f.name ↔ value ∈ f.kept stored

end Registry

theorem LoadedFacets.shows_of_load {r : Registry} {s : Source} {l : LoadedFacets} (loaded : load r s = .ok l)
    {docno : Nat} (inside : docno < s.documentCount) :
    r.Shows (s.storedValues docno) fun facet => l.valuesAt facet docno := by
  obtain ⟨rfl, admits⟩ := load_exact.mp loaded
  constructor
  · exact fun f member => admits f member docno inside
  · intro f member value
    rw [valuesAt_ofSource member inside]
    exact SortedSet.mem_ofList

namespace Facet

theorem byDependents {motive : Facet → Prop} (simple : ∀ f, motive (.simple f)) (keyed : ∀ f, motive (.keyed f))
    (combo : ∀ name separator dependents, (∀ d ∈ dependents, motive d) → motive (.combo name separator dependents)) :
    ∀ f, motive f
  | .simple f => simple f
  | .keyed f => keyed f
  | .combo name separator dependents => combo name separator dependents fun d _ => byDependents simple keyed combo d

-- A document has a value of a facet. Nothing is read but what it stores.
inductive Satisfies (stored : String → List String) : Facet → String → Prop where
  | simple {f : SimpleFacet} {value : String} (only : stored f.field = [value]) : Satisfies stored (.simple f) value
  | keyed {f : KeyedFacet} {value entry key rest : String} (member : entry ∈ stored f.field)
      (formed : Text.Pair f.separator entry key rest)
      (under : entry = value ∨ (value ++ f.separator).toList <+: entry.toList) : Satisfies stored (.keyed f) value
  | combo {name separator value rest : String} {dependents : List Facet} {d : Facet} (member : d ∈ dependents)
      (formed : Text.Pair separator value d.name rest) (satisfied : Satisfies stored d rest) :
      Satisfies stored (.combo name separator dependents) value

-- All of several values hold together. A combination passes over what is no
-- well-formed pair, but something has to be left, and every name that is found
-- has to be a dependent for which all that is addressed to it holds.
def AllHold (stored : String → List String) : Facet → List String → Prop
  | .combo _ separator dependents, values =>
    (∃ value ∈ values, ∃ part rest, Text.Pair separator value part rest) ∧
      ∀ value ∈ values, ∀ part rest, Text.Pair separator value part rest →
        ∃ d, ∃ _ : d ∈ dependents, d.name = part ∧ AllHold stored d (Selector.addressed separator part values)
  | f, values => ∀ value ∈ values, f.Satisfies stored value

theorem selectorIn_eq (name : String) (fs : List Facet) :
    selectorIn name fs = (fs.find? (·.name = name)).map selector := by
  induction fs with
  | nil => rfl
  | cons f rest ih =>
    rw [selectorIn, List.find?_cons]
    by_cases named : f.name = name
    · simp [named]
    · simp [named, ih]

section Meaning

variable {r : Registry} {stored values : String → List String}

theorem selectorIn_exact {fs : List Facet} (known : ∀ d ∈ fs, d ∈ r.facets) {name : String} {selected : Selector} :
    selectorIn name fs = some selected ↔ ∃ d ∈ fs, d.name = name ∧ d.selector = selected := by
  rw [selectorIn_eq, Option.map_eq_some_iff]
  constructor
  · intro ⟨d, found, same⟩
    exact ⟨d, List.mem_of_find?_eq_some found, by simpa using List.find?_some found, same⟩
  · intro ⟨d, member, named, same⟩
    cases found : fs.find? (·.name = name) with
    | none => exact absurd (decide_eq_true named) (List.find?_eq_none.mp found d member)
    | some e =>
      refine ⟨e, rfl, ?_⟩
      have also : e.name = name := by simpa using List.find?_some found
      rw [r.eq_of_name (known e (List.mem_of_find?_eq_some found)) (known d member) (also.trans named.symm), same]

theorem covers_selected {fs : List Facet} (known : ∀ d ∈ fs, d ∈ r.facets) {name : String} {use : Selector → Filter} :
    ((selectorIn name fs).elim .empty use).Covers values ↔
      ∃ d ∈ fs, d.name = name ∧ (use d.selector).Covers values := by
  cases found : selectorIn name fs with
  | none =>
    refine iff_of_false Filter.not_covers_empty fun ⟨d, member, named, _⟩ => ?_
    rw [(selectorIn_exact known).mpr ⟨d, member, named, rfl⟩] at found
    cases found
  | some selected =>
    obtain ⟨d, member, named, rfl⟩ := (selectorIn_exact known).mp found
    refine ⟨fun covered => ⟨d, member, named, covered⟩, fun ⟨e, other, also, covered⟩ => ?_⟩
    rw [r.eq_of_name (known d member) (known e other) (named.trans also.symm)]
    exact covered

structure Means (stored values : String → List String) (f : Facet) : Prop where
  value : ∀ v, (f.selector.value v).Covers values ↔ f.Satisfies stored v
  any : ∀ vs, (f.selector.any vs).Covers values ↔ ∃ v ∈ vs, f.Satisfies stored v
  every : ∀ vs, vs ≠ [] → ((f.selector.every vs).Covers values ↔ f.AllHold stored vs)
  exclude : ∀ vs, (f.selector.exclude vs).Covers values ↔ ¬ ∃ v ∈ vs, f.Satisfies stored v

theorem means_ofLeaf {f : Facet} {leaf : String → Filter} (built : f.selector = .ofLeaf leaf)
    (each : ∀ v, (leaf v).Covers values ↔ f.Satisfies stored v)
    (single : ∀ vs, f.AllHold stored vs ↔ ∀ v ∈ vs, f.Satisfies stored v) : f.Means stored values where
  value v := by rw [built]; exact each v
  any vs := by
    rw [built]
    refine Filter.covers_or.trans ?_
    simp only [List.mem_map, exists_exists_and_eq_and, each]
  every vs filled := by
    rw [built, single]
    refine Filter.covers_and.trans ?_
    simp only [List.forall_mem_map, each, ne_eq, List.map_eq_nil_iff, filled, not_false_eq_true, true_and]
  exclude vs := by
    rw [built]
    refine Filter.covers_not.trans (not_congr (Filter.covers_or.trans ?_))
    simp only [List.mem_map, exists_exists_and_eq_and, each]

theorem satisfies_simple {f : SimpleFacet} {value : String} (single : (stored f.field).length ≤ 1) :
    (simple f).Satisfies stored value ↔ value ∈ (simple f).kept stored := by
  rw [kept]
  constructor
  · intro satisfied
    cases satisfied with
    | simple only => rw [only]; exact List.mem_singleton_self value
  · intro member
    obtain ⟨only, alone⟩ := List.length_eq_one_iff.mp (Nat.le_antisymm single (List.length_pos_of_mem member))
    rw [alone, List.mem_singleton] at member
    exact .simple (by rw [alone, member])

theorem satisfies_keyed {f : KeyedFacet} {value : String} : (keyed f).Satisfies stored value ↔
    ∃ entry ∈ (keyed f).kept stored, entry = value ∨ (value ++ f.separator).toList <+: entry.toList := by
  have formed : ∀ entry, entry ∈ (keyed f).kept stored ↔
      entry ∈ stored f.field ∧ ∃ key rest, Text.Pair f.separator entry key rest := by
    intro entry
    rw [kept, List.mem_filter, Option.isSome_iff_exists]
    simp only [KeyedFacet.parse, Prod.exists, Text.pair?_exact]
  constructor
  · intro satisfied
    cases satisfied with
    | keyed member pair under => exact ⟨_, (formed _).mpr ⟨member, _, _, pair⟩, under⟩
  · intro satisfied
    obtain ⟨entry, held, under⟩ := satisfied
    obtain ⟨member, _, _, pair⟩ := (formed entry).mp held
    exact .keyed member pair under

theorem means_simple (shows : r.Shows stored values) {f : SimpleFacet} (member : .simple f ∈ r.facets) :
    (simple f).Means stored values := by
  refine means_ofLeaf rfl (fun v => ?_) fun vs => by rw [AllHold]; exact nofun
  rw [Filter.covers_values, satisfies_simple (shows.admits _ member), ← shows.exact _ member]
  simp only [Matcher.accepts, decide_eq_true_eq, exists_eq_right]
  rfl

theorem means_keyed (shows : r.Shows stored values) {f : KeyedFacet} (member : .keyed f ∈ r.facets) :
    (keyed f).Means stored values := by
  refine means_ofLeaf rfl (fun v => ?_) fun vs => by rw [AllHold]; exact nofun
  rw [Filter.covers_values, satisfies_keyed]
  refine exists_congr fun entry => and_congr (shows.exact _ member entry) ?_
  rw [Matcher.accepts, Bool.or_eq_true, decide_eq_true_eq, Text.startsWith_iff]

section Combination

variable {name separator : String} {dependents : List Facet}

theorem satisfies_combo {value : String} : (combo name separator dependents).Satisfies stored value ↔
    ∃ part rest, Text.Pair separator value part rest ∧ ∃ d ∈ dependents, d.name = part ∧ d.Satisfies stored rest := by
  constructor
  · intro satisfied
    cases satisfied with
    | combo member formed satisfied => exact ⟨_, _, formed, _, member, rfl, satisfied⟩
  · intro parts
    obtain ⟨_, rest, formed, d, member, rfl, satisfied⟩ := parts
    exact .combo member formed satisfied

theorem exists_satisfies_combo {vs : List String} :
    (∃ v ∈ vs, (combo name separator dependents).Satisfies stored v) ↔
      ∃ group ∈ Selector.groups separator vs, ∃ d ∈ dependents, d.name = group.1 ∧ ∃ v ∈ group.2, d.Satisfies stored v := by
  have listed := (Selector.groups_exact separator vs).2
  simp only [satisfies_combo]
  constructor
  · intro ⟨v, member, part, rest, formed, d, dependent, named, satisfied⟩
    have inside := Selector.mem_addressed.mpr ⟨v, member, formed⟩
    exact ⟨(part, _), (listed _ _).mpr ⟨rfl, List.ne_nil_of_mem inside⟩, d, dependent, named, rest, inside, satisfied⟩
  · intro ⟨⟨part, _⟩, member, d, dependent, named, rest, inside, satisfied⟩
    obtain ⟨rfl, _⟩ := (listed _ _).mp member
    obtain ⟨v, given, formed⟩ := Selector.mem_addressed.mp inside
    exact ⟨v, given, part, rest, formed, d, dependent, named, satisfied⟩

theorem selector_combo : (combo name separator dependents).selector =
    .combine separator fun name => selectorIn name dependents := by rw [selector]

theorem covers_combo_value (known : ∀ d ∈ dependents, d ∈ r.facets) (ih : ∀ d ∈ dependents, d.Means stored values)
    (v : String) : ((combo name separator dependents).selector.value v).Covers values ↔
      (combo name separator dependents).Satisfies stored v := by
  rw [selector_combo, satisfies_combo]
  cases parsed : Text.pair? separator v with
  | none =>
    simp only [Selector.combine, parsed]
    refine iff_of_false Filter.not_covers_empty fun ⟨part, rest, formed, _⟩ => ?_
    rw [Text.pair?_exact.mpr formed] at parsed
    cases parsed
  | some parts =>
    simp only [Selector.combine, parsed, covers_selected known]
    constructor
    · intro ⟨d, dependent, named, covered⟩
      exact ⟨_, _, Text.pair?_exact.mp parsed, d, dependent, named, ((ih d dependent).value _).mp covered⟩
    · intro ⟨part, rest, formed, d, dependent, named, satisfied⟩
      obtain rfl := Option.some.inj (parsed.symm.trans (Text.pair?_exact.mpr formed))
      exact ⟨d, dependent, named, ((ih d dependent).value _).mpr satisfied⟩

theorem covers_combo_any (known : ∀ d ∈ dependents, d ∈ r.facets) (ih : ∀ d ∈ dependents, d.Means stored values)
    (vs : List String) : ((combo name separator dependents).selector.any vs).Covers values ↔
      ∃ v ∈ vs, (combo name separator dependents).Satisfies stored v := by
  rw [selector_combo, exists_satisfies_combo]
  refine Filter.covers_or.trans ?_
  simp only [List.mem_map, exists_exists_and_eq_and, covers_selected known]
  refine exists_congr fun group => and_congr_right fun _ => exists_congr fun d => and_congr_right fun dependent => ?_
  exact and_congr_right fun _ => (ih d dependent).any group.2

theorem covers_combo_every (known : ∀ d ∈ dependents, d ∈ r.facets) (ih : ∀ d ∈ dependents, d.Means stored values)
    (vs : List String) : ((combo name separator dependents).selector.every vs).Covers values ↔
      (combo name separator dependents).AllHold stored vs := by
  rw [selector_combo, AllHold]
  refine Filter.covers_and.trans ?_
  rw [ne_eq, List.map_eq_nil_iff, ← ne_eq, Selector.groups_ne_nil, List.forall_mem_map]
  simp only [covers_selected known]
  rw [Selector.forall_groups (P := fun part vs =>
    ∃ d ∈ dependents, d.name = part ∧ (d.selector.every vs).Covers values)]
  refine and_congr_right fun _ => forall₂_congr fun v given => forall₃_congr fun part rest formed => ?_
  have filled := List.ne_nil_of_mem (Selector.mem_addressed.mpr ⟨v, given, formed⟩)
  simp only [exists_prop]
  refine exists_congr fun d => and_congr_right fun dependent => and_congr_right fun _ => ?_
  exact (ih d dependent).every _ filled

theorem covers_exclude {dependent : String → Option Selector} {vs : List String} :
    ((Selector.combine separator dependent).exclude vs).Covers values ↔
      ∀ group ∈ Selector.groups separator vs, ∀ d, dependent group.1 = some d → (d.exclude group.2).Covers values := by
  have parts : (∀ f ∈ (Selector.groups separator vs).filterMap fun group =>
      (dependent group.1).map fun d => d.exclude group.2, f.Covers values) ↔
        ∀ group ∈ Selector.groups separator vs, ∀ d, dependent group.1 = some d → (d.exclude group.2).Covers values := by
    simp only [List.mem_filterMap, Option.map_eq_some_iff]
    constructor
    · exact fun every group member d found => every _ ⟨group, member, d, found, rfl⟩
    · rintro every _ ⟨group, member, d, found, rfl⟩
      exact every group member d found
  rw [← parts]
  simp only [Selector.combine]
  split
  · rename_i nothing
    rw [nothing]
    exact iff_of_true (Filter.covers_not.mpr Filter.not_covers_empty) nofun
  · rename_i something
    exact Filter.covers_and.trans (and_iff_right something)

theorem covers_combo_exclude (known : ∀ d ∈ dependents, d ∈ r.facets) (ih : ∀ d ∈ dependents, d.Means stored values)
    (vs : List String) : ((combo name separator dependents).selector.exclude vs).Covers values ↔
      ¬ ∃ v ∈ vs, (combo name separator dependents).Satisfies stored v := by
  rw [selector_combo, covers_exclude, exists_satisfies_combo]
  constructor
  · intro every ⟨group, member, d, dependent, named, satisfied⟩
    have covered := every group member _ ((selectorIn_exact known).mpr ⟨d, dependent, named, rfl⟩)
    exact ((ih d dependent).exclude group.2).mp covered satisfied
  · intro none group member selected found
    obtain ⟨d, dependent, named, rfl⟩ := (selectorIn_exact known).mp found
    exact ((ih d dependent).exclude group.2).mpr fun satisfied => none ⟨group, member, d, dependent, named, satisfied⟩

theorem means_combo (member : .combo name separator dependents ∈ r.facets)
    (ih : ∀ d ∈ dependents, d.Means stored values) : (combo name separator dependents).Means stored values := by
  have known : ∀ d ∈ dependents, d ∈ r.facets := fun d dependent => r.mem_of_mem_dependents member dependent
  exact ⟨covers_combo_value known ih, covers_combo_any known ih, fun vs _ => covers_combo_every known ih vs,
    covers_combo_exclude known ih⟩

end Combination

theorem means_of_mem (shows : r.Shows stored values) (f : Facet) : f ∈ r.facets → f.Means stored values := by
  induction f using byDependents with
  | simple f => exact means_simple shows
  | keyed f => exact means_keyed shows
  | combo name separator dependents ih =>
    exact fun member => means_combo member fun d dependent => ih d dependent (r.mem_of_mem_dependents member dependent)

end Meaning

end Facet

end FacetedSearch
