import FacetedSearch.Facet.Values
import FacetedSearch.Proofs.Facet.Declared

namespace FacetedSearch

-- What the operations of a facet answer where each name is looked up when it is
-- met. Calls that are nested too deep do not answer.
@[ext]
structure Calls where
  value : String → Option Filter
  every : List String → Option Filter
  any : List String → Option Filter
  exclude : List String → Option Filter
  shown : LoadedFacets → Nat → Option (List String)
  items : LoadedFacets → Nat → Option Nat

namespace Calls

def unanswered : Calls where
  value _ := none
  every _ := none
  any _ := none
  exclude _ := none
  shown _ _ := none
  items _ _ := none

def of (f : Facet) : Calls where
  value v := some (f.selector.value v)
  every vs := some (f.selector.every vs)
  any vs := some (f.selector.any vs)
  exclude vs := some (f.selector.exclude vs)
  shown l docno := some (f.valuesOf l docno)
  items l docno := some (f.itemCount l docno)

-- Only names that are depended on are followed, and nothing is called where
-- none of them is found.
def follow (dependsOn : List String) (find : String → Option Calls) (name : String) (call : Calls → Option Filter) :
    Option (Option Filter) :=
  if name ∈ dependsOn then (find name).elim (some none) fun c => (call c).map some else some none

-- Every group is followed, those after an empty filter as well.
def combine (separator : String) (dependsOn : List String) (find : String → Option Calls) : Calls where
  value v := (Text.pair? separator v).elim (some .empty) fun (name, rest) =>
    (follow dependsOn find name fun c => c.value rest).map fun filter => filter.getD .empty
  every vs := ((Selector.groups separator vs).mapM fun group => follow dependsOn find group.1 fun c => c.every group.2).map
    fun filters => Filter.and (filters.map fun filter => filter.getD .empty)
  any vs := ((Selector.groups separator vs).mapM fun group => follow dependsOn find group.1 fun c => c.any group.2).map
    fun filters => Filter.or (filters.map fun filter => filter.getD .empty)
  exclude vs :=
    ((Selector.groups separator vs).mapM fun group => follow dependsOn find group.1 fun c => c.exclude group.2).map
      fun filters => match filters.filterMap id with
        | [] => Filter.not .empty
        | excluded => Filter.and excluded
  shown l docno := (dependsOn.mapM fun name => (find name).elim (some []) fun c =>
    (c.shown l docno).map fun values => values.map fun value => name ++ separator ++ value).map List.flatten
  items l docno := (dependsOn.mapM fun name => (find name).elim (some 0) fun c => c.items l docno).map
    fun counts => counts.countP fun count => 0 < count

section Known

variable {separator name : String} {fs : List Facet} {find : String → Option Calls}

theorem follow_known (known : ∀ d ∈ fs, find d.name = some (.of d)) (call : Calls → Option Filter)
    (use : Selector → Filter) (answers : ∀ d, call (.of d) = some (use d.selector)) :
    follow (fs.map Facet.name) find name call = some ((Facet.selectorIn name fs).map use) := by
  rw [Facet.selectorIn_eq]
  unfold follow
  cases found : fs.find? (·.name = name) with
  | none =>
    have absent : name ∉ fs.map Facet.name := by simpa using found
    rw [if_neg absent]
    rfl
  | some d =>
    have member := List.mem_of_find?_eq_some found
    have named : d.name = name := by simpa using List.find?_some found
    rw [← named, if_pos (List.mem_map_of_mem member), known d member, Option.elim_some, answers]
    rfl

theorem mapM_known {α : Type} (known : ∀ d ∈ fs, find d.name = some (.of d)) (call : String → Option Calls → Option α)
    (own : Facet → α) (answers : ∀ d, call d.name (some (.of d)) = some (own d)) :
    (fs.map Facet.name).mapM (fun name => call name (find name)) = some (fs.map own) := by
  induction fs with
  | nil => rfl
  | cons d rest ih =>
    obtain ⟨first, later⟩ := List.forall_mem_cons.mp known
    rw [List.map_cons, List.mapM_cons, first, answers, ih later]
    rfl

theorem groups_known (known : ∀ d ∈ fs, find d.name = some (.of d)) (call : List String → Calls → Option Filter)
    (use : List String → Selector → Filter) (answers : ∀ vs d, call vs (.of d) = some (use vs d.selector))
    (groups : List (String × List String)) :
    (groups.mapM fun group => follow (fs.map Facet.name) find group.1 (call group.2)) =
      some (groups.map fun group => (Facet.selectorIn group.1 fs).map (use group.2)) := by
  have followed : (fun group : String × List String => follow (fs.map Facet.name) find group.1 (call group.2)) =
      fun group => some ((Facet.selectorIn group.1 fs).map (use group.2)) :=
    funext fun group => follow_known known (call group.2) (use group.2) (answers group.2)
  rw [followed]
  exact List.mapM_pure

theorem getD_selected (selected : Option Selector) (use : Selector → Filter) :
    (selected.map use).getD .empty = selected.elim .empty use := by
  cases selected <;> rfl

theorem valuesOfAll_eq (l : LoadedFacets) (docno : Nat) : Facet.valuesOfAll l docno separator fs =
    (fs.map fun d => (d.valuesOf l docno).map fun value => d.name ++ separator ++ value).flatten := by
  induction fs with
  | nil => rfl
  | cons d rest ih => rw [Facet.valuesOfAll, ih, List.map_cons, List.flatten_cons]

theorem carriedCount_eq (l : LoadedFacets) (docno : Nat) : Facet.carriedCount l docno fs =
    (fs.map fun d => d.itemCount l docno).countP fun count => 0 < count := by
  induction fs with
  | nil => rfl
  | cons d rest ih => rw [Facet.carriedCount, ih, List.map_cons, List.countP_cons, Nat.add_comm]; simp

theorem combine_known (known : ∀ d ∈ fs, find d.name = some (.of d)) :
    combine separator (fs.map Facet.name) find = .of (.combo name separator fs) := by
  apply Calls.ext
  case value =>
    funext v
    simp only [combine, of, Facet.selector_combo, Selector.combine]
    cases Text.pair? separator v with
    | none => rfl
    | some parts =>
      rw [Option.elim_some, follow_known known (·.value parts.2) (·.value parts.2) fun d => rfl]
      exact congrArg some (getD_selected _ _)
  case every =>
    funext vs
    simp only [combine, of, Facet.selector_combo, Selector.combine]
    rw [groups_known known (fun vs c => c.every vs) (fun vs d => d.every vs) fun vs d => rfl, Option.map_some, List.map_map]
    simp only [Function.comp_def, getD_selected]
  case any =>
    funext vs
    simp only [combine, of, Facet.selector_combo, Selector.combine]
    rw [groups_known known (fun vs c => c.any vs) (fun vs d => d.any vs) fun vs d => rfl, Option.map_some, List.map_map]
    simp only [Function.comp_def, getD_selected]
  case exclude =>
    funext vs
    simp only [combine, of, Facet.selector_combo, Selector.combine]
    rw [groups_known known (fun vs c => c.exclude vs) (fun vs d => d.exclude vs) fun vs d => rfl, Option.map_some, List.filterMap_map]
    rfl
  case shown =>
    funext l docno
    simp only [combine, of]
    rw [mapM_known known (fun name c => c.elim (some []) fun c =>
      (c.shown l docno).map fun values => values.map fun value => name ++ separator ++ value) _ fun d => rfl]
    rw [Facet.valuesOf, valuesOfAll_eq]
    rfl
  case items =>
    funext l docno
    simp only [combine, of]
    rw [mapM_known known (fun _ c => c.elim (some 0) fun c => c.items l docno) _ fun d => rfl]
    rw [Facet.itemCount, carriedCount_eq]
    rfl

end Known

end Calls

namespace Declaration

def calls (ds : List Declaration) : Nat → Declaration → Calls
  | 0, _ => .unanswered
  | _ + 1, simple f => .of (.simple f)
  | _ + 1, keyed f => .of (.keyed f)
  | depth + 1, combo f => .combine f.separator f.dependsOn fun name => (ds.find? (·.name = name)).map (calls ds depth)

theorem unanswered_self {ds : List Declaration} {f : ComboDeclaration} (found : ds.find? (·.name = f.name) = some (.combo f))
    (itself : f.dependsOn = [f.name]) (depth : Nat) (l : LoadedFacets) (docno : Nat) :
    ((combo f).calls ds depth).shown l docno = none := by
  induction depth with
  | zero => rfl
  | succ depth ih => simp [calls, Calls.combine, itself, found, ih]

end Declaration

namespace Registry

variable {r : Registry} {ds : List Declaration}

-- The slot is the measure: what is called next stands in an earlier one.
theorem calls_answered (declared : r.facets.map Facet.declaration = ds) {depth slot : Nat} {f : Facet}
    (found : r.facets[slot]? = some f) (deep : slot < depth) : f.declaration.calls ds depth = .of f := by
  induction depth generalizing slot f with
  | zero => omega
  | succ depth ih =>
    cases f with
    | simple => rfl
    | keyed => rfl
    | combo name separator dependents =>
      refine Calls.combine_known fun d dependent => ?_
      obtain ⟨low, before, here⟩ := exists_slot_dependent found dependent
      have got : r.get? d.name = some d := get?_exact.mpr ⟨List.mem_of_getElem? here, rfl⟩
      rw [find?_declaration declared, got]
      exact congrArg some (ih here (by omega))

theorem ofDeclarations_exact (ds : List Declaration) :
    ((∃ r, ofDeclarations ds = .ok r) ↔ Declaration.Accepted ds) ∧
    (∀ e, ofDeclarations ds = .error e ↔ Declaration.FirstRefused ds e) ∧
    ∀ r, ofDeclarations ds = .ok r →
      r.facets.map Facet.declaration = ds ∧
      (∀ name f, r.get? name = some f ↔ f ∈ r.facets ∧ f.name = name) ∧
      (∀ f ∈ r.facets, ∀ d ∈ f.dependents, ∃ low high,
        r.slot? d.name = some low ∧ r.slot? f.name = some high ∧ low < high) ∧
      ∀ slot f, r.slot? f.name = some slot → r.get? f.name = some f →
        ∀ depth, slot < depth → f.declaration.calls ds depth = .of f := by
  refine ⟨ofDeclarations_ok_iff, fun e => ofDeclarations_error_iff, fun r registered => ?_⟩
  have declared := declared_of_ok registered
  refine ⟨declared, fun name f => get?_exact, ?_, ?_⟩
  · intro f member d dependent
    obtain ⟨high, found⟩ := List.mem_iff_getElem?.mp member
    obtain ⟨low, before, here⟩ := exists_slot_dependent found dependent
    exact ⟨low, high, slot?_exact here, slot?_exact found, before⟩
  · intro slot f placed got depth deep
    obtain ⟨own, found⟩ := List.mem_iff_getElem?.mp (get?_exact.mp got).1
    obtain rfl := Option.some.inj ((slot?_exact found).symm.trans placed)
    exact calls_answered declared found deep

theorem ofDeclarations_exact_outfits :
    let ds : List Declaration := [.simple { name := "tone" }, .keyed { name := "cut" },
      .combo { name := "looks", dependsOn := ["tone", "cut"] }, .combo { name := "outfits", dependsOn := ["looks", "cut"] }]
    let again : Declaration := .combo { name := "looks", dependsOn := ["outfits", "all"] }
    Declaration.Accepted ds ∧ Declaration.FirstRefused (ds ++ [again]) (.unknownDependency "looks" "all") ∧
    ∃ r f, ofDeclarations ds = .ok r ∧ r.get? "outfits" = some f ∧ f.declaration.calls ds 4 = .of f := by
  intro ds again
  obtain ⟨accepts, _, operations⟩ := ofDeclarations_exact ds
  obtain ⟨_, refuses, _⟩ := ofDeclarations_exact (ds ++ [again])
  obtain ⟨r, registered⟩ : ∃ r, ofDeclarations ds = .ok r := ⟨_, rfl⟩
  obtain ⟨declared, looked, _, calls⟩ := operations r registered
  obtain ⟨f, found⟩ : ∃ f, r.facets[3]? = some f := by
    have four : r.facets.length = 4 := by rw [← List.length_map, declared]; rfl
    exact ⟨_, List.getElem?_eq_getElem (by omega)⟩
  have named : f.name = "outfits" := by
    have same := congrArg (fun listed => listed[3]?.map Declaration.name) declared
    rw [List.getElem?_map, found] at same
    exact f.name_declaration.symm.trans (Option.some.inj same)
  have got : r.get? "outfits" = some f := (looked _ _).mpr ⟨List.mem_of_getElem? found, named⟩
  refine ⟨accepts.mp ⟨r, registered⟩, (refuses _).mp rfl, r, f, registered, got, ?_⟩
  exact calls 3 f (slot?_exact found) (named ▸ got) 4 (by omega)

end Registry

end FacetedSearch
