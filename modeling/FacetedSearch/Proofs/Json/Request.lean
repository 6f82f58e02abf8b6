import FacetedSearch.Json.Request
import FacetedSearch.Proofs.Json.Query

namespace FacetedSearch

namespace Properties

def Fits (p : Properties) : Prop := ∀ n ∈ p.maxPerKey, n < UInt64.size

theorem ofJson?_toJson {p : Properties} (fits : p.Fits) : ofJson? p.toJson = some p := by
  have fields : p.toJson.record? [maxPerKeyName, separatorName] =
      some [p.maxPerKey.map Json.nat, p.separator.map Json.str] := by
    obtain ⟨maxPerKey, separator⟩ := p
    cases maxPerKey <;> cases separator <;> rfl
  have limit : Json.defaulted (Json.optional? (Json.natBelow? UInt64.size)) none (p.maxPerKey.map Json.nat) =
      some p.maxPerKey := Json.defaulted_map fun n set => by simp [Json.optional?, fits n set]
  have cut : Json.defaulted (Json.optional? Json.str?) none (p.separator.map Json.str) = some p.separator :=
    Json.defaulted_map fun s _ => rfl
  simp [ofJson?, fields, limit, cut]

end Properties

@[simp] theorem Combination.ofJson?_toJson (c : Combination) : ofJson? c.toJson = some c := by
  cases c <;> rfl

namespace Selection

theorem ofJson?_toJson {s : Selection} (fits : s.properties.Fits) : ofJson? s.toJson = some s := by
  simp [ofJson?, toJson, Properties.ofJson?_toJson fits]

end Selection

namespace EntryOrder

theorem toJson?_eq_none {o : EntryOrder} : o.toJson? = none ↔ ∃ compare, o = .custom compare := by
  cases o <;> simp [toJson?]

theorem ofJson?_of_written {o : EntryOrder} {j : Json} (written : o.toJson? = some j) : ofJson? j = some o := by
  cases o with
  | byValue | byHits =>
    obtain rfl := Option.some.inj written
    rfl
  | custom => cases written

end EntryOrder

namespace CountSpec

def Unwritable (s : CountSpec) : Prop := ∃ compare, s.order = .custom compare

theorem toJson?_eq_none {s : CountSpec} : s.toJson? = none ↔ s.Unwritable := by
  rw [Unwritable, ← EntryOrder.toJson?_eq_none, toJson?]
  cases s.order.toJson? <;> simp

theorem ofJson?_of_written {s : CountSpec} {j : Json} (inside : s.limit < UInt64.size) (written : s.toJson? = some j) :
    ofJson? j = some s := by
  obtain ⟨order, ordered, whole⟩ := Option.bind_eq_some_iff.mp written
  obtain rfl := Option.some.inj whole
  simp [ofJson?, inside, EntryOrder.ofJson?_of_written ordered]

theorem mapToJson?_eq_none {specs : Std.ExtTreeMap String CountSpec} :
    mapToJson? specs = none ↔ ∃ (name : String) (s : CountSpec), specs[name]? = some s ∧ s.Unwritable := by
  rw [mapToJson?, Option.map_eq_none_iff, Json.mapM_eq_none]
  simp only [Option.map_eq_none_iff, Prod.exists, Std.ExtTreeMap.mem_toList_iff_getElem?_eq_some, toJson?_eq_none]

theorem mapOfJson?_of_written {specs : Std.ExtTreeMap String CountSpec} {j : Json}
    (fits : ∀ (name : String) (s : CountSpec), specs[name]? = some s → s.limit < UInt64.size)
    (written : mapToJson? specs = some j) : mapOfJson? j = some specs := by
  obtain ⟨fields, listed, rfl⟩ := Option.map_eq_some_iff.mp written
  have each : ∀ binding ∈ specs.toList, ∀ j, toJson? binding.2 = some j → ofJson? j = some binding.2 :=
    fun binding member _ one =>
      ofJson?_of_written (fits _ _ (Std.ExtTreeMap.mem_toList_iff_getElem?_eq_some.mp member)) one
  rw [mapOfJson?, Json.entries?_of_written toJson? listed each, Option.map_some, ofList_toList]

end CountSpec

theorem SortField.ofJson?_toJson (f : SortField) : ofJson? f.toJson = some f := rfl

namespace Request

structure Fits (r : Request) : Prop where
  selections : ∀ s ∈ r.selections, s.properties.Fits
  countSpecs : ∀ (name : String) (s : CountSpec), r.countSpecs[name]? = some s → s.limit < UInt64.size
  offset : r.offset < UInt64.size
  count : r.count < UInt64.size

theorem toJson?_eq_none {r : Request} :
    r.toJson? = none ↔ ∃ (name : String) (s : CountSpec), r.countSpecs[name]? = some s ∧ s.Unwritable := by
  rw [← CountSpec.mapToJson?_eq_none, toJson?]
  cases CountSpec.mapToJson? r.countSpecs <;> simp

theorem ofJson?_of_written {r : Request} {j : Json} (fits : r.Fits) (written : r.toJson? = some j) :
    ofJson? j = some r := by
  obtain ⟨specs, listed, whole⟩ := Option.bind_eq_some_iff.mp written
  obtain rfl := Option.some.inj whole
  have selections : Selection.listOfJson? (.ofList Selection.toJson r.selections) = some r.selections :=
    Json.list?_ofList fun s member => Selection.ofJson?_toJson (fits.selections s member)
  have query := Json.optional?_ofOption r.query Query.ofJson?_toJson Query.toJson_ne_null
  have within := Json.optional?_ofOption r.within Json.str?_str fun _ => nofun
  have sort : Json.list? SortField.ofJson? (.ofList SortField.toJson r.sort) = some r.sort :=
    Json.list?_ofList fun f _ => f.ofJson?_toJson
  simp [ofJson?, selections, CountSpec.mapOfJson?_of_written fits.countSpecs listed, query, within, fits.offset,
    fits.count, sort]

end Request

namespace Settings

theorem toJson?_eq_none {s : Settings} : s.toJson? = none ↔ s.countSpec.Unwritable := by
  rw [← CountSpec.toJson?_eq_none, toJson?]
  cases s.countSpec.toJson? <;> simp

theorem ofJson?_of_written {s : Settings} {j : Json} (inside : s.countSpec.limit < UInt64.size)
    (written : s.toJson? = some j) : ofJson? j = some s := by
  obtain ⟨spec, one, whole⟩ := Option.bind_eq_some_iff.mp written
  obtain rfl := Option.some.inj whole
  simp [ofJson?, CountSpec.ofJson?_of_written inside one]

end Settings

end FacetedSearch
