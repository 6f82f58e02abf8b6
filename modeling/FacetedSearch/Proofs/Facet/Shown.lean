import FacetedSearch.Facet.Values
import FacetedSearch.Proofs.Facet.SelectedDocs
import FacetedSearch.Proofs.Filter.Agreement

namespace FacetedSearch

namespace Facet

def written (path : List (String × String)) (value : String) : String :=
  path.foldr (fun step rest => step.1 ++ step.2 ++ rest) value

-- A document has a value of a facet that owns its values and is reached over the
-- path: at every combination on it, one of the dependents.
inductive Carries (l : LoadedFacets) (docno : Nat) : Facet → List (String × String) → String → Prop where
  | simple {f : SimpleFacet} {value : String} (shown : value ∈ l.valuesAt f.name docno) :
    Carries l docno (.simple f) [] value
  | keyed {f : KeyedFacet} {value : String} (shown : value ∈ l.valuesAt f.name docno) :
    Carries l docno (.keyed f) [] value
  | combo {name separator value : String} {dependents : List Facet} {d : Facet} {path : List (String × String)}
    (member : d ∈ dependents) (carries : Carries l docno d path value) :
    Carries l docno (.combo name separator dependents) ((d.name, separator) :: path) value

section Shown

variable {l : LoadedFacets} {docno : Nat}

theorem mem_valuesOfAll {separator v : String} {fs : List Facet} : v ∈ valuesOfAll l docno separator fs ↔
    ∃ d ∈ fs, ∃ w ∈ d.valuesOf l docno, d.name ++ separator ++ w = v := by
  induction fs with
  | nil => simp [valuesOfAll]
  | cons d rest ih => rw [valuesOfAll, List.mem_append, ih, List.mem_map, List.exists_mem_cons_iff]

theorem mem_valuesOf {f : Facet} {v : String} :
    v ∈ f.valuesOf l docno ↔ ∃ path value, f.Carries l docno path value ∧ v = written path value := by
  induction f using byDependents generalizing v with
  | simple f =>
    rw [valuesOf]
    constructor
    · exact fun shown => ⟨[], v, .simple shown, rfl⟩
    · rintro ⟨_, value, carries, rfl⟩
      cases carries with
      | simple shown => exact shown
  | keyed f =>
    rw [valuesOf]
    constructor
    · exact fun shown => ⟨[], v, .keyed shown, rfl⟩
    · rintro ⟨_, value, carries, rfl⟩
      cases carries with
      | keyed shown => exact shown
  | combo name separator dependents ih =>
    rw [valuesOf, mem_valuesOfAll]
    constructor
    · rintro ⟨d, member, w, shown, rfl⟩
      obtain ⟨path, value, carries, rfl⟩ := (ih d member).mp shown
      exact ⟨_, value, .combo member carries, rfl⟩
    · rintro ⟨_, value, carries, rfl⟩
      cases carries with
      | combo member carries => exact ⟨_, member, _, (ih _ member).mpr ⟨_, value, carries, rfl⟩, rfl⟩

end Shown

theorem written_ne_empty {path : List (String × String)} {value : String}
    (ends : ∀ step ∈ path, Text.Ends step.2 step.1) : written path value ≠ "" ↔ path ≠ [] ∨ value ≠ "" := by
  cases path with
  | nil => simp [written]
  | cons step rest =>
    have named := (ends step List.mem_cons_self).1
    simp [written, String.append_eq_empty_iff, named]

section Selected

variable {r : Registry} {s : Source} {l : LoadedFacets} {f : Facet} {docno : Nat} {path : List (String × String)}
  {value : String}

theorem lt_of_carries (loaded : LoadedFacets.load r s = .ok l) (known : f ∈ r.facets)
    (carries : f.Carries l docno path value) : docno < s.documentCount := by
  obtain ⟨rfl, _⟩ := LoadedFacets.load_exact.mp loaded
  induction carries with
  | simple shown => exact LoadedFacets.lt_of_mem_valuesAt known shown
  | keyed shown => exact LoadedFacets.lt_of_mem_valuesAt known shown
  | combo member _ ih => exact ih (r.mem_of_mem_dependents known member)

theorem satisfies_written (loaded : LoadedFacets.load r s = .ok l) (known : f ∈ r.facets)
    (carries : f.Carries l docno path value) (ends : ∀ step ∈ path, Text.Ends step.2 step.1) :
    f.Satisfies (s.storedValues docno) (written path value) ↔ path = [] ∨ value ≠ "" := by
  have shows := LoadedFacets.shows_of_load loaded (lt_of_carries loaded known carries)
  -- Each combination on the way takes off the name that was put in front and hands
  -- on the rest. Only of the empty value nothing is left to hand on.
  induction carries with
  | simple shown =>
    refine iff_of_true ?_ (.inl rfl)
    exact (satisfies_simple (shows.admits _ known)).mpr ((shows.exact _ known _).mp shown)
  | keyed shown =>
    refine iff_of_true ?_ (.inl rfl)
    exact satisfies_keyed.mpr ⟨_, (shows.exact _ known _).mp shown, .inl rfl⟩
  | @combo name separator value dependents d path member carries ih =>
    have own := fun d dependent => r.mem_of_mem_dependents (d := d) known dependent
    have below := fun step inside => ends step (List.mem_cons_of_mem _ inside)
    rw [satisfies_combo]
    simp only [written, List.foldr_cons, (ends _ List.mem_cons_self).pair_iff]
    rw [← written, written_ne_empty below]
    have ih := ih (own d member) below
    constructor
    · rintro ⟨_, _, ⟨filled, rfl, rfl⟩, e, dependent, named, satisfied⟩
      rw [r.eq_of_name (own e dependent) (own d member) named] at satisfied
      rcases ih.mp satisfied with direct | some
      · exact .inr (filled.resolve_left (not_not_intro direct))
      · exact .inr some
    · intro some
      have some := some.resolve_left (List.cons_ne_nil _ _)
      exact ⟨_, _, ⟨.inr some, rfl, rfl⟩, d, member, rfl, ih.mpr (.inr some)⟩

end Selected

theorem shown_values_select (r : Registry) (s : Source) (l : LoadedFacets) (loaded : LoadedFacets.load r s = .ok l)
    (f : Facet) (known : f ∈ r.facets) (docno : Nat) :
    (∀ v, v ∈ f.valuesOf l docno ↔ ∃ path value, f.Carries l docno path value ∧ v = written path value) ∧
      (∀ path value, f.Carries l docno path value → (∀ step ∈ path, Text.Ends step.2 step.1) →
        ((f.selector.value (written path value)).holds l docno = true ↔ path = [] ∨ value ≠ "")) ∧
      (∀ separator name rest, Text.pair? separator (name ++ separator ++ rest) = some (name, rest) ↔
        Text.Ends separator name ∧ rest ≠ "") ∧
      ∀ separator v name rest, Text.pair? separator v = some (name, rest) → name ++ separator ++ rest = v := by
  refine ⟨fun v => mem_valuesOf, fun path value carries ends => ?_, fun separator name rest => ?_, ?_⟩
  · have inside := lt_of_carries loaded known carries
    have found : docno ∈ (f.selector.value (written path value)).docs l ↔ _ := mem_value loaded known
    rw [satisfies_written loaded known carries ends, and_iff_right inside] at found
    rw [← found]
    obtain ⟨rfl, _⟩ := LoadedFacets.load_exact.mp loaded
    exact Filter.holds_iff_mem_docs docno (f.filled_selector.value _)
  · exact Text.pair?_exact.trans Text.pair_written
  · exact fun separator v name rest parsed => Text.written_pair (Text.pair?_exact.mp parsed)

def tone : Facet := .simple { name := "tone" }

def cut : Facet := .keyed { name := "cut" }

def looks : Facet := .combo "looks" "::" [tone, cut]

def garments : Facet := .combo "garments" ":" [cut, looks]

def tailored : Registry :=
  ((((∅ : Registry).add tone (by decide) nofun).add cut (by decide) nofun).add looks (by decide) fun _ member => member).add
    garments (by decide) (by simp [Registry.add, garments, dependents])

def coats : Source where
  documentCount := 2
  postings _ := []
  storedValues docno field := if docno = 0 then
      if field = "tone" then [":dark"] else ["fit=slim", "slim"]
    else if field = "tone" then [""] else []

theorem shown_values_select_coats : ∃ l, LoadedFacets.load tailored coats = .ok l ∧
    garments.valuesOf l 0 = ["cut:fit=slim", "looks:tone:::dark", "looks:cut::fit=slim"] ∧
    (garments.selector.value "looks:tone:::dark").holds l 0 = true ∧
    garments.valuesOf l 1 = ["looks:tone::"] ∧ ¬ (garments.selector.value "looks:tone::").holds l 1 = true := by
  have loaded : LoadedFacets.load tailored coats = .ok (.ofSource tailored coats) := rfl
  have known : garments ∈ tailored.facets := List.mem_append_right _ (List.mem_singleton_self garments)
  obtain ⟨_, reads, taken, _⟩ := shown_values_select tailored coats _ loaded garments known 0
  obtain ⟨_, bare, _⟩ := shown_values_select tailored coats _ loaded garments known 1
  have ends : ∀ step ∈ [("looks", ":"), ("tone", "::")], Text.Ends step.2 step.1 := by
    intro step inside
    rcases List.mem_pair.mp inside with rfl | rfl
    · exact (Text.ends_iff_not_mem rfl).mpr (by decide)
    · exact ((taken "::" "tone" "x").mp (by decide +kernel)).1
  have dark : garments.Carries (.ofSource tailored coats) 0 [("looks", ":"), ("tone", "::")] ":dark" :=
    .combo (.tail _ (.head _)) (.combo (.head _) (.simple (by decide +kernel)))
  have none : garments.Carries (.ofSource tailored coats) 1 [("looks", ":"), ("tone", "::")] "" :=
    .combo (.tail _ (.head _)) (.combo (.head _) (.simple (by decide +kernel)))
  refine ⟨_, loaded, by decide +kernel, (reads _ _ dark ends).mpr (.inr (by decide)), by decide +kernel, fun held => ?_⟩
  exact absurd ((bare _ _ none ends).mp held) (by decide)

def blend : Facet := .simple { name := "cotton:wool" }

def fabrics : Facet := .combo "fabrics" ":" [blend]

def woven : Registry :=
  ((∅ : Registry).add blend (by decide) nofun).add fabrics (by decide) fun _ member => member

def cloths : Source where
  documentCount := 1
  postings _ := []
  storedValues _ _ := ["soft"]

-- A name in which the separator occurs is cut off too early.
theorem shown_value_lost : ¬ ∀ (r : Registry) (s : Source) (l : LoadedFacets), LoadedFacets.load r s = .ok l →
    ∀ (name separator : String) (dependents : List Facet), .combo name separator dependents ∈ r.facets →
      ∀ (docno : Nat), ∀ v ∈ (combo name separator dependents).valuesOf l docno,
        ((combo name separator dependents).selector.value v).holds l docno = true := by
  intro selects
  have known : fabrics ∈ woven.facets := List.mem_append_right _ (List.mem_singleton_self fabrics)
  have held := selects woven cloths _ rfl "fabrics" ":" [blend] known 0 "cotton:wool:soft" (by decide +kernel)
  exact absurd held (by decide +kernel)

end Facet

end FacetedSearch
