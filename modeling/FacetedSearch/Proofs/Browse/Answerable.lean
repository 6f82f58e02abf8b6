import FacetedSearch.Proofs.Browse.Hits

namespace FacetedSearch

def Request.counted (r : Request) : List String := (SortedSet.ofList (r.countSpecs.keys ++ r.facets)).toList

theorem Request.unplaced_iff {r : Request} :
    (r.within.isSome && r.query.isNone) = true ↔ ¬ (r.within.isSome → r.query.isSome) := by
  cases r.within <;> cases r.query <;> simp

namespace Registry

variable {r : Registry} {leftOut : Option String} {selections : List Selection}

def names (r : Registry) : List String := r.facets.map Facet.name

theorem exists_require {name : String} : (∃ f, r.require name = .ok f) ↔ name ∈ r.names := by
  simp only [require_exact, names, List.mem_map]

def unknown (r : Registry) (name : String) : List Error := if name ∈ r.names then [] else [.unknownFacet name]

theorem unknown_eq_nil {name : String} : r.unknown name = [] ↔ name ∈ r.names := by
  unfold unknown
  split
  · rename_i known
    exact iff_of_true rfl known
  · rename_i strange
    exact iff_of_false nofun strange

theorem reports_require (name : String) : Reports (r.require name) (r.unknown name) := by
  unfold unknown
  split
  · rename_i known
    obtain ⟨f, required⟩ := exists_require.mpr known
    rw [required]
    exact .clean f
  · rename_i strange
    have none : r.get? name = none := by
      apply List.find?_eq_none.mpr
      intro f member named
      exact strange (List.mem_map.mpr ⟨f, member, of_decide_eq_true named⟩)
    unfold require
    rw [none]
    exact .fault _ []

theorem reports_selectionFilters (leftOut : Option String) (selections : List Selection) :
    Reports (r.selectionFilters leftOut selections) (selections.flatMap fun s => r.unknown s.facet) := by
  induction selections with
  | nil => exact .clean []
  | cons s rest ih =>
    rw [selectionFilters]
    exact (reports_require s.facet).bind fun f _ => ih.map _

theorem reports_compose (selections : List Selection) (leftOut : Option String) :
    Reports (r.compose selections leftOut) (selections.flatMap fun s => r.unknown s.facet) :=
  (reports_selectionFilters leftOut selections).map _

theorem exists_compose (leftOut : Option String) :
    (∃ filter, r.compose selections leftOut = .ok filter) ↔ ∀ s ∈ selections, s.facet ∈ r.names := by
  simp only [(reports_compose selections leftOut).ok_iff, List.flatMap_eq_nil_iff, unknown_eq_nil]

-- The faults that are found before any segment is asked, in the order of the
-- checks.
def earlyFaults (registry : Registry) (r : Request) : List Error :=
  (if r.within.isSome && r.query.isNone then [.invalidRequest "section given without a query"] else []) ++
  r.selections.flatMap (fun s => registry.unknown s.facet) ++
  r.counted.flatMap registry.unknown ++
  r.sort.flatMap fun field => registry.unknown field.facet

end Registry

namespace Browser

variable {b : Browser} {r : Request} {name : String} {spec : CountSpec} {task : CountTask} {filter : Option Filter}
  {tasks : List CountTask}

def spec? (b : Browser) (r : Request) (name : String) : Option CountSpec :=
  r.countSpecs[name]?.or (if name ∈ r.facets then some b.settings.countSpec else none)

theorem getElem?_specs (b : Browser) (r : Request) (name : String) : (b.specs r)[name]? = b.spec? r name :=
  getElem?_insertAllIfNew r.facets b.settings.countSpec r.countSpecs name

theorem mem_specs : name ∈ b.specs r ↔ name ∈ r.countSpecs ∨ name ∈ r.facets := by
  rw [Std.ExtTreeMap.mem_iff_isSome_getElem?, getElem?_specs, spec?, Std.ExtTreeMap.mem_iff_isSome_getElem?]
  cases r.countSpecs[name]? <;> simp

theorem keys_specs : (b.specs r).keys = r.counted := by
  refine congrArg SortedSet.toList (SortedSet.eq_of_mem_iff (s := .ofKeys (b.specs r)) fun name => ?_)
  rw [SortedSet.mem_ofKeys, mem_specs, SortedSet.mem_ofList, List.mem_append, Std.ExtTreeMap.mem_keys]

theorem mem_counted (b : Browser) : name ∈ r.counted ↔ name ∈ b.specs r := by
  rw [← keys_specs (b := b), Std.ExtTreeMap.mem_keys]

-- The facet left out of its own counts brings no fault of its own: all selections
-- were composed before.
theorem reports_countTask (name : String) (spec : CountSpec) (selected : ∀ s ∈ r.selections, s.facet ∈ b.registry.names) :
    Reports (b.countTask r name spec) (b.registry.unknown name) := by
  rw [← List.append_nil (b.registry.unknown name)]
  refine (Registry.reports_require name).bind fun f _ => ?_
  simp only
  split
  · obtain ⟨own, composed⟩ := (Registry.exists_compose (some name)).mpr selected
    rw [composed]
    exact .clean _
  · exact .clean _

theorem reports_prepare (b : Browser) (r : Request) : Reports (b.prepare r) (b.registry.earlyFaults r) := by
  unfold prepare Registry.earlyFaults
  simp only [List.append_assoc]
  split
  · exact .fault _ _
  · refine (Registry.reports_compose _ none).bind fun filter composed => ?_
    have selected := (Registry.exists_compose none).mp ⟨filter, composed⟩
    have counted : r.counted.flatMap b.registry.unknown = (b.specs r).toList.flatMap fun p => b.registry.unknown p.1 := by
      rw [← keys_specs, ← Std.ExtTreeMap.map_fst_toList_eq_keys, List.flatMap_map]
    rw [counted]
    refine (Reports.mapM fun p _ => reports_countTask p.1 p.2 selected).bind fun tasks _ => ?_
    rw [← List.append_nil (r.sort.flatMap _)]
    refine (Reports.forM fun field _ => ?_).bind fun _ _ => .clean (filter, tasks)
    exact (Registry.reports_require field.facet).map _

theorem exists_prepare : (∃ prepared, b.prepare r = .ok prepared) ↔ (r.within.isSome → r.query.isSome) ∧
    (∀ s ∈ r.selections, s.facet ∈ b.registry.names) ∧ (∀ name ∈ b.specs r, name ∈ b.registry.names) ∧
    ∀ field ∈ r.sort, field.facet ∈ b.registry.names := by
  rw [(reports_prepare b r).ok_iff]
  unfold Registry.earlyFaults
  simp only [List.append_eq_nil_iff, List.flatMap_eq_nil_iff, Registry.unknown_eq_nil, mem_counted b, and_assoc,
    ite_eq_right_iff, List.cons_ne_nil, imp_false, Request.unplaced_iff, not_not]

theorem prepare_exact : b.prepare r = .ok (filter, tasks) ↔ (r.within.isSome → r.query.isSome) ∧
    b.registry.compose r.selections none = .ok filter ∧
    List.Forall₂ (fun p task => b.countTask r p.1 p.2 = .ok task) (b.specs r).toList tasks ∧
    ∀ field ∈ r.sort, field.facet ∈ b.registry.names := by
  have sorted : (r.sort.forM fun field => discard (b.registry.require field.facet)) = .ok () ↔
      ∀ field ∈ r.sort, field.facet ∈ b.registry.names := by
    simp only [forM_ok_exact, ← Registry.exists_require]
    refine forall₂_congr fun field _ => ?_
    cases b.registry.require field.facet with
    | error e => exact iff_of_false nofun nofun
    | ok f => exact iff_of_true rfl ⟨f, rfl⟩
  have steps : ∀ pair, (do
      let filter ← b.registry.compose r.selections none
      let tasks ← (b.specs r).toList.mapM fun (name, spec) => b.countTask r name spec
      r.sort.forM fun field => discard (b.registry.require field.facet)
      return (filter, tasks)) = .ok pair ↔ b.registry.compose r.selections none = .ok pair.1 ∧
        List.Forall₂ (fun p task => b.countTask r p.1 p.2 = .ok task) (b.specs r).toList pair.2 ∧
        ∀ field ∈ r.sort, field.facet ∈ b.registry.names := by
    intro pair
    simp only [bind_ok_exact, mapM_ok_exact]
    constructor
    · intro ⟨filter, composed, tasks, made, _, known, same⟩
      cases same
      exact ⟨composed, made, sorted.mp known⟩
    · intro ⟨composed, made, known⟩
      exact ⟨_, composed, _, made, (), sorted.mpr known, rfl⟩
  unfold prepare
  split
  · rename_i refused
    exact iff_of_false nofun fun parts => Request.unplaced_iff.mp refused parts.1
  · rename_i kept
    exact (steps (filter, tasks)).trans (and_iff_right (not_not.mp (Request.unplaced_iff.not.mp kept))).symm

theorem prepare_tasks (prepared : b.prepare r = .ok (filter, tasks)) :
    tasks.map (fun task => (task.name, task.spec)) = (b.specs r).toList ∧ ∀ task ∈ tasks, Made b r filter task := by
  obtain ⟨_, composed, made, _⟩ := prepare_exact.mp prepared
  constructor
  · apply Eq.symm
    rw [← List.map_id (b.specs r).toList]
    apply map_eq_of_related made
    intro p task made
    obtain ⟨named, counted, _⟩ := countTask_parts composed made
    exact Prod.ext named.symm counted.symm
  · intro task member
    obtain ⟨p, _, made⟩ := exists_of_related made member
    exact (countTask_parts composed made).2.2

theorem names_tasks (prepared : b.prepare r = .ok (filter, tasks)) : tasks.map (·.name) = (b.specs r).keys := by
  rw [← Std.ExtTreeMap.map_fst_toList_eq_keys, ← (prepare_tasks prepared).1, List.map_map]
  rfl

theorem exists_task (prepared : b.prepare r = .ok (filter, tasks)) :
    (∃ task ∈ tasks, task.name = name ∧ task.spec = spec) ↔ b.spec? r name = some spec := by
  rw [← getElem?_specs, ← Std.ExtTreeMap.mem_toList_iff_getElem?_eq_some, ← (prepare_tasks prepared).1]
  simp only [List.mem_map, Prod.mk.injEq]

theorem checks_exact : b.checks r tasks = .ok () ↔ (∀ task ∈ tasks, task.facet.countable = .ok ()) ∧
    ∀ field ∈ r.sort, ∃ f, b.registry.require field.facet = .ok f ∧ f.sortable = .ok () := by
  simp only [← bind_ok_exact, ← forM_ok_exact]
  exact bind_ok_exact.trans ⟨fun ⟨_, counts, sorts⟩ => ⟨counts, sorts⟩, fun ⟨counts, sorts⟩ => ⟨(), counts, sorts⟩⟩

-- What makes a request one that is answered. An empty index asks no segment, so
-- it never finds that a facet cannot be counted or sorted by.
structure Answerable (b : Browser) (r : Request) : Prop where
  placed : r.within.isSome → r.query.isSome
  selected : ∀ s ∈ r.selections, s.facet ∈ b.registry.names
  counted : ∀ name ∈ b.specs r, name ∈ b.registry.names
  sorted : ∀ field ∈ r.sort, field.facet ∈ b.registry.names
  queried : ∀ s ∈ b.segments, ∃ queried, b.queryDocs r s = .ok queried
  countable : b.segments ≠ [] → ∀ f ∈ b.registry.facets, f.name ∈ b.specs r → f.countable = .ok ()
  sortable : b.segments ≠ [] → ∀ f ∈ b.registry.facets, f.name ∈ r.sort.map (·.facet) → f.sortable = .ok ()

theorem exists_share {s : LiveSegment} (loads : s.Loads b.registry)
    (known : ∀ task ∈ tasks, task.facet ∈ b.registry.facets) : (∃ share, b.share r filter tasks s = .ok share) ↔
      (∃ queried, b.queryDocs r s = .ok queried) ∧ b.checks r tasks = .ok () := by
  rw [share_exact loads known]
  simp only [exists_bind_ok]
  constructor
  · intro ⟨queried, asked, _, checked, _⟩
    exact ⟨⟨queried, asked⟩, checked⟩
  · intro ⟨⟨queried, asked⟩, checked⟩
    exact ⟨queried, asked, (), checked, _, rfl⟩

theorem checks_of_prepare (prepared : b.prepare r = .ok (filter, tasks)) : b.checks r tasks = .ok () ↔
    (∀ f ∈ b.registry.facets, f.name ∈ b.specs r → f.countable = .ok ()) ∧
      ∀ f ∈ b.registry.facets, f.name ∈ r.sort.map (·.facet) → f.sortable = .ok () := by
  obtain ⟨_, _, _, sorted⟩ := prepare_exact.mp prepared
  obtain ⟨listed, made⟩ := prepare_tasks prepared
  rw [checks_exact]
  apply and_congr
  · constructor
    · intro countable f known counted
      obtain ⟨spec, given⟩ := Option.isSome_iff_exists.mp (Std.ExtTreeMap.mem_iff_isSome_getElem?.mp counted)
      rw [getElem?_specs] at given
      obtain ⟨task, member, named, _⟩ := (exists_task prepared).mpr given
      have own := Registry.require_exact.mpr ⟨known, rfl⟩
      rw [← named, (made task member).facet] at own
      cases own
      exact countable task member
    · intro countable task member
      obtain ⟨known, named⟩ := Registry.require_exact.mp (made task member).facet
      apply countable task.facet known
      rw [named, Std.ExtTreeMap.mem_iff_isSome_getElem?, getElem?_specs, (exists_task prepared).mp ⟨task, member, rfl, rfl⟩]
      rfl
  · constructor
    · intro sortable f known field
      obtain ⟨field, asked, named⟩ := List.mem_map.mp field
      obtain ⟨g, required, can⟩ := sortable field asked
      rw [named, Registry.require_exact.mpr ⟨known, rfl⟩] at required
      cases required
      exact can
    · intro sortable field asked
      obtain ⟨f, required⟩ := Registry.exists_require.mpr (sorted field asked)
      obtain ⟨known, named⟩ := Registry.require_exact.mp required
      exact ⟨f, required, sortable f known (List.mem_map.mpr ⟨field, asked, named.symm⟩)⟩

theorem exists_browse (loads : ∀ s ∈ b.segments, s.Loads b.registry) :
    (∃ answer, b.browse r = .ok answer) ↔ b.Answerable r := by
  constructor
  · intro ⟨answer, browsed⟩
    obtain ⟨filter, tasks, shares, prepared, shared, _⟩ := browse_parts browsed
    obtain ⟨placed, selected, counted, sorted⟩ := exists_prepare.mp ⟨_, prepared⟩
    have asks : ∀ s ∈ b.segments, (∃ queried, b.queryDocs r s = .ok queried) ∧ b.checks r tasks = .ok () := by
      intro s live
      apply (exists_share (loads s live) (prepare_parts prepared).2).mp
      exact exists_mapM_ok.mp ⟨shares, mapM_ok_exact.mpr shared⟩ s live
    have checked : b.segments ≠ [] → b.checks r tasks = .ok () := by
      intro filled
      obtain ⟨s, live⟩ := List.exists_mem_of_ne_nil _ filled
      exact (asks s live).2
    exact ⟨placed, selected, counted, sorted, fun s live => (asks s live).1,
      fun filled => ((checks_of_prepare prepared).mp (checked filled)).1,
      fun filled => ((checks_of_prepare prepared).mp (checked filled)).2⟩
  · intro answerable
    obtain ⟨⟨filter, tasks⟩, prepared⟩ := exists_prepare.mpr
      ⟨answerable.placed, answerable.selected, answerable.counted, answerable.sorted⟩
    obtain ⟨shares, shared⟩ : ∃ shares, b.segments.mapM (b.share r filter tasks) = .ok shares := by
      apply exists_mapM_ok.mpr
      intro s live
      have filled := List.ne_nil_of_mem live
      apply (exists_share (loads s live) (prepare_parts prepared).2).mpr
      exact ⟨answerable.queried s live,
        (checks_of_prepare prepared).mpr ⟨answerable.countable filled, answerable.sortable filled⟩⟩
    exact ⟨_, browse_assemble prepared (mapM_ok_exact.mp shared)⟩

end Browser

end FacetedSearch
