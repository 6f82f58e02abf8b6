import FacetedSearch.Proofs.Browse.Reordered

namespace FacetedSearch

namespace Request

def without (r : Request) (name : String) : Request := { r with selections := r.selections.filter (·.facet ≠ name) }

def counting (r : Request) (name : String) (spec : CountSpec) : Request :=
  { r with countSpecs := r.countSpecs.insert name spec }

variable {r : Request} {name : String} {spec : CountSpec}

theorem selection?_without : (r.without name).selection? name = none := by
  unfold without selection?
  rw [List.find?_eq_none]
  intro s member named
  exact of_decide_eq_true (List.mem_filter.mp member).2 (of_decide_eq_true named)

theorem without_unselected (unselected : (r.selection? name).isSome = false) : r.without name = r := by
  have kept : r.selections.filter (·.facet ≠ name) = r.selections := by
    apply List.filter_eq_self.mpr
    intro s member
    apply decide_eq_true
    intro named
    rw [isSome_selection?.mpr ⟨s, member, named⟩] at unselected
    cases unselected
  unfold without
  rw [kept]

end Request

theorem Registry.acceptsAll_without {registry : Registry} {stored : String → List String} {r : Request} {name : String} :
    registry.AcceptsAll stored none (r.without name).selections ↔ registry.AcceptsAll stored (some name) r.selections := by
  unfold AcceptsAll Request.without
  simp only [List.mem_filter, decide_eq_true_eq, and_imp]
  refine forall₂_congr fun s member => ?_
  constructor
  · intro accepted kept
    exact accepted (fun named => kept (congrArg some named.symm)) nofun
  · intro accepted other _
    exact accepted fun named => other (Option.some.inj named).symm

namespace Browser

variable {b : Browser} {r : Request} {f : Facet} {spec : CountSpec} {name : String} {s : LiveSegment} {docno : Nat}

def segmentCounts (b : Browser) (r : Request) (f : Facet) (filter : Option Filter) (s : LiveSegment) :
    Except Error ValueCounts := do
  let queried ← b.queryDocs r s
  f.count s.facets (restrict s.facets filter queried).toList

def rawCounts (b : Browser) (r : Request) (f : Facet) : Except Error ValueCounts := do
  let filter ← b.registry.compose r.selections none
  b.segments.foldlM (fun counted s => return counted.merge (← b.segmentCounts r f filter s)) ∅

section Counts

variable {asked : List (LiveSegment × Option DocSet)} {filter : Option Filter} {queried : Option DocSet}

theorem segmentCounts_exact (loads : s.Loads b.registry) (known : f ∈ b.registry.facets) (countable : f.countable = .ok ())
    (answered : b.queryDocs r s = .ok queried) : b.segmentCounts r f filter s =
      .ok (.ofRows ((restrict s.facets filter queried).toList.map (s.facets.valuesAt f.name))) := by
  have counts := Facet.count_ofSource (s := s.source) known (restrict s.facets filter queried).toList
  rw [← loads.loaded, countable] at counts
  rw [segmentCounts, answered]
  exact counts

theorem foldlM_segmentCounts (loads : ∀ p ∈ asked, p.1.Loads b.registry) (answered : ∀ p ∈ asked, b.queryDocs r p.1 = .ok p.2)
    (known : f ∈ b.registry.facets) (countable : asked ≠ [] → f.countable = .ok ()) (before : List (List String)) :
    (asked.map Prod.fst).foldlM (fun counted s => return counted.merge (← b.segmentCounts r f filter s))
      (ValueCounts.ofRows before) = .ok (.ofRows (before ++ rows asked filter f.name)) := by
  induction asked generalizing before with
  | nil =>
    rw [rows, List.flatMap_nil, List.append_nil]
    rfl
  | cons p rest ih =>
    obtain ⟨first, later⟩ := List.forall_mem_cons.mp loads
    obtain ⟨own, others⟩ := List.forall_mem_cons.mp answered
    have can := countable (List.cons_ne_nil p rest)
    have merged := ih later others (fun _ => can)
      (before ++ (restrict p.1.facets filter p.2).toList.map (p.1.facets.valuesAt f.name))
    rw [← ValueCounts.merge_ofRows, List.append_assoc] at merged
    rw [List.map_cons, List.foldlM_cons, segmentCounts_exact first known can own]
    exact merged

theorem rawCounts_exact (loads : ∀ s ∈ b.segments, s.Loads b.registry) (answered : Asked b r asked)
    (known : f ∈ b.registry.facets) (countable : b.segments ≠ [] → f.countable = .ok ())
    (composed : b.registry.compose r.selections none = .ok filter) :
    b.rawCounts r f = .ok (.ofRows (rows asked filter f.name)) := by
  rw [rawCounts, composed, ← answered.segments]
  refine foldlM_segmentCounts (answered.loads loads) answered.queried known (fun filled => countable ?_) []
  rw [← answered.segments]
  simpa using filled

end Counts

theorem finds_without : b.Finds (r.without name) none s docno ↔ b.Finds r (some name) s docno := by
  constructor
  · intro finds
    exact ⟨finds.inside, Registry.acceptsAll_without.mp finds.accepted, finds.queried⟩
  · intro finds
    exact ⟨finds.inside, Registry.acceptsAll_without.mpr finds.accepted, finds.queried⟩

theorem finds_expanded (expands : spec.expandsSelection = true) :
    b.Finds (r.without name) none s docno ↔ b.Finds r (scope r name spec) s docno := by
  unfold scope
  rw [expands, Bool.true_and]
  split
  · exact finds_without
  · rename_i unselected
    rw [Request.without_unselected (Bool.not_eq_true _ ▸ unselected)]

theorem Answerable.without (answerable : b.Answerable r) (name : String) : b.Answerable (r.without name) :=
  ⟨answerable.placed, fun s member => answerable.selected s (List.mem_of_mem_filter member), answerable.counted,
    answerable.sorted, answerable.queried, answerable.countable, answerable.sortable⟩

theorem facet_expanded {answer : Answer} (loads : ∀ s ∈ b.segments, s.Loads b.registry) (browsed : b.browse r = .ok answer)
    (known : f ∈ b.registry.facets) (given : b.spec? r f.name = some spec) (expands : spec.expandsSelection = true) :
    ∃ reduced counted, b.browse (r.without f.name) = .ok reduced ∧ b.rawCounts (r.without f.name) f = .ok counted ∧
      answer.facets[f.name]? = some (spec.finish (f.countOptions (r.selection? f.name)) counted) ∧
      reduced.facets[f.name]? = some (spec.finish (f.countOptions none) counted) := by
  have answerable := (exists_browse loads).mp ⟨answer, browsed⟩
  obtain ⟨reduced, again⟩ := (exists_browse loads).mpr (answerable.without f.name)
  obtain ⟨filter, tasks, asked, prepared, answered, rfl⟩ := browse_contributions loads browsed
  obtain ⟨filter', tasks', asked', prepared', answered', rfl⟩ := browse_contributions loads again
  have alone : Asked b r asked' := ⟨answered'.segments, answered'.queried⟩
  obtain rfl := answered.unique alone
  obtain ⟨g, other, own, _, composed, finished⟩ := exists_facet asked' prepared given
  obtain rfl := b.registry.eq_of_name other known own
  obtain ⟨g', other', own', _, composed', finished'⟩ := exists_facet asked' prepared' given
  obtain rfl := b.registry.eq_of_name other' known own'
  have nothing : scope (r.without g'.name) g'.name spec = none := by
    rw [scope, Request.selection?_without, Option.isSome_none, Bool.and_false, if_neg Bool.false_ne_true]
  rw [nothing] at composed'
  have counted := rows_same (restrict_alike loads answered answered' composed composed' fun _ _ => finds_expanded expands)
    g'.name
  refine ⟨_, _, again, rawCounts_exact loads answered' known (fun filled => ?_) composed', ?_, ?_⟩
  · exact answerable.countable filled g' known (mem_specs_of_spec? given)
  · rw [finished, counted]
  · rw [finished', Request.selection?_without]

section Other

variable {other : String}

theorem spec?_counting (apart : other ≠ name) : b.spec? (r.counting name spec) other = b.spec? r other := by
  unfold spec? Request.counting
  rw [Std.ExtTreeMap.getElem?_insert, if_neg fun same => apart (Std.LawfulEqCmp.eq_of_compare same).symm]

theorem mem_specs_counting (listed : name ∈ b.specs r) : other ∈ b.specs (r.counting name spec) ↔ other ∈ b.specs r := by
  rw [mem_specs] at listed ⊢
  rw [mem_specs, Request.counting, Std.ExtTreeMap.mem_insert, Std.LawfulEqCmp.compare_eq_iff_eq]
  constructor
  · rintro ((rfl | given) | named)
    · exact listed
    · exact .inl given
    · exact .inr named
  · rintro (given | named)
    · exact .inl (.inr given)
    · exact .inr named

theorem Answerable.counting (answerable : b.Answerable r) (listed : name ∈ b.specs r) (spec : CountSpec) :
    b.Answerable (r.counting name spec) :=
  ⟨answerable.placed, answerable.selected, fun other given => answerable.counted other ((mem_specs_counting listed).mp given),
    answerable.sorted, answerable.queried,
    fun filled f known given => answerable.countable filled f known ((mem_specs_counting listed).mp given),
    answerable.sortable⟩

theorem getElem?_facets_of_spec? {answer : Answer} (loads : ∀ s ∈ b.segments, s.Loads b.registry)
    (browsed : b.browse r = .ok answer) (absent : b.spec? r name = none) : answer.facets[name]? = none := by
  apply Std.ExtTreeMap.getElem?_eq_none
  rw [mem_facets_of_browse loads browsed, ← mem_specs (b := b), Std.ExtTreeMap.mem_iff_isSome_getElem?, getElem?_specs, absent]
  exact Bool.false_ne_true

theorem browse_counting {answer : Answer} (loads : ∀ s ∈ b.segments, s.Loads b.registry) (browsed : b.browse r = .ok answer)
    (listed : name ∈ b.specs r) (spec : CountSpec) : ∃ plain, b.browse (r.counting name spec) = .ok plain ∧
      plain.hitCount = answer.hitCount ∧ plain.hits = answer.hits ∧
      ∀ other ≠ name, plain.facets[other]? = answer.facets[other]? := by
  have answerable := (exists_browse loads).mp ⟨answer, browsed⟩
  obtain ⟨plain, again⟩ := (exists_browse loads).mpr (answerable.counting listed spec)
  have absent : ∀ other, b.spec? r other = none → other ≠ name → plain.facets[other]? = answer.facets[other]? := by
    intro other none apart
    rw [getElem?_facets_of_spec? loads browsed none, getElem?_facets_of_spec? loads again ((spec?_counting apart).trans none)]
  obtain ⟨filter, tasks, asked, prepared, answered, rfl⟩ := browse_contributions loads browsed
  obtain ⟨filter', tasks', asked', prepared', answered', rfl⟩ := browse_contributions loads again
  have alone : Asked b r asked' := ⟨answered'.segments, answered'.queried⟩
  obtain rfl := answered.unique alone
  obtain rfl := Except.ok.inj ((prepare_parts prepared').1.symm.trans (prepare_parts prepared).1)
  have hits : ranked (r.counting name spec) (contributions (r.counting name spec) filter' tasks' asked') =
      ranked r (contributions r filter' tasks asked') :=
    ranked_same (r := r) tasks tasks' fun _ _ => rfl
  refine ⟨_, again, congrArg List.length hits, congrArg (fun all => (all.drop r.offset).take r.count) hits,
    fun other apart => ?_⟩
  cases given : b.spec? r other with
  | none => exact absent other given apart
  | some own =>
    obtain ⟨f, known, named, whole, composed, finished⟩ := exists_facet asked' prepared given
    obtain ⟨g, known', named', whole', composed', finished'⟩ :=
      exists_facet asked' prepared' ((spec?_counting apart).trans given)
    obtain rfl := b.registry.eq_of_name known' known (named'.trans named.symm)
    obtain rfl := Except.ok.inj (composed'.symm.trans composed)
    rw [finished, finished']
    rfl

end Other

theorem browse_expanded (b : Browser) (r : Request) (answer : Answer) (loads : ∀ s ∈ b.segments, s.Loads b.registry)
    (browsed : b.browse r = .ok answer) (f : Facet) (known : f ∈ b.registry.facets) (spec : CountSpec)
    (listed : r.countSpecs[f.name]? = some spec) (expands : spec.expandsSelection = true) :
    (∃ reduced counted, b.browse (r.without f.name) = .ok reduced ∧ b.rawCounts (r.without f.name) f = .ok counted ∧
      answer.facets[f.name]? = some (spec.finish (f.countOptions (r.selection? f.name)) counted) ∧
      ∀ g, f = .simple g → answer.facets[f.name]? = reduced.facets[f.name]?) ∧
    ∃ plain, b.browse (r.counting f.name { spec with expandsSelection := false }) = .ok plain ∧
      plain.hitCount = answer.hitCount ∧ plain.hits = answer.hits ∧
      ∀ name ≠ f.name, plain.facets[name]? = answer.facets[name]? := by
  have given : b.spec? r f.name = some spec := by rw [spec?, listed, Option.some_or]
  obtain ⟨reduced, counted, again, raw, expanded, plain⟩ := facet_expanded loads browsed known given expands
  refine ⟨⟨reduced, counted, again, raw, expanded, fun g simple => ?_⟩,
    browse_counting loads browsed (mem_specs_of_spec? given) _⟩
  rw [expanded, plain, simple]
  rfl

def bigBlue : Request where
  selections := [{ facet := "color", values := ["blue"] }, { facet := "fit", values := ["size=big"] },
    { facet := "color", excluded := ["green"] }]
  countSpecs := (∅ : Std.ExtTreeMap String CountSpec).insert "color" { expandsSelection := true }
  facets := ["fit"]

theorem browse_expanded_clothes : ∃ answer reduced plain a, Browser.browse ⟨worn, clothes, {}⟩ bigBlue = .ok answer ∧
    answer.hitCount = 0 ∧ answer.facets["color"]? = some a ∧ ⟨"red", 1⟩ ∈ a.entries ∧
    Browser.browse ⟨worn, clothes, {}⟩ (bigBlue.without "color") = .ok reduced ∧
    answer.facets["color"]? = reduced.facets["color"]? ∧
    Browser.browse ⟨worn, clothes, {}⟩ (bigBlue.counting "color" {}) = .ok plain ∧ plain.hits = answer.hits ∧
    plain.facets["fit"]? = answer.facets["fit"]? := by
  obtain ⟨answer, a, browsed, count, shown, listed⟩ : ∃ answer a, Browser.browse ⟨worn, clothes, {}⟩ bigBlue = .ok answer ∧
      answer.hitCount = 0 ∧ answer.facets["color"]? = some a ∧ ⟨"red", 1⟩ ∈ a.entries :=
    ⟨_, _, rfl, (length_ranked _ _).trans (by decide +kernel), rfl,
      CountSpec.mem_finish_unlimited rfl rfl (by decide +kernel) (by decide) (by decide)⟩
  obtain ⟨⟨reduced, _, again, _, _, same⟩, plain, counted, _, hits, others⟩ := browse_expanded ⟨worn, clothes, {}⟩ bigBlue answer
    clothes_load browsed color (.tail _ (.head _)) { expandsSelection := true } rfl rfl
  exact ⟨answer, reduced, plain, a, browsed, count, shown, listed, again, same _ rfl, counted, hits, others "fit" (by decide)⟩

end Browser

end FacetedSearch
