import FacetedSearch.Proofs.Browse.Runs

namespace FacetedSearch

namespace Request

variable {r : Request} {selections : List Selection} {f : Facet} {name : String}

theorem selection?_parts {s : Selection} (found : r.selection? name = some s) : s ∈ r.selections ∧ s.facet = name :=
  ⟨List.mem_of_find?_eq_some found, by simpa using List.find?_some found⟩

theorem isSome_selection? : (r.selection? name).isSome ↔ ∃ s ∈ r.selections, s.facet = name := by
  unfold selection?
  rw [List.find?_isSome]
  simp only [decide_eq_true_eq]

-- Whatever a facet takes over for its counts from a selection on it, it would take
-- over from any other. So it is with one selection, and where nothing is taken over.
def CountsAlike (r : Request) (f : Facet) : Prop :=
  ∀ s ∈ r.selections, ∀ t ∈ r.selections, s.facet = f.name → t.facet = f.name →
    f.countOptions (some s) = f.countOptions (some t)

theorem countOptions_reordered (reordered : selections.Perm r.selections) (alike : r.CountsAlike f) :
    f.countOptions ({ r with selections }.selection? f.name) = f.countOptions (r.selection? f.name) := by
  have same : ({ r with selections }.selection? f.name).isSome ↔ (r.selection? f.name).isSome := by
    simp only [isSome_selection?, reordered.mem_iff]
  cases first : r.selection? f.name with
  | none =>
    rw [first, Option.isSome_none, Bool.false_eq_true, iff_false, Bool.not_eq_true, Option.isSome_eq_false_iff,
      Option.isNone_iff_eq_none] at same
    rw [same]
  | some s =>
    obtain ⟨t, other⟩ := Option.isSome_iff_exists.mp (same.mpr (by rw [first]; rfl))
    obtain ⟨member, named⟩ := selection?_parts first
    obtain ⟨present, also⟩ := selection?_parts other
    rw [other]
    exact alike t (reordered.mem_iff.mp present) s member also named

end Request

namespace Browser

variable {b : Browser} {r : Request} {selections : List Selection} {leftOut : Option String} {s : LiveSegment}
  {docno : Nat}

theorem finds_reordered (reordered : selections.Perm r.selections) :
    b.Finds { r with selections } leftOut s docno ↔ b.Finds r leftOut s docno := by
  have accepted : b.registry.AcceptsAll (s.source.storedValues docno) leftOut selections ↔
      b.registry.AcceptsAll (s.source.storedValues docno) leftOut r.selections := by
    unfold Registry.AcceptsAll
    simp only [reordered.mem_iff]
  constructor
  · intro finds
    exact ⟨finds.inside, accepted.mp finds.accepted, finds.queried⟩
  · intro finds
    exact ⟨finds.inside, accepted.mpr finds.accepted, finds.queried⟩

theorem scope_reordered (reordered : selections.Perm r.selections) (name : String) (spec : CountSpec) :
    scope { r with selections } name spec = scope r name spec := by
  have same : ({ r with selections }.selection? name).isSome = (r.selection? name).isSome := by
    rw [Bool.eq_iff_iff]
    simp only [Request.isSome_selection?, reordered.mem_iff]
  unfold scope
  rw [same]

theorem Answerable.reordered (answerable : b.Answerable r) (reordered : selections.Perm r.selections) :
    b.Answerable { r with selections } :=
  ⟨answerable.placed, fun s member => answerable.selected s (reordered.mem_iff.mp member), answerable.counted,
    answerable.sorted, answerable.queried, answerable.countable, answerable.sortable⟩

section Runs

variable {asked : List (LiveSegment × Option DocSet)} {filter filter' : Option Filter} {tasks tasks' : List CountTask}

theorem Asked.reordered (answered : Asked b r asked) (selections : List Selection) :
    Asked b { r with selections } asked :=
  ⟨answered.segments, answered.queried⟩

theorem ranked_reordered (reordered : selections.Perm r.selections) (loads : ∀ s ∈ b.segments, s.Loads b.registry)
    (answered : Asked b r asked) (prepared : b.prepare r = .ok (filter, tasks))
    (prepared' : b.prepare { r with selections } = .ok (filter', tasks')) :
    ranked { r with selections } (contributions { r with selections } filter' tasks' asked) =
      ranked r (contributions r filter tasks asked) := by
  have same := restrict_alike loads answered (answered.reordered selections) (prepare_parts prepared).1
    (prepare_parts prepared').1 fun _ _ => finds_reordered reordered
  exact ranked_same (r := r) tasks tasks' same

theorem facets_reordered (reordered : selections.Perm r.selections) (loads : ∀ s ∈ b.segments, s.Loads b.registry)
    (answered : Asked b r asked) (prepared : b.prepare r = .ok (filter, tasks))
    (prepared' : b.prepare { r with selections } = .ok (filter', tasks')) (name : String) (a : FacetAnswer)
    (shown : (assemble r tasks (contributions r filter tasks asked)).facets[name]? = some a) :
    ∃ f ∈ b.registry.facets, f.name = name ∧ ∃ spec counted,
      a = CountSpec.finish spec (f.countOptions (r.selection? name)) counted ∧
      (assemble { r with selections } tasks' (contributions { r with selections } filter' tasks' asked)).facets[name]? =
        some (spec.finish (f.countOptions ({ r with selections }.selection? name)) counted) := by
  have distinct : (tasks.map (·.name)).Nodup := names_tasks prepared ▸ Std.ExtTreeMap.nodup_keys
  obtain ⟨task, member, named, _⟩ := (facets_contributions distinct).mp shown
  have given : b.spec? r name = some task.spec := (exists_task prepared).mp ⟨task, member, named, rfl⟩
  obtain ⟨f, known, own, _, composed, finished⟩ := exists_facet asked prepared given
  obtain ⟨g, other, also, _, composed', finished'⟩ := exists_facet asked prepared' given
  obtain rfl := b.registry.eq_of_name other known (also.trans own.symm)
  rw [scope_reordered reordered] at composed'
  have counted := rows_same (restrict_alike loads answered (answered.reordered selections) composed composed' fun _ _ =>
    finds_reordered reordered) name
  refine ⟨_, known, own, task.spec, _, Option.some.inj (shown.symm.trans finished), ?_⟩
  rw [finished', counted]

end Runs

theorem browse_reordered (b : Browser) (r : Request) (answer : Answer) (loads : ∀ s ∈ b.segments, s.Loads b.registry)
    (browsed : b.browse r = .ok answer) (selections : List Selection) (reordered : selections.Perm r.selections) :
    ∃ other, b.browse { r with selections } = .ok other ∧ other.hitCount = answer.hitCount ∧ other.hits = answer.hits ∧
      (∀ name, name ∈ other.facets ↔ name ∈ answer.facets) ∧
      (∀ name a, answer.facets[name]? = some a → ∃ f ∈ b.registry.facets, f.name = name ∧ ∃ spec counted,
        a = CountSpec.finish spec (f.countOptions (r.selection? name)) counted ∧
        other.facets[name]? = some (spec.finish (f.countOptions ({ r with selections }.selection? name)) counted)) ∧
      ∀ f ∈ b.registry.facets, r.CountsAlike f → other.facets[f.name]? = answer.facets[f.name]? := by
  have answerable := (exists_browse loads).mp ⟨answer, browsed⟩
  obtain ⟨other, again⟩ := (exists_browse loads).mpr (answerable.reordered reordered)
  have named : ∀ name, name ∈ other.facets ↔ name ∈ answer.facets := fun name =>
    (mem_facets_of_browse loads again).trans (mem_facets_of_browse loads browsed).symm
  obtain ⟨filter, tasks, asked, prepared, answered, rfl⟩ := browse_contributions loads browsed
  obtain ⟨filter', tasks', asked', prepared', answered', rfl⟩ := browse_contributions loads again
  have alone : Asked b r asked' := ⟨answered'.segments, answered'.queried⟩
  obtain rfl := answered.unique alone
  have ranks := ranked_reordered reordered loads answered prepared prepared'
  have counts := facets_reordered reordered loads answered prepared prepared'
  refine ⟨_, again, congrArg List.length ranks, congrArg (fun all => (all.drop r.offset).take r.count) ranks, named,
    counts, fun f known alike => ?_⟩
  cases shown : (assemble r tasks (contributions r filter tasks asked')).facets[f.name]? with
  | some a =>
    obtain ⟨g, other, own, spec, counted, rfl, finished⟩ := counts f.name a shown
    obtain rfl := b.registry.eq_of_name other known own
    rw [finished, Request.countOptions_reordered reordered alike]
  | none =>
    apply Std.ExtTreeMap.getElem?_eq_none
    rw [named, Std.ExtTreeMap.mem_iff_isSome_getElem?, shown]
    exact nofun

def fit : Facet := .keyed { name := "fit" }

def color : Facet := .simple { name := "color" }

def worn : Registry := ((∅ : Registry).add fit (by decide) nofun).add color (by decide) nofun

def clothes : List LiveSegment :=
  [Segment.live worn { documents := [{ stored := [("fit", "size=big"), ("fit", "cut=slim"), ("color", "red")] },
    { stored := [("fit", "size=small")] }] } ⟨0⟩]

theorem clothes_load : ∀ s ∈ clothes, s.Loads worn := by
  unfold clothes
  exact List.forall_mem_singleton.mpr rfl

def fitting : Request where
  selections := [{ facet := "fit", excluded := ["size=tiny"] }, { facet := "color", values := ["red"] },
    { facet := "fit", values := ["size=big"] }]
  facets := ["fit", "color"]

theorem browse_reordered_clothes : ∃ answer other, Browser.browse ⟨worn, clothes, {}⟩ fitting = .ok answer ∧
    Browser.browse ⟨worn, clothes, {}⟩ { fitting with selections := fitting.selections.reverse } = .ok other ∧
    other.hits = answer.hits ∧ other.facets["color"]? = answer.facets["color"]? ∧ "fit" ∈ other.facets := by
  obtain ⟨answer, browsed⟩ : ∃ answer, Browser.browse ⟨worn, clothes, {}⟩ fitting = .ok answer := ⟨_, rfl⟩
  obtain ⟨other, again, _, hits, named, _, alike⟩ := browse_reordered ⟨worn, clothes, {}⟩ fitting answer clothes_load browsed
    fitting.selections.reverse (List.reverse_perm _)
  refine ⟨answer, other, browsed, again, hits, alike _ (.tail _ (.head _)) fun _ _ _ _ _ _ => rfl, ?_⟩
  exact (named _).mpr ((mem_facets_of_browse clothes_load browsed).mpr (.inr (.head _)))

-- The selection that comes first has no values, so both keys are shown; the last
-- one asks for sizes, and first in turn it hides the cut.
theorem shown_in_one_order : ¬ ∀ (b : Browser) (r : Request) (answer : Answer), (∀ s ∈ b.segments, s.Loads b.registry) →
    b.browse r = .ok answer → ∀ selections : List Selection, selections.Perm r.selections →
      ∃ other, b.browse { r with selections } = .ok other ∧ other.facets = answer.facets := by
  intro same
  obtain ⟨answer, a, browsed, shown, listed⟩ : ∃ answer a, Browser.browse ⟨worn, clothes, {}⟩ fitting = .ok answer ∧
      answer.facets["fit"]? = some a ∧ ⟨"cut=slim", 1⟩ ∈ a.entries :=
    ⟨_, _, rfl, rfl, CountSpec.mem_finish_unlimited rfl rfl (by decide +kernel) (by decide) (by decide)⟩
  obtain ⟨turned, a', again, shown', hidden⟩ : ∃ turned a',
      Browser.browse ⟨worn, clothes, {}⟩ { fitting with selections := fitting.selections.reverse } = .ok turned ∧
      turned.facets["fit"]? = some a' ∧ ⟨"cut=slim", 1⟩ ∉ a'.entries :=
    ⟨_, _, rfl, rfl, fun listed => absurd (CountSpec.mem_finish listed).2.2 (by decide)⟩
  obtain ⟨other, found, equal⟩ := same _ _ answer clothes_load browsed _ (List.reverse_perm fitting.selections)
  obtain rfl := Except.ok.inj (again.symm.trans found)
  rw [equal, shown] at shown'
  exact hidden (Option.some.inj shown' ▸ listed)

end Browser

end FacetedSearch
