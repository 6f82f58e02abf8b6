import FacetedSearch.Proofs.Browse.Answerable
import FacetedSearch.Proofs.Plan.Visited

namespace FacetedSearch

namespace Facet

def isCombo : Facet → Bool
  | combo _ _ _ => true
  | _ => false

end Facet

namespace Registry

variable {r : Registry} {f : Facet}

def combos (r : Registry) : List String := (r.facets.filter (·.isCombo)).map Facet.name

def combined (r : Registry) (operation name : String) : List Error :=
  if name ∈ r.combos then [.unsupported operation name] else []

-- The faults that only a segment finds. It tells every one of them from the
-- request alone.
def lateFaults (registry : Registry) (r : Request) : List Error :=
  r.query.toList.flatMap Query.faults ++
  r.counted.flatMap (registry.combined "facet counting") ++
  r.sort.flatMap fun field => registry.combined "sorting" field.facet

def faults (registry : Registry) (r : Request) : List Error := registry.earlyFaults r ++ registry.lateFaults r

theorem mem_combos (known : f ∈ r.facets) : f.name ∈ r.combos ↔ f.isCombo = true := by
  unfold combos
  rw [List.mem_map]
  constructor
  · intro ⟨g, member, named⟩
    obtain ⟨registered, combo⟩ := List.mem_filter.mp member
    exact r.eq_of_name registered known named ▸ combo
  · exact fun combo => ⟨f, List.mem_filter.mpr ⟨known, combo⟩, rfl⟩

theorem reports_countable (known : f ∈ r.facets) : Reports f.countable (r.combined "facet counting" f.name) := by
  unfold combined
  simp only [mem_combos known]
  cases f with
  | combo => exact .fault _ []
  | simple | keyed => exact .clean ()

theorem reports_sortable (known : f ∈ r.facets) : Reports f.sortable (r.combined "sorting" f.name) := by
  unfold combined
  simp only [mem_combos known]
  cases f with
  | combo => exact .fault _ []
  | simple | keyed => exact .clean ()

theorem unknown_of_request (r : Registry) (name : String) : ∀ e ∈ r.unknown name, e.isRequestError = true := by
  unfold unknown
  split
  · exact nofun
  · exact List.forall_mem_singleton.mpr rfl

theorem combined_of_request (r : Registry) (operation name : String) :
    ∀ e ∈ r.combined operation name, e.isRequestError = true := by
  unfold combined
  split
  · exact List.forall_mem_singleton.mpr rfl
  · exact nofun

theorem faults_of_request (registry : Registry) (r : Request) : ∀ e ∈ registry.faults r, e.isRequestError = true := by
  unfold faults earlyFaults lateFaults
  simp only [List.forall_mem_append, List.forall_mem_flatMap]
  refine ⟨⟨⟨⟨?_, ?_⟩, ?_⟩, ?_⟩, ⟨?_, ?_⟩, ?_⟩
  · split
    · exact List.forall_mem_singleton.mpr rfl
    · exact nofun
  · exact fun s _ => unknown_of_request registry s.facet
  · exact fun name _ => unknown_of_request registry name
  · exact fun field _ => unknown_of_request registry field.facet
  · exact fun q _ => q.faults_of_request
  · exact fun name _ => combined_of_request registry _ name
  · exact fun field _ => combined_of_request registry _ field.facet

end Registry

namespace Browser

variable {b : Browser} {r : Request} {filter : Option Filter} {tasks : List CountTask}

theorem reports_queryDocs (b : Browser) (r : Request) (s : LiveSegment) :
    Reports (b.queryDocs r s) (r.query.toList.flatMap Query.faults) := by
  unfold queryDocs
  cases r.query with
  | none => exact .clean none
  | some q =>
    rw [Option.toList_some, List.flatMap_singleton]
    exact (q.reports_searchQuery s.source b.settings.sectionField r.within).map _

theorem reports_checks (prepared : b.prepare r = .ok (filter, tasks)) : Reports (b.checks r tasks)
    (r.counted.flatMap (b.registry.combined "facet counting") ++
      r.sort.flatMap fun field => b.registry.combined "sorting" field.facet) := by
  obtain ⟨_, _, _, sorted⟩ := prepare_exact.mp prepared
  have known := (prepare_tasks prepared).2
  rw [← keys_specs, ← names_tasks prepared, List.flatMap_map]
  unfold checks
  refine (Reports.forM fun task member => ?_).bind fun _ _ => .forM fun field asked => ?_
  · obtain ⟨registered, named⟩ := Registry.require_exact.mp (known task member).facet
    exact named ▸ Registry.reports_countable registered
  · obtain ⟨f, required⟩ := Registry.exists_require.mpr (sorted field asked)
    obtain ⟨registered, named⟩ := Registry.require_exact.mp required
    rw [required]
    exact named ▸ Registry.reports_sortable registered

theorem reports_share {s : LiveSegment} (loads : s.Loads b.registry) (prepared : b.prepare r = .ok (filter, tasks)) :
    Reports (b.share r filter tasks s) (b.registry.lateFaults r) := by
  rw [share_exact loads (prepare_parts prepared).2]
  unfold Registry.lateFaults
  rw [List.append_assoc]
  exact (reports_queryDocs b r s).bind fun queried _ => (reports_checks prepared).map _

-- All segments find the same, so the first one decides.
theorem reports_browse (r : Request) (loads : ∀ s ∈ b.segments, s.Loads b.registry) : Reports (b.browse r)
    (b.registry.earlyFaults r ++ if b.segments.isEmpty then [] else b.registry.lateFaults r) := by
  rw [browse_steps]
  refine (reports_prepare b r).bind fun (filter, tasks) prepared => ?_
  have shared : Reports (b.segments.mapM (b.share r filter tasks)) (b.segments.flatMap fun _ => b.registry.lateFaults r) :=
    .mapM fun s live => reports_share (loads s live) prepared
  refine Reports.map (Reports.of_head shared ?_) _
  cases b.segments with
  | nil => rfl
  | cons s rest => cases b.registry.lateFaults r <;> simp

theorem browse_first_fault (b : Browser) (r : Request) (filled : b.segments ≠ [])
    (loads : ∀ s ∈ b.segments, s.Loads b.registry) :
    (∀ e, b.browse r = .error e ↔ (b.registry.faults r).head? = some e) ∧
      ((∃ answer, b.browse r = .ok answer) ↔ b.registry.faults r = []) := by
  have reports := reports_browse r loads
  rw [List.isEmpty_eq_false_iff.mpr filled] at reports
  exact ⟨fun e => reports.error_iff, reports.ok_iff⟩

def painted : Registry :=
  ((∅ : Registry).add (.simple { name := "gloss" }) (by decide) nofun).add
    (.combo "paint" ":" [.simple { name := "gloss" }]) (by decide) fun _ member => member

def paints : List LiveSegment := [Segment.live painted { documents := [{ stored := [("gloss", "matt")] }] } ⟨0⟩]

theorem paints_load : ∀ s ∈ paints, s.Loads painted := by
  unfold paints
  exact List.forall_mem_singleton.mpr rfl

def overall : Request where
  query := some (.boolean [(.should, .everything), (.must, .term ⟨"text", "wall"⟩), (.mustNot, .wildcard ⟨"text", "w"⟩)])
  facets := ["gloss", "paint"]
  sort := [{ facet := "paint" }]

theorem browse_first_fault_paints : painted.faults overall =
      [.unsupportedQuery "wildcard", .unsupported "facet counting" "paint", .unsupported "sorting" "paint"] ∧
    Browser.browse ⟨painted, paints, {}⟩ overall = .error (.unsupportedQuery "wildcard") := by
  have wrong : painted.faults overall =
      [.unsupportedQuery "wildcard", .unsupported "facet counting" "paint", .unsupported "sorting" "paint"] := by
    decide +kernel
  refine ⟨wrong, ((browse_first_fault _ overall (List.cons_ne_nil _ _) paints_load).1 _).mpr ?_⟩
  rw [wrong]
  rfl

theorem rejected_alike (registry : Registry) (r : Request) (live live' : List LiveSegment)
    (settings settings' : Settings) (loads : ∀ s ∈ live ++ live', s.Loads registry) :
    (∀ e, Browser.browse ⟨registry, live, settings⟩ r = .error e → e.isRequestError = true) ∧
      ((∀ e, Browser.browse ⟨registry, live, settings⟩ r = .error e ↔
          Browser.browse ⟨registry, live', settings'⟩ r = .error e) ↔
        (live = [] ↔ live' = []) ∨ registry.earlyFaults r ≠ [] ∨ registry.lateFaults r = []) := by
  obtain ⟨left, right⟩ := List.forall_mem_append.mp loads
  have reports := reports_browse (b := ⟨registry, live, settings⟩) r left
  have reports' := reports_browse (b := ⟨registry, live', settings'⟩) r right
  have harmless := registry.faults_of_request r
  unfold Registry.faults at harmless
  simp only [reports.error_iff, reports'.error_iff]
  generalize registry.earlyFaults r = early at harmless ⊢
  generalize registry.lateFaults r = late at harmless ⊢
  constructor
  · intro e first
    apply harmless
    rcases List.mem_append.mp (List.mem_of_head? first) with found | found
    · exact List.mem_append_left _ found
    · split at found
      · cases found
      · exact List.mem_append_right _ found
  · cases early with
    | cons e others => exact iff_of_true (fun _ => Iff.rfl) (.inr (.inl (List.cons_ne_nil e others)))
    | nil =>
      cases late with
      | nil => exact iff_of_true (fun _ => by simp only [ite_self]) (.inr (.inr rfl))
      | cons e others => cases live <;> cases live' <;> simp

theorem rejected_alike_paints :
    (∀ e, Browser.browse ⟨painted, paints, {}⟩ overall = .error e ↔
      Browser.browse ⟨painted, paints ++ paints, {}⟩ overall = .error e) ∧
    ¬ ∀ e, Browser.browse ⟨painted, paints, {}⟩ overall = .error e ↔ Browser.browse ⟨painted, [], {}⟩ overall = .error e := by
  have early : painted.earlyFaults overall = [] := by decide +kernel
  have late : painted.lateFaults overall ≠ [] := by decide +kernel
  have twice := rejected_alike painted overall paints (paints ++ paints) {} {}
    (List.forall_mem_append.mpr ⟨paints_load, List.forall_mem_append.mpr ⟨paints_load, paints_load⟩⟩)
  have never := rejected_alike painted overall paints [] {} {}
    (List.forall_mem_append.mpr ⟨paints_load, nofun⟩)
  refine ⟨twice.2.mpr (.inl (by simp)), fun alike => ?_⟩
  rcases never.2.mp alike with same | found | none
  · exact List.cons_ne_nil _ _ (same.mpr rfl)
  · exact found early
  · exact late none

-- Where the second index is empty, nobody looks at the query.
theorem rejected_by_one_index : ¬ ∀ (registry : Registry) (r : Request) (live live' : List LiveSegment)
    (settings : Settings), (∀ s ∈ live ++ live', s.Loads registry) →
      ∀ e, Browser.browse ⟨registry, live, settings⟩ r = .error e ↔ Browser.browse ⟨registry, live', settings⟩ r = .error e := by
  intro alike
  have refused : Browser.browse ⟨painted, paints, {}⟩ overall = .error (.unsupportedQuery "wildcard") := rfl
  have accepted := (alike painted overall paints [] {} paints_load _).mp refused
  cases accepted

end Browser

end FacetedSearch
