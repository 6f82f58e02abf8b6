import FacetedSearch.Proofs.Browse.Answerable
import FacetedSearch.Proofs.Browse.Numbering
import FacetedSearch.Proofs.Facet.Finish

namespace FacetedSearch

theorem card_filter_numbers {numbers : List Nat} (ascending : numbers.Pairwise (· < ·)) (p : Nat → Prop)
    [DecidablePred p] : (numbers.toFinset.filter p).card = numbers.countP fun n => p n := by
  have same : numbers.toFinset.filter p = (numbers.filter fun n => p n).toFinset := by
    rw [List.toFinset_filter]
    simp only [decide_eq_true_eq]
  rw [same, List.toFinset_card_of_nodup (ascending.nodup.filter _), List.countP_eq_length_filter]

theorem length_ascending {numbers : List Nat} {bound : Nat} (ascending : numbers.Pairwise (· < ·))
    (inside : ∀ n ∈ numbers, n < bound) : numbers.length ≤ bound := by
  have within : numbers ⊆ List.range bound := fun n member => List.mem_range.mpr (inside n member)
  simpa using (ascending.nodup.subperm within).length_le

section Rows

variable {numbers : List Nat} (own : Nat → List String)

theorem nodup_rows : ∀ row ∈ numbers.map fun n => (SortedSet.ofList (own n)).toList, row.Nodup := by
  intro row member
  obtain ⟨n, _, rfl⟩ := List.mem_map.mp member
  exact (SortedSet.ofList _).ascending.imp fun less same => by simp [same] at less

theorem countP_rows (ascending : numbers.Pairwise (· < ·)) (value : String) :
    (numbers.map fun n => (SortedSet.ofList (own n)).toList).countP (fun row => value ∈ row) =
      (numbers.toFinset.filter fun n => value ∈ own n).card := by
  rw [card_filter_numbers ascending, List.countP_map]
  apply List.countP_congr
  intro n _
  simp only [Function.comp_apply, decide_eq_true_eq]
  exact SortedSet.mem_ofList

theorem countP_filled (ascending : numbers.Pairwise (· < ·)) :
    (numbers.map fun n => (SortedSet.ofList (own n)).toList).countP (fun row => !row.isEmpty) =
      (numbers.toFinset.filter fun n => own n ≠ []).card := by
  rw [card_filter_numbers ascending, List.countP_map]
  apply List.countP_congr
  intro n _
  simp only [Function.comp_apply, Bool.not_eq_true', List.isEmpty_eq_false_iff, decide_eq_true_eq]
  simp only [ne_eq, List.eq_nil_iff_forall_not_mem]
  exact not_congr (forall_congr' fun value => not_congr SortedSet.mem_ofList)

end Rows

namespace Browser

-- An answer counts a facet over some documents, told from what they carry.
structure CountsOver (b : Browser) (f : Facet) (selected : Option Selection) (spec : CountSpec) (docs : Finset Nat)
    (a : FacetAnswer) : Prop where
  total : a.total.toNat = (docs.filter fun n => b.carried f.name n ≠ []).card
  hits : ∀ e ∈ a.entries, e.hits.toNat = (docs.filter fun n => e.value ∈ b.carried f.name n).card
  enough : ∀ e ∈ a.entries, max 1 spec.minHits.toNat ≤ e.hits.toNat
  asked : ∀ e ∈ a.entries, f.AsksFor selected e.value
  distinct : (a.entries.map (·.value)).Nodup
  complete : (f.countOptions selected).maxPerKey = none → spec.limit = 0 → ∀ value,
    max 1 spec.minHits.toNat ≤ (docs.filter fun n => value ∈ b.carried f.name n).card →
    f.AsksFor selected value → value ∈ a.entries.map (·.value)

def rows (asked : List (LiveSegment × Option DocSet)) (filter : Option Filter) (facet : String) : List (List String) :=
  asked.flatMap fun p => (restrict p.1.facets filter p.2).toList.map (p.1.facets.valuesAt facet)

section Rows

variable {b : Browser} {r : Request} {asked : List (LiveSegment × Option DocSet)} {filter : Option Filter}
  {tasks : List CountTask} {leftOut : Option String}

theorem foldl_contributions (before : CountTask → List (List String)) :
    (contributions r filter tasks asked).foldl (fun counts s => counts.zipWith ValueCounts.merge s.counts)
        (tasks.map fun task => .ofRows (before task)) =
      tasks.map fun task => .ofRows (before task ++ rows asked (task.expanded.getD filter) task.facet.name) := by
  induction asked generalizing before with
  | nil =>
    apply List.map_congr_left
    intro task _
    rw [rows, List.flatMap_nil, List.append_nil]
  | cons p rest ih =>
    unfold contributions at ih ⊢
    rw [List.map_cons, List.foldl_cons, contribution]
    simp only [List.zipWith_map_left, List.zipWith_map_right, List.zipWith_self, ValueCounts.merge_ofRows]
    apply (ih _).trans
    simp only [rows, List.flatMap_cons, List.append_assoc]

theorem totals_contributions : totals tasks (contributions r filter tasks asked) =
    tasks.map fun task => .ofRows (rows asked (task.expanded.getD filter) task.facet.name) := by
  have nothing : (∅ : ValueCounts) = .ofRows [] := rfl
  unfold totals
  rw [nothing, foldl_contributions fun _ => []]
  rfl

theorem facets_contributions (distinct : (tasks.map (·.name)).Nodup) {name : String} {a : FacetAnswer} :
    (assemble r tasks (contributions r filter tasks asked)).facets[name]? = some a ↔ ∃ task ∈ tasks, task.name = name ∧
      a = facetAnswer r task (.ofRows (rows asked (task.expanded.getD filter) task.facet.name)) := by
  have listed : (assemble r tasks (contributions r filter tasks asked)).facets = .ofList (tasks.map fun task =>
      (task.name, facetAnswer r task (.ofRows (rows asked (task.expanded.getD filter) task.facet.name)))) := by
    unfold assemble
    rw [totals_contributions, ← List.map_prod_left_eq_zip, List.map_map]
    rfl
  rw [listed, getElem?_ofList (by rwa [List.map_map])]
  simp only [List.mem_map, Prod.mk.injEq, eq_comm]

theorem rows_numbered (filter : Option Filter) (tasks : List CountTask) (answered : Asked b r asked)
    (loads : ∀ s ∈ b.segments, s.Loads b.registry) (facet : String) : rows asked filter facet =
      ((numbered 0 (contributions r filter tasks asked)).map (·.hit.docId)).map fun n =>
        (SortedSet.ofList (b.carried facet n)).toList := by
  have places := map_numbered filter tasks answered loads fun place =>
    place.elim [] fun p => p.1.facets.valuesAt facet p.2
  apply places.symm.trans
  rw [List.map_map]
  apply List.map_congr_left
  intro k _
  rw [Function.comp_apply]
  cases found : (documents b.segments)[k.hit.docId]? with
  | none =>
    unfold carried
    rw [found]
    rfl
  | some p => exact valuesAt_of_number loads found

theorem mem_numbers (tasks : List CountTask) (answered : Asked b r asked) (loads : ∀ s ∈ b.segments, s.Loads b.registry)
    (composed : b.registry.compose r.selections leftOut = .ok filter) {n : Nat} :
    n ∈ (numbered 0 (contributions r filter tasks asked)).map (·.hit.docId) ↔ b.FindsAt r leftOut n := by
  rw [List.mem_map]
  constructor
  · intro ⟨k, member, same⟩
    obtain ⟨number, s, docno, found, finds, rfl⟩ := (mem_numbered_contributions tasks answered loads composed).mp member
    cases same
    exact ⟨s, docno, found, finds⟩
  · intro ⟨s, docno, found, finds⟩
    exact ⟨_, (mem_numbered_contributions tasks answered loads composed).mpr ⟨n, s, docno, found, finds, rfl⟩, rfl⟩

theorem length_numbers {numbers : List Nat} (ascending : numbers.Pairwise (· < ·))
    (finds : ∀ n ∈ numbers, b.FindsAt r leftOut n) : numbers.length ≤ (b.segments.map (·.docCount)).sum := by
  apply length_ascending ascending
  intro n member
  obtain ⟨s, docno, found, _⟩ := finds n member
  rw [← length_documents]
  exact (List.getElem?_eq_some_iff.mp found).1

end Rows

theorem countsOver_finish (b : Browser) (f : Facet) (selected : Option Selection) (spec : CountSpec) {numbers : List Nat}
    (ascending : numbers.Pairwise (· < ·)) (fits : numbers.length < 2 ^ 32) :
    b.CountsOver f selected spec numbers.toFinset (spec.finish (f.countOptions selected)
      (.ofRows (numbers.map fun n => (SortedSet.ofList (b.carried f.name n)).toList))) := by
  have bound : ValueCounts.filled (numbers.map fun n => (SortedSet.ofList (b.carried f.name n)).toList) < 2 ^ 32 :=
    Nat.lt_of_le_of_lt (ValueCounts.filled_le_length _) (by rwa [List.length_map])
  have found : ∀ value hits, (ValueCounts.ofRows (numbers.map fun n =>
      (SortedSet.ofList (b.carried f.name n)).toList)).counts[value]? = some hits ↔
        hits.toNat = (numbers.toFinset.filter fun n => value ∈ b.carried f.name n).card ∧ 0 < hits.toNat := by
    intro value hits
    rw [ValueCounts.counts_ofRows (nodup_rows _) bound, countP_rows _ ascending]
  constructor
  · exact (ValueCounts.total_ofRows bound).trans (countP_filled _ ascending)
  · intro e listed
    exact ((found e.value e.hits).mp (CountSpec.mem_finish listed).1).1
  · intro e listed
    obtain ⟨held, enough, _⟩ := CountSpec.mem_finish listed
    exact Nat.max_le.mpr ⟨((found e.value e.hits).mp held).2, UInt32.le_iff_toNat_le.mp enough⟩
  · intro e listed
    exact (f.asksFor_countOptions selected e.value).mp (CountSpec.mem_finish listed).2.2
  · exact CountSpec.finish_distinct
  · intro unlimited uncut value enough asks
    have small : (numbers.toFinset.filter fun n => value ∈ b.carried f.name n).card < 2 ^ 32 := by
      rw [card_filter_numbers ascending]
      exact Nat.lt_of_le_of_lt List.countP_le_length fits
    have size := UInt32.toNat_ofNat_of_lt' small
    rw [← size] at enough
    obtain ⟨positive, least⟩ := Nat.max_le.mp enough
    apply List.mem_map.mpr
    exact ⟨⟨value, .ofNat _⟩, CountSpec.mem_finish_unlimited unlimited uncut ((found value _).mpr ⟨size, positive⟩)
      (UInt32.le_iff_toNat_le.mpr least) ((f.asksFor_countOptions selected value).mpr asks), rfl⟩

section Facets

variable {b : Browser} {r : Request} {filter : Option Filter} {tasks : List CountTask} {name : String} {spec : CountSpec}

theorem exists_facet (asked : List (LiveSegment × Option DocSet)) (prepared : b.prepare r = .ok (filter, tasks))
    (given : b.spec? r name = some spec) : ∃ f ∈ b.registry.facets, f.name = name ∧
      ∃ own, b.registry.compose r.selections (scope r name spec) = .ok own ∧
      (assemble r tasks (contributions r filter tasks asked)).facets[name]? =
        some (spec.finish (f.countOptions (r.selection? name)) (.ofRows (rows asked own name))) := by
  have distinct : (tasks.map (·.name)).Nodup := names_tasks prepared ▸ Std.ExtTreeMap.nodup_keys
  obtain ⟨task, member, rfl, rfl⟩ := (exists_task prepared).mpr given
  obtain ⟨required, composed⟩ := (prepare_tasks prepared).2 task member
  obtain ⟨known, named⟩ := Registry.require_exact.mp required
  refine ⟨task.facet, known, named, _, composed, (facets_contributions distinct).mpr ⟨task, member, rfl, ?_⟩⟩
  rw [facetAnswer, named]

theorem mem_specs_of_spec? (given : b.spec? r name = some spec) : name ∈ b.specs r := by
  rw [Std.ExtTreeMap.mem_iff_isSome_getElem?, getElem?_specs, given]
  rfl

structure NumberedRows (b : Browser) (r : Request) (leftOut : Option String) (name : String)
    (asked : List (LiveSegment × Option DocSet)) (own : Option Filter) (numbers : List Nat) : Prop where
  answered : Asked b r asked
  composed : b.registry.compose r.selections leftOut = .ok own
  ascending : numbers.Pairwise (· < ·)
  finds : ∀ n, n ∈ numbers ↔ b.FindsAt r leftOut n
  shown : rows asked own name = numbers.map fun n => (SortedSet.ofList (b.carried name n)).toList

theorem exists_rows {answer : Answer} (loads : ∀ s ∈ b.segments, s.Loads b.registry) (browsed : b.browse r = .ok answer)
    {a : FacetAnswer} (shown : answer.facets[name]? = some a) : ∃ f ∈ b.registry.facets, f.name = name ∧
      ∃ spec, b.spec? r name = some spec ∧ ∃ asked own numbers, b.NumberedRows r (scope r name spec) name asked own numbers ∧
        a = spec.finish (f.countOptions (r.selection? name)) (.ofRows (rows asked own name)) := by
  obtain ⟨filter, tasks, asked, prepared, answered, rfl⟩ := browse_contributions loads browsed
  have distinct : (tasks.map (·.name)).Nodup := names_tasks prepared ▸ Std.ExtTreeMap.nodup_keys
  obtain ⟨task, member, named, _⟩ := (facets_contributions distinct).mp shown
  have given : b.spec? r name = some task.spec := (exists_task prepared).mp ⟨task, member, named, rfl⟩
  obtain ⟨f, known, same, own, composed, finished⟩ := exists_facet asked prepared given
  refine ⟨f, known, same, task.spec, given, asked, own, _, ⟨answered, composed, numbers_ascending own tasks answered loads,
    fun n => mem_numbers tasks answered loads composed, rows_numbered own tasks answered loads name⟩, ?_⟩
  exact Option.some.inj (shown.symm.trans finished)

end Facets

variable {b : Browser} {r : Request} {answer : Answer}

theorem counted_of_browse (loads : ∀ s ∈ b.segments, s.Loads b.registry)
    (fits : (b.segments.map (·.docCount)).sum < 2 ^ 32) (browsed : b.browse r = .ok answer) {name : String}
    {a : FacetAnswer} (shown : answer.facets[name]? = some a) : ∃ f ∈ b.registry.facets, f.name = name ∧
      (b.segments ≠ [] → f.countable = .ok ()) ∧ ∃ spec, b.spec? r name = some spec ∧ ∃ docs : Finset Nat,
        (∀ n, n ∈ docs ↔ b.FindsAt r (scope r name spec) n) ∧ b.CountsOver f (r.selection? name) spec docs a := by
  have countable := ((exists_browse loads).mp ⟨answer, browsed⟩).countable
  obtain ⟨f, known, rfl, spec, given, asked, own, numbers, found, rfl⟩ := exists_rows loads browsed shown
  have few := Nat.lt_of_le_of_lt (length_numbers found.ascending fun n => (found.finds n).mp) fits
  refine ⟨f, known, rfl, fun filled => countable filled f known (mem_specs_of_spec? given), spec, given, _,
    fun n => List.mem_toFinset.trans (found.finds n), ?_⟩
  rw [found.shown]
  exact countsOver_finish b f (r.selection? f.name) spec found.ascending few

theorem mem_facets_of_browse (loads : ∀ s ∈ b.segments, s.Loads b.registry) (browsed : b.browse r = .ok answer)
    {name : String} : name ∈ answer.facets ↔ name ∈ r.countSpecs ∨ name ∈ r.facets := by
  obtain ⟨filter, tasks, asked, prepared, _, rfl⟩ := browse_contributions loads browsed
  have names := names_tasks prepared
  have distinct : (tasks.map (·.name)).Nodup := names ▸ Std.ExtTreeMap.nodup_keys
  rw [← mem_specs (b := b), ← Std.ExtTreeMap.mem_keys (t := b.specs r), ← names, List.mem_map,
    Std.ExtTreeMap.mem_iff_isSome_getElem?, Option.isSome_iff_exists]
  simp only [facets_contributions distinct]
  constructor
  · intro ⟨_, task, member, named, _⟩
    exact ⟨task, member, named⟩
  · intro ⟨task, member, named⟩
    exact ⟨_, task, member, named, rfl⟩

theorem hits_of_browse (loads : ∀ s ∈ b.segments, s.Loads b.registry) (browsed : b.browse r = .ok answer) :
    ∃ all : List Hit, answer.hitCount = all.length ∧ answer.hits = (all.drop r.offset).take r.count ∧
      (all.map (·.docId)).Nodup ∧ ∀ n, n ∈ all.map (·.docId) ↔ b.FindsAt r none n := by
  obtain ⟨filter, tasks, asked, prepared, answered, rfl⟩ := browse_contributions loads browsed
  obtain ⟨composed, _⟩ := prepare_parts prepared
  have perm := (ranked_perm r (contributions r filter tasks asked)).map (·.docId)
  rw [List.map_map] at perm
  have distinct := (numbers_ascending filter tasks answered loads).nodup
  exact ⟨ranked r (contributions r filter tasks asked), rfl, rfl, perm.nodup_iff.mpr distinct,
    fun n => perm.mem_iff.trans (mem_numbers tasks answered loads composed)⟩

theorem facet_counts_exact (b : Browser) (r : Request) (answer : Answer) (loads : ∀ s ∈ b.segments, s.Loads b.registry)
    (fits : (b.segments.map (·.docCount)).sum < 2 ^ 32) (browsed : b.browse r = .ok answer) :
    (∃ all : List Hit, answer.hitCount = all.length ∧ answer.hits = (all.drop r.offset).take r.count ∧
      (all.map (·.docId)).Nodup ∧ ∀ n, n ∈ all.map (·.docId) ↔ b.FindsAt r none n) ∧
    (∀ name, name ∈ answer.facets ↔ name ∈ r.countSpecs ∨ name ∈ r.facets) ∧
    ∀ name a, answer.facets[name]? = some a → ∃ f ∈ b.registry.facets, f.name = name ∧
      (b.segments ≠ [] → f.countable = .ok ()) ∧ ∃ spec, b.spec? r name = some spec ∧ ∃ docs : Finset Nat,
        (∀ n, n ∈ docs ↔ b.FindsAt r (scope r name spec) n) ∧ b.CountsOver f (r.selection? name) spec docs a := by
  exact ⟨hits_of_browse loads browsed, fun name => mem_facets_of_browse loads browsed,
    fun name a shown => counted_of_browse loads fits browsed shown⟩

def tinted : Registry := Registry.add ∅ (.keyed { name := "tint" }) (by decide) nofun

def tints : List LiveSegment :=
  [Segment.live tinted { documents := [{ stored := [("tint", "hue=red"), ("tint", "hue=red")] }] } ⟨2⟩,
    Segment.live tinted { documents := [{}, { stored := [("tint", "hue=red"), ("tint", "tone=dark")] },
      { stored := [("tint", "hue=blue")] }] } ⟨5⟩]

theorem tints_load : ∀ s ∈ tints, s.Loads tinted := by
  unfold tints
  exact List.forall_mem_cons.mpr ⟨rfl, List.forall_mem_singleton.mpr rfl⟩

def bluish : Request where
  selections := [{ facet := "tint", values := ["hue=blue"] }]
  countSpecs := (∅ : Std.ExtTreeMap String CountSpec).insert "tint" { expandsSelection := true }

theorem facet_counts_exact_tints :
    ∃ answer a, Browser.browse ⟨tinted, tints, {}⟩ bluish = .ok answer ∧ answer.hitCount = 1 ∧
      answer.facets["tint"]? = some a ∧ a.total = 3 ∧ ⟨"hue=red", 2⟩ ∈ a.entries ∧
      ∃ docs : Finset Nat, (∀ n, n ∈ docs ↔ FindsAt ⟨tinted, tints, {}⟩ bluish (some "tint") n) ∧
        (docs.filter fun n => "hue=red" ∈ carried ⟨tinted, tints, {}⟩ "tint" n).card = 2 := by
  obtain ⟨answer, a, browsed, count, shown, total, red⟩ : ∃ answer a,
      Browser.browse ⟨tinted, tints, {}⟩ bluish = .ok answer ∧ answer.hitCount = 1 ∧
      answer.facets["tint"]? = some a ∧ a.total = 3 ∧ ⟨"hue=red", 2⟩ ∈ a.entries := by
    refine ⟨_, _, rfl, by decide +kernel, rfl, by decide +kernel, ?_⟩
    exact CountSpec.mem_finish_unlimited rfl rfl (by decide +kernel) (by decide) (by decide)
  obtain ⟨_, _, counts⟩ := facet_counts_exact _ _ answer tints_load (by decide) browsed
  obtain ⟨f, _, named, _, spec, given, docs, finds, counted⟩ := counts "tint" a shown
  have hits := counted.hits ⟨"hue=red", 2⟩ red
  rw [named] at hits
  have own : spec? ⟨tinted, tints, {}⟩ bluish "tint" = some { expandsSelection := true } := rfl
  cases given.symm.trans own
  exact ⟨answer, a, browsed, count, shown, total, red, docs, finds, hits.symm⟩

end Browser

end FacetedSearch
