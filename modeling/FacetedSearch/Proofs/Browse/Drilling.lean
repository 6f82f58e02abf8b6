import FacetedSearch.Proofs.Browse.Counted

namespace FacetedSearch

namespace Facet

-- An entry that goes on after a value and the separator. Selecting the value
-- selects it too, counting tells the two apart.
def Continues (value entry : String) : Facet → Prop
  | keyed k => (value ++ k.separator).toList <+: entry.toList
  | _ => False

variable {f : Facet} {stored : String → List String} {value : String}

theorem satisfies_kept (owned : f.countable = .ok ()) (admits : f.Admits stored) : f.Satisfies stored value ↔
    value ∈ f.kept stored ∨ ∃ entry ∈ f.kept stored, f.Continues value entry := by
  cases f with
  | combo => cases owned
  | simple f =>
    rw [satisfies_simple admits]
    exact (or_iff_left fun ⟨_, _, continues⟩ => continues).symm
  | keyed k =>
    rw [satisfies_keyed]
    constructor
    · intro ⟨entry, held, under⟩
      rcases under with rfl | continues
      · exact .inl held
      · exact .inr ⟨entry, held, continues⟩
    · intro held
      rcases held with held | ⟨entry, held, continues⟩
      · exact ⟨value, held, .inl rfl⟩
      · exact ⟨entry, held, .inr continues⟩

theorem allHold_single (owned : f.countable = .ok ()) : f.AllHold stored [value] ↔ f.Satisfies stored value := by
  cases f with
  | combo => cases owned
  | simple => simp [AllHold]
  | keyed => simp [AllHold]

end Facet

-- A selection of one value and nothing else. How values combine is then the
-- same either way.
structure Selection.Picks (s : Selection) (facet value : String) : Prop where
  facet : s.facet = facet
  values : s.values = [value]
  excluded : s.excluded = []

theorem Selection.Picks.accepts {s : Selection} {f : Facet} {stored : String → List String} {value : String}
    (picks : s.Picks f.name value) (owned : f.countable = .ok ()) : s.Accepts stored f ↔ f.Satisfies stored value := by
  rw [accepts_parts, picks.values, picks.excluded]
  simp only [List.mem_singleton, exists_eq_left, Facet.allHold_single owned]
  cases s.combination <;> simp

theorem Registry.acceptsAll_insert {r : Registry} {stored : String → List String} {front back : List Selection}
    {s : Selection} {f : Facet} (known : f ∈ r.facets) (named : s.facet = f.name) :
    r.AcceptsAll stored none (front ++ s :: back) ↔ r.AcceptsAll stored none (front ++ back) ∧ s.Accepts stored f := by
  unfold AcceptsAll
  simp only [List.forall_mem_append, List.forall_mem_cons, exists_accepts known named.symm]
  constructor
  · intro ⟨before, accepts, after⟩
    exact ⟨⟨before, after⟩, accepts nofun⟩
  · intro ⟨⟨before, after⟩, accepts⟩
    exact ⟨before, fun _ => accepts, after⟩

namespace Browser

variable {b : Browser} {r : Request} {front back : List Selection} {s : Selection} {f : Facet} {value : String}

theorem findsAt_picked (loads : ∀ s ∈ b.segments, s.Loads b.registry) (known : f ∈ b.registry.facets)
    (owned : f.countable = .ok ()) (parts : r.selections = front ++ back) (picks : s.Picks f.name value) {n : Nat} :
    b.FindsAt { r with selections := front ++ s :: back } none n ↔ b.FindsAt r none n ∧
      (value ∈ b.carried f.name n ∨ ∃ entry ∈ b.carried f.name n, f.Continues value entry) := by
  have one : ∀ {t : LiveSegment} {docno : Nat}, (documents b.segments)[n]? = some (t, docno) → docno < t.docCount →
      (s.Accepts (t.source.storedValues docno) f ↔
        value ∈ b.carried f.name n ∨ ∃ entry ∈ b.carried f.name n, f.Continues value entry) := by
    intro t docno found inside
    obtain ⟨slot, live, _, _⟩ := getElem?_documents.mp found
    have admits := ((loads t (List.mem_of_getElem? live)).shows inside).admits f known
    have carries : b.carried f.name n = f.kept (t.source.storedValues docno) := by
      unfold carried
      rw [found, Option.elim_some, Registry.keptOf_known known]
    rw [carries]
    exact (picks.accepts owned).trans (Facet.satisfies_kept owned admits)
  constructor
  · intro ⟨t, docno, found, inside, accepted, queried⟩
    obtain ⟨others, accepts⟩ := (Registry.acceptsAll_insert known picks.facet).mp accepted
    rw [← parts] at others
    exact ⟨⟨t, docno, found, inside, others, queried⟩, (one found inside).mp accepts⟩
  · intro ⟨⟨t, docno, found, inside, others, queried⟩, carries⟩
    rw [parts] at others
    exact ⟨t, docno, found, inside,
      (Registry.acceptsAll_insert known picks.facet).mpr ⟨others, (one found inside).mpr carries⟩, queried⟩

theorem Answerable.picked (answerable : b.Answerable r) (known : f ∈ b.registry.facets)
    (parts : r.selections = front ++ back) (picks : s.Picks f.name value) :
    b.Answerable { r with selections := front ++ s :: back } := by
  refine ⟨answerable.placed, ?_, answerable.counted, answerable.sorted, answerable.queried, answerable.countable,
    answerable.sortable⟩
  have selected := answerable.selected
  rw [parts] at selected
  obtain ⟨before, after⟩ := List.forall_mem_append.mp selected
  have own : s.facet ∈ b.registry.names := picks.facet ▸ List.mem_map_of_mem known
  exact List.forall_mem_append.mpr ⟨before, List.forall_mem_cons.mpr ⟨own, after⟩⟩

theorem card_of_hits {answer : Answer} {docs : Finset Nat} (loads : ∀ s ∈ b.segments, s.Loads b.registry)
    (browsed : b.browse r = .ok answer) (finds : ∀ n, n ∈ docs ↔ b.FindsAt r none n) : answer.hitCount = docs.card := by
  obtain ⟨all, size, _, distinct, listed⟩ := hits_of_browse loads browsed
  have same : (all.map (·.docId)).toFinset = docs := by
    ext n
    rw [List.mem_toFinset, listed, finds]
  rw [size, ← same, List.toFinset_card_of_nodup distinct, List.length_map]

theorem drilling_hits (b : Browser) (r : Request) (answer : Answer) (loads : ∀ s ∈ b.segments, s.Loads b.registry)
    (fits : (b.segments.map (·.docCount)).sum < 2 ^ 32) (browsed : b.browse r = .ok answer) (f : Facet)
    (known : f ∈ b.registry.facets) (unselected : ∀ s ∈ r.selections, s.facet ≠ f.name) (a : FacetAnswer)
    (shown : answer.facets[f.name]? = some a) (e : Entry) (listed : e ∈ a.entries) (front back : List Selection)
    (parts : r.selections = front ++ back) (s : Selection) (picks : s.Picks f.name e.value) :
    ∃ drilled, b.browse { r with selections := front ++ s :: back } = .ok drilled ∧ ∃ further : Finset Nat,
      (∀ n, n ∈ further ↔ b.FindsAt r none n ∧ e.value ∉ b.carried f.name n ∧
        ∃ entry ∈ b.carried f.name n, f.Continues e.value entry) ∧
      drilled.hitCount = e.hits.toNat + further.card ∧ ∀ g, f = .simple g → drilled.hitCount = e.hits.toNat := by
  obtain ⟨f', known', named, countable, spec, _, docs, finds, counts⟩ := counted_of_browse loads fits browsed shown
  obtain rfl := b.registry.eq_of_name known' known named
  have alone : r.selection? f'.name = none :=
    List.find?_eq_none.mpr fun s member same => unselected s member (of_decide_eq_true same)
  have whole : scope r f'.name spec = none := by simp [scope, alone]
  rw [whole] at finds
  have hits := counts.hits e listed
  have owned : f'.countable = .ok () := by
    have some := Nat.le_trans (Nat.le_max_left _ _) (counts.enough e listed)
    rw [hits] at some
    obtain ⟨n, member⟩ := Finset.card_pos.mp some
    obtain ⟨t, docno, found, _⟩ := (finds n).mp (Finset.mem_filter.mp member).1
    obtain ⟨slot, live, _, _⟩ := getElem?_documents.mp found
    exact countable (List.ne_nil_of_mem (List.mem_of_getElem? live))
  have answerable := (exists_browse loads).mp ⟨answer, browsed⟩
  obtain ⟨drilled, found⟩ := (exists_browse loads).mpr (answerable.picked known parts picks)
  classical
  let carriers := docs.filter fun n => e.value ∈ b.carried f'.name n
  let further := docs.filter fun n => e.value ∉ b.carried f'.name n ∧
    ∃ entry ∈ b.carried f'.name n, f'.Continues e.value entry
  have apart : Disjoint carriers further := Finset.disjoint_filter.mpr fun n _ carries others => others.1 carries
  have selects : ∀ n, n ∈ carriers ∪ further ↔ b.FindsAt { r with selections := front ++ s :: back } none n := by
    intro n
    rw [findsAt_picked loads known owned parts picks, ← finds, Finset.mem_union, Finset.mem_filter, Finset.mem_filter]
    tauto
  have total : drilled.hitCount = e.hits.toNat + further.card := by
    rw [card_of_hits loads found selects, Finset.card_union_of_disjoint apart, hits]
  refine ⟨drilled, found, further, fun n => ?_, total, fun g simple => ?_⟩
  · rw [Finset.mem_filter, finds]
  · have none : further = ∅ := by
      apply Finset.filter_false_of_mem
      intro n _ ⟨_, entry, _, continues⟩
      rw [simple] at continues
      exact continues
    rw [total, none, Finset.card_empty, Nat.add_zero]

def sized : Registry := Registry.add ∅ (.keyed { name := "fit" }) (by decide) nofun

def coats : List LiveSegment :=
  [Segment.live sized { documents := [{ stored := [("fit", "size=big")] }, { stored := [("fit", "size=big=wide")] }] } ⟨0⟩]

theorem coats_load : ∀ s ∈ coats, s.Loads sized := by
  unfold coats
  exact List.forall_mem_singleton.mpr rfl

theorem drilling_hits_coats :
    ∃ answer a drilled, Browser.browse ⟨sized, coats, {}⟩ { facets := ["fit"] } = .ok answer ∧
      answer.facets["fit"]? = some a ∧ ⟨"size=big", 1⟩ ∈ a.entries ∧
      Browser.browse ⟨sized, coats, {}⟩ { facets := ["fit"], selections := [{ facet := "fit", values := ["size=big"] }] } =
        .ok drilled ∧ ∃ further : Finset Nat, drilled.hitCount = 1 + further.card := by
  obtain ⟨answer, a, browsed, shown, listed⟩ : ∃ answer a,
      Browser.browse ⟨sized, coats, {}⟩ { facets := ["fit"] } = .ok answer ∧ answer.facets["fit"]? = some a ∧
        ⟨"size=big", 1⟩ ∈ a.entries :=
    ⟨_, _, rfl, rfl, CountSpec.mem_finish_unlimited rfl rfl (by decide +kernel) (by decide) (by decide)⟩
  obtain ⟨drilled, found, further, _, total, _⟩ := drilling_hits _ _ answer coats_load (by decide) browsed
    (.keyed { name := "fit" }) (.head _) nofun a shown _ listed [] [] rfl
    { facet := "fit", values := ["size=big"] } ⟨rfl, rfl, rfl⟩
  exact ⟨answer, a, drilled, browsed, shown, listed, found, further, total⟩

theorem drilling_past_count : ∃ answer a, (∀ s ∈ coats, s.Loads sized) ∧
    Browser.browse ⟨sized, coats, {}⟩ { facets := ["fit"] } = .ok answer ∧ answer.facets["fit"]? = some a ∧
    ⟨"size=big", 1⟩ ∈ a.entries ∧ ∀ combination, ∃ drilled, Browser.browse ⟨sized, coats, {}⟩
      { facets := ["fit"], selections := [{ facet := "fit", values := ["size=big"], combination }] } = .ok drilled ∧
        drilled.hitCount = 2 := by
  refine ⟨_, _, coats_load, rfl, rfl, ?_, fun combination => ?_⟩
  · exact CountSpec.mem_finish_unlimited rfl rfl (by decide +kernel) (by decide) (by decide)
  · cases combination with
    | every => exact ⟨_, rfl, (length_ranked _ _).trans (by decide +kernel)⟩
    | any => exact ⟨_, rfl, (length_ranked _ _).trans (by decide +kernel)⟩

end Browser

end FacetedSearch
