import FacetedSearch.Proofs.Browse.Expanded
import FacetedSearch.Proofs.Facet.Sums

namespace FacetedSearch

namespace Browser

variable {b : Browser} {r : Request} {leftOut : Option String} {s : LiveSegment} {own : Option Filter}
  {queried : Option DocSet}

def CountsExactly (b : Browser) (r : Request) (leftOut : Option String) (facet : String) (s : LiveSegment)
    (c : ValueCounts) : Prop :=
  ∃ docs : Finset Nat, (∀ docno, docno ∈ docs ↔ b.Finds r leftOut s docno) ∧
    c.total.toNat = (docs.filter fun docno => b.registry.keptOf facet (s.source.storedValues docno) ≠ []).card ∧
    ∀ value, (c.get value).toNat =
      (docs.filter fun docno => value ∈ b.registry.keptOf facet (s.source.storedValues docno)).card

def segmentRows (facet : String) (own : Option Filter) (p : LiveSegment × Option DocSet) : List (List String) :=
  (restrict p.1.facets own p.2).toList.map (p.1.facets.valuesAt facet)

theorem length_segmentRows (loads : s.Loads b.registry) (facet : String) (own : Option Filter) (queried : Option DocSet) :
    (segmentRows facet own (s, queried)).length ≤ s.docCount := by
  unfold segmentRows
  rw [List.length_map]
  exact length_ascending ((restrict s.facets own queried).ascending.imp Nat.compare_eq_lt.mp) fun docno member =>
    lt_of_mem_restrict loads member

theorem segmentRows_exact (loads : s.Loads b.registry) (facet : String) : segmentRows facet own (s, queried) =
    (restrict s.facets own queried).toList.map fun docno =>
      (SortedSet.ofList (b.registry.keptOf facet (s.source.storedValues docno))).toList :=
  List.map_congr_left fun _ member => loads.valuesAt (lt_of_mem_restrict loads member) facet

theorem countsExactly_segmentRows (loads : s.Loads b.registry) (small : s.docCount < 2 ^ 32)
    (composed : b.registry.compose r.selections leftOut = .ok own) (answered : b.queryDocs r s = .ok queried)
    (facet : String) : b.CountsExactly r leftOut facet s (.ofRows (segmentRows facet own (s, queried))) := by
  have ascending := (restrict s.facets own queried).ascending.imp Nat.compare_eq_lt.mp
  have few := Nat.lt_of_le_of_lt (length_segmentRows loads facet own queried) small
  rw [segmentRows_exact loads] at few ⊢
  refine ⟨(restrict s.facets own queried).toList.toFinset, fun docno => ?_, ?_, fun value => ?_⟩
  · exact List.mem_toFinset.trans (mem_restrict_finds loads composed answered)
  · exact (ValueCounts.total_ofRows (Nat.lt_of_le_of_lt (ValueCounts.filled_le_length _) few)).trans
      (countP_filled _ ascending)
  · rw [ValueCounts.toNat_get_ofRows, ValueCounts.count_flatten (nodup_rows _), countP_rows _ ascending, Nat.mod_eq_of_lt]
    rw [← countP_rows _ ascending]
    exact Nat.lt_of_le_of_lt List.countP_le_length few

theorem nodup_segmentRows (loads : s.Loads b.registry) (facet : String) :
    ∀ row ∈ segmentRows facet own (s, queried), row.Nodup := by
  rw [segmentRows_exact loads]
  exact nodup_rows _

section Merged

variable {asked : List (LiveSegment × Option DocSet)} {name : String} {numbers : List Nat}

theorem rows_segmentRows (asked : List (LiveSegment × Option DocSet)) (own : Option Filter) (facet : String) :
    rows asked own facet = (asked.map (segmentRows facet own)).flatten :=
  List.flatMap_def

theorem merged_segmentRows (asked : List (LiveSegment × Option DocSet)) (own : Option Filter) (facet : String) :
    (asked.map fun p => ValueCounts.ofRows (segmentRows facet own p)).foldl ValueCounts.merge ∅ =
      .ofRows (rows asked own facet) := by
  have merged := ValueCounts.foldl_merge_ofRows (asked.map (segmentRows facet own)) []
  rw [List.map_map, List.nil_append, ← rows_segmentRows] at merged
  exact merged

theorem NumberedRows.remainders (found : b.NumberedRows r leftOut name asked own numbers) :
    (ValueCounts.ofRows (rows asked own name)).total.toNat =
      (numbers.toFinset.filter fun n => b.carried name n ≠ []).card % 2 ^ 32 ∧
    ∀ value hits, (ValueCounts.ofRows (rows asked own name)).counts[value]? = some hits →
      hits.toNat = (numbers.toFinset.filter fun n => value ∈ b.carried name n).card % 2 ^ 32 := by
  rw [found.shown]
  constructor
  · rw [ValueCounts.toNat_total_ofRows, ValueCounts.filled, countP_filled _ found.ascending]
  · intro value hits held
    rw [ValueCounts.toNat_hits_ofRows held, ValueCounts.count_flatten (nodup_rows _), countP_rows _ found.ascending]

theorem NumberedRows.absorbed (found : b.NumberedRows r leftOut name asked own numbers)
    (loads : ∀ s ∈ b.segments, s.Loads b.registry) (small : ∀ s ∈ b.segments, s.docCount < 2 ^ 32) :
    (∅ : ValueCounts).AbsorbsAll (asked.map fun p => .ofRows (segmentRows name own p)) ↔
      (numbers.toFinset.filter fun n => b.carried name n ≠ []).card < 2 ^ 32 := by
  have members : ∀ p ∈ asked, p.1 ∈ b.segments := fun p member =>
    found.answered.segments ▸ List.mem_map_of_mem member
  have all := ValueCounts.absorbsAll_ofRows (asked.map (segmentRows name own)) [] nofun ?_ (by decide) ?_
  · rw [List.map_map, List.nil_append, ← rows_segmentRows, found.shown, ValueCounts.filled, countP_filled _ found.ascending]
      at all
    exact all
  · intro shares member
    obtain ⟨p, asks, rfl⟩ := List.mem_map.mp member
    exact nodup_segmentRows (loads _ (members p asks)) name
  · intro shares member
    obtain ⟨p, asks, rfl⟩ := List.mem_map.mp member
    apply Nat.lt_of_le_of_lt (ValueCounts.filled_le_length _)
    exact Nat.lt_of_le_of_lt (length_segmentRows (loads _ (members p asks)) name _ _) (small _ (members p asks))

end Merged

theorem carriers_le (b : Browser) (facet value : String) (docs : Finset Nat) :
    (docs.filter fun n => value ∈ b.carried facet n).card ≤ (docs.filter fun n => b.carried facet n ≠ []).card := by
  apply Finset.card_le_card
  intro n carrier
  obtain ⟨member, carries⟩ := Finset.mem_filter.mp carrier
  exact Finset.mem_filter.mpr ⟨member, List.ne_nil_of_mem carries⟩

theorem facet_sums_wrap (b : Browser) (r : Request) (answer : Answer) (loads : ∀ s ∈ b.segments, s.Loads b.registry)
    (small : ∀ s ∈ b.segments, s.docCount < 2 ^ 32) (browsed : b.browse r = .ok answer) (name : String) (a : FacetAnswer)
    (shown : answer.facets[name]? = some a) : ∃ f ∈ b.registry.facets, f.name = name ∧
      ∃ spec, b.spec? r name = some spec ∧ ∃ own counts, b.registry.compose r.selections (scope r name spec) = .ok own ∧
        List.Forall₂ (fun s c => b.segmentCounts r f own s = .ok c ∧ b.CountsExactly r (scope r name spec) name s c)
          b.segments counts ∧
        a = spec.finish (f.countOptions (r.selection? name)) (counts.foldl ValueCounts.merge ∅) ∧
        ∃ docs : Finset Nat, (∀ n, n ∈ docs ↔ b.FindsAt r (scope r name spec) n) ∧
          a.total.toNat = (docs.filter fun n => b.carried name n ≠ []).card % 2 ^ 32 ∧
          (∀ e ∈ a.entries, e.hits.toNat = (docs.filter fun n => e.value ∈ b.carried name n).card % 2 ^ 32) ∧
          ((∅ : ValueCounts).AbsorbsAll counts ↔ (docs.filter fun n => b.carried name n ≠ []).card < 2 ^ 32) ∧
          ((docs.filter fun n => b.carried name n ≠ []).card < 2 ^ 32 →
            a.total.toNat = (docs.filter fun n => b.carried name n ≠ []).card ∧
            ∀ e ∈ a.entries, e.hits.toNat = (docs.filter fun n => e.value ∈ b.carried name n).card) := by
  have countable := ((exists_browse loads).mp ⟨answer, browsed⟩).countable
  obtain ⟨f, known, rfl, spec, given, asked, own, numbers, found, rfl⟩ := exists_rows loads browsed shown
  obtain ⟨total, hits⟩ := found.remainders
  refine ⟨f, known, rfl, spec, given, own, asked.map fun p => .ofRows (segmentRows f.name own p), found.composed, ?_, ?_,
    numbers.toFinset, fun n => List.mem_toFinset.trans (found.finds n), total, fun e listed => ?_,
    found.absorbed loads small, fun fits => ⟨total.trans (Nat.mod_eq_of_lt fits), fun e listed => ?_⟩⟩
  · rw [← found.answered.segments, List.forall₂_map_left_iff, List.forall₂_map_right_iff, List.forall₂_same]
    intro p asks
    have live : p.1 ∈ b.segments := found.answered.segments ▸ List.mem_map_of_mem asks
    have can := countable (List.ne_nil_of_mem live) f known (mem_specs_of_spec? given)
    have answered := found.answered.queried p asks
    exact ⟨segmentCounts_exact (loads _ live) known can answered,
      countsExactly_segmentRows (loads _ live) (small _ live) found.composed answered f.name⟩
  · rw [merged_segmentRows]
  · exact hits e.value e.hits (CountSpec.mem_finish listed).1
  · rw [hits e.value e.hits (CountSpec.mem_finish listed).1, Nat.mod_eq_of_lt]
    exact Nat.lt_of_le_of_lt (carriers_le b f.name e.value numbers.toFinset) fits

def colored : Registry := Registry.add ∅ color (by decide) nofun

def red : Document := { stored := [("color", "red")] }

def crowd (n : Nat) : Segment := { documents := List.replicate n red }

def crowds (n : Nat) : List LiveSegment := [(crowd n).live colored ⟨0⟩, (crowd n).live colored ⟨1⟩]

section Crowds

variable {n number : Nat}

theorem crowds_open : ∀ s ∈ crowds n, s.Opens colored (crowd n) := by
  have admits : ∀ f ∈ colored.facets, ∀ d ∈ (crowd n).documents, f.Admits d.valuesOf := by
    intro f known d member
    obtain rfl := List.mem_singleton.mp known
    obtain rfl := List.eq_of_mem_replicate member
    exact Nat.le_refl 1
  exact List.forall_mem_cons.mpr ⟨Segment.opens_live _ admits, List.forall_mem_singleton.mpr (Segment.opens_live _ admits)⟩

theorem docCount_crowds : ∀ s ∈ crowds n, s.docCount = n := by
  intro s live
  rw [(crowds_open s live).docCount]
  exact List.length_replicate

theorem length_crowds : (documents (crowds n)).length = n + n := by
  obtain ⟨first, second⟩ := List.forall_mem_cons.mp (docCount_crowds (n := n))
  rw [length_documents, crowds, List.map_cons, List.map_cons, first, List.forall_mem_singleton.mp second]
  exact congrArg (n + ·) (Nat.add_zero n)

theorem crowds_answerable : Answerable ⟨colored, crowds n, {}⟩ { facets := ["color"] } where
  placed := nofun
  selected := nofun
  counted name given := by
    rcases mem_specs.mp given with listed | listed
    · exact absurd listed Std.ExtTreeMap.not_mem_empty
    · exact listed
  sorted := nofun
  queried _ _ := ⟨none, rfl⟩
  countable _ f known _ := List.mem_singleton.mp known ▸ rfl
  sortable _ _ _ := nofun

theorem findsAt_crowds : FindsAt ⟨colored, crowds n, {}⟩ { facets := ["color"] } none number ↔ number < n + n := by
  rw [← length_crowds]
  constructor
  · intro ⟨s, docno, found, _⟩
    exact (List.getElem?_eq_some_iff.mp found).1
  · intro inside
    have found := List.getElem?_eq_getElem inside
    obtain ⟨_, _, within, _⟩ := getElem?_documents.mp found
    exact ⟨_, _, found, within, nofun, nofun⟩

theorem carried_crowds (inside : number < n + n) : carried ⟨colored, crowds n, {}⟩ "color" number = ["red"] := by
  rw [← length_crowds] at inside
  obtain ⟨⟨s, docno⟩, found⟩ : ∃ place, (documents (crowds n))[number]? = some place := ⟨_, List.getElem?_eq_getElem inside⟩
  obtain ⟨_, live, within, _⟩ := getElem?_documents.mp found
  have opens := crowds_open s (List.mem_of_getElem? live)
  rw [docCount_crowds s (List.mem_of_getElem? live)] at within
  have document : (crowd n).documents[docno]? = some red := by
    unfold crowd
    rw [List.getElem?_replicate, if_pos within]
  unfold carried
  rw [found, Option.elim_some, opens.source, Segment.storedValues_of_document document]
  rfl

theorem crowds_load : ∀ s ∈ crowds n, s.Loads colored := fun s live => (crowds_open s live).loads

theorem docs_crowds {docs : Finset Nat} {spec : CountSpec} (finds : ∀ k, k ∈ docs ↔
    FindsAt ⟨colored, crowds n, {}⟩ { facets := ["color"] } (scope { facets := ["color"] } "color" spec) k) :
    docs = Finset.range (n + n) := by
  have nothing : scope { facets := ["color"] } "color" spec = none := by
    unfold scope
    rw [show Request.selection? { facets := ["color"] } "color" = none from rfl, Option.isSome_none, Bool.and_false]
    exact if_neg Bool.false_ne_true
  ext k
  rw [finds, nothing, findsAt_crowds, Finset.mem_range]

theorem carriers_crowds (p : List String → Prop) [DecidablePred p] (holds : p ["red"]) :
    ((Finset.range (n + n)).filter fun k => p (carried ⟨colored, crowds n, {}⟩ "color" k)).card = n + n := by
  rw [Finset.filter_true_of_mem, Finset.card_range]
  intro k member
  rw [carried_crowds (Finset.mem_range.mp member)]
  exact holds

theorem crowds_counted (n : Nat) : ∃ answer a,
    Browser.browse ⟨colored, crowds n, {}⟩ { facets := ["color"] } = .ok answer ∧ answer.facets["color"]? = some a ∧
    a.total.toNat = (n + n) % 2 ^ 32 ∧ ∀ e ∈ a.entries, e.hits.toNat = (n + n) % 2 ^ 32 ∧ 0 < e.hits.toNat := by
  obtain ⟨answer, browsed⟩ := (exists_browse crowds_load).mpr (crowds_answerable (n := n))
  have named : "color" ∈ answer.facets := (mem_facets_of_browse crowds_load browsed).mpr (.inr (.head _))
  obtain ⟨a, shown⟩ := Option.isSome_iff_exists.mp (Std.ExtTreeMap.mem_iff_isSome_getElem?.mp named)
  refine ⟨answer, a, browsed, shown, ?_⟩
  obtain ⟨f, _, _, spec, given, asked, own, numbers, found, rfl⟩ := exists_rows crowds_load browsed shown
  obtain ⟨total, hits⟩ := found.remainders
  have all : numbers.toFinset = Finset.range (n + n) := docs_crowds fun k => List.mem_toFinset.trans (found.finds k)
  rw [all, carriers_crowds (· ≠ []) nofun] at total
  refine ⟨total, fun e listed => ?_⟩
  obtain ⟨held, enough, _⟩ := CountSpec.mem_finish listed
  have plain : spec = {} := Option.some.inj (given.symm.trans rfl)
  have positive : 0 < e.hits.toNat := by
    rw [plain] at enough
    exact UInt32.le_iff_toNat_le.mp enough
  have counted := hits e.value e.hits held
  rw [all] at counted
  by_cases same : e.value = "red"
  · rw [same, carriers_crowds ("red" ∈ ·) (.head _)] at counted
    exact ⟨counted, positive⟩
  · rw [Finset.filter_false_of_mem] at counted
    · rw [counted] at positive
      exact absurd positive (by decide)
    · intro k member
      rw [carried_crowds (Finset.mem_range.mp member), List.mem_singleton]
      exact same

end Crowds

theorem facet_sums_wrap_crowds : ∃ answer a counts,
    Browser.browse ⟨colored, crowds 3, {}⟩ { facets := ["color"] } = .ok answer ∧ answer.facets["color"]? = some a ∧
    a.total.toNat = 6 ∧ counts.length = 2 ∧ (∅ : ValueCounts).AbsorbsAll counts := by
  obtain ⟨answer, a, browsed, shown, total, _⟩ := crowds_counted 3
  have small : ∀ s ∈ crowds 3, s.docCount < 2 ^ 32 := fun s live => by
    rw [docCount_crowds s live]
    decide
  obtain ⟨_, _, _, _, _, _, counts, _, counted, _, docs, finds, _, _, absorbed, _⟩ := facet_sums_wrap ⟨colored, crowds 3, {}⟩
    { facets := ["color"] } answer crowds_load small browsed "color" a shown
  refine ⟨answer, a, counts, browsed, shown, total, counted.length_eq.symm, absorbed.mpr ?_⟩
  rw [docs_crowds finds, carriers_crowds (· ≠ []) nofun]
  decide

theorem red_uncounted : ∃ answer, (∀ s ∈ crowds (2 ^ 31), s.Loads colored) ∧ (∀ s ∈ crowds (2 ^ 31), s.docCount < 2 ^ 32) ∧
    Browser.browse ⟨colored, crowds (2 ^ 31), {}⟩ { facets := ["color"] } = .ok answer ∧
    answer.facets["color"]? = some { entries := [], total := 0 } ∧ ∃ docs : Finset Nat,
      (∀ k, k ∈ docs ↔ FindsAt ⟨colored, crowds (2 ^ 31), {}⟩ { facets := ["color"] } none k) ∧
      (docs.filter fun k => "red" ∈ carried ⟨colored, crowds (2 ^ 31), {}⟩ "color" k).card = 2 ^ 32 := by
  obtain ⟨answer, a, browsed, shown, total, hits⟩ := crowds_counted (2 ^ 31)
  have sum : 2 ^ 31 + 2 ^ 31 = 2 ^ 32 := by decide
  rw [sum, Nat.mod_self] at total hits
  have none : a.entries = [] := by
    apply List.eq_nil_iff_forall_not_mem.mpr
    intro e listed
    obtain ⟨zero, positive⟩ := hits e listed
    omega
  refine ⟨answer, crowds_load, fun s live => ?_, browsed, ?_, Finset.range (2 ^ 31 + 2 ^ 31), fun k => ?_, ?_⟩
  · rw [docCount_crowds s live]
    decide
  · rw [shown, ← none, ← UInt32.toNat_inj.mp (total.trans UInt32.toNat_zero.symm)]
  · rw [findsAt_crowds, Finset.mem_range]
  · rw [carriers_crowds ("red" ∈ ·) (.head _)]
    exact sum

end Browser

end FacetedSearch
