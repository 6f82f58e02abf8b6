import FacetedSearch.Proofs.Browse.Hits

namespace FacetedSearch

namespace Registry

def keptOf (r : Registry) (facet : String) (stored : String → List String) : List String :=
  (r.get? facet).elim [] (·.kept stored)

variable {r : Registry} {f : Facet}

theorem keptOf_known (member : f ∈ r.facets) (stored : String → List String) : r.keptOf f.name stored = f.kept stored := by
  unfold keptOf
  rw [get?_exact.mpr ⟨member, rfl⟩, Option.elim_some]

end Registry

theorem LiveSegment.Loads.valuesAt {r : Registry} {s : LiveSegment} (loads : s.Loads r) {docno : Nat}
    (inside : docno < s.docCount) (facet : String) :
    s.facets.valuesAt facet docno = (SortedSet.ofList (r.keptOf facet (s.source.storedValues docno))).toList := by
  rw [loads.docCount] at inside
  rw [loads.loaded]
  unfold Registry.keptOf
  cases found : r.get? facet with
  | some f =>
    obtain ⟨member, rfl⟩ := Registry.get?_exact.mp found
    exact LoadedFacets.valuesAt_ofSource member inside
  | none =>
    apply LoadedFacets.valuesAt_unknown
    intro known
    obtain ⟨f, member, rfl⟩ := List.mem_map.mp known
    rw [Registry.get?_exact.mpr ⟨member, rfl⟩] at found
    cases found

namespace Browser

-- All documents of some segments in order. A document's number is its place here.
def documents (segments : List LiveSegment) : List (LiveSegment × Nat) :=
  segments.flatMap fun s => (List.range s.docCount).map (s, ·)

theorem length_documents (segments : List LiveSegment) :
    (documents segments).length = (segments.map (·.docCount)).sum := by
  simp [documents, List.length_flatMap]

theorem getElem?_documents {segments : List LiveSegment} {number docno : Nat} {s : LiveSegment} :
    (documents segments)[number]? = some (s, docno) ↔ ∃ slot, segments[slot]? = some s ∧ docno < s.docCount ∧
      number = ((segments.take slot).map (·.docCount)).sum + docno := by
  induction segments generalizing number with
  | nil => simp [documents]
  | cons first rest ih =>
    have step : documents (first :: rest) = (List.range first.docCount).map (first, ·) ++ documents rest := rfl
    have size : ((List.range first.docCount).map (first, ·)).length = first.docCount := by simp
    rw [step]
    by_cases early : number < first.docCount
    · rw [List.getElem?_append_left (by rwa [size]), List.getElem?_map, List.getElem?_range early]
      constructor
      · intro found
        cases found
        exact ⟨0, rfl, early, by simp⟩
      · intro ⟨slot, found, inside, same⟩
        cases slot with
        | zero =>
          cases found
          simp [same]
        | succ slot =>
          rw [List.take_succ_cons, List.map_cons, List.sum_cons] at same
          omega
    · rw [List.getElem?_append_right (by rw [size]; exact Nat.not_lt.mp early), size, ih]
      constructor
      · intro ⟨slot, found, inside, same⟩
        refine ⟨slot + 1, found, inside, ?_⟩
        rw [List.take_succ_cons, List.map_cons, List.sum_cons]
        omega
      · intro ⟨slot, found, inside, same⟩
        cases slot with
        | zero =>
          cases found
          simp at same
          omega
        | succ slot =>
          refine ⟨slot, found, inside, ?_⟩
          rw [List.take_succ_cons, List.map_cons, List.sum_cons] at same
          omega

def carried (b : Browser) (facet : String) (number : Nat) : List String :=
  ((documents b.segments)[number]?).elim [] fun place => b.registry.keptOf facet (place.1.source.storedValues place.2)

theorem valuesAt_of_number {b : Browser} {facet : String} {number docno : Nat} {s : LiveSegment}
    (loads : ∀ s ∈ b.segments, s.Loads b.registry) (found : (documents b.segments)[number]? = some (s, docno)) :
    s.facets.valuesAt facet docno = (SortedSet.ofList (b.carried facet number)).toList := by
  obtain ⟨slot, live, inside, _⟩ := getElem?_documents.mp found
  unfold carried
  rw [(loads s (List.mem_of_getElem? live)).valuesAt inside, found, Option.elim_some]

def FindsAt (b : Browser) (r : Request) (leftOut : Option String) (number : Nat) : Prop :=
  ∃ s docno, (documents b.segments)[number]? = some (s, docno) ∧ b.Finds r leftOut s docno

structure Asked (b : Browser) (r : Request) (asked : List (LiveSegment × Option DocSet)) : Prop where
  segments : asked.map Prod.fst = b.segments
  queried : ∀ p ∈ asked, b.queryDocs r p.1 = .ok p.2

def contributions (r : Request) (filter : Option Filter) (tasks : List CountTask)
    (asked : List (LiveSegment × Option DocSet)) : List Share :=
  asked.map fun p => contribution r filter tasks p.1 p.2

section Runs

variable {b : Browser} {r : Request} {asked : List (LiveSegment × Option DocSet)}
  {filter : Option Filter} {tasks : List CountTask} {leftOut : Option String}

theorem Asked.loads (answered : Asked b r asked) (loads : ∀ s ∈ b.segments, s.Loads b.registry) :
    ∀ p ∈ asked, p.1.Loads b.registry := by
  intro p member
  apply loads
  rw [← answered.segments]
  exact List.mem_map_of_mem member

theorem contributions_of_shares {segments : List LiveSegment} {shares : List Share}
    (known : ∀ task ∈ tasks, task.facet ∈ b.registry.facets) (loads : ∀ s ∈ segments, s.Loads b.registry)
    (shared : List.Forall₂ (fun s share => b.share r filter tasks s = .ok share) segments shares) :
    ∃ asked : List (LiveSegment × Option DocSet), asked.map Prod.fst = segments ∧
      (∀ p ∈ asked, b.queryDocs r p.1 = .ok p.2) ∧ shares = contributions r filter tasks asked := by
  induction shared with
  | nil => exact ⟨[], rfl, nofun, rfl⟩
  | @cons s share segments shares first _ ih =>
    obtain ⟨head, tail⟩ := List.forall_mem_cons.mp loads
    obtain ⟨queried, found, rfl⟩ := share_parts head known first
    obtain ⟨asked, rfl, answered, rfl⟩ := ih tail
    exact ⟨(s, queried) :: asked, rfl, List.forall_mem_cons.mpr ⟨found, answered⟩, rfl⟩

theorem browse_contributions {answer : Answer} (loads : ∀ s ∈ b.segments, s.Loads b.registry)
    (browsed : b.browse r = .ok answer) : ∃ filter tasks asked, b.prepare r = .ok (filter, tasks) ∧ Asked b r asked ∧
      answer = assemble r tasks (contributions r filter tasks asked) := by
  obtain ⟨filter, tasks, shares, prepared, shared, rfl⟩ := browse_parts browsed
  obtain ⟨asked, same, queried, rfl⟩ := contributions_of_shares (prepare_parts prepared).2 loads shared
  exact ⟨filter, tasks, asked, prepared, ⟨same, queried⟩, rfl⟩

theorem orderly_contributions (loads : ∀ p ∈ asked, p.1.Loads b.registry) :
    ∀ share ∈ contributions r filter tasks asked, Orderly share := by
  intro share member
  obtain ⟨p, inside, rfl⟩ := List.mem_map.mp member
  exact orderly_contribution (loads p inside) p.2

theorem numbers_ascending (filter : Option Filter) (tasks : List CountTask) (answered : Asked b r asked)
    (loads : ∀ s ∈ b.segments, s.Loads b.registry) :
    ((numbered 0 (contributions r filter tasks asked)).map (·.hit.docId)).Pairwise (· < ·) :=
  List.pairwise_map.mpr (numbered_ascending (orderly_contributions (answered.loads loads)))

-- What stands before the segments is carried through the induction.
theorem documents_numbered (r : Request) (filter : Option Filter) (tasks : List CountTask)
    (before : List (LiveSegment × Nat)) (loads : ∀ p ∈ asked, p.1.Loads b.registry) :
    (numbered before.length (contributions r filter tasks asked)).map
        (fun k => (before ++ documents (asked.map Prod.fst))[k.hit.docId]?) =
      (asked.flatMap fun p => (restrict p.1.facets filter p.2).toList.map fun docno => some (p.1, docno)) := by
  induction asked generalizing before with
  | nil => rfl
  | cons p rest ih =>
    obtain ⟨head, tail⟩ := List.forall_mem_cons.mp loads
    have step : before ++ documents ((p :: rest).map Prod.fst) =
        before ++ (List.range p.1.docCount).map (p.1, ·) ++ documents (rest.map Prod.fst) := by
      rw [List.append_assoc]
      rfl
    have later := ih (before ++ (List.range p.1.docCount).map (p.1, ·)) tail
    rw [List.length_append, List.length_map, List.length_range] at later
    rw [step, List.flatMap_cons, ← later]
    unfold contributions
    rw [List.map_cons, numbered, List.map_append]
    refine congrArg (· ++ _) ?_
    unfold contribution
    rw [List.map_map, List.map_map]
    apply List.map_congr_left
    intro docno member
    have inside : docno < p.1.docCount := lt_of_mem_restrict head member
    have place : (before ++ (List.range p.1.docCount).map (p.1, ·) ++
        documents (rest.map Prod.fst))[before.length + docno]? = some (p.1, docno) := by
      rw [List.append_assoc, List.getElem?_append_right (Nat.le_add_right _ _), Nat.add_sub_cancel_left,
        List.getElem?_append_left (by simpa using inside), List.getElem?_map, List.getElem?_range inside, Option.map_some]
    exact place

theorem map_numbered {α : Type} (filter : Option Filter) (tasks : List CountTask) (answered : Asked b r asked)
    (loads : ∀ s ∈ b.segments, s.Loads b.registry) (read : Option (LiveSegment × Nat) → α) :
    (numbered 0 (contributions r filter tasks asked)).map (fun k => read (documents b.segments)[k.hit.docId]?) =
      asked.flatMap fun p => (restrict p.1.facets filter p.2).toList.map fun docno => read (some (p.1, docno)) := by
  have places := congrArg (List.map read) (documents_numbered r filter tasks [] (answered.loads loads))
  rw [answered.segments, List.map_map, List.map_flatMap] at places
  simpa only [List.map_map, Function.comp_def, List.length_nil, List.nil_append] using places

theorem mem_numbered_contributions (tasks : List CountTask) (answered : Asked b r asked)
    (loads : ∀ s ∈ b.segments, s.Loads b.registry) (composed : b.registry.compose r.selections leftOut = .ok filter)
    {k : RankedHit} : k ∈ numbered 0 (contributions r filter tasks asked) ↔
      ∃ number s docno, (documents b.segments)[number]? = some (s, docno) ∧ b.Finds r leftOut s docno ∧
        k = ⟨⟨number, s.id, docno⟩, r.sort.map fun field => (s.facets.valuesAt field.facet docno).head?⟩ := by
  have sizes : ∀ slot, (((contributions r filter tasks asked).take slot).map (·.docCount)).sum =
      ((b.segments.take slot).map (·.docCount)).sum := by
    intro slot
    unfold contributions
    rw [← answered.segments, ← List.map_take, ← List.map_take, List.map_map, List.map_map]
    rfl
  rw [mem_numbered]
  constructor
  · intro parts
    obtain ⟨slot, share, found, m, listed, rfl⟩ := parts
    obtain ⟨p, asks, rfl⟩ := Option.map_eq_some_iff.mp ((List.getElem?_map).symm.trans found)
    obtain ⟨docno, member, rfl⟩ := List.mem_map.mp listed
    have inside := List.mem_of_getElem? asks
    have loaded := answered.loads loads p inside
    refine ⟨_, p.1, docno, getElem?_documents.mpr ⟨slot, ?_, lt_of_mem_restrict loaded member, rfl⟩,
      (mem_restrict_finds loaded composed (answered.queried p inside)).mp member, ?_⟩
    · rw [← answered.segments, List.getElem?_map, asks]
      rfl
    · rw [Nat.zero_add, sizes]
      rfl
  · intro parts
    obtain ⟨number, s, docno, found, finds, rfl⟩ := parts
    obtain ⟨slot, live, inside, rfl⟩ := getElem?_documents.mp found
    rw [← answered.segments] at live
    obtain ⟨p, asks, rfl⟩ := Option.map_eq_some_iff.mp ((List.getElem?_map).symm.trans live)
    have member := List.mem_of_getElem? asks
    refine ⟨slot, contribution r filter tasks p.1 p.2, ?_, _, List.mem_map_of_mem
      ((mem_restrict_finds (answered.loads loads p member) composed (answered.queried p member)).mpr finds), ?_⟩
    · unfold contributions
      rw [List.getElem?_map, asks]
      rfl
    · rw [Nat.zero_add, sizes]
      rfl

end Runs

end Browser

end FacetedSearch
