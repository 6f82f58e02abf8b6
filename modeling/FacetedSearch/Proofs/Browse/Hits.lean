import FacetedSearch.Proofs.Browse.Segments

namespace FacetedSearch

namespace Browser

def prepare (b : Browser) (r : Request) : Except Error (Option Filter × List CountTask) := do
  if r.within.isSome && r.query.isNone then
    throw (.invalidRequest "section given without a query")
  let filter ← b.registry.compose r.selections none
  let tasks ← (b.specs r).toList.mapM fun (name, spec) => b.countTask r name spec
  r.sort.forM fun field => discard (b.registry.require field.facet)
  return (filter, tasks)

def assemble (r : Request) (tasks : List CountTask) (shares : List Share) : Answer where
  hitCount := (ranked r shares).length
  hits := ((ranked r shares).drop r.offset).take r.count
  facets := .ofList ((tasks.zip (totals tasks shares)).map fun (task, counted) =>
    (task.name, facetAnswer r task counted))

variable {b : Browser} {r : Request} {name : String} {spec : CountSpec} {task : CountTask} {filter : Option Filter}
  {tasks : List CountTask}

theorem browse_steps (b : Browser) (r : Request) : b.browse r = do
    let (filter, tasks) ← b.prepare r
    let shares ← b.segments.mapM (b.share r filter tasks)
    return assemble r tasks shares := by
  unfold browse prepare
  split
  · rfl
  · simp only [bind_assoc, pure_bind]
    rfl

def scope (r : Request) (name : String) (spec : CountSpec) : Option String :=
  if spec.expandsSelection && (r.selection? name).isSome then some name else none

structure Made (b : Browser) (r : Request) (filter : Option Filter) (task : CountTask) : Prop where
  facet : b.registry.require task.name = .ok task.facet
  filter : b.registry.compose r.selections (scope r task.name task.spec) = .ok (task.expanded.getD filter)

theorem countTask_parts (composed : b.registry.compose r.selections none = .ok filter)
    (made : b.countTask r name spec = .ok task) : task.name = name ∧ task.spec = spec ∧ Made b r filter task := by
  obtain ⟨f, required, made⟩ := bind_ok_exact.mp made
  simp only at made
  split at made
  · rename_i expands
    obtain ⟨expanded, found, made⟩ := bind_ok_exact.mp made
    cases made
    obtain ⟨own, others, same⟩ := bind_ok_exact.mp found
    cases same
    refine ⟨rfl, rfl, required, ?_⟩
    unfold scope
    rwa [if_pos expands]
  · rename_i plain
    cases made
    refine ⟨rfl, rfl, required, ?_⟩
    unfold scope
    rwa [if_neg plain]

theorem prepare_parts (prepared : b.prepare r = .ok (filter, tasks)) :
    b.registry.compose r.selections none = .ok filter ∧ ∀ task ∈ tasks, task.facet ∈ b.registry.facets := by
  unfold prepare at prepared
  split at prepared
  · cases prepared
  · obtain ⟨composed, filtered, prepared⟩ := bind_ok_exact.mp prepared
    obtain ⟨made, tasked, prepared⟩ := bind_ok_exact.mp prepared
    obtain ⟨_, _, prepared⟩ := bind_ok_exact.mp prepared
    cases prepared
    refine ⟨filtered, fun task member => ?_⟩
    obtain ⟨⟨name, spec⟩, _, named⟩ := exists_of_related (mapM_ok_exact.mp tasked) member
    exact (Registry.require_exact.mp (countTask_parts filtered named).2.2.facet).1

theorem browse_parts {answer : Answer} (browsed : b.browse r = .ok answer) :
    ∃ filter tasks shares, b.prepare r = .ok (filter, tasks) ∧
      List.Forall₂ (fun s share => b.share r filter tasks s = .ok share) b.segments shares ∧
      answer = assemble r tasks shares := by
  rw [browse_steps] at browsed
  obtain ⟨⟨filter, tasks⟩, prepared, browsed⟩ := bind_ok_exact.mp browsed
  obtain ⟨shares, asked, browsed⟩ := bind_ok_exact.mp browsed
  exact ⟨filter, tasks, shares, prepared, mapM_ok_exact.mp asked, (Except.ok.inj browsed).symm⟩

theorem browse_assemble {shares : List Share} (prepared : b.prepare r = .ok (filter, tasks))
    (shared : List.Forall₂ (fun s share => b.share r filter tasks s = .ok share) b.segments shares) :
    b.browse r = .ok (assemble r tasks shares) := by
  rw [browse_steps]
  exact bind_ok_exact.mpr ⟨_, prepared, bind_ok_exact.mpr ⟨shares, mapM_ok_exact.mpr shared, rfl⟩⟩

theorem share_parts {s : LiveSegment} {share : Share} (loads : s.Loads b.registry)
    (known : ∀ task ∈ tasks, task.facet ∈ b.registry.facets) (shared : b.share r filter tasks s = .ok share) :
    ∃ queried, b.queryDocs r s = .ok queried ∧ share = contribution r filter tasks s queried := by
  rw [share_exact loads known] at shared
  obtain ⟨queried, asked, shared⟩ := bind_ok_exact.mp shared
  obtain ⟨_, _, shared⟩ := bind_ok_exact.mp shared
  exact ⟨queried, asked, (Except.ok.inj shared).symm⟩

theorem docCount_of_share {s : LiveSegment} {share : Share} (shared : b.share r filter tasks s = .ok share) :
    share.docCount = s.docCount := by
  rw [share_steps] at shared
  obtain ⟨_, _, shared⟩ := bind_ok_exact.mp shared
  obtain ⟨_, _, shared⟩ := bind_ok_exact.mp shared
  obtain ⟨_, _, shared⟩ := bind_ok_exact.mp shared
  cases shared
  rfl

theorem mem_numbered {base : Nat} {shares : List Share} {k : RankedHit} :
    k ∈ numbered base shares ↔ ∃ slot share, shares[slot]? = some share ∧ ∃ m ∈ share.matching,
      k = ⟨⟨base + ((shares.take slot).map (·.docCount)).sum + m.docno, share.segment, m.docno⟩, m.keys⟩ := by
  induction shares generalizing base with
  | nil => simp [numbered]
  | cons first rest ih =>
    rw [numbered, List.mem_append, ih, List.mem_map]
    constructor
    · intro member
      rcases member with ⟨m, inside, rfl⟩ | ⟨slot, share, found, m, inside, rfl⟩
      · exact ⟨0, first, rfl, m, inside, by simp⟩
      · exact ⟨slot + 1, share, found, m, inside, by simp [Nat.add_assoc]⟩
    · intro parts
      obtain ⟨slot, share, found, m, inside, rfl⟩ := parts
      cases slot with
      | zero =>
        obtain rfl := Option.some.inj found
        exact .inl ⟨m, inside, by simp⟩
      | succ slot => exact .inr ⟨slot, share, found, m, inside, by simp [Nat.add_assoc]⟩

structure Orderly (share : Share) : Prop where
  ascending : share.matching.Pairwise fun a b => a.docno < b.docno
  inside : ∀ m ∈ share.matching, m.docno < share.docCount

theorem le_of_mem_numbered {base : Nat} {shares : List Share} {k : RankedHit} (member : k ∈ numbered base shares) :
    base ≤ k.hit.docId := by
  obtain ⟨_, _, _, m, _, rfl⟩ := mem_numbered.mp member
  simp only [Nat.add_assoc, Nat.le_add_right]

theorem numbered_ascending {base : Nat} {shares : List Share} (orderly : ∀ share ∈ shares, Orderly share) :
    (numbered base shares).Pairwise fun a b => a.hit.docId < b.hit.docId := by
  induction shares generalizing base with
  | nil => exact .nil
  | cons first rest ih =>
    obtain ⟨head, tail⟩ := List.forall_mem_cons.mp orderly
    refine List.pairwise_append.mpr ⟨?_, ih tail, ?_⟩
    · exact List.pairwise_map.mpr (head.ascending.imp fun less => Nat.add_lt_add_left less base)
    · intro k member k' later
      obtain ⟨m, inside, rfl⟩ := List.mem_map.mp member
      exact Nat.lt_of_lt_of_le (Nat.add_lt_add_left (head.inside m inside) base) (le_of_mem_numbered later)

theorem ranked_perm (r : Request) (shares : List Share) : (ranked r shares).Perm ((numbered 0 shares).map (·.hit)) :=
  (List.mergeSort_perm _ _).map _

theorem mem_ranked {shares : List Share} {hit : Hit} :
    hit ∈ ranked r shares ↔ ∃ k ∈ numbered 0 shares, k.hit = hit := by
  rw [(ranked_perm r shares).mem_iff, List.mem_map]

theorem length_ranked (r : Request) (shares : List Share) : (ranked r shares).length = (numbered 0 shares).length := by
  rw [(ranked_perm r shares).length_eq, List.length_map]

theorem ranked_distinct {shares : List Share} (orderly : ∀ share ∈ shares, Orderly share) :
    (ranked r shares).Nodup := by
  refine (ranked_perm r shares).nodup_iff.mpr (List.pairwise_map.mpr ((numbered_ascending orderly).imp fun less same => ?_))
  rw [same] at less
  exact Nat.lt_irrefl _ less

theorem orderly_contribution {s : LiveSegment} (loads : s.Loads b.registry) (queried : Option DocSet) :
    Orderly (contribution r filter tasks s queried) := by
  constructor
  · apply List.pairwise_map.mpr
    exact (restrict s.facets filter queried).ascending.imp Nat.compare_eq_lt.mp
  · intro mt member
    obtain ⟨docno, listed, rfl⟩ := List.mem_map.mp member
    exact lt_of_mem_restrict loads listed

-- What a request describes: a document that all selections accept and that the
-- query, if there is one, finds in its segment.
def Describes (b : Browser) (r : Request) (m : Segment) (docno : Nat) : Prop :=
  ∃ d, m.documents[docno]? = some d ∧ b.registry.AcceptsAll d.valuesOf none r.selections ∧
    ∀ q, r.query = some q →
      ∃ docs, m.toSource.searchQuery b.settings.sectionField q r.within = .ok docs ∧ docno ∈ docs

theorem mem_restrict_exact {m : Segment} {s : LiveSegment} {queried : Option DocSet} (opens : s.Opens b.registry m)
    (composed : b.registry.compose r.selections none = .ok filter) (asked : b.queryDocs r s = .ok queried) (docno : Nat) :
    docno ∈ restrict s.facets filter queried ↔ b.Describes r m docno := by
  apply (mem_restrict_finds opens.loads composed asked).trans
  constructor
  · intro ⟨inside, accepted, asks⟩
    rw [opens.docCount] at inside
    have found := List.getElem?_eq_getElem inside
    rw [opens.source] at accepted asks
    rw [Segment.storedValues_of_document found] at accepted
    exact ⟨_, found, accepted, asks⟩
  · intro ⟨d, found, accepted, asks⟩
    have inside := (List.getElem?_eq_some_iff.mp found).1
    rw [← opens.docCount] at inside
    rw [← Segment.storedValues_of_document found, ← opens.source] at accepted
    rw [← opens.source] at asks
    exact ⟨inside, accepted, asks⟩

theorem browse_hits_exact (b : Browser) (memory : List Segment) (r : Request) (answer : Answer)
    (opened : List.Forall₂ (fun m s => LiveSegment.Opens b.registry m s) memory b.segments)
    (browsed : b.browse r = .ok answer) :
    ∃ all : List Hit, answer.hitCount = all.length ∧ answer.hits = (all.drop r.offset).take r.count ∧ all.Nodup ∧
      ∀ hit, hit ∈ all ↔ ∃ (slot : Nat) (m : Segment) (s : LiveSegment), memory[slot]? = some m ∧
        b.segments[slot]? = some s ∧ b.Describes r m hit.docno ∧ hit.segment = s.id ∧
        hit.docId = ((memory.take slot).map (·.documents.length)).sum + hit.docno := by
  obtain ⟨filter, tasks, shares, prepared, shared, rfl⟩ := browse_parts browsed
  obtain ⟨composed, known⟩ := prepare_parts prepared
  have placed : ∀ (slot : Nat) (share : Share), shares[slot]? = some share → ∃ m s, memory[slot]? = some m ∧
      b.segments[slot]? = some s ∧ ∃ queried, s.Opens b.registry m ∧ b.queryDocs r s = .ok queried ∧
        share = contribution r filter tasks s queried := by
    intro slot share found
    obtain ⟨s, live, asked⟩ := getElem?_of_related shared found
    obtain ⟨m, held, opens⟩ := getElem?_of_related opened live
    obtain ⟨queried, answered, same⟩ := share_parts opens.loads known asked
    exact ⟨m, s, held, live, queried, opens, answered, same⟩
  have orderly : ∀ share ∈ shares, Orderly share := by
    intro share member
    obtain ⟨slot, found⟩ := List.mem_iff_getElem?.mp member
    obtain ⟨_, _, _, _, _, opens, _, rfl⟩ := placed slot share found
    exact orderly_contribution opens.loads _
  have sizes : shares.map (·.docCount) = memory.map (·.documents.length) :=
    ((map_eq_of_related opened fun _ _ opens => opens.docCount.symm).trans
      (map_eq_of_related shared fun _ _ asked => (docCount_of_share asked).symm)).symm
  refine ⟨ranked r shares, rfl, rfl, ranked_distinct orderly, fun hit => ?_⟩
  rw [mem_ranked]
  constructor
  · intro parts
    obtain ⟨k, member, rfl⟩ := parts
    obtain ⟨slot, share, found, mt, listed, rfl⟩ := mem_numbered.mp member
    obtain ⟨m, s, held, live, queried, opens, asked, rfl⟩ := placed slot share found
    obtain ⟨docno, inside, rfl⟩ := List.mem_map.mp listed
    refine ⟨slot, m, s, held, live, (mem_restrict_exact opens composed asked docno).mp inside, rfl, ?_⟩
    rw [List.map_take, sizes, List.map_take, Nat.zero_add]
  · intro parts
    obtain ⟨slot, m, s, held, live, described, same, number⟩ := parts
    obtain ⟨share, found, _⟩ := getElem?_of_related (List.Forall₂.flip shared) live
    obtain ⟨m', s', held', live', queried, opens, asked, rfl⟩ := placed slot share found
    obtain rfl := Option.some.inj (held.symm.trans held')
    obtain rfl := Option.some.inj (live.symm.trans live')
    have inside := (mem_restrict_exact opens composed asked hit.docno).mpr described
    refine ⟨_, mem_numbered.mpr ⟨slot, _, found, _, List.mem_map_of_mem inside, rfl⟩, ?_⟩
    rw [List.map_take, sizes, ← List.map_take, Nat.zero_add, ← number]
    obtain ⟨docId, segment, docno⟩ := hit
    simp only at same
    rw [same]
    rfl

def traits : Facet := .keyed { name := "traits" }

def inner : Facet := .combo "inner" ":" [traits]

def outer : Facet := .combo "outer" ":" [inner]

def layered : Registry :=
  (((∅ : Registry).add traits (by decide) nofun).add inner (by decide) fun _ member => member).add outer (by decide)
    fun _ member => List.mem_append_right _ member

def box : Document := { stored := [("traits", "a"), ("traits", "size=big=4")] }

def boxes : Segment := { documents := [{}, box] }

theorem boxes_live (id : SegmentId) : LiveSegment.Opens layered boxes (boxes.live layered id) := by
  apply boxes.opens_live id
  intro f member _ _
  match f, member with
  | _, .head _ => trivial
  | _, .tail _ (.head _) => trivial
  | _, .tail _ (.tail _ (.head _)) => trivial

theorem browse_hits_exact_layered :
    ∃ answer, Browser.browse ⟨layered, [boxes.live layered ⟨4⟩], {}⟩
        { selections := [{ facet := "outer", values := ["inner:traits:size=big"] }] } = .ok answer ∧
      ∃ all : List Hit, answer.hits = (all.drop 0).take 10 ∧ (⟨1, ⟨4⟩, 1⟩ : Hit) ∈ all := by
  obtain ⟨answer, browsed⟩ : ∃ answer, Browser.browse ⟨layered, [boxes.live layered ⟨4⟩], {}⟩
      { selections := [{ facet := "outer", values := ["inner:traits:size=big"] }] } = .ok answer := ⟨_, rfl⟩
  obtain ⟨all, _, page, _, listed⟩ := browse_hits_exact _ [boxes] _ answer (.cons (boxes_live ⟨4⟩) .nil) browsed
  have size : Text.Pair "=" "size=big=4" "size" "big=4" := Text.pair?_exact.mp (by decide)
  have low : Text.Pair ":" "traits:size=big" "traits" "size=big" := Text.pair?_exact.mp (by decide)
  have high : Text.Pair ":" "inner:traits:size=big" "inner" "traits:size=big" := Text.pair?_exact.mp (by decide)
  have big : traits.Satisfies box.valuesOf "size=big" := .keyed (by decide) size (.inr (by decide))
  have wanted : outer.Satisfies box.valuesOf "inner:traits:size=big" := .combo (.head _) high (.combo (.head _) low big)
  refine ⟨answer, browsed, all, page, (listed _).mpr ⟨0, boxes, _, rfl, rfl, ⟨box, rfl, ?_, nofun⟩, rfl, rfl⟩⟩
  intro s member _
  obtain rfl := List.mem_singleton.mp member
  exact ⟨outer, .tail _ (.tail _ (.head _)), rfl, .inr (.inl ⟨rfl, _, List.mem_singleton_self _, wanted⟩), nofun⟩

end Browser

end FacetedSearch
