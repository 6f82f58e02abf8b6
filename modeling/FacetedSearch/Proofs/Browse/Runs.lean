import FacetedSearch.Proofs.Browse.Counted

namespace FacetedSearch

namespace Browser

variable {b : Browser} {r r' : Request} {asked : List (LiveSegment × Option DocSet)} {filter filter' : Option Filter}
  {leftOut leftOut' : Option String}

theorem Asked.unique {asked' : List (LiveSegment × Option DocSet)} (answered : Asked b r asked)
    (answered' : Asked b r asked') : asked' = asked := by
  have told : ∀ {asked : List (LiveSegment × Option DocSet)}, Asked b r asked →
      asked.map (fun p => (p.1, Except.ok p.2)) = b.segments.map fun s => (s, b.queryDocs r s) := by
    intro asked answered
    rw [← answered.segments, List.map_map]
    exact List.map_congr_left fun p member => congrArg (p.1, ·) (answered.queried p member).symm
  refine List.map_injective_iff.mpr ?_ ((told answered').trans (told answered).symm)
  intro p q same
  cases p
  cases q
  cases same
  rfl

theorem restrict_alike (loads : ∀ s ∈ b.segments, s.Loads b.registry) (answered : Asked b r asked)
    (answered' : Asked b r' asked) (composed : b.registry.compose r.selections leftOut = .ok filter)
    (composed' : b.registry.compose r'.selections leftOut' = .ok filter')
    (alike : ∀ s docno, b.Finds r' leftOut' s docno ↔ b.Finds r leftOut s docno) :
    ∀ p ∈ asked, restrict p.1.facets filter' p.2 = restrict p.1.facets filter p.2 := by
  intro p member
  have loaded := answered.loads loads p member
  apply SortedSet.eq_of_mem_iff
  intro docno
  rw [mem_restrict_finds loaded composed (answered.queried p member), ← alike,
    mem_restrict_finds loaded composed' (answered'.queried p member)]

theorem numbered_same (tasks tasks' : List CountTask)
    (same : ∀ p ∈ asked, restrict p.1.facets filter' p.2 = restrict p.1.facets filter p.2) (base : Nat) :
    numbered base (contributions r filter' tasks' asked) = numbered base (contributions r filter tasks asked) := by
  induction asked generalizing base with
  | nil => rfl
  | cons p rest ih =>
    obtain ⟨first, later⟩ := List.forall_mem_cons.mp same
    have tail := ih later (base + p.1.docCount)
    unfold contributions at tail ⊢
    rw [List.map_cons, List.map_cons, numbered, numbered]
    unfold contribution at tail ⊢
    rw [first, tail]

theorem ranked_same (tasks tasks' : List CountTask)
    (same : ∀ p ∈ asked, restrict p.1.facets filter' p.2 = restrict p.1.facets filter p.2) :
    ranked r (contributions r filter' tasks' asked) = ranked r (contributions r filter tasks asked) := by
  unfold ranked
  rw [numbered_same tasks tasks' same]

theorem rows_same (same : ∀ p ∈ asked, restrict p.1.facets filter' p.2 = restrict p.1.facets filter p.2)
    (facet : String) : rows asked filter' facet = rows asked filter facet := by
  unfold rows
  apply List.flatMap_congr
  intro p member
  rw [same p member]

end Browser

end FacetedSearch
