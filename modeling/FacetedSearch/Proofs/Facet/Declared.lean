import FacetedSearch.Proofs.Facet.Selector

namespace FacetedSearch

namespace Declaration

variable {ds : List Declaration} {d : Declaration}

-- Names are told apart and whatever a facet depends on was declared before it.
structure Accepted (ds : List Declaration) : Prop where
  distinct : (ds.map name).Nodup
  earlier : ∀ (slot : Nat) (d : Declaration), ds[slot]? = some d →
    ∀ dependency ∈ d.dependsOn, dependency ∈ (ds.take slot).map name

-- What is wrong with a declaration where these names are known. A missing
-- dependency goes before a name that is taken.
inductive Refused (known : List String) (d : Declaration) : Error → Prop where
  | unknown {found rest : List String} {missing : String} (listed : d.dependsOn = found ++ missing :: rest)
      (resolved : ∀ dependency ∈ found, dependency ∈ known) (absent : missing ∉ known) :
      Refused known d (.unknownDependency d.name missing)
  | duplicate (resolved : ∀ dependency ∈ d.dependsOn, dependency ∈ known) (taken : d.name ∈ known) :
      Refused known d (.duplicateFacet d.name)

def FirstRefused (ds : List Declaration) (e : Error) : Prop :=
  ∃ front d back, ds = front ++ d :: back ∧ Accepted front ∧ d.Refused (front.map name) e

theorem accepted_append : Accepted (ds ++ [d]) ↔
    Accepted ds ∧ (∀ dependency ∈ d.dependsOn, dependency ∈ ds.map name) ∧ d.name ∉ ds.map name := by
  constructor
  · intro ⟨distinct, earlier⟩
    rw [List.map_append, List.nodup_append] at distinct
    refine ⟨⟨distinct.1, fun slot e found => ?_⟩, ?_, fun again => ?_⟩
    · have inside := (List.getElem?_eq_some_iff.mp found).1
      have before := earlier slot e (by rwa [List.getElem?_append_left inside])
      rwa [List.take_append_of_le_length (Nat.le_of_lt inside)] at before
    · have last := earlier ds.length d List.getElem?_concat_length
      rwa [List.take_left] at last
    · exact distinct.2.2 _ again _ (List.mem_singleton_self _) rfl
  · intro ⟨⟨distinct, earlier⟩, known, fresh⟩
    refine ⟨?_, fun slot e found => ?_⟩
    · rw [List.map_append]
      refine List.nodup_append.mpr ⟨distinct, List.nodup_singleton _, fun name old other new same => fresh ?_⟩
      rw [← List.mem_singleton.mp new, ← same]
      exact old
    · by_cases old : slot < ds.length
      · rw [List.getElem?_append_left old] at found
        rw [List.take_append_of_le_length (Nat.le_of_lt old)]
        exact earlier slot e found
      · have inside := (List.getElem?_eq_some_iff.mp found).1
        rw [List.length_append, List.length_singleton] at inside
        obtain rfl : slot = ds.length := by omega
        rw [List.getElem?_concat_length] at found
        rw [List.take_left]
        exact Option.some.inj found ▸ known

theorem refused_or_known (known : List String) (d : Declaration) : (∃ e, d.Refused known e) ∨
    (∀ dependency ∈ d.dependsOn, dependency ∈ known) ∧ d.name ∉ known := by
  cases first : d.dependsOn.find? (· ∉ known) with
  | some missing =>
    obtain ⟨absent, found, rest, listed, resolved⟩ := List.find?_eq_some_iff_append.mp first
    refine .inl ⟨_, .unknown listed (fun dependency member => ?_) (of_decide_eq_true absent)⟩
    simpa using resolved dependency member
  | none =>
    have resolved : ∀ dependency ∈ d.dependsOn, dependency ∈ known := by simpa using first
    by_cases taken : d.name ∈ known
    · exact .inl ⟨_, .duplicate resolved taken⟩
    · exact .inr ⟨resolved, taken⟩

theorem accepted_or_refused (ds : List Declaration) : Accepted ds ∨ ∃ e, FirstRefused ds e := by
  induction ds using List.reverseRecOn with
  | nil => exact .inl ⟨.nil, nofun⟩
  | append_singleton ds d ih =>
    rcases ih with accepted | ⟨e, front, first, back, listed, before, refused⟩
    · rcases refused_or_known (ds.map name) d with ⟨e, refused⟩ | fits
      · exact .inr ⟨e, ds, d, [], rfl, accepted, refused⟩
      · exact .inl (accepted_append.mpr ⟨accepted, fits⟩)
    · exact .inr ⟨e, front, first, back ++ [d], by rw [listed, List.append_assoc, List.cons_append], before, refused⟩

end Declaration

def Facet.declaration : Facet → Declaration
  | simple f => .simple f
  | keyed f => .keyed f
  | combo name separator dependents => .combo { name, separator, dependsOn := dependents.map Facet.name }

theorem Facet.name_declaration (f : Facet) : f.declaration.name = f.name := by
  cases f <;> rfl

theorem Declaration.declaration_resolved {d : Declaration} {found : List Facet}
    (named : found.map Facet.name = d.dependsOn) : (d.resolved found).declaration = d := by
  cases d with
  | simple => rfl
  | keyed => rfl
  | combo f => exact congrArg (fun dependsOn => Declaration.combo { f with dependsOn }) named

namespace Registry

variable {r : Registry} {ds : List Declaration} {d : Declaration} {e : Error} {name : String}

theorem exists_get? : (∃ f, r.get? name = some f) ↔ name ∈ r.facets.map Facet.name := by
  simp only [get?_exact, List.mem_map]

theorem dependents_known (facet : String) {names : List String} (resolved : ∀ dependency ∈ names, dependency ∈ r.facets.map Facet.name) :
    ∃ found, r.dependents facet names = .ok found ∧ found.map Facet.name = names := by
  induction names with
  | nil => exact ⟨[], rfl, rfl⟩
  | cons name rest ih =>
    obtain ⟨first, later⟩ := List.forall_mem_cons.mp resolved
    obtain ⟨f, got⟩ := exists_get?.mpr first
    obtain ⟨found, tail, named⟩ := ih later
    refine ⟨f :: found, ?_, ?_⟩
    · rw [dependents, got, tail]
      rfl
    · rw [List.map_cons, named, (get?_exact.mp got).2]

theorem dependents_unknown (facet : String) {found rest : List String} {missing : String}
    (resolved : ∀ dependency ∈ found, dependency ∈ r.facets.map Facet.name)
    (absent : missing ∉ r.facets.map Facet.name) :
    r.dependents facet (found ++ missing :: rest) = .error (.unknownDependency facet missing) := by
  induction found with
  | nil =>
    have none : r.get? missing = none := by
      apply Option.eq_none_iff_forall_ne_some.mpr
      intro f got
      exact absent (exists_get?.mp ⟨f, got⟩)
    rw [List.nil_append, dependents, none]
  | cons name found ih =>
    obtain ⟨first, later⟩ := List.forall_mem_cons.mp resolved
    obtain ⟨f, got⟩ := exists_get?.mpr first
    rw [List.cons_append, dependents, got, ih later]
    rfl

theorem declare_refused (refused : d.Refused (r.facets.map Facet.name) e) : r.declare d = .error e := by
  unfold declare
  cases refused with
  | @unknown _ _ name listed resolved absent =>
    have missing : r.dependents d.name d.dependsOn = .error (.unknownDependency d.name name) := by
      rw [listed]
      exact dependents_unknown d.name resolved absent
    split
    · rename_i e' found
      rw [Except.error.inj (found.symm.trans missing)]
    · rename_i fs found
      cases found.symm.trans missing
  | duplicate resolved taken =>
    obtain ⟨fs, all, _⟩ := dependents_known d.name resolved
    split
    · rename_i e' found
      cases found.symm.trans all
    · rw [dif_neg (not_not_intro taken)]

theorem declare_known (resolved : ∀ dependency ∈ d.dependsOn, dependency ∈ r.facets.map Facet.name)
    (fresh : d.name ∉ r.facets.map Facet.name) :
    ∃ next, r.declare d = .ok next ∧ next.facets.map Facet.declaration = r.facets.map Facet.declaration ++ [d] := by
  obtain ⟨fs, all, named⟩ := dependents_known d.name resolved
  unfold declare
  split
  · rename_i e' found
    cases found.symm.trans all
  · rename_i found
    rw [dif_pos fresh]
    obtain rfl := Except.ok.inj (all.symm.trans found)
    refine ⟨_, rfl, ?_⟩
    rw [add, List.map_append, List.map_singleton, Declaration.declaration_resolved named]

theorem names_of_declared (declared : r.facets.map Facet.declaration = ds) :
    r.facets.map Facet.name = ds.map Declaration.name := by
  rw [← declared, List.map_map]
  exact List.map_congr_left fun f _ => f.name_declaration.symm

theorem ofDeclarations_append (front back : List Declaration) : ofDeclarations (front ++ back) =
    (ofDeclarations front).bind fun r => back.foldlM declare r :=
  List.foldlM_append

theorem ofDeclarations_accepted (accepted : Declaration.Accepted ds) :
    ∃ r, ofDeclarations ds = .ok r ∧ r.facets.map Facet.declaration = ds := by
  induction ds using List.reverseRecOn with
  | nil => exact ⟨∅, rfl, rfl⟩
  | append_singleton ds d ih =>
    obtain ⟨before, resolved, fresh⟩ := Declaration.accepted_append.mp accepted
    obtain ⟨r, registered, declared⟩ := ih before
    rw [← names_of_declared declared] at resolved fresh
    obtain ⟨next, added, grown⟩ := declare_known resolved fresh
    refine ⟨next, ?_, by rw [grown, declared]⟩
    rw [ofDeclarations_append, registered]
    exact bind_ok_exact.mpr ⟨r, rfl, bind_ok_exact.mpr ⟨next, added, rfl⟩⟩

theorem ofDeclarations_refused (refused : Declaration.FirstRefused ds e) : ofDeclarations ds = .error e := by
  obtain ⟨front, d, back, rfl, accepted, refused⟩ := refused
  obtain ⟨r, registered, declared⟩ := ofDeclarations_accepted accepted
  rw [← names_of_declared declared] at refused
  rw [ofDeclarations_append, registered, Except.bind, List.foldlM_cons, declare_refused refused]
  rfl

theorem ofDeclarations_ok_iff : (∃ r, ofDeclarations ds = .ok r) ↔ Declaration.Accepted ds := by
  constructor
  · intro ⟨r, registered⟩
    rcases Declaration.accepted_or_refused ds with accepted | ⟨e, refused⟩
    · exact accepted
    · cases registered.symm.trans (ofDeclarations_refused refused)
  · intro accepted
    obtain ⟨r, registered, _⟩ := ofDeclarations_accepted accepted
    exact ⟨r, registered⟩

theorem ofDeclarations_error_iff : ofDeclarations ds = .error e ↔ Declaration.FirstRefused ds e := by
  constructor
  · intro rejected
    rcases Declaration.accepted_or_refused ds with accepted | ⟨e', refused⟩
    · obtain ⟨r, registered, _⟩ := ofDeclarations_accepted accepted
      cases registered.symm.trans rejected
    · obtain rfl := Except.error.inj ((ofDeclarations_refused refused).symm.trans rejected)
      exact refused
  · exact ofDeclarations_refused

theorem declared_of_ok (registered : ofDeclarations ds = .ok r) : r.facets.map Facet.declaration = ds := by
  obtain ⟨r', registered', declared⟩ := ofDeclarations_accepted (ofDeclarations_ok_iff.mp ⟨r, registered⟩)
  obtain rfl := Except.ok.inj (registered'.symm.trans registered)
  exact declared

theorem slot?_exact {slot : Nat} {f : Facet} (found : r.facets[slot]? = some f) : r.slot? f.name = some slot := by
  obtain ⟨inside, rfl⟩ := List.getElem?_eq_some_iff.mp found
  apply List.findIdx?_eq_some_iff_getElem.mpr
  refine ⟨inside, decide_eq_true rfl, fun other before => ?_⟩
  have apart := List.pairwise_iff_getElem.mp r.distinct other slot (by simp; omega) (by simpa) before
  simpa using apart

theorem exists_slot_dependent {slot : Nat} {f d : Facet} (found : r.facets[slot]? = some f) (dependent : d ∈ f.dependents) :
    ∃ low < slot, r.facets[low]? = some d := by
  obtain ⟨inside, rfl⟩ := List.getElem?_eq_some_iff.mp found
  obtain ⟨low, here⟩ := List.mem_iff_getElem?.mp (r.earlier slot inside d dependent)
  rw [List.getElem?_take] at here
  split at here
  · rename_i before
    exact ⟨low, before, here⟩
  · cases here

theorem find?_declaration (declared : r.facets.map Facet.declaration = ds) :
    ds.find? (·.name = name) = (r.get? name).map Facet.declaration := by
  unfold get?
  rw [← declared, List.find?_map]
  congr
  funext f
  exact congrArg (fun own => decide (own = name)) f.name_declaration

end Registry

end FacetedSearch
