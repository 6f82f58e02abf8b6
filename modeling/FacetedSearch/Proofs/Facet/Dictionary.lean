import FacetedSearch.Proofs.Facet.Column

namespace FacetedSearch

theorem toList_ofList (xs : List String) : (SortedSet.ofList xs).toList = xs.dedup.mergeSort := by
  have sorted : xs.dedup.mergeSort.Pairwise (· ≤ ·) := List.pairwise_mergeSort' (· ≤ ·) xs.dedup
  have distinct : xs.dedup.mergeSort.Nodup := (List.mergeSort_perm _ _).nodup_iff.mpr xs.nodup_dedup
  have ascending : xs.dedup.mergeSort.Pairwise fun a b => compare a b = .lt :=
    (sorted.and distinct).imp fun both => compare_lt_iff.mpr (lt_of_le_of_ne both.1 both.2)
  refine congrArg SortedSet.toList (SortedSet.eq_of_mem_iff (t := ⟨_, ascending⟩) fun value => ?_)
  exact SortedSet.mem_ofList.trans (List.mem_dedup.symm.trans (List.mergeSort_perm _ _).mem_iff.symm)

namespace Column

-- A column tells in four ways which document was given which value: by its
-- dictionary, by the ordinals of a document, by the documents of an ordinal and by
-- looking a value up. All numbers are places in it, so words of 32 bits hold them
-- as long as no more values and no more documents are given than they can tell.
structure Encodes (c : Column) (rows : List (List String)) : Prop where
  documents : c.docCount = rows.length
  ascending : c.dictionary.toList.Pairwise (· < ·)
  listed : ∀ value, value ∈ c.dictionary ↔ ∃ row ∈ rows, value ∈ row
  ordered : ∀ docno, (c.ordinals docno).toList.Pairwise (· < ·)
  valid : ∀ docno, ∀ ordinal ∈ c.ordinals docno, ordinal < c.valueCount
  shown : ∀ docno, c.values docno = (rowOf rows docno).dedup.mergeSort
  carried : ∀ ordinal < c.valueCount, ∃ docs, c.docs? ordinal = some docs ∧ (∃ docno, docno ∈ docs) ∧
    ∀ docno, docno ∈ docs ↔ ordinal ∈ c.ordinals docno
  unlisted : ∀ ordinal, c.valueCount ≤ ordinal → c.docs? ordinal = none
  found : ∀ value ordinal, c.ordinal? value = some ordinal ↔ c.value? ordinal = some value

section Built

variable {rows : List (List String)} {docno ordinal : Nat} {value : String}

end Built

namespace Encodes

variable {c d : Column} {rows : List (List String)} {docno ordinal : Nat}

theorem mem_ordinals (encodes : c.Encodes rows) :
    ordinal ∈ c.ordinals docno ↔ ∃ value ∈ rowOf rows docno, c.value? ordinal = some value := by
  have shown : ∀ value, value ∈ c.values docno ↔ value ∈ rowOf rows docno := fun value => by
    rw [encodes.shown, (List.mergeSort_perm _ _).mem_iff, List.mem_dedup]
  constructor
  · intro member
    have read : c.value? ordinal = some _ := Array.getElem?_eq_getElem (encodes.valid docno ordinal member)
    exact ⟨_, (shown _).mp (List.mem_filterMap.mpr ⟨ordinal, member, read⟩), read⟩
  · intro ⟨value, given, read⟩
    obtain ⟨other, member, also⟩ := List.mem_filterMap.mp ((shown value).mpr given)
    have same := ((encodes.found value other).mpr also).symm.trans ((encodes.found value ordinal).mpr read)
    exact Option.some.inj same ▸ member

theorem unique (encodes : c.Encodes rows) (encodes' : d.Encodes rows) : c = d := by
  have dictionary : c.dictionary = d.dictionary := by
    refine Array.toList_inj.mp (congrArg SortedSet.toList (SortedSet.eq_of_mem_iff
      (s := ⟨_, encodes.ascending.imp compare_lt_iff.mpr⟩) (t := ⟨_, encodes'.ascending.imp compare_lt_iff.mpr⟩)
      fun value => ?_))
    exact Array.mem_toList_iff.trans
      ((encodes.listed value).trans ((encodes'.listed value).symm.trans Array.mem_toList_iff.symm))
  have sizes : c.valueCount = d.valueCount := congrArg Array.size dictionary
  have ordinals : ∀ docno, c.ordinals docno = d.ordinals docno := fun docno => SortedSet.eq_of_mem_iff fun ordinal => by
    rw [encodes.mem_ordinals, encodes'.mem_ordinals, value?, value?, dictionary]
  have stored : c.rows = d.rows := by
    refine Array.ext (encodes.documents.trans encodes'.documents.symm) fun docno inside inside' => ?_
    have same := ordinals docno
    rwa [Column.ordinals, Column.ordinals, Array.getElem?_eq_getElem inside, Array.getElem?_eq_getElem inside'] at same
  have inverted : c.inverted = d.inverted := by
    apply Array.ext_getElem?
    intro ordinal
    by_cases known : ordinal < c.valueCount
    · obtain ⟨docs, listed, _, carriers⟩ := encodes.carried ordinal known
      obtain ⟨docs', listed', _, carriers'⟩ := encodes'.carried ordinal (sizes ▸ known)
      refine listed.trans (Eq.trans (congrArg some (SortedSet.eq_of_mem_iff fun docno => ?_)) listed'.symm)
      rw [carriers, carriers', ordinals]
    · have past := Nat.not_lt.mp known
      exact (encodes.unlisted ordinal past).trans (encodes'.unlisted ordinal (sizes ▸ past)).symm
  cases c; cases d; cases dictionary; cases stored; cases inverted; rfl

end Encodes

section Starts

variable {dictionary : Array String} {start : String}

variable {rows : List (List String)} {docno ordinal : Nat}

end Starts

end Column

end FacetedSearch
