import FacetedSearch.Sorted.Set

namespace FacetedSearch

structure Term where
  field : String
  text : String
deriving Repr, DecidableEq

namespace Term

def label (t : Term) : String := s!"{t.field}:{t.text}"

instance : Ord Term := ⟨compareLex (compareOn field) (compareOn text)⟩

instance : Std.TransOrd Term := inferInstanceAs (Std.TransCmp (compareLex (compareOn field) (compareOn text)))

instance : Std.LawfulEqOrd Term where
  eq_of_compare {s t} same := by
    obtain ⟨fields, texts⟩ := compareLex_eq_eq.mp same
    cases s; cases t
    cases Std.compare_eq_iff_eq.mp fields
    cases Std.compare_eq_iff_eq.mp texts
    rfl

end Term

-- Positions fill a 32-bit word. The last one is never a token's position: it
-- stands for the open end of a document.
abbrev Position := UInt32

def documentEnd : Position := 4294967295

namespace Position

-- Sums stop at the last position instead of wrapping round.
def plus (position distance : Position) : Position :=
  if documentEnd - position < distance then documentEnd else position + distance

theorem toNat_plus (position distance : Position) :
    (plus position distance).toNat = min (position.toNat + distance.toNat) documentEnd.toNat := by
  have top : documentEnd.toNat = 2 ^ 32 - 1 := rfl
  have below := position.toNat_lt
  have room : (documentEnd - position).toNat = documentEnd.toNat - position.toNat :=
    UInt32.toNat_sub_of_le _ _ (UInt32.le_iff_toNat_le.mpr (by omega))
  unfold plus
  split
  · rename_i full
    rw [UInt32.lt_iff_toNat_lt] at full
    omega
  · rename_i free
    rw [UInt32.lt_iff_toNat_lt] at free
    rw [UInt32.toNat_add, Nat.mod_eq_of_lt (by omega)]
    omega

end Position

-- The occurrences of one term in one document, positions ascending.
structure Posting where
  docno : Nat
  positions : List Position
deriving Repr, DecidableEq

structure SegmentId where
  value : UInt64
deriving Repr, DecidableEq

namespace SegmentId

def next (id : SegmentId) : SegmentId := ⟨id.value + 1⟩

def label (id : SegmentId) : String := s!"segment_{id.value.toNat}"

end SegmentId

-- Sets of documents of one segment. Documents are numbered from zero.
abbrev DocSet := SortedSet Nat

namespace DocSet

def below (count : Nat) : DocSet :=
  ⟨List.range count, List.pairwise_lt_range.imp Nat.compare_eq_lt.mpr⟩

theorem mem_below {count doc : Nat} : doc ∈ below count ↔ doc < count := List.mem_range

end DocSet

end FacetedSearch
