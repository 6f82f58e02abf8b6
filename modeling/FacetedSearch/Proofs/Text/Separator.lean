import FacetedSearch.Text.Separator
import Mathlib

namespace FacetedSearch.Text

def SplitsInto (separator text before after : List Char) : Prop :=
  text = before ++ (separator ++ after) ∧
    ∀ shorter longer, text = shorter ++ (separator ++ longer) → before.length ≤ shorter.length

namespace SplitsInto

variable {separator text before after : List Char} {c : Char}

theorem nil_iff : SplitsInto separator [] before after ↔ separator = [] ∧ before = [] ∧ after = [] := by
  constructor
  · intro ⟨whole, _⟩
    obtain ⟨left, right⟩ := List.append_eq_nil_iff.mp whole.symm
    obtain ⟨middle, right⟩ := List.append_eq_nil_iff.mp right
    exact ⟨middle, left, right⟩
  · intro parts
    obtain ⟨rfl, rfl, rfl⟩ := parts
    exact ⟨rfl, fun _ _ _ => Nat.zero_le _⟩

theorem of_prefix (tail : List Char) :
    SplitsInto separator (separator ++ tail) before after ↔ before = [] ∧ after = tail := by
  constructor
  · intro ⟨whole, first⟩
    obtain rfl := List.eq_nil_of_length_eq_zero (Nat.le_zero.mp (first [] tail rfl))
    exact ⟨rfl, (List.append_cancel_left whole).symm⟩
  · intro parts
    obtain ⟨rfl, rfl⟩ := parts
    exact ⟨rfl, fun _ _ _ => Nat.zero_le _⟩

theorem cons_iff (later : ¬ separator <+: c :: text) :
    SplitsInto separator (c :: text) before after ↔
      ∃ rest, before = c :: rest ∧ SplitsInto separator text rest after := by
  constructor
  · intro ⟨whole, first⟩
    cases before with
    | nil => exact absurd ⟨after, whole.symm⟩ later
    | cons d rest =>
      rw [List.cons_append] at whole
      obtain ⟨same, tail⟩ := List.cons.inj whole
      refine ⟨rest, by rw [same], tail, fun shorter longer other => ?_⟩
      exact Nat.le_of_succ_le_succ (first (c :: shorter) longer (by rw [other, List.cons_append]))
  · intro parts
    obtain ⟨rest, rfl, whole, first⟩ := parts
    refine ⟨by rw [whole, List.cons_append], fun shorter longer other => ?_⟩
    cases shorter with
    | nil => exact absurd ⟨longer, other.symm⟩ later
    | cons d shorter =>
      rw [List.cons_append] at other
      exact Nat.succ_le_succ (first shorter longer (List.cons.inj other).2)

end SplitsInto

theorem cutList_exact {separator text before after : List Char} :
    cutList separator text = some (before, after) ↔ SplitsInto separator text before after := by
  induction text generalizing before with
  | nil =>
    rw [SplitsInto.nil_iff, cutList]
    split
    · rename_i empty
      rw [List.isEmpty_iff] at empty
      simp [empty, eq_comm]
    · rename_i filled
      rw [List.isEmpty_iff] at filled
      simp [filled]
  | cons c rest ih =>
    rw [cutList]
    split
    · rename_i front
      obtain ⟨tail, whole⟩ := List.isPrefixOf_iff_prefix.mp front
      rw [← whole, SplitsInto.of_prefix, List.drop_left]
      simp [eq_comm]
    · rename_i later
      rw [SplitsInto.cons_iff fun front => later (List.isPrefixOf_iff_prefix.mpr front), Option.map_eq_some_iff]
      constructor
      · intro ⟨parts, found, same⟩
        obtain ⟨rfl, rfl⟩ := Prod.mk.inj same
        exact ⟨parts.1, rfl, ih.mp found⟩
      · intro parts
        obtain ⟨front, rfl, split⟩ := parts
        exact ⟨(front, after), ih.mpr split, rfl⟩

-- A text split at its first separator, with something on both sides of it.
def Pair (separator text key value : String) : Prop :=
  key ≠ "" ∧ value ≠ "" ∧ SplitsInto separator.toList text.toList key.toList value.toList

theorem cut?_exact {separator text key value : String} : cut? separator text = some (key, value) ↔
    SplitsInto separator.toList text.toList key.toList value.toList := by
  unfold cut?
  rw [← cutList_exact, Option.map_eq_some_iff]
  constructor
  · intro ⟨parts, found, same⟩
    obtain ⟨rfl, rfl⟩ := Prod.mk.inj same
    simpa using found
  · exact fun found => ⟨_, found, by simp⟩

theorem pair?_exact {separator text key value : String} :
    pair? separator text = some (key, value) ↔ Pair separator text key value := by
  unfold pair? Pair
  rw [← cut?_exact]
  split
  · rename_i front back found
    rw [found]
    split
    · rename_i bare
      rw [Bool.or_eq_true, String.isEmpty_iff, String.isEmpty_iff] at bare
      grind
    · rename_i filled
      rw [Bool.or_eq_true, String.isEmpty_iff, String.isEmpty_iff] at filled
      grind
  · rename_i none
    simp [none]

namespace SplitsInto

variable {separator text name rest : List Char}

theorem unique {before after before' after' : List Char} (one : SplitsInto separator text before after)
    (other : SplitsInto separator text before' after') : before = before' ∧ after = after' :=
  Prod.mk.inj (Option.some.inj ((cutList_exact.mpr one).symm.trans (cutList_exact.mpr other)))

theorem followed_iff :
    SplitsInto separator (name ++ (separator ++ rest)) name rest ↔ SplitsInto separator (name ++ separator) name [] := by
  constructor
  · intro ⟨_, first⟩
    refine ⟨by rw [List.append_nil], fun shorter longer other => first shorter (longer ++ rest) ?_⟩
    rw [← List.append_assoc, other]
    simp only [List.append_assoc]
  · intro ⟨_, first⟩
    refine ⟨rfl, fun shorter longer other => Nat.le_of_not_lt fun earlier => ?_⟩
    -- An earlier separator lies within the name and the separator after it: what
    -- follows has no part in it.
    rw [← List.append_assoc, ← List.append_assoc] at other
    have within : shorter ++ separator <+: name ++ separator := by
      refine List.prefix_of_prefix_length_le ⟨longer, other.symm⟩ ⟨rest, rfl⟩ ?_
      rw [List.length_append, List.length_append]
      exact Nat.add_le_add_right (Nat.le_of_lt earlier) _
    obtain ⟨tail, same⟩ := within
    exact Nat.not_lt.mpr (first shorter tail (by rw [← same, List.append_assoc])) earlier

end SplitsInto

def Ends (separator name : String) : Prop :=
  name ≠ "" ∧ SplitsInto separator.toList (name ++ separator).toList name.toList []

theorem ends_iff_not_mem {separator name : String} {c : Char} (single : separator.toList = [c]) :
    Ends separator name ↔ name ≠ "" ∧ c ∉ name.toList := by
  unfold Ends
  rw [String.toList_append, single]
  refine and_congr_right fun _ => ⟨fun ⟨_, first⟩ member => ?_, fun absent => ⟨by simp, fun shorter longer other => ?_⟩⟩
  · obtain ⟨front, back, whole⟩ := List.append_of_mem member
    have within := first front (back ++ [c]) (by rw [whole]; simp)
    rw [whole, List.length_append, List.length_cons] at within
    omega
  · refine Nat.le_of_not_lt fun earlier => absent ?_
    have within : shorter ++ [c] <+: name.toList := by
      refine List.prefix_of_prefix_length_le ⟨longer, ?_⟩ (List.prefix_append name.toList [c]) ?_
      · rw [List.append_assoc, other]
      · rwa [List.length_append, List.length_singleton]
    exact within.subset (List.mem_append_right _ (List.mem_singleton_self c))

section Written

variable {separator name rest : String}

theorem pair_written : Pair separator (name ++ separator ++ rest) name rest ↔ Ends separator name ∧ rest ≠ "" := by
  unfold Pair Ends
  rw [String.toList_append, String.toList_append, List.append_assoc, SplitsInto.followed_iff]
  tauto

theorem Ends.pair_iff (ends : Ends separator name) {part tail : String} :
    Pair separator (name ++ separator ++ rest) part tail ↔ rest ≠ "" ∧ part = name ∧ tail = rest := by
  have own : SplitsInto separator.toList (name ++ separator ++ rest).toList name.toList rest.toList := by
    rw [String.toList_append, String.toList_append, List.append_assoc, SplitsInto.followed_iff, ← String.toList_append]
    exact ends.2
  constructor
  · intro ⟨_, filled, split⟩
    obtain ⟨front, back⟩ := split.unique own
    obtain rfl := String.toList_inj.mp back
    exact ⟨filled, String.toList_inj.mp front, rfl⟩
  · rintro ⟨filled, rfl, rfl⟩
    exact pair_written.mpr ⟨ends, filled⟩

theorem written_pair {text : String} (pair : Pair separator text name rest) : name ++ separator ++ rest = text := by
  obtain ⟨_, _, whole, _⟩ := pair
  rw [← String.toList_inj, whole, String.toList_append, String.toList_append, List.append_assoc]

end Written

end FacetedSearch.Text
