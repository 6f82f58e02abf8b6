import FacetedSearch.Facet.Selector
import FacetedSearch.Proofs.Facet.Finish
import FacetedSearch.Proofs.Text.Separator

namespace FacetedSearch

namespace Text

theorem cutList_eq_none {separator text : List Char} : cutList separator text = none ↔ ¬ separator <:+: text := by
  induction text with
  | nil => simp [cutList]
  | cons c rest ih =>
    rw [cutList, List.infix_cons_iff, ← List.isPrefixOf_iff_prefix]
    split
    · rename_i front
      exact iff_of_false (Option.some_ne_none _) (not_not_intro (.inl front))
    · rename_i later
      rw [Option.map_eq_none_iff, ih]
      tauto

theorem exists_split {separator text : List Char} (within : separator <:+: text) :
    ∃ before after, SplitsInto separator text before after := by
  cases found : cutList separator text with
  | none => exact absurd within (cutList_eq_none.mp found)
  | some parts => exact ⟨parts.1, parts.2, cutList_exact.mp found⟩

theorem SplitsInto.append {separator text before after : List Char} (split : SplitsInto separator text before after)
    (more : List Char) : SplitsInto separator (text ++ more) before (after ++ more) := by
  have whole := split.1
  rw [whole] at split ⊢
  rw [List.append_assoc, List.append_assoc]
  exact followed_iff.mpr (followed_iff.mp split)

section Keys

variable {separator text : String}

theorem keyOf_of_split {before after : List Char} (split : SplitsInto separator.toList text.toList before after) :
    keyOf separator text = String.ofList before := by
  have cut : cut? separator text = some (String.ofList before, String.ofList after) :=
    cut?_exact.mpr (by rwa [String.toList_ofList, String.toList_ofList])
  unfold keyOf
  rw [cut]

theorem keyOf_of_absent (absent : ¬ separator.toList <:+: text.toList) : keyOf separator text = text := by
  have uncut : cut? separator text = none := by
    unfold cut?
    rw [cutList_eq_none.mpr absent, Option.map_none]
  unfold keyOf
  rw [uncut]

-- Written after the text, a separator does not take away from its key.
def KeepsKey (separator text : String) : Prop :=
  separator.toList <:+: text.toList ∨ SplitsInto separator.toList (text ++ separator).toList text.toList []

theorem keyOf_continued {rest : String} :
    keyOf separator (text ++ separator ++ rest) = keyOf separator text ↔ KeepsKey separator text := by
  have whole : (text ++ separator ++ rest).toList = text.toList ++ (separator.toList ++ rest.toList) := by
    rw [String.toList_append, String.toList_append, List.append_assoc]
  unfold KeepsKey
  by_cases within : separator.toList <:+: text.toList
  · obtain ⟨before, after, split⟩ := exists_split within
    refine iff_of_true ?_ (.inl within)
    have longer := split.append (separator.toList ++ rest.toList)
    rw [← whole] at longer
    rw [keyOf_of_split longer, keyOf_of_split split]
  · have found : separator.toList <:+: (text ++ separator ++ rest).toList :=
      ⟨text.toList, rest.toList, by rw [whole, List.append_assoc]⟩
    obtain ⟨before, after, split⟩ := exists_split found
    have ends : SplitsInto separator.toList (text ++ separator ++ rest).toList text.toList rest.toList ↔
        SplitsInto separator.toList (text ++ separator).toList text.toList [] := by
      rw [whole, String.toList_append, SplitsInto.followed_iff]
    rw [keyOf_of_absent within, keyOf_of_split split, or_iff_right within, ← ends]
    constructor
    · rintro rfl
      rw [String.toList_ofList] at whole ⊢
      rwa [List.append_cancel_left (List.append_cancel_left (whole.symm.trans split.1))]
    · intro own
      rw [(split.unique own).1, String.ofList_toList]

def Overlaps (separator : String) : Prop :=
  ∃ part : List Char, part ≠ [] ∧ part.length < separator.toList.length ∧ part <+: separator.toList ∧
    part <:+ separator.toList

-- An earlier separator would have to begin within the text and end within the
-- separator that is written after it.
theorem keepsKey_of_not_overlaps (plain : ¬ Overlaps separator) (text : String) : KeepsKey separator text := by
  unfold KeepsKey
  refine or_iff_not_imp_left.mpr fun absent => ?_
  rw [String.toList_append]
  refine ⟨by rw [List.append_nil], fun shorter longer other => Nat.le_of_not_lt fun earlier => ?_⟩
  rcases List.append_eq_append_iff.mp other with ⟨middle, front, _⟩ | ⟨middle, front, back⟩
  · rw [front, List.length_append] at earlier
    omega
  · rw [front, List.length_append] at earlier
    have within : ∀ tail, middle = separator.toList ++ tail → False := fun tail same =>
      absent ⟨shorter, tail, by rw [front, same, List.append_assoc]⟩
    rcases List.append_eq_append_iff.mp back with ⟨tail, same, _⟩ | ⟨part, starts, stops⟩
    · exact within tail same
    · apply plain
      refine ⟨part, ?_, ?_, ⟨longer, stops.symm⟩, ⟨middle, starts.symm⟩⟩
      · rintro rfl
        exact within [] (by rw [List.append_nil] at starts ⊢; exact starts.symm)
      · rw [starts, List.length_append]
        omega

end Keys

end Text

namespace KeyedFacet

variable {k : KeyedFacet} {selected entry : String}

theorem keyOf_of_accepts (accepts : (Matcher.under selected k.separator).accepts entry = true) :
    k.keyOf entry = k.keyOf selected ↔ entry = selected ∨ Text.KeepsKey k.separator selected := by
  rw [Matcher.accepts, Bool.or_eq_true, decide_eq_true_eq, Text.startsWith_iff] at accepts
  rcases accepts with rfl | ⟨rest, whole⟩
  · exact iff_of_true rfl (.inl rfl)
  · have continued : entry = selected ++ k.separator ++ String.ofList rest := by
      rw [← String.toList_inj, String.toList_append, String.toList_ofList, whole]
    unfold keyOf
    rw [continued, Text.keyOf_continued]
    refine (or_iff_right_of_imp fun same => ?_).symm
    exact Text.keyOf_continued.mp (congrArg (Text.keyOf k.separator) same)

theorem asksFor_of_keyOf {s : Selection} (member : selected ∈ s.values) (same : k.keyOf entry = k.keyOf selected) :
    ((Facet.keyed k).countOptions (some s)).asksFor entry = true := by
  apply (Facet.asksFor_countOptions _ _ _).mpr
  intro t given _
  obtain rfl := Option.some.inj given
  exact ⟨selected, member, same.symm⟩

theorem accepted_entry_key (k : KeyedFacet) (selected entry : String) (matcher : Matcher)
    (built : (Facet.keyed k).selector.value selected = .values k.name matcher) (accepts : matcher.accepts entry = true) :
    (k.keyOf entry = k.keyOf selected ↔ entry = selected ∨ Text.KeepsKey k.separator selected) ∧
      (¬ Text.Overlaps k.separator → k.keyOf entry = k.keyOf selected) ∧
      (∀ s text, ((Facet.keyed k).countOptions s).keyOf text = k.keyOf text) ∧
      ∀ s : Selection, selected ∈ s.values → k.keyOf entry = k.keyOf selected →
        ((Facet.keyed k).countOptions (some s)).asksFor entry = true := by
  cases built
  have same := keyOf_of_accepts accepts
  refine ⟨same, fun plain => same.mpr (.inr ?_), fun _ _ => rfl, fun s member => asksFor_of_keyOf member⟩
  exact Text.keepsKey_of_not_overlaps plain selected

def ratio : KeyedFacet := { name := "ratio", separator := "::" }

theorem accepted_entry_key_ratio : (Matcher.under "width::4:" "::").accepts "width::4:::3" = true ∧
    ratio.keyOf "width::4:::3" = ratio.keyOf "width::4:" ∧
    ((Facet.keyed ratio).countOptions (some { facet := "ratio", values := ["height", "width::4:"] })).asksFor
      "width::4:::3" = true := by
  obtain ⟨same, _, _, asks⟩ := accepted_entry_key ratio "width::4:" "width::4:::3" _ rfl (by decide)
  have key := same.mpr (.inr (.inl (by decide)))
  exact ⟨by decide, key, asks _ (.tail _ (.head _)) key⟩

-- The first two colons are the separator, so the key is shorter than the value.
theorem accepted_entry_hidden : ¬ ∀ (k : KeyedFacet) (selected entry : String) (matcher : Matcher),
    (k.parse entry).isSome = true → (Facet.keyed k).selector.value selected = .values k.name matcher →
    matcher.accepts entry = true → k.keyOf entry = k.keyOf selected ∧ ∀ s : Selection, selected ∈ s.values →
      ((Facet.keyed k).countOptions (some s)).asksFor entry = true := by
  intro agrees
  obtain ⟨_, asks⟩ := agrees ratio "width:" "width:::4" _ (by decide) rfl (by decide)
  exact absurd (asks { facet := "ratio", values := ["width:"] } (.head _)) (by decide)

end KeyedFacet

end FacetedSearch
