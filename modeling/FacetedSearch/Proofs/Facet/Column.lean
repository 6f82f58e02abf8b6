import FacetedSearch.Filter
import Mathlib

namespace FacetedSearch

namespace Text

-- What starts with a text stands between that text and any longer
-- continuation, so such values are neighbours in a dictionary.
theorem not_lt_of_prefix {start value : List Char} (front : start <+: value) : ¬ value < start := by
  obtain ⟨tail, rfl⟩ := front
  exact List.not_lt.mpr (List.le_append_left)

theorem prefix_of_between {start value tail : List Char} (low : ¬ value < start) (high : value < start ++ tail) :
    start <+: value := by
  induction start generalizing value with
  | nil => exact List.nil_prefix
  | cons c start ih =>
    cases value with
    | nil => exact absurd (List.nil_lt_cons c start) low
    | cons d value =>
      rw [List.cons_append, List.cons_lt_cons_iff] at high
      rw [List.cons_lt_cons_iff] at low
      rcases high with less | ⟨rfl, high⟩
      · exact absurd (.inl less) low
      · exact List.cons_prefix_cons.mpr ⟨rfl, ih (fun below => low (.inr ⟨rfl, below⟩)) high⟩

theorem startsWith_iff {start value : String} : startsWith start value = true ↔ start.toList <+: value.toList :=
  List.isPrefixOf_iff_prefix

theorem not_lt_of_startsWith {start value : String} (front : startsWith start value = true) : ¬ value < start :=
  fun below => not_lt_of_prefix (startsWith_iff.mp front) (String.lt_iff_toList_lt.mp below)

theorem lt_or_startsWith_of_lt {start value later : String} (before : value < later)
    (inside : later < start ∨ startsWith start later = true) : value < start ∨ startsWith start value = true := by
  rcases inside with below | front
  · exact .inl (lt_trans before below)
  · by_cases low : value < start
    · exact .inl low
    · obtain ⟨tail, continued⟩ := startsWith_iff.mp front
      have high := String.lt_iff_toList_lt.mp before
      rw [← continued] at high
      exact .inr (startsWith_iff.mpr (prefix_of_between (fun below => low (String.lt_iff_toList_lt.mpr below)) high))

end Text

theorem compare_lt_iff {a b : String} : compare a b = .lt ↔ a < b := compareOfLessAndEq_eq_lt

namespace Column

section Dictionary

variable {dictionary : Array String} {value : String} {ordinal : Nat}

theorem lt_passing_iff (ascending : dictionary.toList.Pairwise (· < ·)) (inside : ordinal < dictionary.size) :
    ordinal < passing (· < value) dictionary ↔ dictionary[ordinal] < value :=
  below_passing_iff (ascending.imp Std.le_of_lt) inside

theorem passing_eq (ascending : dictionary.toList.Pairwise (· < ·)) (found : dictionary[ordinal]? = some value) :
    passing (· < value) dictionary = ordinal := by
  obtain ⟨inside, same⟩ := Array.getElem?_eq_some_iff.mp found
  have here : ordinal < passing (· < value) dictionary ↔ dictionary[ordinal] < value :=
    lt_passing_iff ascending inside
  have reached : ¬ ordinal < passing (· < value) dictionary := by
    rw [here, same]
    exact lt_irrefl value
  refine Nat.le_antisymm (Nat.le_of_not_lt reached) (Nat.le_of_not_lt fun early => ?_)
  have earlier : passing (· < value) dictionary < dictionary.size := Nat.lt_trans early inside
  have less : dictionary[passing (· < value) dictionary] < dictionary[ordinal] :=
    List.pairwise_iff_getElem.mp ascending _ _ (by simpa using earlier) (by simpa using inside) early
  rw [same] at less
  exact Nat.lt_irrefl _ ((lt_passing_iff ascending earlier).mpr less)

theorem ordinalIn_exact (ascending : dictionary.toList.Pairwise (· < ·)) :
    ordinalIn dictionary value = some ordinal ↔ dictionary[ordinal]? = some value := by
  simp only [ordinalIn]
  constructor
  · intro read
    split at read
    · rename_i found
      rw [← Option.some.inj read]
      exact found
    · cases read
  · intro found
    rw [passing_eq ascending found, if_pos found]

theorem passing_starts (ascending : dictionary.toList.Pairwise (· < ·)) (start : String) :
    passing (fun value => value < start || Text.startsWith start value) dictionary ≤ dictionary.size ∧
      ∀ (ordinal : Nat) (inside : ordinal < dictionary.size),
        ordinal < passing (fun value => value < start || Text.startsWith start value) dictionary ↔
          dictionary[ordinal] < start ∨ Text.startsWith start dictionary[ordinal] = true := by
  have falling := ascending.imp (S := fun a b => (b < start || Text.startsWith start b) = true →
      (a < start || Text.startsWith start a) = true) fun less later => by
    simp only [Bool.or_eq_true, decide_eq_true_eq] at later ⊢
    exact Text.lt_or_startsWith_of_lt less later
  obtain ⟨stop, leading⟩ := passing_parts falling
  refine ⟨stop, fun ordinal inside => ?_⟩
  rw [leading ordinal inside]
  simp only [Bool.or_eq_true, decide_eq_true_eq]

theorem mem_startRange (ascending : dictionary.toList.Pairwise (· < ·)) (start : String)
    (inside : ordinal < dictionary.size) :
    passing (· < start) dictionary ≤ ordinal ∧
        ordinal < passing (fun value => value < start || Text.startsWith start value) dictionary ↔
      Text.startsWith start dictionary[ordinal] = true := by
  rw [← Nat.not_lt, lt_passing_iff ascending inside, (passing_starts ascending start).2 ordinal inside]
  constructor
  · intro parts
    rcases parts with ⟨high, below | front⟩
    · exact absurd below high
    · exact front
  · exact fun front => ⟨Text.not_lt_of_startsWith front, .inr front⟩

end Dictionary

section Values

variable {rows : List (List String)} {docno ordinal : Nat} {value : String}

def rowOf (rows : List (List String)) (docno : Nat) : List String := rows[docno]?.getD []

theorem dictionary_ofValues : (ofValues rows).dictionary = (SortedSet.ofList rows.flatten).toList.toArray := rfl

theorem dictionary_ascending : (ofValues rows).dictionary.toList.Pairwise (· < ·) :=
  (SortedSet.ofList rows.flatten).ascending.imp compare_lt_iff.mp

theorem exists_ordinal (member : value ∈ rowOf rows docno) :
    ∃ ordinal : Nat, (ofValues rows).dictionary[ordinal]? = some value := by
  have known : value ∈ rows.flatten := by
    unfold rowOf at member
    cases found : rows[docno]? with
    | none => simp [found] at member
    | some row =>
      rw [found] at member
      exact List.mem_flatten_of_mem (List.mem_of_getElem? found) member
  obtain ⟨ordinal, found⟩ := List.mem_iff_getElem?.mp (SortedSet.mem_ofList.mpr known)
  exact ⟨ordinal, by rw [dictionary_ofValues, List.getElem?_toArray, found]⟩

theorem mem_ordinals :
    ordinal ∈ (ofValues rows).ordinals docno ↔
      ∃ value ∈ rowOf rows docno, (ofValues rows).dictionary[ordinal]? = some value := by
  have row : (ofValues rows).rows[docno]? =
      rows[docno]?.map fun values => .ofList (values.filterMap (ordinalIn (ofValues rows).dictionary)) := by
    simp [ofValues, ofRows]
  unfold ordinals rowOf
  rw [row]
  cases rows[docno]? with
  | none => simp [SortedSet.not_mem_empty]
  | some values =>
    simp only [Option.map_some, Option.getD_some, SortedSet.mem_ofList, List.mem_filterMap,
      ordinalIn_exact dictionary_ascending]

theorem value?_of_mem_ordinals (member : ordinal ∈ (ofValues rows).ordinals docno) :
    ∃ value, (ofValues rows).value? ordinal = some value := by
  obtain ⟨value, _, found⟩ := mem_ordinals.mp member
  exact ⟨value, found⟩

theorem mem_values : value ∈ (ofValues rows).values docno ↔ value ∈ rowOf rows docno := by
  unfold values
  rw [List.mem_filterMap]
  constructor
  · intro ⟨ordinal, member, found⟩
    obtain ⟨other, given, same⟩ := mem_ordinals.mp member
    rw [value?, same] at found
    exact Option.some.inj found ▸ given
  · intro member
    obtain ⟨ordinal, found⟩ := exists_ordinal member
    exact ⟨ordinal, mem_ordinals.mpr ⟨value, member, found⟩, found⟩

theorem values_ascending : ((ofValues rows).values docno).Pairwise fun a b => compare a b = .lt := by
  unfold values
  refine List.Pairwise.filterMap _ ?_ ((ofValues rows).ordinals docno).ascending
  intro low high less a lower b upper
  have order : low < high := Nat.compare_eq_lt.mp less
  obtain ⟨insideLow, sameLow⟩ := Array.getElem?_eq_some_iff.mp lower
  obtain ⟨insideHigh, sameHigh⟩ := Array.getElem?_eq_some_iff.mp upper
  have before : (ofValues rows).dictionary[low] < (ofValues rows).dictionary[high] :=
    List.pairwise_iff_getElem.mp dictionary_ascending low high insideLow insideHigh order
  rw [sameLow, sameHigh] at before
  exact compare_lt_iff.mpr before

theorem values_ofValues : (ofValues rows).values docno = (SortedSet.ofList (rowOf rows docno)).toList :=
  congrArg SortedSet.toList (SortedSet.eq_of_mem_iff (s := ⟨(ofValues rows).values docno, values_ascending⟩)
    fun _ => mem_values.trans SortedSet.mem_ofList.symm)

theorem values_cons {first : Nat} {rest : List Nat} (listed : ((ofValues rows).ordinals docno).toList = first :: rest) :
    ∃ value others, (ofValues rows).value? first = some value ∧ (ofValues rows).values docno = value :: others := by
  have member : first ∈ ((ofValues rows).ordinals docno).toList := by
    rw [listed]
    exact List.mem_cons_self
  obtain ⟨value, found⟩ := value?_of_mem_ordinals member
  refine ⟨value, rest.filterMap (ofValues rows).value?, found, ?_⟩
  unfold values
  rw [listed, List.filterMap_cons_some found]

theorem values_nil (listed : ((ofValues rows).ordinals docno).toList = []) : (ofValues rows).values docno = [] := by
  unfold values
  rw [listed, List.filterMap_nil]

theorem head?_values :
    ((ofValues rows).ordinals docno).toList.head?.bind (ofValues rows).value? =
      ((ofValues rows).values docno).head? := by
  cases listed : ((ofValues rows).ordinals docno).toList with
  | nil => rw [values_nil listed]; rfl
  | cons first rest =>
    obtain ⟨value, others, found, same⟩ := values_cons listed
    rw [same, List.head?_cons, List.head?_cons, Option.bind_some, found]

theorem isEmpty_ordinals :
    ((ofValues rows).ordinals docno).isEmpty = ((ofValues rows).values docno).isEmpty := by
  unfold SortedSet.isEmpty
  cases listed : ((ofValues rows).ordinals docno).toList with
  | nil => rw [values_nil listed]; rfl
  | cons first rest =>
    obtain ⟨value, others, _, same⟩ := values_cons listed
    rw [same]
    rfl

end Values

theorem mem_carriers {rows : List (SortedSet Nat)} {docno ordinal : Nat} :
    docno ∈ (groupByKey (rows.zipIdx.flatMap fun (row, docno) => row.toList.map (·, docno))).getD ordinal [] ↔
      ordinal ∈ rows[docno]?.getD ∅ := by
  have placed : docno ∈ (groupByKey (rows.zipIdx.flatMap fun (row, docno) => row.toList.map (·, docno))).getD
      ordinal [] ↔ ∃ row, rows[docno]? = some row ∧ ordinal ∈ row := by
    rw [getD_groupByKey]
    simp only [List.mem_map, List.mem_filter, List.mem_flatMap, Prod.exists, List.mem_zipIdx_iff_getElem?,
      decide_eq_true_eq, Prod.mk.injEq]
    constructor
    · intro parts
      obtain ⟨_, _, ⟨⟨row, _, found, _, member, rfl, rfl⟩, rfl⟩, rfl⟩ := parts
      exact ⟨row, found, member⟩
    · intro ⟨row, found, member⟩
      exact ⟨ordinal, docno, ⟨⟨row, docno, found, ordinal, member, rfl, rfl⟩, rfl⟩, rfl⟩
  rw [placed]
  cases rows[docno]? with
  | none => simp [SortedSet.not_mem_empty]
  | some row => simp

theorem mem_foldl_union {sets : List DocSet} {found : DocSet} {docno : Nat} :
    docno ∈ sets.foldl .union found ↔ docno ∈ found ∨ ∃ docs ∈ sets, docno ∈ docs := by
  induction sets generalizing found with
  | nil => simp
  | cons docs rest ih =>
    rw [List.foldl_cons, ih, SortedSet.mem_union, or_assoc, List.exists_mem_cons_iff]

theorem mem_extract_iff {sets : Array DocSet} {first last : Nat} {docs : DocSet} :
    docs ∈ (sets.extract first last).toList ↔
      ∃ ordinal : Nat, first ≤ ordinal ∧ ordinal < last ∧ sets[ordinal]? = some docs := by
  rw [Array.mem_toList_iff, Array.mem_extract_iff_getElem]
  constructor
  · intro ⟨k, room, same⟩
    exact ⟨first + k, by omega, by omega, Array.getElem?_eq_some_iff.mpr ⟨by omega, same⟩⟩
  · intro ⟨ordinal, low, high, found⟩
    obtain ⟨inside, same⟩ := Array.getElem?_eq_some_iff.mp found
    obtain ⟨k, rfl⟩ := Nat.exists_eq_add_of_le low
    exact ⟨k, by omega, same⟩

section Documents

variable {rows : List (List String)} {docno ordinal : Nat} {value : String}

theorem mem_docs? (known : ordinal < (ofValues rows).dictionary.size) :
    ∃ docs, (ofValues rows).docs? ordinal = some docs ∧
      ∀ docno, docno ∈ docs ↔ ordinal ∈ (ofValues rows).ordinals docno := by
  refine ⟨_, Array.getElem?_eq_some_iff.mpr ⟨?_, rfl⟩, fun docno => ?_⟩
  · simpa [ofValues, ofRows] using known
  · simp only [ofValues, ofRows, Array.getElem_map, Array.getElem_range, SortedSet.mem_ofList, ordinals,
      List.getElem?_toArray]
    exact mem_carriers

theorem size_inverted : (ofValues rows).inverted.size = (ofValues rows).dictionary.size := by
  simp [ofValues, ofRows]

theorem mem_docsOf : docno ∈ (ofValues rows).docsOf value ↔ value ∈ (ofValues rows).values docno := by
  unfold docsOf
  rw [mem_values]
  cases place : (ofValues rows).ordinal? value with
  | none =>
    refine iff_of_false (SortedSet.not_mem_empty docno) fun member => ?_
    obtain ⟨ordinal, found⟩ := exists_ordinal member
    have placed := (ordinalIn_exact dictionary_ascending).mpr found
    rw [← ordinal?, place] at placed
    cases placed
  | some ordinal =>
    have found := (ordinalIn_exact dictionary_ascending).mp place
    obtain ⟨known, same⟩ := Array.getElem?_eq_some_iff.mp found
    obtain ⟨docs, listed, carriers⟩ := mem_docs? known
    rw [Option.bind_some, listed, Option.getD_some, carriers, mem_ordinals]
    constructor
    · intro ⟨other, member, also⟩
      rw [found] at also
      exact Option.some.inj also ▸ member
    · exact fun member => ⟨value, member, found⟩

theorem mem_docsInRange {start : String} :
    docno ∈ (ofValues rows).docsInRange ((ofValues rows).startRange start) ↔
      ∃ value ∈ (ofValues rows).values docno, Text.startsWith start value = true := by
  unfold docsInRange startRange
  rw [← Array.foldl_toList, mem_foldl_union]
  constructor
  · intro member
    rcases member with none | ⟨docs, listed, member⟩
    · exact absurd none (SortedSet.not_mem_empty docno)
    · obtain ⟨ordinal, low, high, found⟩ := mem_extract_iff.mp listed
      have known := (Array.getElem?_eq_some_iff.mp found).1
      rw [size_inverted] at known
      obtain ⟨others, also, carriers⟩ := mem_docs? known
      obtain rfl : docs = others := Option.some.inj (found.symm.trans also)
      exact ⟨(ofValues rows).dictionary[ordinal], List.mem_filterMap.mpr ⟨ordinal, (carriers docno).mp member,
        Array.getElem?_eq_getElem known⟩, (mem_startRange dictionary_ascending start known).mp ⟨low, high⟩⟩
  · intro ⟨value, member, front⟩
    obtain ⟨ordinal, listed, found⟩ := List.mem_filterMap.mp member
    obtain ⟨known, same⟩ := Array.getElem?_eq_some_iff.mp found
    obtain ⟨docs, placed, carriers⟩ := mem_docs? known
    obtain ⟨low, high⟩ := (mem_startRange dictionary_ascending start known).mpr (by rw [same]; exact front)
    exact .inr ⟨docs, mem_extract_iff.mpr ⟨ordinal, low, high, placed⟩, (carriers docno).mpr listed⟩

end Documents

end Column

theorem Matcher.mem_docs {rows : List (List String)} {docno : Nat} (matcher : Matcher) :
    docno ∈ matcher.docs (Column.ofValues rows) ↔
      ∃ value ∈ (Column.ofValues rows).values docno, matcher.accepts value = true := by
  cases matcher with
  | exact wanted =>
    simp only [docs, accepts, Column.mem_docsOf, decide_eq_true_eq, exists_eq_right]
  | under wanted separator =>
    simp only [docs, accepts, SortedSet.mem_union, Column.mem_docsOf, Column.mem_docsInRange, Bool.or_eq_true,
      decide_eq_true_eq, and_or_left, exists_or, exists_eq_right]

end FacetedSearch
