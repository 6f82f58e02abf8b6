import FacetedSearch.Plan.Compilation
import FacetedSearch.Proofs.Index.Postings
import FacetedSearch.Proofs.Plan.Leaves

namespace FacetedSearch

def Source.Has (s : Source) (t : Term) (docno : Nat) (p : Position) : Prop :=
  ∃ row ∈ s.postings t, row.docno = docno ∧ p ∈ row.positions

namespace Leaf

variable {s : Source} {t : Term} {docno : Nat} {p : Position}

theorem positionsIn_cases (ascending : s.Ascending) (t : Term) (docno : Nat) :
    (∃ row ∈ s.postings t, row.docno = docno ∧
      (ofPostings t (s.postings t)).positionsIn docno = row.positions.toArray) ∨
    (∀ row ∈ s.postings t, row.docno ≠ docno) ∧ (ofPostings t (s.postings t)).positionsIn docno = #[] := by
  by_cases listed : ∃ row ∈ s.postings t, row.docno = docno
  · obtain ⟨row, member, rfl⟩ := listed
    exact .inl ⟨row, member, rfl, positionsIn_ofPostings (ascending.documents t) member⟩
  · have absent : ∀ row ∈ s.postings t, row.docno ≠ docno := fun row member same => listed ⟨row, member, same⟩
    exact .inr ⟨absent, positionsIn_unlisted absent⟩

theorem ascending_ofPostings (ascending : s.Ascending) (t : Term) : (ofPostings t (s.postings t)).Ascending := by
  intro docno
  rcases positionsIn_cases ascending t docno with ⟨row, member, _, read⟩ | ⟨_, read⟩
  · rw [read]
    exact ascending.positions t row member
  · rw [read]
    exact .nil

theorem mem_positionsIn_ofPostings (ascending : s.Ascending) :
    p ∈ (ofPostings t (s.postings t)).positionsIn docno ↔ s.Has t docno p := by
  constructor
  · intro member
    rcases positionsIn_cases ascending t docno with ⟨row, listed, same, read⟩ | ⟨_, read⟩
    · rw [read, List.mem_toArray] at member
      exact ⟨row, listed, same, member⟩
    · rw [read] at member
      exact absurd member (Array.not_mem_empty p)
  · rintro ⟨row, listed, rfl, member⟩
    rw [positionsIn_ofPostings (ascending.documents t) listed, List.mem_toArray]
    exact member

end Leaf

namespace Phrase

section Evaluation

variable {leaves : List Leaf} {docno : Nat} {lo hi base : Position}

theorem span_exact (filled : leaves ≠ []) :
    (∃ l ∈ leaves, l.offset = span leaves) ∧ ∀ l ∈ leaves, l.offset ≤ span leaves := by
  cases greatest : (leaves.map (·.offset)).max? with
  | none => simp [filled] at greatest
  | some m =>
    have same : span leaves = m := by
      rw [span, List.foldl_max, greatest, Option.getD_some]
      exact UInt32.toNat_inj.mp (by rw [Position.toNat_max]; exact Nat.max_eq_right (Nat.zero_le _))
    obtain ⟨member, above⟩ := List.max?_eq_some_iff.mp greatest
    rw [same]
    exact ⟨List.mem_map.mp member, fun l inside => above _ (List.mem_map_of_mem inside)⟩

-- A base that a phrase is tried at: reckoned back from a position of the first
-- leaf, with room for all leaves in the range.
structure Tries (leaves : List Leaf) (docno : Nat) (lo hi base : Position) : Prop where
  anchored : ∃ anchor ∈ leaves.head?, ∃ p ∈ anchor.positionsIn docno, base.toNat + anchor.offset.toNat = p.toNat
  after : lo ≤ base
  before : Position.plus base (span leaves) < hi

theorem holds_iff_tries : holds leaves docno lo hi = true ↔
    ∃ base, Tries leaves docno lo hi base ∧ ∀ l ∈ leaves, l.occursAt docno (base + l.offset) = true := by
  cases leaves with
  | nil => exact iff_of_false nofun fun ⟨_, tries, _⟩ => nomatch tries.anchored
  | cons anchor rest =>
    simp only [holds, holdsFrom, Array.any_eq_true', Bool.and_eq_true, decide_eq_true_eq, List.all_eq_true]
    constructor
    · intro ⟨p, member, room, ⟨after, before⟩, every⟩
      refine ⟨p - anchor.offset, ⟨⟨anchor, rfl, p, member, ?_⟩, after, before⟩, every⟩
      rw [UInt32.toNat_sub_of_le _ _ room]
      exact Nat.sub_add_cancel (UInt32.le_iff_toNat_le.mp room)
    · intro ⟨base, ⟨⟨_, rfl, p, member, reckoned⟩, after, before⟩, every⟩
      have room : anchor.offset ≤ p := UInt32.le_iff_toNat_le.mpr (by omega)
      have back : p - anchor.offset = base :=
        UInt32.toNat_inj.mp (by rw [UInt32.toNat_sub_of_le _ _ room]; omega)
      rw [← back] at after before every
      exact ⟨p, member, room, ⟨after, before⟩, every⟩

theorem Tries.toNat_add (tries : Tries leaves docno lo hi base) {l : Leaf} (member : l ∈ leaves) :
    (base + l.offset).toNat = base.toNat + l.offset.toNat ∧ base.toNat + l.offset.toNat < hi.toNat := by
  have within := UInt32.le_iff_toNat_le.mp ((span_exact (List.ne_nil_of_mem member)).2 l member)
  have before := UInt32.lt_iff_toNat_lt.mp tries.before
  have below := hi.toNat_lt
  have top : documentEnd.toNat = 2 ^ 32 - 1 := rfl
  rw [Position.toNat_plus] at before
  have room : base.toNat + l.offset.toNat < hi.toNat := by omega
  exact ⟨by rw [UInt32.toNat_add, Nat.mod_eq_of_lt (by omega)], room⟩

end Evaluation

def start (words : List PhraseWord) : Position := ((words.map (·.position)).min?).getD 0

-- The words of a phrase stand in a range, each as far behind the base as it is
-- behind the first word.
def Stands (s : Source) (words : List PhraseWord) (docno : Nat) (lo hi : Position) (base : Nat) : Prop :=
  ∀ w ∈ words, ∃ p, s.Has w.term docno p ∧ p.toNat = base + (w.position.toNat - (start words).toNat) ∧ lo ≤ p ∧ p < hi

def Shifted (distance : Nat) (words words' : List PhraseWord) : Prop :=
  (words'.map fun w => (w.term, w.position.toNat)).Perm (words.map fun w => (w.term, w.position.toNat + distance))

end Phrase

def Leaf.ofWord (s : Source) (first : Position) (w : PhraseWord) : Leaf :=
  { ofPostings w.term (s.postings w.term) with offset := w.position - first }

namespace Phrase

section Words

variable {s : Source} {words : List PhraseWord} {docno : Nat} {lo hi : Position}

theorem min?_start (filled : words ≠ []) : (words.map (·.position)).min? = some (start words) := by
  unfold start
  cases least : (words.map (·.position)).min? with
  | none => simp [filled] at least
  | some first => rfl

theorem start_least (filled : words ≠ []) :
    (∃ w ∈ words, w.position = start words) ∧ ∀ w ∈ words, start words ≤ w.position := by
  obtain ⟨member, below⟩ := List.min?_eq_some_iff.mp (min?_start filled)
  exact ⟨List.mem_map.mp member, fun w inside => below _ (List.mem_map_of_mem inside)⟩

theorem ofPhrase_filled (filled : words ≠ []) :
    Leaf.ofPhrase s words = some (words.map (Leaf.ofWord s (start words))) := by
  unfold Leaf.ofPhrase
  rw [min?_start filled]
  rfl

theorem offset_ofWord {w : PhraseWord} (member : w ∈ words) :
    (Leaf.ofWord s (start words) w).offset.toNat + (start words).toNat = w.position.toNat := by
  have late := (start_least (List.ne_nil_of_mem member)).2 w member
  show (w.position - start words).toNat + (start words).toNat = w.position.toNat
  rw [UInt32.toNat_sub_of_le _ _ late]
  exact Nat.sub_add_cancel (UInt32.le_iff_toNat_le.mp late)

theorem occursAt_ofWord (ascending : s.Ascending) {first p : Position} {w : PhraseWord} :
    (Leaf.ofWord s first w).occursAt docno p = true ↔ s.Has w.term docno p := by
  have sorted : (Leaf.ofWord s first w).Ascending := Leaf.ascending_ofPostings ascending w.term
  have bare : (Leaf.ofWord s first w).sectionsIn docno = [] := rfl
  have read : (Leaf.ofWord s first w).positionsIn docno =
    (Leaf.ofPostings w.term (s.postings w.term)).positionsIn docno := rfl
  rw [Leaf.occursAt_exact sorted, bare, read, Leaf.mem_positionsIn_ofPostings ascending]
  simp

-- Wherever the phrase stands, the position of the word listed first leads to the
-- base, though other words may stand before it.
theorem tries_of_stands (ascending : s.Ascending) {base : Nat} (filled : words ≠ [])
    (stands : Stands s words docno lo hi base) : ∃ b : Position, b.toNat = base ∧
      Tries (words.map (Leaf.ofWord s (start words))) docno lo hi b := by
  obtain ⟨first, firstly, least⟩ := (start_least filled).1
  obtain ⟨b, _, begins, after, _⟩ := stands first firstly
  have based : b.toNat = base := by rw [begins, least]; omega
  refine ⟨b, based, ?_, after, ?_⟩
  · obtain ⟨anchor, rest, rfl⟩ := List.exists_cons_of_ne_nil filled
    obtain ⟨p, has, place, _⟩ := stands anchor List.mem_cons_self
    have listed : anchor ∈ anchor :: rest := List.mem_cons_self
    have reckoned := offset_ofWord (s := s) listed
    exact ⟨_, rfl, p, (Leaf.mem_positionsIn_ofPostings ascending).mpr has, by omega⟩
  · have some : words.map (Leaf.ofWord s (start words)) ≠ [] := List.map_eq_nil_iff.not.mpr filled
    obtain ⟨⟨l, listed, longest⟩, _⟩ := span_exact some
    obtain ⟨w, member, rfl⟩ := List.mem_map.mp listed
    obtain ⟨p, _, place, _, before⟩ := stands w member
    have reckoned := offset_ofWord (s := s) member
    rw [UInt32.lt_iff_toNat_lt] at before ⊢
    rw [← longest, Position.toNat_plus]
    omega

theorem holds_iff_stands (ascending : s.Ascending) (filled : words ≠ []) :
    holds (words.map (Leaf.ofWord s (start words))) docno lo hi = true ↔ ∃ base, Stands s words docno lo hi base := by
  rw [holds_iff_tries]
  simp only [List.forall_mem_map, occursAt_ofWord ascending]
  constructor
  · intro ⟨b, tries, every⟩
    refine ⟨b.toNat, fun w member => ⟨_, every w member, ?_⟩⟩
    have reckoned := offset_ofWord (s := s) member
    obtain ⟨exact, within⟩ := tries.toNat_add (List.mem_map_of_mem member)
    have after := UInt32.le_iff_toNat_le.mp tries.after
    rw [UInt32.le_iff_toNat_le, UInt32.lt_iff_toNat_lt, exact]
    omega
  · intro ⟨base, stands⟩
    obtain ⟨b, based, tries⟩ := tries_of_stands ascending filled stands
    refine ⟨b, tries, fun w member => ?_⟩
    obtain ⟨p, has, place, _⟩ := stands w member
    have reckoned := offset_ofWord (s := s) member
    obtain ⟨exact, _⟩ := tries.toNat_add (List.mem_map_of_mem member)
    have same : p = b + (Leaf.ofWord s (start words) w).offset := UInt32.toNat_inj.mp (by omega)
    exact same ▸ has

end Words

section Movement

variable {s : Source} {words words' : List PhraseWord} {distance : Nat}

theorem Shifted.back (shifted : Shifted distance words words') :
    ∀ w' ∈ words', ∃ w ∈ words, w.term = w'.term ∧ w'.position.toNat = w.position.toNat + distance := by
  intro w' member
  obtain ⟨w, inside, same⟩ := List.mem_map.mp (shifted.subset (List.mem_map_of_mem member))
  exact ⟨w, inside, congrArg Prod.fst same, (congrArg Prod.snd same).symm⟩

theorem Shifted.forth (shifted : Shifted distance words words') :
    ∀ w ∈ words, ∃ w' ∈ words', w.term = w'.term ∧ w'.position.toNat = w.position.toNat + distance := by
  intro w member
  obtain ⟨w', inside, same⟩ := List.mem_map.mp (shifted.symm.subset (List.mem_map_of_mem member))
  exact ⟨w', inside, (congrArg Prod.fst same).symm, congrArg Prod.snd same⟩

theorem Shifted.filled (shifted : Shifted distance words words') (filled : words ≠ []) : words' ≠ [] := by
  obtain ⟨w, member⟩ := List.exists_mem_of_ne_nil words filled
  obtain ⟨w', inside, _⟩ := shifted.forth w member
  exact List.ne_nil_of_mem inside

theorem Shifted.start (shifted : Shifted distance words words') (filled : words ≠ []) :
    (start words').toNat = (Phrase.start words).toNat + distance := by
  obtain ⟨⟨first, firstly, least⟩, below⟩ := start_least filled
  obtain ⟨⟨first', firstly', least'⟩, below'⟩ := start_least (shifted.filled filled)
  obtain ⟨w', inside', _, moved⟩ := shifted.forth first firstly
  obtain ⟨w, inside, _, moved'⟩ := shifted.back first' firstly'
  have late := UInt32.le_iff_toNat_le.mp (below w inside)
  have late' := UInt32.le_iff_toNat_le.mp (below' w' inside')
  rw [least] at moved
  rw [least'] at moved'
  omega

theorem Shifted.stands (shifted : Shifted distance words words') (filled : words ≠ []) {docno : Nat}
    {lo hi : Position} {base : Nat} : Stands s words' docno lo hi base ↔ Stands s words docno lo hi base := by
  have started := shifted.start filled
  constructor
  · intro stands w member
    obtain ⟨w', inside, same, moved⟩ := shifted.forth w member
    obtain ⟨p, has, place, within⟩ := stands w' inside
    exact ⟨p, same ▸ has, by omega, within⟩
  · intro stands w' member
    obtain ⟨w, inside, same, moved⟩ := shifted.back w' member
    obtain ⟨p, has, place, within⟩ := stands w inside
    exact ⟨p, same ▸ has, by omega, within⟩

end Movement

theorem compiled_exact (s : Source) (ascending : s.Ascending) (lookup : Option SectionLookup) (words : List PhraseWord)
    (filled : words ≠ []) : ∃ leaves, (Query.phrase words).compile s lookup = .ok (some (.phrase leaves)) ∧
      (leaves.map fun l => l.offset.toNat + (start words).toNat) = words.map (·.position.toNat) ∧
      ∀ docno lo hi,
        ((Plan.phrase leaves).holds docno lo hi = true ↔ ∃ base, Stands s words docno lo hi base) ∧
        ((Plan.phrase leaves).holds docno lo hi = true ↔
          ∃ base, Tries leaves docno lo hi base ∧ ∀ l ∈ leaves, l.occursAt docno (base + l.offset) = true) ∧
        (∀ base, Tries leaves docno lo hi base → ∀ l ∈ leaves, (base + l.offset).toNat = base.toNat + l.offset.toNat) ∧
        ∀ distance words', Shifted distance words words' →
          ∃ leaves', (Query.phrase words').compile s lookup = .ok (some (.phrase leaves')) ∧
            (Plan.phrase leaves').holds docno lo hi = (Plan.phrase leaves).holds docno lo hi := by
  have compiled : ∀ {words : List PhraseWord}, words ≠ [] → (Query.phrase words).compile s lookup =
      .ok (some (.phrase (words.map (Leaf.ofWord s (start words))))) := by
    intro words filled
    rw [Query.compile, ofPhrase_filled filled]
    rfl
  refine ⟨_, compiled filled, ?_, fun docno lo hi => ⟨?_, ?_, ?_, fun distance words' shifted => ?_⟩⟩
  · rw [List.map_map]
    exact List.map_congr_left fun w member => offset_ofWord member
  · rw [Plan.holds]
    exact holds_iff_stands ascending filled
  · rw [Plan.holds]
    exact holds_iff_tries
  · exact fun base tries l member => (tries.toNat_add member).1
  · have also := shifted.filled filled
    refine ⟨_, compiled also, ?_⟩
    rw [Plan.holds, Plan.holds, Bool.eq_iff_iff, holds_iff_stands ascending also, holds_iff_stands ascending filled]
    exact exists_congr fun base => shifted.stands filled

def rhyme : Segment :=
  { documents := [{}, { tokens := ["row", "on", "row", "row", "your", "boat"].map (⟨"text", ·⟩) }] }

def rowing : List PhraseWord := [⟨⟨"text", "boat"⟩, 10⟩, ⟨⟨"text", "row"⟩, 7⟩, ⟨⟨"text", "row"⟩, 8⟩]

def rowingLast : List PhraseWord :=
  [⟨⟨"text", "row"⟩, 4294967292⟩, ⟨⟨"text", "row"⟩, 4294967293⟩, ⟨⟨"text", "boat"⟩, 4294967295⟩]

theorem compiled_exact_rhyme : rhyme.toSource.Ascending ∧ rowing ≠ [] ∧ Shifted 4294967285 rowing rowingLast ∧
    (∃ base, Stands rhyme.toSource rowing 1 2 6 base) ∧ (¬ ∃ base, Stands rhyme.toSource rowing 1 2 5 base) ∧
    ∃ leaves, (Query.phrase rowingLast).compile rhyme.toSource none = .ok (some (.phrase leaves)) ∧
      (Plan.phrase leaves).holds 1 2 6 = true := by
  have ascending := rhyme.toSource_ascending
  have filled : rowing ≠ [] := List.cons_ne_nil _ _
  have shifted : Shifted 4294967285 rowing rowingLast := by unfold Shifted; decide
  obtain ⟨leaves, compiled, _, each⟩ := compiled_exact rhyme.toSource ascending none rowing filled
  have bound : (Query.phrase rowing).compile rhyme.toSource none =
    .ok (some (.phrase (rowing.map (Leaf.ofWord rhyme.toSource 7)))) := rfl
  obtain rfl : leaves = rowing.map (Leaf.ofWord rhyme.toSource 7) := by
    rw [bound] at compiled
    exact (Plan.phrase.inj (Option.some.inj (Except.ok.inj compiled))).symm
  have found : (Plan.phrase (rowing.map (Leaf.ofWord rhyme.toSource 7))).holds 1 2 6 = true := by cbv
  have cut : (Plan.phrase (rowing.map (Leaf.ofWord rhyme.toSource 7))).holds 1 2 5 = false := by cbv
  obtain ⟨leaves', compiled', same⟩ := (each 1 2 6).2.2.2 _ _ shifted
  refine ⟨ascending, filled, shifted, (each 1 2 6).1.mp found, fun stands => ?_, leaves', compiled', same.trans found⟩
  rw [(each 1 2 5).1.mpr stands] at cut
  cases cut

end Phrase

end FacetedSearch
