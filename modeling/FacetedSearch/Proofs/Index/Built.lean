import FacetedSearch.Proofs.Index.Sections

namespace FacetedSearch

theorem collected_foldl {σ κ γ : Type} {step : σ → κ → σ} (read : σ → List γ) {added : κ → List γ}
    (adds : ∀ s call, read (step s call) = read s ++ added call) (s : σ) (calls : List κ) :
    read (calls.foldl step s) = read s ++ calls.flatMap added := by
  induction calls generalizing s with
  | nil => exact (List.append_nil _).symm
  | cons call rest ih => rw [List.foldl_cons, ih, adds, List.flatMap_cons, List.append_assoc]

namespace Document

inductive Call where
  | text (field words : String)
  | stored (field value : String)
  | storedAll (field : String) (values : List String)
  | tag (name : String) (i : Interval)
deriving Repr, DecidableEq

def call (d : Document) : Call → Document
  | .text field words => d.addText field words
  | .stored field value => d.store field [value]
  | .storedAll field values => d.store field values
  | .tag name i => d.addSection name i

def ofCalls (calls : List Call) : Document := calls.foldl call {}

namespace Call

def tokens : Call → List Term
  | .text field words => (Text.words words).map fun word => ⟨field, word⟩
  | _ => []

def values (field : String) : Call → List String
  | .stored other value => if other = field then [value] else []
  | .storedAll other values => if other = field then values else []
  | _ => []

def boundaries (sectionField : String) (t : Term) : Call → List Position
  | .tag name i => if ⟨sectionField, name⟩ = t then [i.start, i.stop] else []
  | _ => []

end Call

def boundariesOf (d : Document) (sectionField : String) (t : Term) : List Position :=
  Interval.boundaries ((d.sections.filter fun s => ⟨sectionField, s.1⟩ = t).map (·.2))

theorem tokens_call (d : Document) (call : Call) : (d.call call).tokens = d.tokens ++ call.tokens := by
  cases call with
  | text => rfl
  | stored | storedAll | tag => exact (List.append_nil _).symm

theorem valuesOf_call (field : String) (d : Document) (call : Call) :
    (d.call call).valuesOf field = d.valuesOf field ++ call.values field := by
  have stored (other : String) (values : List String) : (d.store other values).valuesOf field =
      d.valuesOf field ++ if other = field then values else [] := by
    unfold store valuesOf
    by_cases same : other = field
    · simp [same, List.filter_map, Function.comp_def]
    · simp [same, List.filter_map, Function.comp_def]
  cases call with
  | text | tag => exact (List.append_nil _).symm
  | stored other value => exact stored other [value]
  | storedAll other values => exact stored other values

theorem boundariesOf_call (sectionField : String) (t : Term) (d : Document) (call : Call) :
    (d.call call).boundariesOf sectionField t = d.boundariesOf sectionField t ++ call.boundaries sectionField t := by
  cases call with
  | text | stored | storedAll => exact (List.append_nil _).symm
  | tag name i =>
    unfold boundariesOf Document.call addSection Call.boundaries Interval.boundaries
    rw [List.filter_append, List.map_append, List.flatMap_append]
    by_cases same : ⟨sectionField, name⟩ = t
    · simp [same]
    · simp [same]

theorem tokens_ofCalls (calls : List Call) : (ofCalls calls).tokens = calls.flatMap Call.tokens :=
  collected_foldl tokens tokens_call {} calls

theorem valuesOf_ofCalls (calls : List Call) (field : String) :
    (ofCalls calls).valuesOf field = calls.flatMap (Call.values field) :=
  collected_foldl (fun d : Document => d.valuesOf field) (valuesOf_call field) {} calls

theorem boundariesOf_ofCalls (calls : List Call) (sectionField : String) (t : Term) :
    (ofCalls calls).boundariesOf sectionField t = calls.flatMap (Call.boundaries sectionField t) :=
  collected_foldl (fun d : Document => d.boundariesOf sectionField t) (boundariesOf_call sectionField t) {} calls

-- How often a term has a position among numbered tokens. The numbers are words of 32 bits.
def placesAt (tokens : List Term) (t : Term) (p : Position) : Nat :=
  tokens.zipIdx.countP fun token => token.1 = t ∧ UInt32.ofNat token.2 = p

theorem toNat_number {tokens : List Term} (fits : tokens.length ≤ 2 ^ 32) {token : Term × Nat}
    (member : token ∈ tokens.zipIdx) : (UInt32.ofNat token.2).toNat = token.2 :=
  UInt32.toNat_ofNat_of_lt' (Nat.lt_of_lt_of_le (List.snd_lt_of_mem_zipIdx member) fits)

theorem placesAt_exact {tokens : List Term} (fits : tokens.length ≤ 2 ^ 32) (t : Term) (p : Position) :
    placesAt tokens t p = if tokens[p.toNat]? = some t then 1 else 0 := by
  have own : ∀ token ∈ tokens.zipIdx, UInt32.ofNat token.2 = p ↔ token.2 = p.toNat := by
    intro token member
    rw [← UInt32.toNat_inj, toNat_number fits member]
  have apart : placesAt tokens t p = (tokens.zipIdx.filter (·.2 = p.toNat)).countP (·.1 = t) := by
    rw [placesAt, List.countP_filter]
    refine List.countP_congr fun token member => ?_
    simp only [decide_eq_true_eq, Bool.and_eq_true, own token member]
  have numbered : tokens.zipIdx.filter (·.2 = p.toNat) = (tokens[p.toNat]?.map (·, p.toNat)).toList := by
    have marked := filter_mapIdx_number (fun token : Term × Nat => token.2) (fun i token => (token, i)) tokens 0
      p.toNat (by simp)
    rw [List.mapIdx_eq_zipIdx_map] at marked
    simpa using marked
  rw [apart, numbered]
  cases tokens[p.toNat]? with
  | none => rfl
  | some token => simp [List.countP_cons]

theorem placesAt_concat (tokens : List Term) (token t : Term) (p : Position) : placesAt (tokens ++ [token]) t p =
    placesAt tokens t p + if token = t ∧ UInt32.ofNat tokens.length = p then 1 else 0 := by
  rw [placesAt, List.zipIdx_append, List.countP_append, ← placesAt]
  simp [List.countP_cons]

def wordsAt (tokens : List Term) (t : Term) : List Position :=
  (tokens.zipIdx.filter (·.1 = t)).map fun token => UInt32.ofNat token.2

theorem count_wordsAt (tokens : List Term) (t : Term) (p : Position) :
    (wordsAt tokens t).count p = placesAt tokens t p := by
  rw [wordsAt, List.count_eq_countP, List.countP_map, List.countP_filter, placesAt]
  exact List.countP_congr fun token _ => by simp [and_comm]

theorem wordsAt_concat (tokens : List Term) (t : Term) :
    wordsAt (tokens ++ [t]) t = wordsAt tokens t ++ [UInt32.ofNat tokens.length] := by
  rw [wordsAt, List.zipIdx_append, List.filter_append, List.map_append, ← wordsAt]
  simp

theorem wordsAt_ascending {tokens : List Term} (fits : tokens.length ≤ 2 ^ 32) (t : Term) :
    (wordsAt tokens t).Pairwise (· ≤ ·) := by
  have apart : tokens.zipIdx.Pairwise fun a b => a.2 < b.2 := by
    refine List.pairwise_map.mp ?_
    rw [List.zipIdx_map_snd]
    exact List.pairwise_lt_range'
  have numbered : tokens.zipIdx.Pairwise fun a b => UInt32.ofNat a.2 ≤ UInt32.ofNat b.2 := by
    refine apart.imp_of_mem fun first second less => ?_
    rw [UInt32.le_iff_toNat_le, toNat_number fits first, toNat_number fits second]
    exact Nat.le_of_lt less
  exact List.pairwise_map.mpr (numbered.filter _)

def enter (listed : List Position) (i : Interval) : List Position := (listed ++ [i.start, i.stop]).mergeSort

-- The positions of a term in the order in which they come to be listed. They are sorted with
-- each section, so that words alone stay as they were numbered.
def entered (d : Document) (sectionField : String) (t : Term) : List Position :=
  ((d.sections.filter fun s => ⟨sectionField, s.1⟩ = t).map (·.2)).foldl enter (wordsAt d.tokens t)

theorem foldl_enter_perm (listed : List Position) (sections : List Interval) :
    (sections.foldl enter listed).Perm (listed ++ Interval.boundaries sections) := by
  induction sections generalizing listed with
  | nil => exact .of_eq (List.append_nil _).symm
  | cons i rest ih =>
    have step : (enter listed i).Perm (listed ++ [i.start, i.stop]) := List.mergeSort_perm _ _
    rw [Interval.boundaries, List.flatMap_cons, ← List.append_assoc]
    exact (ih (enter listed i)).trans (step.append_right _)

theorem foldl_enter_ascending {listed : List Position} {sections : List Interval}
    (kept : listed.Pairwise (· ≤ ·) ∨ sections ≠ []) : (sections.foldl enter listed).Pairwise (· ≤ ·) := by
  induction sections generalizing listed with
  | nil => exact kept.resolve_right (· rfl)
  | cons i rest ih => exact ih (.inl (Position.mergeSort_ascending _))

variable {d : Document} {sectionField : String} {t : Term}

theorem entered_ascending (kept : d.tokens.length ≤ 2 ^ 32 ∨ d.boundariesOf sectionField t ≠ []) :
    (d.entered sectionField t).Pairwise (· ≤ ·) :=
  foldl_enter_ascending (kept.imp (wordsAt_ascending · t) (mt Interval.boundaries_eq_nil.mpr))

theorem positionsOf_perm (d : Document) (sectionField : String) (t : Term) :
    (d.positionsOf sectionField t).Perm (wordsAt d.tokens t ++ d.boundariesOf sectionField t) := by
  have words : ((d.tokens.zipIdx.map fun token => (token.1, UInt32.ofNat token.2)).filter (·.1 = t)).map (·.2) =
      wordsAt d.tokens t := by
    rw [List.filter_map, List.map_map]
    rfl
  unfold positionsOf
  rw [occurrences, List.filter_append, List.map_append, words, boundaries_tagged, ← boundariesOf]
  exact List.mergeSort_perm _ _

theorem positionsOf_eq_entered (kept : d.tokens.length ≤ 2 ^ 32 ∨ d.boundariesOf sectionField t ≠ []) :
    d.positionsOf sectionField t = d.entered sectionField t := by
  have same : (d.positionsOf sectionField t).Perm (d.entered sectionField t) :=
    (positionsOf_perm d sectionField t).trans (foldl_enter_perm _ _).symm
  exact same.eq_of_pairwise (fun _ _ _ _ => UInt32.le_antisymm) (Segment.positionsOf_ascending d sectionField t)
    (entered_ascending kept)

theorem count_positionsOf (d : Document) (sectionField : String) (t : Term) (p : Position) :
    (d.positionsOf sectionField t).count p = placesAt d.tokens t p + (d.boundariesOf sectionField t).count p := by
  rw [(positionsOf_perm d sectionField t).count_eq, List.count_append, count_wordsAt]

end Document

namespace Segment

inductive Call where
  | document (calls : List Document.Call)
  | sectionField (field : String)
  | prepareSections (enabled : Bool)
deriving Repr, DecidableEq

def call (s : Segment) : Call → Segment
  | .document calls => { s with documents := s.documents ++ [.ofCalls calls] }
  | .sectionField field => { s with sectionField := field }
  | .prepareSections enabled => { s with preparesSections := enabled }

def ofCalls (calls : List Call) : Segment := calls.foldl call {}

namespace Call

def added : Call → List (List Document.Call)
  | .document calls => [calls]
  | _ => []

def fields : Call → List String
  | .sectionField field => [field]
  | _ => []

end Call

-- What was called for a document; documents past the end were not added.
def callsFor (calls : List Call) (docno : Nat) : List Document.Call := (calls.flatMap Call.added)[docno]?.getD []

-- The last one set, whenever that was, is the field of the sections of all documents.
def fieldOf (calls : List Call) : String := (calls.flatMap Call.fields).getLast?.getD defaultSectionField

def tokensFor (calls : List Call) (docno : Nat) : List Term := (callsFor calls docno).flatMap Document.Call.tokens

def boundariesFor (calls : List Call) (t : Term) (docno : Nat) : List Position :=
  (callsFor calls docno).flatMap (Document.Call.boundaries (fieldOf calls) t)

def enteredFor (calls : List Call) (t : Term) (docno : Nat) : List Position :=
  (Document.ofCalls (callsFor calls docno)).entered (fieldOf calls) t

theorem documents_call (s : Segment) (call : Call) :
    (s.call call).documents = s.documents ++ call.added.map Document.ofCalls := by
  cases call with
  | document => rfl
  | sectionField | prepareSections => exact (List.append_nil _).symm

theorem documents_ofCalls (calls : List Call) :
    (ofCalls calls).documents = (calls.flatMap Call.added).map Document.ofCalls := by
  rw [List.map_flatMap]
  exact collected_foldl documents documents_call {} calls

theorem sectionField_foldl (s : Segment) (calls : List Call) :
    (calls.foldl call s).sectionField = (calls.flatMap Call.fields).getLast?.getD s.sectionField := by
  induction calls generalizing s with
  | nil => rfl
  | cons first rest ih =>
    rw [List.foldl_cons, ih, List.flatMap_cons]
    cases first with
    | document | prepareSections => rfl
    | sectionField field => rw [Call.fields, List.singleton_append, List.getLast?_cons, Option.getD_some, call]

theorem sectionField_ofCalls (calls : List Call) : (ofCalls calls).sectionField = fieldOf calls :=
  sectionField_foldl {} calls

end Segment

namespace Source

def listed (s : Source) (t : Term) (docno : Nat) : List Position :=
  ((s.postings t).filter (·.docno = docno)).flatMap (·.positions)

end Source

namespace Segment

theorem listed_toSource (s : Segment) (t : Term) (docno : Nat) : s.toSource.listed t docno = s.positionsIn t docno := by
  rw [Source.listed, postings_toSource, filter_postings]
  split
  · rename_i bare
    exact bare.symm
  · exact List.append_nil _

variable {calls : List Call} {docno : Nat}

theorem positionsIn_ofCalls (t : Term) : (ofCalls calls).positionsIn t docno =
    (Document.ofCalls (callsFor calls docno)).positionsOf (fieldOf calls) t := by
  rw [positionsIn, documents_ofCalls, sectionField_ofCalls, List.getElem?_map, callsFor]
  cases (calls.flatMap Call.added)[docno]? with
  | none => exact List.mergeSort_nil.symm
  | some added => rfl

theorem storedValues_ofCalls (field : String) : (ofCalls calls).toSource.storedValues docno field =
    (callsFor calls docno).flatMap (Document.Call.values field) := by
  rw [storedValues_toSource, documents_ofCalls, List.getElem?_map, callsFor]
  cases (calls.flatMap Call.added)[docno]? with
  | none => rfl
  | some added => exact Document.valuesOf_ofCalls added field

theorem count_listed (t : Term) (p : Position) : ((ofCalls calls).toSource.listed t docno).count p =
    Document.placesAt (tokensFor calls docno) t p + (boundariesFor calls t docno).count p := by
  rw [listed_toSource, positionsIn_ofCalls, Document.count_positionsOf, Document.tokens_ofCalls,
    Document.boundariesOf_ofCalls, tokensFor, boundariesFor]

-- Numbers of 32 bits do for so many tokens. A section has the positions sorted in any case.
def ListedInOrder (calls : List Call) (t : Term) (docno : Nat) : Prop :=
  (tokensFor calls docno).length ≤ 2 ^ 32 ∨ boundariesFor calls t docno ≠ []

theorem ListedInOrder.document {t : Term} (inOrder : ListedInOrder calls t docno) :
    (Document.ofCalls (callsFor calls docno)).tokens.length ≤ 2 ^ 32 ∨
      (Document.ofCalls (callsFor calls docno)).boundariesOf (fieldOf calls) t ≠ [] := by
  rw [Document.tokens_ofCalls, Document.boundariesOf_ofCalls]
  exact inOrder

theorem positions_ofCalls {t : Term} {row : Posting} (member : row ∈ (ofCalls calls).toSource.postings t)
    (inOrder : ListedInOrder calls t row.docno) : row.positions = enteredFor calls t row.docno := by
  rw [postings_toSource] at member
  rw [(mem_postings.mp member).1, positionsIn_ofCalls, Document.positionsOf_eq_entered inOrder.document, enteredFor]

-- What a segment tells of the calls it was built from. A document with more tokens than there
-- are numbers has several at one position, and these are listed as they were numbered.
structure Indexes (source : Source) (calls : List Call) : Prop where
  count : source.documentCount = (calls.flatMap Call.added).length
  rows : ∀ t, (source.postings t).Pairwise fun a b => a.docno < b.docno
  known : ∀ t, ∀ row ∈ source.postings t, row.docno < source.documentCount ∧ row.positions ≠ []
  entered : ∀ t, ∀ row ∈ source.postings t, ListedInOrder calls t row.docno → row.positions = enteredFor calls t row.docno
  ascending : ∀ t, ∀ row ∈ source.postings t, ListedInOrder calls t row.docno → row.positions.Pairwise (· ≤ ·)
  numbered : ∀ t docno p, (source.listed t docno).count p =
    Document.placesAt (tokensFor calls docno) t p + (boundariesFor calls t docno).count p
  placed : ∀ t docno p, (tokensFor calls docno).length ≤ 2 ^ 32 → (source.listed t docno).count p =
    (if (tokensFor calls docno)[p.toNat]? = some t then 1 else 0) + (boundariesFor calls t docno).count p
  stored : ∀ docno field, source.storedValues docno field = (callsFor calls docno).flatMap (Document.Call.values field)
  first : ∀ docno field,
    source.storedValue docno field = ((callsFor calls docno).flatMap (Document.Call.values field)).head?

theorem indexes_built (calls : List Call) : Indexes (ofCalls calls).toSource calls where
  count := by rw [documentCount_toSource, documents_ofCalls, List.length_map]
  rows := (toSource_ascending _).documents
  known t row member := by
    rw [postings_toSource] at member
    rw [documentCount_toSource]
    exact ⟨docno_lt_of_mem_postings member, (mem_postings.mp member).2⟩
  entered t row member inOrder := positions_ofCalls member inOrder
  ascending t row member inOrder := by
    rw [positions_ofCalls member inOrder]
    exact Document.entered_ascending inOrder.document
  numbered t docno p := count_listed t p
  placed t docno p fits := by rw [count_listed, Document.placesAt_exact fits]
  stored docno field := storedValues_ofCalls field
  first docno field := congrArg List.head? (storedValues_ofCalls field)

-- The field of the sections is set to one that has words of its own, and only after the
-- document was added. A word of it is also the tag of a section that stops at this word.
def duet : List Call := [.document [.text "text" "so long", .stored "voice" "alto", .text "part" "solo tutti  solo",
  .tag "solo" ⟨3, 4⟩, .storedAll "voice" ["bass", "alto"]], .prepareSections true, .sectionField "part"]

theorem indexes_built_duet : Indexes (ofCalls duet).toSource duet ∧
    (ofCalls duet).toSource.documentCount = 1 ∧ ((ofCalls duet).toSource.listed ⟨"part", "solo"⟩ 0).count 3 = 1 ∧
      ((ofCalls duet).toSource.listed ⟨"part", "solo"⟩ 0).count 4 = 2 ∧
      (ofCalls duet).toSource.storedValues 0 "voice" = ["alto", "bass", "alto"] ∧
      (ofCalls duet).toSource.storedValue 1 "voice" = none := by
  have indexes := indexes_built duet
  have short : (tokensFor duet 0).length ≤ 2 ^ 32 := by decide
  refine ⟨indexes, indexes.count, ?_, ?_, indexes.stored 0 "voice", indexes.first 1 "voice"⟩
  · rw [indexes.placed _ _ _ short]
    decide
  · rw [indexes.placed _ _ _ short]
    decide

def chant (times : Nat) : List Call := [.document (List.replicate times (.text "body" "la"))]

theorem tokensFor_chant (times : Nat) : tokensFor (chant times) 0 = List.replicate times ⟨"body", "la"⟩ := by
  have once : Document.Call.tokens (.text "body" "la") = [⟨"body", "la"⟩] := by decide
  change (List.replicate times (Document.Call.text "body" "la")).flatMap Document.Call.tokens = _
  rw [List.flatMap_replicate, once, List.flatten_replicate_singleton]

theorem boundariesFor_chant (times : Nat) (t : Term) : boundariesFor (chant times) t 0 = [] := by
  change (List.replicate times (Document.Call.text "body" "la")).flatMap _ = []
  rw [List.flatMap_replicate]
  exact List.flatten_replicate_nil

theorem enteredFor_chant (times : Nat) (t : Term) :
    enteredFor (chant times) t 0 = Document.wordsAt (List.replicate times ⟨"body", "la"⟩) t := by
  have words : (Document.ofCalls (callsFor (chant times) 0)).tokens = List.replicate times ⟨"body", "la"⟩ :=
    (Document.tokens_ofCalls _).trans (tokensFor_chant times)
  have bare : (Document.ofCalls (callsFor (chant times) 0)).boundariesOf (fieldOf (chant times)) t = [] :=
    (Document.boundariesOf_ofCalls _ _ t).trans (boundariesFor_chant times t)
  rw [enteredFor, Document.entered, Interval.boundaries_eq_nil.mp bare, words, List.foldl_nil]

-- All numbers are taken but for the last word, and it gets that of the first.
theorem chant_listed_twice :
    ((ofCalls (chant (2 ^ 32 + 1))).toSource.listed ⟨"body", "la"⟩ 0).count 0 = 2 ∧
    (if (tokensFor (chant (2 ^ 32 + 1)) 0)[(0 : Position).toNat]? = some ⟨"body", "la"⟩ then 1 else 0) +
      (boundariesFor (chant (2 ^ 32 + 1)) ⟨"body", "la"⟩ 0).count 0 = 1 ∧
    ¬ (enteredFor (chant (2 ^ 32 + 1)) ⟨"body", "la"⟩ 0).Pairwise (· ≤ ·) := by
  have fits : (List.replicate (2 ^ 32) (Term.mk "body" "la")).length ≤ 2 ^ 32 := Nat.le_of_eq List.length_replicate
  have found (times : Nat) (p : Position) (below : p.toNat < times) :
      (List.replicate times (Term.mk "body" "la"))[p.toNat]? = some ⟨"body", "la"⟩ := by
    rw [List.getElem?_replicate, if_pos below]
  have again : UInt32.ofNat (2 ^ 32) = 0 := by decide
  refine ⟨?_, ?_, ?_⟩
  · rw [count_listed, tokensFor_chant, boundariesFor_chant, List.replicate_succ', Document.placesAt_concat,
      Document.placesAt_exact fits, found _ 0 (by decide), List.length_replicate, again]
    rfl
  · rw [tokensFor_chant, boundariesFor_chant, found _ 0 (by decide)]
    rfl
  · intro ascending
    rw [enteredFor_chant, List.replicate_succ', Document.wordsAt_concat, List.length_replicate, again] at ascending
    have second : 1 ∈ Document.wordsAt (List.replicate (2 ^ 32) ⟨"body", "la"⟩) ⟨"body", "la"⟩ := by
      refine List.count_pos_iff.mp ?_
      rw [Document.count_wordsAt, Document.placesAt_exact fits, found _ 1 (by decide), if_pos rfl]
      exact Nat.one_pos
    have less : (1 : Position) ≤ 0 := (List.pairwise_append.mp ascending).2.2 1 second 0 (List.mem_singleton_self 0)
    exact absurd less (by decide)

end Segment

end FacetedSearch
