import FacetedSearch.Facet.Loaded

namespace FacetedSearch

-- Which values of a facet a filter leaf accepts: one value, or a value together
-- with everything that continues it after a separator.
inductive Matcher where
  | exact (value : String)
  | under (value separator : String)
deriving Repr, DecidableEq

namespace Matcher

def accepts (stored : String) : Matcher → Bool
  | exact value => stored = value
  | under value separator => stored = value || Text.startsWith (value ++ separator) stored

def docs (c : Column) : Matcher → DocSet
  | exact value => c.docsOf value
  | under value separator => (c.docsOf value).union (c.docsInRange (c.startRange (value ++ separator)))

end Matcher

inductive Filter where
  | empty
  | values (facet : String) (matcher : Matcher)
  | allOf (parts : List Filter)
  | anyOf (parts : List Filter)
  | except (part : Filter)
deriving Repr

namespace Filter

mutual

def decEq : (f g : Filter) → Decidable (f = g)
  | empty, empty => .isTrue rfl
  | values facet matcher, values facet' matcher' =>
    decidable_of_iff (facet = facet' ∧ matcher = matcher') (by simp)
  | allOf parts, allOf parts' =>
    match decEqAll parts parts' with
    | .isTrue same => .isTrue (same ▸ rfl)
    | .isFalse other => .isFalse fun same => other (allOf.inj same)
  | anyOf parts, anyOf parts' =>
    match decEqAll parts parts' with
    | .isTrue same => .isTrue (same ▸ rfl)
    | .isFalse other => .isFalse fun same => other (anyOf.inj same)
  | except part, except part' =>
    match decEq part part' with
    | .isTrue same => .isTrue (same ▸ rfl)
    | .isFalse other => .isFalse fun same => other (except.inj same)
  | empty, values .. | empty, allOf _ | empty, anyOf _ | empty, except _
  | values .., empty | values .., allOf _ | values .., anyOf _ | values .., except _
  | allOf _, empty | allOf _, values .. | allOf _, anyOf _ | allOf _, except _
  | anyOf _, empty | anyOf _, values .. | anyOf _, allOf _ | anyOf _, except _
  | except _, empty | except _, values .. | except _, allOf _ | except _, anyOf _ =>
    .isFalse nofun

def decEqAll : (fs gs : List Filter) → Decidable (fs = gs)
  | [], [] => .isTrue rfl
  | [], _ :: _ | _ :: _, [] => .isFalse nofun
  | f :: fs, g :: gs =>
    match decEq f g, decEqAll fs gs with
    | .isTrue head, .isTrue tail => .isTrue (head ▸ tail ▸ rfl)
    | .isFalse other, _ => .isFalse fun same => other (List.cons.inj same).1
    | _, .isFalse other => .isFalse fun same => other (List.cons.inj same).2

end

instance : DecidableEq Filter := decEq

def isEmpty (f : Filter) : Bool := f = empty

def node (make : List Filter → Filter) : List Filter → Filter
  | [] => empty
  | [f] => f
  | fs => make fs

-- The empty filter absorbs an intersection and drops out of a union. Repeated
-- parts are kept once, where they first stand.
def and (fs : List Filter) : Filter :=
  if fs.any isEmpty then empty else node allOf fs.eraseDups

def or (fs : List Filter) : Filter := node anyOf (fs.filter (!·.isEmpty)).eraseDups

def not (f : Filter) : Filter := except f

mutual

-- Bound to a segment: an intersection of nothing has no documents, and a
-- complement stays within the segment.
def docs (l : LoadedFacets) : Filter → DocSet
  | empty => ∅
  | values facet matcher =>
    match l.column? facet with
    | some c => matcher.docs c
    | none => ∅
  | allOf parts => docsOfAll l parts
  | anyOf parts => docsOfAny l parts
  | except part => l.allDocs.diff (part.docs l)

def docsOfAll (l : LoadedFacets) : List Filter → DocSet
  | [] => ∅
  | [f] => f.docs l
  | f :: g :: rest => (f.docs l).inter (docsOfAll l (g :: rest))

def docsOfAny (l : LoadedFacets) : List Filter → DocSet
  | [] => ∅
  | f :: rest => (f.docs l).union (docsOfAny l rest)

end

mutual

-- The test of a single document. An intersection of nothing holds here.
def holds (l : LoadedFacets) (docno : Nat) : Filter → Bool
  | empty => false
  | values facet matcher =>
    match l.column? facet with
    | some c => (c.values docno).any fun value => matcher.accepts value
    | none => false
  | allOf parts => holdsAll l docno parts
  | anyOf parts => holdsAny l docno parts
  | except part => docno < l.docCount && !part.holds l docno

def holdsAll (l : LoadedFacets) (docno : Nat) : List Filter → Bool
  | [] => true
  | f :: rest => f.holds l docno && holdsAll l docno rest

def holdsAny (l : LoadedFacets) (docno : Nat) : List Filter → Bool
  | [] => false
  | f :: rest => f.holds l docno || holdsAny l docno rest

end

end Filter

end FacetedSearch
