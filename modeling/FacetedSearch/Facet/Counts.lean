import FacetedSearch.Facet.Column
import FacetedSearch.Request

namespace FacetedSearch

-- Hit counts by value and the number of documents that gave any. Counts and
-- sums wrap at 32 bits; values without hits are not bound.
structure ValueCounts where
  counts : Std.ExtTreeMap String UInt32 := ∅
  total : UInt32 := 0
deriving DecidableEq

namespace ValueCounts

instance : EmptyCollection ValueCounts := ⟨{}⟩

-- Counts over documents in any order; a document listed twice counts twice.
def collect (c : Column) (docs : List Nat) : ValueCounts where
  counts := (tally (docs.flatMap c.values)).map fun _ hits => UInt32.ofNat hits
  total := UInt32.ofNat (docs.countP fun docno => !(c.ordinals docno).isEmpty)

def merge (a b : ValueCounts) : ValueCounts where
  counts := b.counts.foldl
    (fun counts value more => counts.alter value fun hits => some (hits.getD 0 + more)) a.counts
  total := a.total + b.total

def get (a : ValueCounts) (value : String) : UInt32 := a.counts.getD value 0

end ValueCounts

-- What a keyed facet adds to counting: entries share the text before the
-- separator as their key, a key may be limited, and some keys may be asked for.
structure CountOptions where
  maxPerKey : Option Nat := none
  separator : Option String := none
  keys : Option (List String) := none
deriving Repr, DecidableEq

namespace CountOptions

def keyOf (o : CountOptions) (value : String) : String :=
  match o.separator with
  | some separator => Text.keyOf separator value
  | none => value

def asksFor (o : CountOptions) (value : String) : Bool :=
  match o.keys with
  | some keys => keys.contains (o.keyOf value)
  | none => true

-- An entry stays while fewer than the limit of entries before it have its key,
-- whether or not those stayed.
def limitKeys (o : CountOptions) (limit : Nat) (seen : List String) : List Entry → List Entry
  | [] => []
  | e :: rest =>
    let key := o.keyOf e.value
    if seen.count key < limit then e :: o.limitKeys limit (key :: seen) rest
    else o.limitKeys limit (key :: seen) rest

end CountOptions

namespace EntryOrder

def compare : EntryOrder → Entry → Entry → Ordering
  | byValue, a, b => Ord.compare a.value b.value
  | byHits, a, b => (Ord.compare b.hits a.hits).then (Ord.compare a.value b.value)
  | custom preferred, a, b => (preferred a b).then (Ord.compare a.value b.value)

def sort (order : EntryOrder) (entries : List Entry) : List Entry :=
  entries.mergeSort fun a b => (order.compare a b).isLE

end EntryOrder

namespace CountSpec

def finish (spec : CountSpec) (o : CountOptions) (counted : ValueCounts) : FacetAnswer :=
  let kept := counted.counts.toList.filterMap fun (value, hits) =>
    if spec.minHits ≤ hits && o.asksFor value then some (Entry.mk value hits) else none
  let ordered := spec.order.sort kept
  let limited := match o.maxPerKey with
    | some limit => o.limitKeys limit [] ordered
    | none => ordered
  { entries := if spec.limit = 0 then limited else limited.take spec.limit
    total := counted.total }

end CountSpec

end FacetedSearch
