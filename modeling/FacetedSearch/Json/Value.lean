namespace FacetedSearch

-- JSON as a tree. Numbers without sign, fraction and exponent are naturals of
-- any size; every other number keeps its text, for nothing here reads one.
inductive Json where
  | null
  | bool (b : Bool)
  | nat (n : Nat)
  | number (text : String)
  | str (s : String)
  | arr (items : List Json)
  | obj (fields : List (String × Json))
deriving Repr, Inhabited

namespace Json

def str? : Json → Option String
  | str s => some s
  | _ => none

def bool? : Json → Option Bool
  | bool b => some b
  | _ => none

def natBelow? (bound : Nat) : Json → Option Nat
  | nat n => if n < bound then some n else none
  | _ => none

def word32? (j : Json) : Option UInt32 := (j.natBelow? UInt32.size).map UInt32.ofNat

def word64? (j : Json) : Option UInt64 := (j.natBelow? UInt64.size).map UInt64.ofNat

def list? {α : Type} (read : Json → Option α) : Json → Option (List α)
  | arr items => items.mapM read
  | _ => none

def optional? {α : Type} (read : Json → Option α) : Json → Option (Option α)
  | null => some none
  | j => (read j).map some

def entries? {α : Type} (read : Json → Option α) : Json → Option (List (String × α))
  | obj fields => fields.mapM fun (name, value) => (read value).map fun a => (name, a)
  | _ => none

def ofList {α : Type} (write : α → Json) (items : List α) : Json := arr (items.map write)

def ofOption {α : Type} (write : α → Json) : Option α → Json
  | some a => write a
  | none => null

def ofWord32 (w : UInt32) : Json := nat w.toNat

def ofWord64 (w : UInt64) : Json := nat w.toNat

-- A record is written with its field names. It may also be read from the bare
-- list of its fields in order, where trailing ones can be missing.
def record? (names : List String) : Json → Option (List (Option Json))
  | obj fields => some (names.map fun name => fields.lookup name)
  | arr items =>
    if items.length ≤ names.length then
      some (items.map some ++ List.replicate (names.length - items.length) none)
    else none
  | _ => none

def required {α : Type} (read : Json → Option α) (field : Option Json) : Option α := field.bind read

def defaulted {α : Type} (read : Json → Option α) (default : α) : Option Json → Option α
  | some j => read j
  | none => some default

-- A tagged value: a bare name, or a name with what it is about.
def choice? : Json → Option (String × Option Json)
  | str name => some (name, none)
  | obj [(name, value)] => some (name, some value)
  | _ => none

-- A name that stands for itself may also be written as a tag of null.
def name? (j : Json) : Option String :=
  match j.choice? with
  | some (name, none) => some name
  | some (name, some null) => some name
  | _ => none

end Json

end FacetedSearch
