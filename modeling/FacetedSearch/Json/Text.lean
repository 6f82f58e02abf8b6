import FacetedSearch.Json.Numeral

namespace FacetedSearch.Json

def isSpace (c : Char) : Bool := c = ' ' || c = '\t' || c = '\n' || c = '\x0d'

def skipSpace (cs : List Char) : List Char := cs.dropWhile isSpace

def hexDigit? (c : Char) : Option Nat :=
  if c.isDigit then some (c.toNat - '0'.toNat)
  else if 'a' ≤ c ∧ c ≤ 'f' then some (c.toNat - 'a'.toNat + 10)
  else if 'A' ≤ c ∧ c ≤ 'F' then some (c.toNat - 'A'.toNat + 10)
  else none

def hexUnit? (a b c d : Char) : Option Nat := do
  return (((← hexDigit? a) * 16 + (← hexDigit? b)) * 16 + (← hexDigit? c)) * 16 + (← hexDigit? d)

def isHighUnit (n : Nat) : Bool := 0xD800 ≤ n && n < 0xDC00

def isLowUnit (n : Nat) : Bool := 0xDC00 ≤ n && n < 0xE000

def escaped? : Char → Option Char
  | '"' => some '"'
  | '\\' => some '\\'
  | '/' => some '/'
  | 'b' => some '\x08'
  | 'f' => some '\x0c'
  | 'n' => some '\n'
  | 'r' => some '\x0d'
  | 't' => some '\t'
  | _ => none

-- One escaped unit after the characters read so far and a high surrogate half
-- that waits for its partner. Halves count as a pair only.
def addUnit (done : List Char) (waiting : Option Nat) (unit : Nat) : Option (List Char × Option Nat) :=
  match waiting with
  | some high =>
    if isLowUnit unit then
      some (Char.ofNat (0x10000 + (high - 0xD800) * 0x400 + (unit - 0xDC00)) :: done, none)
    else none
  | none =>
    if isHighUnit unit then some (done, some unit)
    else if isLowUnit unit then none
    else some (Char.ofNat unit :: done, none)

-- The rest of a string after its opening quote. Control characters must be
-- escaped.
def stringRest (done : List Char) (waiting : Option Nat) : List Char → Option (String × List Char)
  | '\\' :: 'u' :: a :: b :: c :: d :: rest =>
    match (hexUnit? a b c d).bind (addUnit done waiting) with
    | some (done, waiting) => stringRest done waiting rest
    | none => none
  | '\\' :: c :: rest =>
    match waiting, escaped? c with
    | none, some e => stringRest (e :: done) none rest
    | _, _ => none
  | c :: rest =>
    if waiting.isSome then none
    else if c = '"' then some (String.ofList done.reverse, rest)
    else if c.val < 0x20 then none
    else stringRest (c :: done) none rest
  | [] => none

-- The last of several fields of one name counts.
def setField (name : String) (value : Json) : List (String × Json) → List (String × Json)
  | [] => [(name, value)]
  | (other, old) :: rest =>
    if other = name then (name, value) :: rest else (other, old) :: setField name value rest

mutual

-- Every call reads a character or hands over to a call that does, so twice the
-- length of the text is fuel enough.
def readValue : Nat → List Char → Option (Json × List Char)
  | 0, _ => none
  | fuel + 1, cs =>
    match skipSpace cs with
    | '"' :: rest => (stringRest [] none rest).map fun (s, rest) => (str s, rest)
    | '[' :: rest =>
      match skipSpace rest with
      | ']' :: rest => some (arr [], rest)
      | rest => readItems fuel [] rest
    | '{' :: rest =>
      match skipSpace rest with
      | '}' :: rest => some (obj [], rest)
      | rest => readFields fuel [] rest
    | 't' :: 'r' :: 'u' :: 'e' :: rest => some (bool true, rest)
    | 'f' :: 'a' :: 'l' :: 's' :: 'e' :: rest => some (bool false, rest)
    | 'n' :: 'u' :: 'l' :: 'l' :: rest => some (null, rest)
    | rest => numeral? rest

def readItems : Nat → List Json → List Char → Option (Json × List Char)
  | 0, _, _ => none
  | fuel + 1, done, cs =>
    match readValue fuel cs with
    | none => none
    | some (item, rest) =>
      match skipSpace rest with
      | ',' :: rest => readItems fuel (item :: done) rest
      | ']' :: rest => some (arr (item :: done).reverse, rest)
      | _ => none

def readFields : Nat → List (String × Json) → List Char → Option (Json × List Char)
  | 0, _, _ => none
  | fuel + 1, done, cs =>
    match skipSpace cs with
    | '"' :: rest =>
      match stringRest [] none rest with
      | none => none
      | some (name, rest) =>
        match skipSpace rest with
        | ':' :: rest =>
          match readValue fuel rest with
          | none => none
          | some (value, rest) =>
            match skipSpace rest with
            | ',' :: rest => readFields fuel (setField name value done) rest
            | '}' :: rest => some (obj (setField name value done), rest)
            | _ => none
        | _ => none
    | _ => none

end

def parse (text : String) : Option Json :=
  match readValue (2 * text.length + 2) text.toList with
  | some (value, rest) => if (skipSpace rest).isEmpty then some value else none
  | none => none

def hexDigits (n : Nat) : List Char := [Nat.digitChar (n / 16), Nat.digitChar (n % 16)]

def escapeChar (c : Char) : List Char :=
  if c = '"' then ['\\', '"']
  else if c = '\\' then ['\\', '\\']
  else if c.val < 0x20 then ['\\', 'u', '0', '0'] ++ hexDigits c.toNat
  else [c]

def quoted (s : String) : String :=
  "\"" ++ String.ofList (s.toList.flatMap escapeChar) ++ "\""

mutual

def render : Json → String
  | null => "null"
  | bool b => if b then "true" else "false"
  | nat n => toString n
  | number text => text
  | str s => quoted s
  | arr items => "[" ++ ",".intercalate (renderItems [] items) ++ "]"
  | obj fields => "\x7b" ++ ",".intercalate (renderFields [] fields) ++ "\x7d"

def renderItems (done : List String) : List Json → List String
  | [] => done.reverse
  | item :: rest => renderItems (render item :: done) rest

def renderFields (done : List String) : List (String × Json) → List String
  | [] => done.reverse
  | (name, value) :: rest => renderFields ((quoted name ++ ":" ++ render value) :: done) rest

end

end FacetedSearch.Json
