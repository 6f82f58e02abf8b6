import FacetedSearch.Json.Value

namespace FacetedSearch.Json

def digitValue (c : Char) : Nat := c.toNat - '0'.toNat

def digitsValue (ds : List Char) : Nat := ds.foldl (fun n c => n * 10 + digitValue c) 0

def digitRun (cs : List Char) : List Char × List Char := (cs.takeWhile Char.isDigit, cs.dropWhile Char.isDigit)

-- The first digits of a numeral, as far as their number fills a 64-bit word,
-- and how many they are.
def leading (taken : Nat) : List Char → Nat × Nat
  | [] => (taken, 0)
  | d :: ds =>
    let longer := taken * 10 + digitValue d
    if longer < UInt64.size then
      let (value, count) := leading longer ds
      (value, count + 1)
    else (taken, 0)

-- The nearest number of 53 binary digits; a half goes to the even neighbour.
def roundTo53 (n : Nat) : Nat :=
  let unit := Nat.pow 2 (n.log2 - 52)
  let below := n / unit
  let rest := 2 * (n % unit)
  if rest < unit || (rest = unit && below % 2 = 0) then below * unit else (below + 1) * unit

-- A significand and a power of ten, both rounded, must have a product that does
-- not round to infinity. Negative powers only shrink the significand.
def isFinite (significand : Nat) (exponent : Int) : Bool :=
  significand = 0 || exponent < 0 ||
    (exponent ≤ 308 && roundTo53 significand * roundTo53 (Nat.pow 10 exponent.toNat) < Nat.pow 2 1024 - Nat.pow 2 970)

-- Digits that are not among the leading ones count as places only.
def inRange (whole fraction : List Char) (exponent : Int) : Bool :=
  let (significand, wholeCount) := leading 0 whole
  let (significand, fractionCount) := leading significand fraction
  isFinite significand ((whole.length - wholeCount : Nat) - fractionCount + exponent)

def fraction? : List Char → Option (List Char × List Char)
  | '.' :: rest =>
    let (digits, rest) := digitRun rest
    if digits.isEmpty then none else some (digits, rest)
  | cs => some ([], cs)

def exponentSign : List Char → List Char × List Char
  | '+' :: rest => (['+'], rest)
  | '-' :: rest => (['-'], rest)
  | cs => ([], cs)

-- The exponent as it is written and its value; its mark needs digits after it.
def exponent? : List Char → Option ((List Char × Int) × List Char)
  | mark :: rest =>
    if mark = 'e' || mark = 'E' then
      let (sign, rest) := exponentSign rest
      let (digits, rest) := digitRun rest
      let size : Int := digitsValue digits
      if digits.isEmpty then none
      else some ((mark :: sign ++ digits, if sign = ['-'] then -size else size), rest)
    else some (([], 0), mark :: rest)
  | [] => some (([], 0), [])

-- No leading zeros, no sign but a minus, and nothing that a double cannot hold.
def numeral? (cs : List Char) : Option (Json × List Char) := do
  let (sign, body) := match cs with
    | '-' :: rest => (['-'], rest)
    | _ => ([], cs)
  let (whole, rest) := digitRun body
  guard (!whole.isEmpty && (whole.head? ≠ some '0' || whole.length = 1))
  let (fraction, rest) ← fraction? rest
  let ((written, exponent), rest) ← exponent? rest
  guard (inRange whole fraction exponent)
  if sign.isEmpty && fraction.isEmpty && written.isEmpty then return (nat (digitsValue whole), rest)
  let point := if fraction.isEmpty then [] else ['.']
  return (number (String.ofList (sign ++ whole ++ point ++ fraction ++ written)), rest)

end FacetedSearch.Json
