namespace FacetedSearch.Text

-- The White_Space property of Unicode: 25 characters. Core's own test knows
-- only the ASCII ones.
def isBlank (c : Char) : Bool :=
  (0x09 ≤ c.val && c.val ≤ 0x0D) || c.val == 0x20 || c.val == 0x85 || c.val == 0xA0 ||
    c.val == 0x1680 || (0x2000 ≤ c.val && c.val ≤ 0x200A) || c.val == 0x2028 || c.val == 0x2029 ||
    c.val == 0x202F || c.val == 0x205F || c.val == 0x3000

def addWord (word : List Char) (words : List (List Char)) : List (List Char) :=
  if word.isEmpty then words else word :: words

-- Words are the maximal runs of characters that are not blank. Read from the
-- end, the word begun so far stands before those that are complete.
def wordList (cs : List Char) : List (List Char) :=
  let read := cs.foldr (fun c (word, words) =>
    if isBlank c then ([], addWord word words) else (c :: word, words)) ([], [])
  addWord read.1 read.2

def words (text : String) : List String := (wordList text.toList).map String.ofList

def trimList (cs : List Char) : List Char :=
  ((cs.dropWhile isBlank).reverse.dropWhile isBlank).reverse

-- An optional plus sign and at least one ASCII digit; no bound here.
def natural? (cs : List Char) : Option Nat :=
  let digits := match cs with
    | '+' :: rest => rest
    | _ => cs
  if !digits.isEmpty && digits.all Char.isDigit then
    some (digits.foldl (fun n c => n * 10 + (c.toNat - '0'.toNat)) 0)
  else none

end FacetedSearch.Text
