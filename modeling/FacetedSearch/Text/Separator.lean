namespace FacetedSearch.Text

-- The text before and after the first occurrence of a separator. The empty
-- separator occurs at the very start.
def cutList (separator : List Char) : List Char → Option (List Char × List Char)
  | [] => if separator.isEmpty then some ([], []) else none
  | c :: rest =>
    if separator.isPrefixOf (c :: rest) then some ([], (c :: rest).drop separator.length)
    else (cutList separator rest).map fun parts => (c :: parts.1, parts.2)

def cut? (separator text : String) : Option (String × String) :=
  (cutList separator.toList text.toList).map fun parts =>
    (String.ofList parts.1, String.ofList parts.2)

def pair? (separator text : String) : Option (String × String) :=
  match cut? separator text with
  | some (key, value) => if key.isEmpty || value.isEmpty then none else some (key, value)
  | none => none

def keyOf (separator text : String) : String :=
  match cut? separator text with
  | some (key, _) => key
  | none => text

def startsWith (start text : String) : Bool := start.toList.isPrefixOf text.toList

end FacetedSearch.Text
