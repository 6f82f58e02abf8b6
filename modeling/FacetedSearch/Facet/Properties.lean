import FacetedSearch.Text.Blank
import Std.Data.ExtTreeMap

namespace FacetedSearch

-- Options a facet carries by default and a selection may override one by one.
structure Properties where
  maxPerKey : Option Nat := none
  separator : Option String := none
deriving Repr, DecidableEq

namespace Properties

def maxPerKeyName : String := "maxFacetsPerKey"

def separatorName : String := "separator"

-- A limit that is not a number below 2^64 counts as absent; so does every name
-- that is not one of the two.
def ofMap (options : Std.ExtTreeMap String String) : Properties where
  maxPerKey := do
    let text ← options[maxPerKeyName]?
    let limit ← Text.natural? (Text.trimList text.toList)
    if limit < UInt64.size then some limit else none
  separator := options[separatorName]?

def overlaid (base overlay : Properties) : Properties where
  maxPerKey := overlay.maxPerKey <|> base.maxPerKey
  separator := overlay.separator <|> base.separator

end Properties

end FacetedSearch
