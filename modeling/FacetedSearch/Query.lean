import FacetedSearch.Index.Term

namespace FacetedSearch

inductive Occur where
  | must
  | mustNot
  | should
deriving Repr, DecidableEq

-- A term and its place within a phrase. Gaps and repeats are allowed.
structure PhraseWord where
  term : Term
  position : Position
deriving Repr, DecidableEq

-- A query tree. Only terms, phrases, tags and boolean combinations can be
-- evaluated inside a section; requests may carry the other kinds all the same.
inductive Query where
  | term (t : Term)
  | phrase (words : List PhraseWord)
  | boolean (clauses : List (Occur × Query))
  | tag (t : Term)
  | beginning (t : Term)
  | wildcard (t : Term)
  | fuzzy (t : Term) (maxEdits : UInt32)
  | range (field : String) (lower upper : Option String)
  | everything
deriving Repr

namespace Query

def kind : Query → String
  | term _ => "term"
  | phrase _ => "phrase"
  | boolean _ => "boolean"
  | tag _ => "metadata"
  | beginning _ => "prefix"
  | wildcard _ => "wildcard"
  | fuzzy _ _ => "fuzzy"
  | range _ _ _ => "range"
  | everything => "match_all"

def adjacent (field : String) (texts : List String) : Query :=
  .phrase (texts.zipIdx.map fun text => ⟨⟨field, text.1⟩, UInt32.ofNat text.2⟩)

end Query

end FacetedSearch
