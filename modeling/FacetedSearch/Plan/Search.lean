import FacetedSearch.Plan.Compilation

namespace FacetedSearch.Source

-- Documents that match inside at least one section of the tag, or anywhere
-- without a tag. Only candidates are tested.
def search (s : Source) (sectionField : String) (plan : Plan) : Option String → DocSet
  | none => (plan.candidates.getD (.below s.documentCount)).filter fun docno =>
    plan.holds docno Interval.whole.start Interval.whole.stop
  | some tag =>
    let sections := s.sections s.sectionLookup ⟨sectionField, tag⟩
    ((plan.candidates.getD (.below s.documentCount)).inter sections.docs).filter fun docno =>
      (sections.sectionsOf docno).any fun i => plan.holds docno i.start i.stop

def searchQuery (s : Source) (sectionField : String) (q : Query) (tag : Option String) :
    Except Error DocSet :=
  (q.plan? s s.sectionLookup).map fun
    | some plan => s.search sectionField plan tag
    | none => ∅

end FacetedSearch.Source
