import FacetedSearch.Browse.Browser
import FacetedSearch.Browse.Catalog
import FacetedSearch.Browse.Selected
import FacetedSearch.Error
import FacetedSearch.Facet.Basic
import FacetedSearch.Facet.Column
import FacetedSearch.Facet.Counts
import FacetedSearch.Facet.Loaded
import FacetedSearch.Facet.Properties
import FacetedSearch.Facet.Registry
import FacetedSearch.Facet.Selector
import FacetedSearch.Facet.Values
import FacetedSearch.Filter
import FacetedSearch.Index.Section
import FacetedSearch.Index.Segment
import FacetedSearch.Index.Source
import FacetedSearch.Index.Term
import FacetedSearch.Json.Answer
import FacetedSearch.Json.Numeral
import FacetedSearch.Json.Query
import FacetedSearch.Json.Request
import FacetedSearch.Json.Text
import FacetedSearch.Json.Value
import FacetedSearch.Plan.Basic
import FacetedSearch.Plan.Compilation
import FacetedSearch.Plan.Search
import FacetedSearch.Proofs.Browse.Answerable
import FacetedSearch.Proofs.Browse.Catalog
import FacetedSearch.Proofs.Browse.Counted
import FacetedSearch.Proofs.Browse.Cutting
import FacetedSearch.Proofs.Browse.Drilling
import FacetedSearch.Proofs.Browse.Expanded
import FacetedSearch.Proofs.Browse.Faults
import FacetedSearch.Proofs.Browse.History
import FacetedSearch.Proofs.Browse.Hits
import FacetedSearch.Proofs.Browse.Numbering
import FacetedSearch.Proofs.Browse.Order
import FacetedSearch.Proofs.Browse.Reordered
import FacetedSearch.Proofs.Browse.Runs
import FacetedSearch.Proofs.Browse.Segments
import FacetedSearch.Proofs.Browse.Selected
import FacetedSearch.Proofs.Browse.Wrapped
import FacetedSearch.Proofs.Facet.Calls
import FacetedSearch.Proofs.Facet.Column
import FacetedSearch.Proofs.Facet.Counting
import FacetedSearch.Proofs.Facet.Counts
import FacetedSearch.Proofs.Facet.Declared
import FacetedSearch.Proofs.Facet.Dictionary
import FacetedSearch.Proofs.Facet.Finish
import FacetedSearch.Proofs.Facet.Keys
import FacetedSearch.Proofs.Facet.Loaded
import FacetedSearch.Proofs.Facet.Ranking
import FacetedSearch.Proofs.Facet.SelectedDocs
import FacetedSearch.Proofs.Facet.Selector
import FacetedSearch.Proofs.Facet.Shown
import FacetedSearch.Proofs.Facet.Sums
import FacetedSearch.Proofs.Filter
import FacetedSearch.Proofs.Filter.Agreement
import FacetedSearch.Proofs.Filter.NormalForm
import FacetedSearch.Proofs.Index.Built
import FacetedSearch.Proofs.Index.Intervals
import FacetedSearch.Proofs.Index.Postings
import FacetedSearch.Proofs.Index.Sections
import FacetedSearch.Proofs.Json.Answer
import FacetedSearch.Proofs.Json.Query
import FacetedSearch.Proofs.Json.Request
import FacetedSearch.Proofs.Json.Value
import FacetedSearch.Proofs.Outcome
import FacetedSearch.Proofs.Plan.Alike
import FacetedSearch.Proofs.Plan.Candidates
import FacetedSearch.Proofs.Plan.Leaves
import FacetedSearch.Proofs.Plan.Meaning
import FacetedSearch.Proofs.Plan.Phrases
import FacetedSearch.Proofs.Plan.Prepared
import FacetedSearch.Proofs.Plan.Rearranged
import FacetedSearch.Proofs.Plan.Scoped
import FacetedSearch.Proofs.Plan.Search
import FacetedSearch.Proofs.Plan.Shape
import FacetedSearch.Proofs.Plan.Trees
import FacetedSearch.Proofs.Plan.Visited
import FacetedSearch.Proofs.Sorted.Bindings
import FacetedSearch.Proofs.Text.Separator
import FacetedSearch.Query
import FacetedSearch.Request
import FacetedSearch.Sorted.Group
import FacetedSearch.Sorted.Search
import FacetedSearch.Sorted.Set
import FacetedSearch.Text.Blank
import FacetedSearch.Text.Separator
