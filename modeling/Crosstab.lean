import Crosstab.Evaluation.Logged
import Crosstab.Formula.Counting
import Crosstab.Formula.Scanner
import Crosstab.Main
import Crosstab.Proofs.Aggregation
import Crosstab.Proofs.Binary64.Finite
import Crosstab.Proofs.Binary64.Order
import Crosstab.Proofs.Binary64.Packing
import Crosstab.Proofs.Binary64.Rounding
import Crosstab.Proofs.Binary64.Sums
import Crosstab.Proofs.Binary64.Value
import Crosstab.Proofs.Binary64.Zeros
import Crosstab.Proofs.Calendar.Date
import Crosstab.Proofs.Calendar.Reader
import Crosstab.Proofs.Comparison
import Crosstab.Proofs.Evaluation.Arguments
import Crosstab.Proofs.Evaluation.Closure
import Crosstab.Proofs.Evaluation.Dependence
import Crosstab.Proofs.Evaluation.Depth
import Crosstab.Proofs.Evaluation.Finite
import Crosstab.Proofs.Evaluation.Inlining
import Crosstab.Proofs.Evaluation.Logged
import Crosstab.Proofs.Evaluation.Matching
import Crosstab.Proofs.Evaluation.NestedCalls
import Crosstab.Proofs.Evaluation.Singleton
import Crosstab.Proofs.Field.Catalog
import Crosstab.Proofs.Field.Changes
import Crosstab.Proofs.Field.Circles
import Crosstab.Proofs.Field.Names
import Crosstab.Proofs.Formula.Brackets
import Crosstab.Proofs.Formula.Completeness
import Crosstab.Proofs.Formula.Counting
import Crosstab.Proofs.Formula.Grammar
import Crosstab.Proofs.Formula.Height
import Crosstab.Proofs.Formula.Literals
import Crosstab.Proofs.Formula.Names
import Crosstab.Proofs.Formula.Nesting
import Crosstab.Proofs.Formula.Positions
import Crosstab.Proofs.Formula.Reading
import Crosstab.Proofs.Formula.Scanner
import Crosstab.Proofs.Formula.Soundness
import Crosstab.Proofs.Formula.Spans
import Crosstab.Proofs.Formula.Spelling
import Crosstab.Proofs.Formula.Written
import Crosstab.Proofs.Pivot.Cells
import Crosstab.Proofs.Pivot.Display
import Crosstab.Proofs.Pivot.DistinctCounts
import Crosstab.Proofs.Pivot.DrillDown
import Crosstab.Proofs.Pivot.Faults
import Crosstab.Proofs.Pivot.FilterGroups
import Crosstab.Proofs.Pivot.FilterOrder
import Crosstab.Proofs.Pivot.FilterRanges
import Crosstab.Proofs.Pivot.Groups
import Crosstab.Proofs.Pivot.Independence
import Crosstab.Proofs.Pivot.Labels
import Crosstab.Proofs.Pivot.Lines
import Crosstab.Proofs.Pivot.References
import Crosstab.Proofs.Pivot.Reordering
import Crosstab.Proofs.Pivot.RowTree
import Crosstab.Proofs.Pivot.Sifting
import Crosstab.Proofs.Pivot.Summaries
import Crosstab.Proofs.Pivot.Totals
import Crosstab.Proofs.Pivot.Tree
import Crosstab.Proofs.Record.DateKeys
import Crosstab.Proofs.Record.Views
import Crosstab.Proofs.Session.Acceptance
import Crosstab.Proofs.Session.Commands
import Crosstab.Proofs.Session.Layout
import Crosstab.Proofs.Session.Names
import Crosstab.Proofs.Session.Related
import Crosstab.Proofs.Session.Runs
import Crosstab.Proofs.Text
