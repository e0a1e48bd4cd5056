import ColumnPlan.Calendar
import ColumnPlan.Compile.Chain
import ColumnPlan.Compile.Context
import ColumnPlan.Compile.Leaf
import ColumnPlan.Compile.Tree
import ColumnPlan.Dictionary
import ColumnPlan.Error
import ColumnPlan.Function.Basic
import ColumnPlan.Function.Registry
import ColumnPlan.Join.Execute
import ColumnPlan.Join.Keys
import ColumnPlan.Join.Natural
import ColumnPlan.Join.Options
import ColumnPlan.Join.Plan
import ColumnPlan.Join.Projection
import ColumnPlan.Logical.Basic
import ColumnPlan.Logical.Fold
import ColumnPlan.Logical.Normalize
import ColumnPlan.Logical.Operator
import ColumnPlan.Logical.Text
import ColumnPlan.Number.Dyadic
import ColumnPlan.Number.Shortest
import ColumnPlan.Pattern.CharSet
import ColumnPlan.Pattern.Like
import ColumnPlan.Pattern.Matcher
import ColumnPlan.Pattern.Parser
import ColumnPlan.Pattern.Regex
import ColumnPlan.Pattern.Syntax
import ColumnPlan.Physical.Basic
import ColumnPlan.Physical.Connective
import ColumnPlan.Physical.Eval
import ColumnPlan.Physical.Fields
import ColumnPlan.Physical.Text
import ColumnPlan.Proofs.Calendar
import ColumnPlan.Proofs.Compile.Built
import ColumnPlan.Proofs.Compile.Cases
import ColumnPlan.Proofs.Compile.Chain
import ColumnPlan.Proofs.Compile.Coincide
import ColumnPlan.Proofs.Compile.Composite
import ColumnPlan.Proofs.Compile.Ensures
import ColumnPlan.Proofs.Compile.Filter
import ColumnPlan.Proofs.Compile.Label
import ColumnPlan.Proofs.Compile.Leaves
import ColumnPlan.Proofs.Compile.Named
import ColumnPlan.Proofs.Compile.Nameless
import ColumnPlan.Proofs.Compile.Outcome
import ColumnPlan.Proofs.Compile.Parallel
import ColumnPlan.Proofs.Compile.Parts
import ColumnPlan.Proofs.Compile.Refusal
import ColumnPlan.Proofs.Compile.Reordered
import ColumnPlan.Proofs.Compile.Spread
import ColumnPlan.Proofs.Compile.Success
import ColumnPlan.Proofs.Compile.Sum
import ColumnPlan.Proofs.Compile.Unfolded
import ColumnPlan.Proofs.Dictionary
import ColumnPlan.Proofs.Fallible
import ColumnPlan.Proofs.Function.Extract
import ColumnPlan.Proofs.Join.Candidates
import ColumnPlan.Proofs.Join.Equations
import ColumnPlan.Proofs.Join.Extraction
import ColumnPlan.Proofs.Join.Hash
import ColumnPlan.Proofs.Join.Keys
import ColumnPlan.Proofs.Join.Natural
import ColumnPlan.Proofs.Join.NestedLoop
import ColumnPlan.Proofs.Join.Normal
import ColumnPlan.Proofs.Join.Order
import ColumnPlan.Proofs.Join.Outputs
import ColumnPlan.Proofs.Join.Placed
import ColumnPlan.Proofs.Join.Plan
import ColumnPlan.Proofs.Join.Refusal
import ColumnPlan.Proofs.Join.Safe
import ColumnPlan.Proofs.Join.Sides
import ColumnPlan.Proofs.Join.Unmatched
import ColumnPlan.Proofs.Logical.Fold
import ColumnPlan.Proofs.Logical.Joints
import ColumnPlan.Proofs.Logical.Leaves
import ColumnPlan.Proofs.Logical.Legible
import ColumnPlan.Proofs.Logical.Lexical
import ColumnPlan.Proofs.Logical.Meaning
import ColumnPlan.Proofs.Logical.Negations
import ColumnPlan.Proofs.Logical.Normalize
import ColumnPlan.Proofs.Logical.Pieces
import ColumnPlan.Proofs.Logical.Postorder
import ColumnPlan.Proofs.Logical.Preorder
import ColumnPlan.Proofs.Logical.Reading
import ColumnPlan.Proofs.Logical.Reorder
import ColumnPlan.Proofs.Logical.Truth
import ColumnPlan.Proofs.Number.Exact
import ColumnPlan.Proofs.Number.Parts
import ColumnPlan.Proofs.Pattern.Advance
import ColumnPlan.Proofs.Pattern.Characters
import ColumnPlan.Proofs.Pattern.Classes
import ColumnPlan.Proofs.Pattern.Closing
import ColumnPlan.Proofs.Pattern.Groups
import ColumnPlan.Proofs.Pattern.Items
import ColumnPlan.Proofs.Pattern.Matcher
import ColumnPlan.Proofs.Pattern.Whole
import ColumnPlan.Proofs.Physical.Arithmetic
import ColumnPlan.Proofs.Physical.Comparison
import ColumnPlan.Proofs.Physical.Connective
import ColumnPlan.Proofs.Physical.Fields
import ColumnPlan.Proofs.Physical.Holds
import ColumnPlan.Proofs.Physical.Normal
import ColumnPlan.Proofs.Physical.Overflow
import ColumnPlan.Proofs.Physical.Parts
import ColumnPlan.Proofs.Physical.Safe
import ColumnPlan.Proofs.Physical.Timestamp
import ColumnPlan.Proofs.Physical.Unfolded
import ColumnPlan.Proofs.Schema.Batch
import ColumnPlan.Proofs.Schema.Glob
import ColumnPlan.Proofs.Schema.Matching
import ColumnPlan.Proofs.Schema.Merge
import ColumnPlan.Proofs.Schema.Natural
import ColumnPlan.Proofs.Schema.Resolve
import ColumnPlan.Proofs.Schema.Wildcard
import ColumnPlan.Proofs.Session
import ColumnPlan.Proofs.Text.Utf8
import ColumnPlan.Proofs.Value.Equal
import ColumnPlan.Proofs.Value.Hash
import ColumnPlan.Schema.Basic
import ColumnPlan.Schema.Batch
import ColumnPlan.Schema.DataType
import ColumnPlan.Schema.Glob
import ColumnPlan.Schema.Resolve
import ColumnPlan.Session
import ColumnPlan.Text.Unicode.Binary
import ColumnPlan.Text.Unicode.CaseFold
import ColumnPlan.Text.Unicode.Category
import ColumnPlan.Text.Unicode.Property
import ColumnPlan.Text.Unicode.Script
import ColumnPlan.Text.Utf8
import ColumnPlan.Value.Basic
import ColumnPlan.Value.Digest
import ColumnPlan.Value.Hash
import ColumnPlan.Value.Order
