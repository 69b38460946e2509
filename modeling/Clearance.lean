import Clearance.Access
import Clearance.Command.Dialogue
import Clearance.Command.Flags
import Clearance.Command.Run
import Clearance.Command.World
import Clearance.Convert
import Clearance.Decimal.Binary
import Clearance.Decimal.Layout
import Clearance.Decimal.Numeral
import Clearance.Decimal.Shortest
import Clearance.Disk
import Clearance.Eval.Code
import Clearance.Eval.Expr
import Clearance.Eval.Function
import Clearance.Eval.Operators
import Clearance.Eval.Stmt
import Clearance.Flow
import Clearance.Frame
import Clearance.Heap
import Clearance.Inspect
import Clearance.Jobs.Executor
import Clearance.Jobs.Job
import Clearance.Jobs.Pool
import Clearance.Jobs.Serial
import Clearance.Json
import Clearance.Lattice
import Clearance.Lattice.Definition
import Clearance.Library.Adapt
import Clearance.Library.Array
import Clearance.Library.Global
import Clearance.Library.Install
import Clearance.Library.Name
import Clearance.Library.Number
import Clearance.Library.Object
import Clearance.Library.RegExp
import Clearance.Library.Sort
import Clearance.Library.String
import Clearance.Link
import Clearance.Machine.Action
import Clearance.Machine.Serve
import Clearance.Machine.State
import Clearance.Main
import Clearance.Object
import Clearance.Path
import Clearance.Pattern.Builder
import Clearance.Pattern.Charset
import Clearance.Pattern.Code
import Clearance.Pattern.Node
import Clearance.Pattern.Reader
import Clearance.Pattern.Search
import Clearance.Proofs.Label
import Clearance.Proofs.Run
import Clearance.Proofs.Visit
import Clearance.Script.Grammar
import Clearance.Script.Hoist
import Clearance.Script.Jumps
import Clearance.Script.Lexer
import Clearance.Script.Literal
import Clearance.Script.Outline
import Clearance.Script.Rebuild
import Clearance.Script.Regexp
import Clearance.Script.Source
import Clearance.Script.SourceMap
import Clearance.Script.Tree
import Clearance.Script.Walk
import Clearance.Session
import Clearance.Suite.Cache
import Clearance.Suite.Manifest
import Clearance.Suite.Run
import Clearance.Text.Blank
import Clearance.Text.Bytes
import Clearance.Text.Class
import Clearance.Text.Position
import Clearance.Text.Quoted
import Clearance.Text.Search
import Clearance.Text.Table.Case
import Clearance.Text.Table.Category
import Clearance.Text.Table.Script
import Clearance.Value
import Clearance.Yaml.Cursor
import Clearance.Yaml.Decode
import Clearance.Yaml.Node
import Clearance.Yaml.Number
import Clearance.Yaml.Scalar
import Clearance.Yaml.Tag
import Clearance.Yaml.Token
import Clearance.Proofs.Scripted
import Clearance.Proofs.Scripted.Access
import Clearance.Proofs.Scripted.Eval
import Clearance.Proofs.Scripted.Code
import Clearance.Proofs.Scripted.Library
import Clearance.Proofs.Scripted.Serve
import Clearance.Proofs.Violation
import Clearance.Proofs.Heap
import Clearance.Proofs.Assign
import Clearance.Proofs.Confinement
import Clearance.Proofs.Core
import Clearance.Proofs.Scene
import Clearance.Proofs.Agreement
import Clearance.Proofs.Unseen
import Clearance.Proofs.Lockstep
import Clearance.Proofs.Lockstep.Operation
import Clearance.Proofs.Lockstep.Expr
import Clearance.Proofs.Lockstep.Stmt
import Clearance.Proofs.Fresh
import Clearance.Proofs.Noninterference
import Clearance.Proofs.Moment
import Clearance.Proofs.Location
import Clearance.Proofs.Remembered
import Clearance.Proofs.Selection
import Clearance.Proofs.Sorting
import Clearance.Proofs.Mutation
import Clearance.Proofs.Reader
import Clearance.Proofs.Paired.World
import Clearance.Proofs.Paired.Heap
import Clearance.Proofs.Paired.Judgment
import Clearance.Proofs.Paired.Access
import Clearance.Proofs.Paired.Eval
import Clearance.Proofs.Paired.Code
import Clearance.Proofs.Paired.Library
import Clearance.Proofs.Paired.Serve
import Clearance.Proofs.Extent
import Clearance.Proofs.Frames
import Clearance.Proofs.Rebuild
import Clearance.Proofs.Trail
import Clearance.Proofs.Stock
import Clearance.Proofs.Paired.Keeper
import Clearance.Proofs.Paired.Sound
import Clearance.Proofs.Paired.Custody
import Clearance.Proofs.Paired.Binding
import Clearance.Proofs.Paired.Cell
import Clearance.Proofs.Paired.Aligned
import Clearance.Proofs.Paired.Regular
import Clearance.Proofs.Paired.Opening
import Clearance.Proofs.Paired.Course
import Clearance.Proofs.Bindings
import Clearance.Proofs.Chains
import Clearance.Proofs.Unlabeled
import Clearance.Proofs.Jumps
import Clearance.Proofs.Grammar
import Clearance.Proofs.Walk
import Clearance.Proofs.Parsed
import Clearance.Proofs.Intrinsic
import Clearance.Proofs.LabelCalls
import Clearance.Proofs.Placement
import Clearance.Proofs.Serial
import Clearance.Proofs.Pool
import Clearance.Proofs.Tidy
import Clearance.Proofs.Built
import Clearance.Proofs.Listable
import Clearance.Proofs.Bound
import Clearance.Proofs.Invariant
import Clearance.Proofs.Arrays
import Clearance.Proofs.Executor
import Clearance.Proofs.Suite
import Clearance.Proofs.Contract
import Clearance.Proofs.Dominance
import Clearance.Proofs.Conversion
import Clearance.Proofs.Hoist
import Clearance.Proofs.Names
import Clearance.Proofs.Sites
import Clearance.Proofs.Resolvable
import Clearance.Proofs.Unresolved
import Clearance.Proofs.Targets
import Clearance.Proofs.Double
import Clearance.Proofs.Write
import Clearance.Proofs.Index
import Clearance.Proofs.Elements
import Clearance.Proofs.Mutators
import Clearance.Proofs.Stability
import Clearance.Proofs.SortArray
import Clearance.Proofs.Mapping
import Clearance.Proofs.Listing
import Clearance.Proofs.Enumeration
import Clearance.Proofs.Equality
import Clearance.Proofs.Instance
import Clearance.Proofs.Nesting
import Clearance.Proofs.Exec
import Clearance.Proofs.Radix
import Clearance.Proofs.Splitting
import Clearance.Proofs.Constants
import Clearance.Proofs.Containment
import Clearance.Proofs.Record
import Clearance.Proofs.Insertion
import Clearance.Proofs.Passing
import Clearance.Proofs.Position
import Clearance.Proofs.Template
import Clearance.Proofs.Internal
import Clearance.Proofs.Paired.Seats
import Clearance.Proofs.Paired.Erased
import Clearance.Proofs.Erasure
