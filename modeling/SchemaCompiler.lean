import SchemaCompiler.Assertion
import SchemaCompiler.Check
import SchemaCompiler.Compile.Code
import SchemaCompiler.Compile.Schema
import SchemaCompiler.Context
import SchemaCompiler.Description
import SchemaCompiler.Explanation
import SchemaCompiler.Json
import SchemaCompiler.KeySet
import SchemaCompiler.Literal
import SchemaCompiler.Method
import SchemaCompiler.Number.Basic
import SchemaCompiler.Number.Rounding
import SchemaCompiler.Number.Shortest
import SchemaCompiler.Number.Text
import SchemaCompiler.Path
import SchemaCompiler.Pattern.Automaton
import SchemaCompiler.Pattern.Basic
import SchemaCompiler.Pattern.Class
import SchemaCompiler.Pattern.Compiler
import SchemaCompiler.Pattern.Escape
import SchemaCompiler.Pattern.Flags
import SchemaCompiler.Pattern.Reader
import SchemaCompiler.Pattern.Size
import SchemaCompiler.Pattern.Token
import SchemaCompiler.Predicate
import SchemaCompiler.Program.Basic
import SchemaCompiler.Program.Run
import SchemaCompiler.Recipe.Basic
import SchemaCompiler.Recipe.Build
import SchemaCompiler.Record
import SchemaCompiler.Report
import SchemaCompiler.Schema.Basic
import SchemaCompiler.Schema.Descriptor
import SchemaCompiler.Schema.Kind
import SchemaCompiler.Schema.Label
import SchemaCompiler.Settings
import SchemaCompiler.Slot.Content
import SchemaCompiler.Slot.Key
import SchemaCompiler.Slot.Supply
import SchemaCompiler.Slot.Table
import SchemaCompiler.Statement.Basic
import SchemaCompiler.Statement.Layout
import SchemaCompiler.Statement.Run
import SchemaCompiler.Subject
import SchemaCompiler.Text.Accessor
import SchemaCompiler.Text.CaseFold
import SchemaCompiler.Text.CharSet
import SchemaCompiler.Text.Escapable
import SchemaCompiler.Text.Escaped
import SchemaCompiler.Text.Layout
import SchemaCompiler.Text.Letter
import SchemaCompiler.Text.Lines
import SchemaCompiler.Text.Quoted
import SchemaCompiler.Text.Utf8
import SchemaCompiler.Text.WordChar
import SchemaCompiler.Validator
import SchemaCompiler.Value.Basic
import SchemaCompiler.Value.Json
import SchemaCompiler.Value.Text
import SchemaCompiler.Proofs.Value.Parts
import SchemaCompiler.Proofs.Compile.Emission
import SchemaCompiler.Proofs.Compile.Following
import SchemaCompiler.Proofs.Schema.Meaning
import SchemaCompiler.Proofs.Run.Ready
import SchemaCompiler.Proofs.Run.Realizes
import SchemaCompiler.Proofs.Run.Guards
import SchemaCompiler.Proofs.Compile.Correct
import SchemaCompiler.Proofs.Validator.Validity
import SchemaCompiler.Proofs.Schema.Reason
import SchemaCompiler.Proofs.Validator.Reasons
import SchemaCompiler.Proofs.Schema.Pointing
import SchemaCompiler.Proofs.Validator.Pointing
import SchemaCompiler.Proofs.Run.Record
import SchemaCompiler.Proofs.Run.Tidy
import SchemaCompiler.Proofs.Compile.Tidiness
import SchemaCompiler.Proofs.Validator.Silence
import SchemaCompiler.Proofs.Compile.Supply
import SchemaCompiler.Proofs.Recipe.Making
import SchemaCompiler.Proofs.Validator.Reuse
import SchemaCompiler.Proofs.Schema.Judging
import SchemaCompiler.Proofs.Run.Reading
import SchemaCompiler.Proofs.Run.Enacts
import SchemaCompiler.Proofs.Run.Functions
import SchemaCompiler.Proofs.Run.Rounds
import SchemaCompiler.Proofs.Run.Trials
import SchemaCompiler.Proofs.Run.Programs
import SchemaCompiler.Proofs.Compile.Enacting
import SchemaCompiler.Proofs.Compile.Mistakes
import SchemaCompiler.Proofs.Validator.Alternatives
import SchemaCompiler.Proofs.Compile.Registration
import SchemaCompiler.Proofs.Schema.Alike
import SchemaCompiler.Proofs.Recipe.Correspondence
import SchemaCompiler.Proofs.Recipe.Agreement
import SchemaCompiler.Proofs.Compile.Rules
import SchemaCompiler.Proofs.Compile.Calls
import SchemaCompiler.Proofs.Compile.Purity
import SchemaCompiler.Proofs.Compile.Ledger
import SchemaCompiler.Proofs.Schema.Twins
import SchemaCompiler.Proofs.Compile.Renumbering
import SchemaCompiler.Proofs.Recipe.Caching
import SchemaCompiler.Proofs.Recipe.Renumbering
import SchemaCompiler.Proofs.Schema.Parts
import SchemaCompiler.Proofs.Validator.Mistakes
import SchemaCompiler.Proofs.Value.Equality
import SchemaCompiler.Proofs.Validator.Equality
import SchemaCompiler.Proofs.Text.Readable
import SchemaCompiler.Proofs.Compile.Sites
import SchemaCompiler.Proofs.Validator.Entries
import SchemaCompiler.Proofs.Validator.Description
import SchemaCompiler.Proofs.Run.Evaluations
import SchemaCompiler.Proofs.Schema.Traversal
import SchemaCompiler.Proofs.Run.Tracing
import SchemaCompiler.Proofs.Validator.Order
import SchemaCompiler.Proofs.Text.Numeral
import SchemaCompiler.Proofs.Value.Lookup
import SchemaCompiler.Proofs.Text.Names
import SchemaCompiler.Proofs.Run.Operations
import SchemaCompiler.Proofs.Run.Deliveries
import SchemaCompiler.Proofs.Compile.Literals
import SchemaCompiler.Proofs.Recipe.Literals
import SchemaCompiler.Proofs.Number.Order
import SchemaCompiler.Proofs.Number.Text
import SchemaCompiler.Proofs.Text.Paths
import SchemaCompiler.Proofs.Text.Row
import SchemaCompiler.Proofs.Value.Json
import SchemaCompiler.Proofs.Value.Text
import SchemaCompiler.Proofs.Explanation.Rerooting
import SchemaCompiler.Proofs.Text.JsonString
import SchemaCompiler.Proofs.Schema.Labels
import SchemaCompiler.Proofs.Validator.Labels
import SchemaCompiler.Proofs.Text.Lines
import SchemaCompiler.Proofs.Text.Source
import SchemaCompiler.Proofs.Compile.Writing
import SchemaCompiler.Proofs.Compile.Indentation
import SchemaCompiler.Proofs.Recipe.Indentation
