import ObjectModel.Array
import ObjectModel.Cast
import ObjectModel.Class.Array
import ObjectModel.Class.Builtin
import ObjectModel.Class.Definition
import ObjectModel.Class.Table
import ObjectModel.Command.Basic
import ObjectModel.Command.Demo
import ObjectModel.Command.Line
import ObjectModel.Command.Listing
import ObjectModel.Config
import ObjectModel.Dispatch
import ObjectModel.Exception
import ObjectModel.FileSystem.Basic
import ObjectModel.FileSystem.Path
import ObjectModel.Handle
import ObjectModel.Kind
import ObjectModel.Main
import ObjectModel.Operation
import ObjectModel.RecordType
import ObjectModel.Sample
import ObjectModel.Script.Eval
import ObjectModel.Script.Operand
import ObjectModel.Script.Syntax
import ObjectModel.Script.Value
import ObjectModel.Snapshot.Basic
import ObjectModel.Snapshot.Decoding
import ObjectModel.Snapshot.Encoding
import ObjectModel.Snapshot.Item
import ObjectModel.Text.Basic
import ObjectModel.Text.Content
import ObjectModel.Text.Numeral
import ObjectModel.Text.Printable
import ObjectModel.Text.Quoted
import ObjectModel.Text.Utf8
import ObjectModel.Toml.Document
import ObjectModel.Toml.Lexical
import ObjectModel.Toml.Parser
import ObjectModel.Toml.Scalar
import ObjectModel.Toml.Syntax
import ObjectModel.World
import ObjectModel.Proofs.World
import ObjectModel.Proofs.Change
import ObjectModel.Proofs.Growth
import ObjectModel.Proofs.WellFormed
import ObjectModel.Proofs.Hierarchy
import ObjectModel.Proofs.Contract.Basic
import ObjectModel.Proofs.Contract.Class
import ObjectModel.Proofs.Contract.Object
import ObjectModel.Proofs.Contract.Array
import ObjectModel.Proofs.Contract.Command
import ObjectModel.Proofs.Contract.Script
import ObjectModel.Proofs.Contract.Operation
import ObjectModel.Proofs.Reachable
import ObjectModel.Proofs.ClassTable
import ObjectModel.Proofs.Descriptor
import ObjectModel.Proofs.ArrayClass
import ObjectModel.Proofs.Inheritance
import ObjectModel.Proofs.Interchange
import ObjectModel.Proofs.ArraySubtyping
import ObjectModel.Proofs.HeapTyping
import ObjectModel.Proofs.Layout
import ObjectModel.Proofs.Item
import ObjectModel.Proofs.Utf8
import ObjectModel.Proofs.Codec
import ObjectModel.Proofs.Reader
import ObjectModel.Proofs.Damage
import ObjectModel.Proofs.Acceptance
import ObjectModel.Proofs.Files
import ObjectModel.Proofs.Capture
import ObjectModel.Proofs.Origin
import ObjectModel.Proofs.Definition
import ObjectModel.Proofs.Redefinition
import ObjectModel.Proofs.Release
import ObjectModel.Proofs.Displacement
import ObjectModel.Proofs.ClassTerm
import ObjectModel.Proofs.Description
import ObjectModel.Proofs.Metadata
import ObjectModel.Proofs.Ancestry
import ObjectModel.Proofs.Homonym
import ObjectModel.Proofs.Catalogue
import ObjectModel.Proofs.Listing
import ObjectModel.Proofs.Views
import ObjectModel.Proofs.Content
import ObjectModel.Proofs.CheckedCast
import ObjectModel.Proofs.Dispatch
import ObjectModel.Proofs.Frame
import ObjectModel.Proofs.Effect
import ObjectModel.Proofs.KindHierarchy
import ObjectModel.Proofs.Trail
import ObjectModel.Proofs.Destruction
import ObjectModel.Proofs.ArrayAccess
import ObjectModel.Proofs.ArrayHistory
import ObjectModel.Proofs.StringAccess
import ObjectModel.Proofs.StringHash
import ObjectModel.Proofs.Account.Basic
import ObjectModel.Proofs.Account.Class
import ObjectModel.Proofs.Account.Object
import ObjectModel.Proofs.Account.Command
import ObjectModel.Proofs.Account.Script
import ObjectModel.Proofs.Account.Operation
import ObjectModel.Proofs.Logging
import ObjectModel.Proofs.Identity
import ObjectModel.Proofs.Embedding
import ObjectModel.Proofs.Equality
import ObjectModel.Proofs.Chain
import ObjectModel.Proofs.Path
import ObjectModel.Proofs.Configuration
import ObjectModel.Proofs.Blind
import ObjectModel.Proofs.Construction
import ObjectModel.Proofs.OptionsInForce
import ObjectModel.Proofs.NullForms
import ObjectModel.Proofs.NullInterchange
import ObjectModel.Proofs.Hexadecimal
import ObjectModel.Proofs.DefaultText
