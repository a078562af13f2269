import SchemaLoom.Code.CodePath
import SchemaLoom.Code.ComponentText
import SchemaLoom.Code.EnumText
import SchemaLoom.Code.Ident
import SchemaLoom.Code.Location
import SchemaLoom.Code.Model
import SchemaLoom.Code.Module
import SchemaLoom.Code.Order
import SchemaLoom.Code.Phrase
import SchemaLoom.Code.Plan
import SchemaLoom.Code.Token
import SchemaLoom.Code.TypeText
import SchemaLoom.Collection.Keyed
import SchemaLoom.Collection.Session
import SchemaLoom.Command.Mailbox
import SchemaLoom.Config
import SchemaLoom.Exchange.Record
import SchemaLoom.Exchange.Resolved
import SchemaLoom.Exchange.Schema
import SchemaLoom.Exchange.Wire
import SchemaLoom.Generate
import SchemaLoom.Json.Access
import SchemaLoom.Json.Basic
import SchemaLoom.Json.Form
import SchemaLoom.Json.Printer
import SchemaLoom.Json.Reader
import SchemaLoom.Number.Binary
import SchemaLoom.Number.Nearest
import SchemaLoom.Number.Shortest
import SchemaLoom.Output.ModuleTree
import SchemaLoom.Output.Write
import SchemaLoom.Proofs.Acyclicity
import SchemaLoom.Proofs.Assembly
import SchemaLoom.Proofs.BundleDocuments
import SchemaLoom.Proofs.ByteOrder
import SchemaLoom.Proofs.Confinement
import SchemaLoom.Proofs.Conformance
import SchemaLoom.Proofs.DeclarationOrder
import SchemaLoom.Proofs.DeclaredMembers
import SchemaLoom.Proofs.DeclaredModules
import SchemaLoom.Proofs.DecodingDepth
import SchemaLoom.Proofs.Defaults
import SchemaLoom.Proofs.Defects
import SchemaLoom.Proofs.DottedNames
import SchemaLoom.Proofs.DroppedFields
import SchemaLoom.Proofs.Emission
import SchemaLoom.Proofs.EmissionOrder
import SchemaLoom.Proofs.EncodingDepth
import SchemaLoom.Proofs.EventDelivery
import SchemaLoom.Proofs.ExactIndex
import SchemaLoom.Proofs.FailedUpdate
import SchemaLoom.Proofs.FieldFilter
import SchemaLoom.Proofs.FieldUpdate
import SchemaLoom.Proofs.FilteredFields
import SchemaLoom.Proofs.FiniteMaps
import SchemaLoom.Proofs.FittedRecords
import SchemaLoom.Proofs.GeneratedPaths
import SchemaLoom.Proofs.Hashing
import SchemaLoom.Proofs.IndependentLogs
import SchemaLoom.Proofs.ItemOutline
import SchemaLoom.Proofs.KeyedInsertion
import SchemaLoom.Proofs.KnownNames
import SchemaLoom.Proofs.LetterCase
import SchemaLoom.Proofs.Memoization
import SchemaLoom.Proofs.Merging
import SchemaLoom.Proofs.NameClashes
import SchemaLoom.Proofs.NamedDeclarations
import SchemaLoom.Proofs.NarrowerCodecs
import SchemaLoom.Proofs.NeatItems
import SchemaLoom.Proofs.NeatText
import SchemaLoom.Proofs.Nesting
import SchemaLoom.Proofs.NestingDepth
import SchemaLoom.Proofs.NormalForm
import SchemaLoom.Proofs.ObjectLog
import SchemaLoom.Proofs.Outcome
import SchemaLoom.Proofs.Outline
import SchemaLoom.Proofs.OutputFiles
import SchemaLoom.Proofs.PartialUpdate
import SchemaLoom.Proofs.PathComponents
import SchemaLoom.Proofs.Placement
import SchemaLoom.Proofs.Reachability
import SchemaLoom.Proofs.Reading
import SchemaLoom.Proofs.RecordLookup
import SchemaLoom.Proofs.RecordRules
import SchemaLoom.Proofs.RecordedRuns
import SchemaLoom.Proofs.RecursionPolicies
import SchemaLoom.Proofs.Resolution
import SchemaLoom.Proofs.RoundTrip
import SchemaLoom.Proofs.Settling
import SchemaLoom.Proofs.SortedNames
import SchemaLoom.Proofs.StoredFiles
import SchemaLoom.Proofs.StrictReading
import SchemaLoom.Proofs.StructuralEquality
import SchemaLoom.Proofs.SuccessMarker
import SchemaLoom.Proofs.TableScan
import SchemaLoom.Proofs.TokenReading
import SchemaLoom.Proofs.Transport
import SchemaLoom.Proofs.UnreliableDisks
import SchemaLoom.Proofs.UnseenEdits
import SchemaLoom.Proofs.UpdateLog
import SchemaLoom.Proofs.WellFormedness
import SchemaLoom.Proofs.WellTypedRecords
import SchemaLoom.Proofs.Writing
import SchemaLoom.Proofs.WrittenLog
import SchemaLoom.Proofs.WrittenModules
import SchemaLoom.Proofs.WrittenNames
import SchemaLoom.Proofs.WrittenPaths
import SchemaLoom.Record.Alike
import SchemaLoom.Record.Basic
import SchemaLoom.Record.Codec
import SchemaLoom.Record.Digest
import SchemaLoom.Record.Draft
import SchemaLoom.Resolved.Basic
import SchemaLoom.Resolved.Filter
import SchemaLoom.Resolved.Reach
import SchemaLoom.Resolved.Resolver
import SchemaLoom.Sample.Codec
import SchemaLoom.Sample.Game
import SchemaLoom.Sample.Shapes
import SchemaLoom.Sample.StandardLibrary
import SchemaLoom.Schema.Basic
import SchemaLoom.Schema.Form
import SchemaLoom.Schema.Index
import SchemaLoom.Schema.Kind
import SchemaLoom.Storage.Disk
import SchemaLoom.Storage.Path
import SchemaLoom.Storage.Volume
import SchemaLoom.Text.Case
import SchemaLoom.Text.CaseTable
import SchemaLoom.Text.CodeRange
import SchemaLoom.Text.Printable
import SchemaLoom.Text.Quoted
import SchemaLoom.Text.WordChar
import SchemaLoom.Wire.DecodeError
import SchemaLoom.Wire.Object
import SchemaLoom.Wire.Scalar
