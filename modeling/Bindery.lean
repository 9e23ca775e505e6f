import Bindery.CommandLine.Command
import Bindery.CommandLine.Options
import Bindery.Config
import Bindery.Decl.Class
import Bindery.Decl.Info
import Bindery.Decl.Locate
import Bindery.Decl.Method
import Bindery.Decl.Module
import Bindery.Decl.ParamText
import Bindery.Decl.Prototype
import Bindery.Decl.Query
import Bindery.Decl.Record
import Bindery.Decl.Token
import Bindery.Decl.TypeText
import Bindery.Diagnostic
import Bindery.Emit.Constants
import Bindery.Emit.Dependencies
import Bindery.Emit.Documentation
import Bindery.Emit.Header
import Bindery.Emit.Interface
import Bindery.Emit.Notice
import Bindery.Error
import Bindery.Extract.Deprecation
import Bindery.Extract.Extraction
import Bindery.Files.Path
import Bindery.Files.Tree
import Bindery.Interface.Check
import Bindery.Interface.Members
import Bindery.Interface.Registry
import Bindery.Json.Basic
import Bindery.Json.Document
import Bindery.Json.Magnitude
import Bindery.Json.Reader
import Bindery.Json.Shape
import Bindery.Json.Token
import Bindery.Json.Writer
import Bindery.Main
import Bindery.Manifest
import Bindery.Naming
import Bindery.Ordered
import Bindery.Package.Analysis
import Bindery.Package.Basic
import Bindery.Package.Generation
import Bindery.Package.Session
import Bindery.Policy.Basic
import Bindery.Policy.Decode
import Bindery.Policy.Edit
import Bindery.Policy.Kinds
import Bindery.Policy.Preset
import Bindery.Policy.View
import Bindery.Source.Declare
import Bindery.Source.Entry
import Bindery.Source.Source
import Bindery.Source.Validate
import Bindery.Text.Blank
import Bindery.Text.Case
import Bindery.Text.CaseTable
import Bindery.Text.Pieces
import Bindery.Text.PrintTable
import Bindery.Text.Quoted
import Bindery.Text.WordTable
import Bindery.Typemap.Basic
import Bindery.Typemap.Rules
import Bindery.Typemap.Standard
import Bindery.Proofs.Run
import Bindery.Proofs.Interface.Growth
import Bindery.Proofs.Interface.Nearest
import Bindery.Proofs.Interface.Comparison
import Bindery.Proofs.Interface.Consistency
import Bindery.Proofs.Interface.Entries
import Bindery.Package.Calls
import Bindery.Package.Operations
import Bindery.Proofs.Package.Steps
import Bindery.Proofs.Package.Lookup
import Bindery.Proofs.Files.Writing
import Bindery.Proofs.Package.Passed
import Bindery.Proofs.Package.Reachability
import Bindery.Proofs.Package.Indexing
import Bindery.Proofs.Package.Emittable
import Bindery.Proofs.Package.Retracing
import Bindery.Proofs.Package.Retries
import Bindery.Proofs.Files.Parents
import Bindery.Proofs.Files.Growth
import Bindery.Proofs.Package.Outputs
import Bindery.Proofs.Package.Coherence
import Bindery.Proofs.Package.Determinism
import Bindery.Proofs.Interface.Layers
import Bindery.Proofs.Interface.Folding
import Bindery.Proofs.Interface.PassedOver
import Bindery.Proofs.Package.Traces
import Bindery.Proofs.Package.Isolation
import Bindery.Proofs.Decl.Revisions
import Bindery.Proofs.Decl.Addresses
import Bindery.Proofs.Decl.Changes
import Bindery.Proofs.Extract.Processing
import Bindery.Proofs.Extract.Platforms
import Bindery.Proofs.Extract.Precedence
import Bindery.Proofs.Decl.TypeTexts
import Bindery.Proofs.Decl.Signatures
import Bindery.Proofs.Decl.Nesting
import Bindery.Proofs.Decl.Tokens
import Bindery.Proofs.Decl.Parameters
import Bindery.Proofs.Decl.Prototypes
import Bindery.Proofs.Decl.Spacing
import Bindery.Proofs.Decl.Grammar
import Bindery.Proofs.Decl.Renaming
import Bindery.Proofs.Package.Origins
import Bindery.Proofs.Extract.Failures
import Bindery.Proofs.Interface.Repetition
import Bindery.Proofs.Package.Permanence
import Bindery.Proofs.Interface.Routes
import Bindery.Proofs.Interface.Inactive
import Bindery.Proofs.Emit.Outline
import Bindery.Proofs.Emit.Guards
import Bindery.Proofs.Emit.Directors
import Bindery.Proofs.Interface.Overriding
import Bindery.Proofs.Decl.MethodAddresses
import Bindery.Proofs.Interface.Denials
import Bindery.Proofs.Emit.Sections
import Bindery.Proofs.Package.Imports
import Bindery.Proofs.Emit.Bases
import Bindery.Proofs.Emit.Wrappers
import Bindery.Proofs.Emit.Renames
import Bindery.Proofs.Files.Spelling
import Bindery.Proofs.Emit.Inputs
import Bindery.Proofs.Emit.StubOutline
import Bindery.Proofs.Emit.LeftOut
import Bindery.Proofs.Package.Kinds
import Bindery.Proofs.Emit.Counterparts
import Bindery.Proofs.Package.KeptDocs
import Bindery.Proofs.Decl.Chains
import Bindery.Proofs.Source.Conversion
import Bindery.Proofs.Source.Scopes
import Bindery.Proofs.Source.Reading
import Bindery.Proofs.Source.Repeats
import Bindery.Proofs.Package.OutputPaths
import Bindery.Proofs.Emit.Scans
import Bindery.Package.Workers
import Bindery.Proofs.Package.Reports
import Bindery.Proofs.Package.Workers
import Bindery.Proofs.Interface.Collisions
import Bindery.Proofs.Extract.ClassChains
import Bindery.Proofs.Interface.Constructors
import Bindery.Proofs.Files.Parts
import Bindery.Proofs.Package.OtherTrees
import Bindery.Proofs.Package.Incremental
import Bindery.Proofs.Interface.Hiding
import Bindery.Proofs.Interface.OwnMethods
import Bindery.Proofs.Emit.InnerMethods
import Bindery.Proofs.Decl.LineBreaks
import Bindery.Proofs.Interface.CustomDecls
import Bindery.Proofs.Decl.Defaults
import Bindery.Proofs.Decl.FaultPlaces
import Bindery.Proofs.Decl.Updates
import Bindery.Proofs.Interface.BaseWalks
import Bindery.Proofs.Decl.Grouping
import Bindery.Proofs.Emit.Preorder
import Bindery.Proofs.Typemap.DroppedReturns
import Bindery.Proofs.Typemap.Reading
import Bindery.Proofs.Typemap.Writing
import Bindery.Proofs.Extract.GuardedWrappers
import Bindery.Proofs.Extract.WrapperCalls
import Bindery.Proofs.Interface.Instantiation
import Bindery.Proofs.Decl.JoinedTypes
import Bindery.Proofs.Typemap.OwnPatterns
import Bindery.Proofs.Typemap.NormalTypes
import Bindery.Proofs.Typemap.CutPatterns
import Bindery.Proofs.Emit.Preprocessor
import Bindery.Proofs.Emit.Conditionals
