import TypePython.Lib.Text
import TypePython.Lib.SortDedup
import TypePython.Lib.Worklist
import TypePython.Lib.Interner
import TypePython.Lib.PartialMaps
import TypePython.Syntax.TypeExpr
import TypePython.Syntax.Tokens
import TypePython.Syntax.RoundTrip
import TypePython.Syntax.Extensions
import TypePython.Syntax.Normalization
import TypePython.Syntax.PythonLines
import TypePython.Syntax.ExtensionScan
import TypePython.Binding.Declaration
import TypePython.Binding.Graph
import TypePython.Binding.FunctionBody
import TypePython.Binding.PathOrder
import TypePython.Incremental.DependencyIndex
import TypePython.Incremental.AffectedModules
import TypePython.Checking.SemanticType
import TypePython.Checking.ValueModel
import TypePython.Checking.Flow
import TypePython.Checking.ReachingAssignments
import TypePython.Checking.CompoundGuards
import TypePython.Checking.GuardNarrowing
import TypePython.Checking.GenericSolver
import TypePython.Checking.ImportedSymbols
import TypePython.Lib.Propagation
import TypePython.Lib.FirstWins
import TypePython.Effects.Summaries
import TypePython.Effects.Inference
import TypePython.Effects.Export
import TypePython.Effects.ExportAgreement
import TypePython.Effects.Taint
import TypePython.Effects.TaintPaths
import TypePython.Effects.TaintCaught
import TypePython.Lib.LastEntry
import TypePython.Lsp.Scheduler
import TypePython.Lsp.Server
import TypePython.Lsp.Publication
import TypePython.Checking.DeclarationSemantics
import TypePython.Summaries.PublicSummary
import TypePython.Summaries.Visibility
import TypePython.Binding.Preludes
import TypePython.Binding.PackageNodes
import TypePython.Summaries.Reuse
import TypePython.Lib.Queries
import TypePython.Checking.TypeSubstitution
import TypePython.Checking.GenericInference
import TypePython.Checking.InferredBindings
import TypePython.Checking.InferenceRoundTrip
import TypePython.Checking.ClassGraph
import TypePython.Checking.Assignability
import TypePython.Checking.UnionAliases
import TypePython.Checking.TupleLengths
import TypePython.Lib.Revisits
import TypePython.Checking.TypeMatching
import TypePython.Checking.Invariance
import TypePython.Lib.StackSearch
import TypePython.Checking.SealedMatch
import TypePython.Checking.SealedExhaustiveness
import TypePython.Checking.CallApplicability
import TypePython.Checking.CallBinding
import TypePython.Summaries.Equality
import TypePython.Summaries.Rechecking
import TypePython.Lib.ListTable
import TypePython.Lib.Runs
import TypePython.Pipeline.Project
import TypePython.Pipeline.Run
import TypePython.Pipeline.Diagnostics
import TypePython.Pipeline.Condition
import TypePython.Pipeline.Step
import TypePython.Pipeline.Rerun
import TypePython.Pipeline.Transparency
import TypePython.Lsp.Rpc
import TypePython.Lsp.Answers
import TypePython.Checking.ConditionalTypes
import TypePython.Emit.AllOrNothing
import TypePython.Emit.OutputPlan
import TypePython.Emit.OutputsApart
import TypePython.Emit.RuntimeValidators
import TypePython.Emit.ValidatorTermination
import TypePython.Lib.FirstOfKeys
import TypePython.Syntax.GuardSiteLines
import TypePython.Emit.PublishedTypes
import TypePython.Lib.Searches
import TypePython.Checking.HierarchyWalks
import TypePython.Checking.AbstractClasses
import TypePython.Checking.MemberOrder
import TypePython.Checking.DataclassFields
import TypePython.Checking.DataclassOrder
import TypePython.Checking.NominalSubtyping
import TypePython.ApiDiff.Recommendation
import TypePython.Checking.Overrides
import TypePython.Checking.Substitutability
import TypePython.Checking.CallableValues
import TypePython.Checking.InstanceNarrowing
import TypePython.Checking.LeftBehindParameters
import TypePython.Checking.NullRelaxation
import TypePython.Checking.ReexportedNames
import TypePython.Checking.TruthinessNarrowing
import TypePython.Checking.CallDiagnostics
import TypePython.Checking.DiagnosticsAgreement
import TypePython.Checking.InterfaceAcceptance
import TypePython.Checking.InterfaceDelivery
import TypePython.Checking.ShapeAgreement
import TypePython.Binding.ChildImports
import TypePython.Emit.DualEmit
import TypePython.Emit.HeaderSuffixes
import TypePython.Emit.TypingImports
import TypePython.Lsp.ContentChanges
import TypePython.Emit.ShapeInheritance
import TypePython.Emit.TransformExpansion
import TypePython.Checking.OverloadSelection
import TypePython.ApiDiff.PublicAny
import TypePython.Emit.BoundaryComments
import TypePython.Pipeline.TypeIgnores
import TypePython.Syntax.VersionGuards
import TypePython.Lsp.Rename
import TypePython.Checking.OwnerArguments
import TypePython.Checking.IteratedElements
import TypePython.Checking.DictLiterals
import TypePython.Archive.MemberPaths
import TypePython.Archive.ZipDirectory
