import TypePython.Binding.Equality
import TypePython.Summaries.Reuse

/-!
# Equality of summaries and states

Summaries and states are compared as values.
-/

namespace TypePython.Summaries

open TypePython.Effects

deriving instance DecidableEq for SummarySignatureParam
deriving instance DecidableEq for SummaryCallableSignature
deriving instance DecidableEq for SummaryTypeParam
deriving instance DecidableEq for SummaryExport
deriving instance DecidableEq for SummaryDeclarationFact
deriving instance DecidableEq for ModuleSolverFacts
deriving instance DecidableEq for SemanticPublicSummary
deriving instance DecidableEq for IncrementalState

end TypePython.Summaries
