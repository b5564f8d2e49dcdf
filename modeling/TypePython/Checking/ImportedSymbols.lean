import TypePython.Binding.Graph

/-!
# Imported symbols

What an import declaration of a module refers to: a module of the graph, or a declaration
of one.
-/

namespace TypePython.Checking

open TypePython.Binding

structure ImportedSymbolSemanticTarget where
  providerNode : ModuleNode
  targetDeclaration : Option Declaration

namespace ImportedSymbolSemanticTarget

def moduleTarget (target : ImportedSymbolSemanticTarget) : Option ModuleNode :=
  if target.targetDeclaration.isNone then some target.providerNode else none

/-- The target as a provider of top-level declarations of one kind. -/
def providerOf (kind : DeclarationKind) (target : ImportedSymbolSemanticTarget) :
    Option (ModuleNode × Declaration) := do
  let declaration ← target.targetDeclaration
  if declaration.owner.isNone && declaration.kind = kind then
    some (target.providerNode, declaration)
  else none

def functionProvider : ImportedSymbolSemanticTarget → Option (ModuleNode × Declaration) :=
  providerOf .function

def typeAliasProvider : ImportedSymbolSemanticTarget → Option (ModuleNode × Declaration) :=
  providerOf .typeAlias

def classProvider : ImportedSymbolSemanticTarget → Option (ModuleNode × Declaration) :=
  providerOf .classDecl

end ImportedSymbolSemanticTarget

/-- The import target of a declaration that is an import. -/
def declarationImportTargetRef (declaration : Declaration) : Option BoundImportTarget :=
  if declaration.kind = .importDecl then declaration.importTarget else none

/-- An import names a module of the graph, else a symbol of one. -/
def resolveImportedSymbolSemanticTargetFromDeclaration (nodes : List ModuleNode)
    (declaration : Declaration) : Option ImportedSymbolSemanticTarget := do
  let importTarget ← declarationImportTargetRef declaration
  match nodes.find? fun candidate => candidate.moduleKey = importTarget.moduleTarget with
  | some moduleNode => return { providerNode := moduleNode, targetDeclaration := none }
  | none =>
    let symbolTarget ← importTarget.symbolTarget
    let providerNode ← nodes.find? fun candidate =>
      candidate.moduleKey = symbolTarget.moduleKey
    let targetDeclaration ← providerNode.declarations.find? fun target =>
      target.owner.isNone && target.name = symbolTarget.symbolName
    return { providerNode, targetDeclaration := some targetDeclaration }

def resolveImportedSymbolSemanticTarget (node : ModuleNode) (nodes : List ModuleNode)
    (localName : String) : Option ImportedSymbolSemanticTarget := do
  let importDeclaration ← node.declarations.find? fun declaration =>
    declaration.kind = .importDecl && declaration.name = localName
  resolveImportedSymbolSemanticTargetFromDeclaration nodes importDeclaration

end TypePython.Checking
