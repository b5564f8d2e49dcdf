import TypePython.Syntax.TypeExpr

/-!
# Semantic types

The checker's form of a type: a type expression without the style of its unions. Equality
is structural and decidable; `lowerTypeExpr` and `semanticTypeToTypeExpr` go between the two
forms, and `lowerTypeExpr_semanticTypeToTypeExpr` shows that nothing is lost on the way back.
-/

namespace TypePython.Checking

open TypePython.Lib.Text
open TypePython.Syntax

mutual

inductive SemanticType where
  | name (name : String)
  | generic (head : String) (args : List SemanticType)
  | callable (params : SemanticCallableParams) (returnType : SemanticType)
  | union (branches : List SemanticType)
  | annotated (value : SemanticType) (metadata : List String)
  | unpack (inner : SemanticType)

inductive SemanticCallableParams where
  | ellipsis
  | paramList (types : List SemanticType)
  | concatenate (types : List SemanticType)
  | single (expr : SemanticType)

end

instance : Inhabited SemanticType := ⟨.name ""⟩

/-! ## Equality -/

mutual

def SemanticType.beq : SemanticType → SemanticType → Bool
  | .name a, .name b => a == b
  | .generic h as, .generic h' as' => h == h' && beqAll as as'
  | .callable p r, .callable p' r' => p.beq p' && r.beq r'
  | .union bs, .union bs' => beqAll bs bs'
  | .annotated v m, .annotated v' m' => v.beq v' && m == m'
  | .unpack t, .unpack t' => t.beq t'
  | _, _ => false

def SemanticCallableParams.beq : SemanticCallableParams → SemanticCallableParams → Bool
  | .ellipsis, .ellipsis => true
  | .paramList ts, .paramList ts' => beqAll ts ts'
  | .concatenate ts, .concatenate ts' => beqAll ts ts'
  | .single t, .single t' => t.beq t'
  | _, _ => false

def beqAll : List SemanticType → List SemanticType → Bool
  | [], [] => true
  | t :: ts, t' :: ts' => t.beq t' && beqAll ts ts'
  | _, _ => false

end

mutual

theorem SemanticType.beq_iff : ∀ a b : SemanticType, a.beq b = true ↔ a = b
  | .name a, b => by cases b <;> simp [SemanticType.beq]
  | .generic h as, b => by cases b <;> simp [SemanticType.beq, beqAll_iff as]
  | .callable p r, b => by
    cases b <;> simp [SemanticType.beq, SemanticCallableParams.beq_iff p, SemanticType.beq_iff r]
  | .union bs, b => by cases b <;> simp [SemanticType.beq, beqAll_iff bs]
  | .annotated v m, b => by cases b <;> simp [SemanticType.beq, SemanticType.beq_iff v]
  | .unpack t, b => by cases b <;> simp [SemanticType.beq, SemanticType.beq_iff t]

theorem SemanticCallableParams.beq_iff :
    ∀ a b : SemanticCallableParams, a.beq b = true ↔ a = b
  | .ellipsis, b => by cases b <;> simp [SemanticCallableParams.beq]
  | .paramList ts, b => by cases b <;> simp [SemanticCallableParams.beq, beqAll_iff ts]
  | .concatenate ts, b => by cases b <;> simp [SemanticCallableParams.beq, beqAll_iff ts]
  | .single t, b => by cases b <;> simp [SemanticCallableParams.beq, SemanticType.beq_iff t]

theorem beqAll_iff : ∀ as bs : List SemanticType, beqAll as bs = true ↔ as = bs
  | [], bs => by cases bs <;> simp [beqAll]
  | a :: as, bs => by cases bs <;> simp [beqAll, SemanticType.beq_iff a, beqAll_iff as]

end

instance : DecidableEq SemanticType := fun a b => decidable_of_iff _ (SemanticType.beq_iff a b)

instance : DecidableEq SemanticCallableParams := fun a b =>
  decidable_of_iff _ (SemanticCallableParams.beq_iff a b)

/-! ## Views -/

namespace SemanticType

/-- The type under its `Annotated` wrappers. -/
def stripAnnotated : SemanticType → SemanticType
  | .annotated value _ => value.stripAnnotated
  | ty => ty

def genericParts (ty : SemanticType) : Option (String × List SemanticType) :=
  match ty.stripAnnotated with
  | .generic head args => some (head, args)
  | _ => none

def unpackedInner (ty : SemanticType) : Option SemanticType :=
  match ty.stripAnnotated with
  | .unpack inner => some inner
  | _ => none

def callableParts (ty : SemanticType) : Option (SemanticCallableParams × SemanticType) :=
  match ty.stripAnnotated with
  | .callable params returnType => some (params, returnType)
  | _ => none

end SemanticType

def semanticNominalOwnerName (ty : SemanticType) : Option String :=
  match ty.stripAnnotated with
  | .name name => some name
  | .generic head _ => some head
  | _ => none

/-! ## Lowering and rendering -/

mutual

def lowerTypeExpr : TypeExpr → SemanticType
  | .name name => .name name
  | .generic head args => .generic head (lowerAll args)
  | .callable params returnType => .callable (lowerCallableParams params) (lowerTypeExpr returnType)
  | .union branches _ => .union (lowerAll branches)
  | .annotated value metadata => .annotated (lowerTypeExpr value) metadata
  | .unpack inner => .unpack (lowerTypeExpr inner)

def lowerCallableParams : CallableParamExpr → SemanticCallableParams
  | .ellipsis => .ellipsis
  | .paramList types => .paramList (lowerAll types)
  | .concatenate types => .concatenate (lowerAll types)
  | .single expr => .single (lowerTypeExpr expr)

def lowerAll : List TypeExpr → List SemanticType
  | [] => []
  | expr :: rest => lowerTypeExpr expr :: lowerAll rest

end

mutual

def semanticTypeToTypeExpr : SemanticType → TypeExpr
  | .name name => .name name
  | .generic head args => .generic head (toTypeExprs args)
  | .callable params returnType =>
    .callable (semanticCallableParamsToTypeExpr params) (semanticTypeToTypeExpr returnType)
  | .union branches => .union (toTypeExprs branches) .explicit
  | .annotated value metadata => .annotated (semanticTypeToTypeExpr value) metadata
  | .unpack inner => .unpack (semanticTypeToTypeExpr inner)

def semanticCallableParamsToTypeExpr : SemanticCallableParams → CallableParamExpr
  | .ellipsis => .ellipsis
  | .paramList types => .paramList (toTypeExprs types)
  | .concatenate types => .concatenate (toTypeExprs types)
  | .single expr => .single (semanticTypeToTypeExpr expr)

def toTypeExprs : List SemanticType → List TypeExpr
  | [] => []
  | ty :: rest => semanticTypeToTypeExpr ty :: toTypeExprs rest

end

mutual

/-- Lowering undoes the way back to a type expression. -/
theorem lowerTypeExpr_semanticTypeToTypeExpr :
    ∀ ty : SemanticType, lowerTypeExpr (semanticTypeToTypeExpr ty) = ty
  | .name _ => rfl
  | .generic _ args => by simp [semanticTypeToTypeExpr, lowerTypeExpr, lowerAll_toTypeExprs args]
  | .callable params returnType => by
    simp [semanticTypeToTypeExpr, lowerTypeExpr, lowerCallableParams_toTypeExpr params,
      lowerTypeExpr_semanticTypeToTypeExpr returnType]
  | .union branches => by
    simp [semanticTypeToTypeExpr, lowerTypeExpr, lowerAll_toTypeExprs branches]
  | .annotated value _ => by
    simp [semanticTypeToTypeExpr, lowerTypeExpr, lowerTypeExpr_semanticTypeToTypeExpr value]
  | .unpack inner => by
    simp [semanticTypeToTypeExpr, lowerTypeExpr, lowerTypeExpr_semanticTypeToTypeExpr inner]

theorem lowerCallableParams_toTypeExpr :
    ∀ params : SemanticCallableParams,
      lowerCallableParams (semanticCallableParamsToTypeExpr params) = params
  | .ellipsis => rfl
  | .paramList types => by
    simp [semanticCallableParamsToTypeExpr, lowerCallableParams, lowerAll_toTypeExprs types]
  | .concatenate types => by
    simp [semanticCallableParamsToTypeExpr, lowerCallableParams, lowerAll_toTypeExprs types]
  | .single expr => by
    simp [semanticCallableParamsToTypeExpr, lowerCallableParams,
      lowerTypeExpr_semanticTypeToTypeExpr expr]

theorem lowerAll_toTypeExprs : ∀ types : List SemanticType, lowerAll (toTypeExprs types) = types
  | [] => rfl
  | ty :: rest => by
    simp [toTypeExprs, lowerAll, lowerTypeExpr_semanticTypeToTypeExpr ty,
      lowerAll_toTypeExprs rest]

end

def lowerTypeText (text : String) : Option SemanticType :=
  (TypeExpr.parse text).map lowerTypeExpr

def lowerTypeTextOrName (text : String) : SemanticType :=
  (lowerTypeText text).getD (.name (String.ofList (trim text.toList)))

mutual

def renderSemanticType : SemanticType → String
  | .name name => name
  | .generic head args => head ++ "[" ++ join ", " (renderSemanticTypes args) ++ "]"
  | .callable params returnType =>
    "Callable[" ++ renderSemanticCallableParams params ++ ", " ++ renderSemanticType returnType
      ++ "]"
  | .union [branch] => renderSemanticType branch
  | .union branches => "Union[" ++ join ", " (renderSemanticTypes branches) ++ "]"
  | .annotated value metadata =>
    if metadata = [] then "Annotated[" ++ renderSemanticType value ++ "]"
    else "Annotated[" ++ renderSemanticType value ++ ", " ++ join ", " metadata ++ "]"
  | .unpack inner => "Unpack[" ++ renderSemanticType inner ++ "]"

def renderSemanticCallableParams : SemanticCallableParams → String
  | .ellipsis => "..."
  | .paramList types => "[" ++ join ", " (renderSemanticTypes types) ++ "]"
  | .concatenate types => "Concatenate[" ++ join ", " (renderSemanticTypes types) ++ "]"
  | .single expr => renderSemanticType expr

def renderSemanticTypes : List SemanticType → List String
  | [] => []
  | ty :: rest => renderSemanticType ty :: renderSemanticTypes rest

end

attribute [grind =] renderSemanticType renderSemanticCallableParams

/-! ## Unions and tuples -/

/-- The branches of a union; `Optional[T]` is the union of `T` and `None`. -/
def semanticUnionBranches (ty : SemanticType) : Option (List SemanticType) :=
  match ty.stripAnnotated with
  | .union branches => some branches
  | .generic "Optional" [inner] => some [inner, .name "None"]
  | _ => none

/-- The branches a candidate contributes to a join: its union branches, else itself. -/
def candidateBranches (ty : SemanticType) : List SemanticType :=
  (semanticUnionBranches ty).getD [ty]

/-- Add a branch unless it is there. -/
def addBranch (branches : List SemanticType) (branch : SemanticType) : List SemanticType :=
  if branch ∈ branches then branches else branches ++ [branch]

/-- The union of some types, flattened and without duplicates; a single branch stands alone. -/
def joinSemanticTypeCandidates (candidates : List SemanticType) : SemanticType :=
  match (candidates.flatMap candidateBranches).foldl addBranch [] with
  | [branch] => branch
  | branches => .union branches

/-- The element types of a tuple of fixed length. -/
def unpackedFixedTupleSemanticElements (ty : SemanticType) : Option (List SemanticType) :=
  match ty.genericParts with
  | some ("tuple", [_, .name "..."]) => none
  | some ("tuple", args) => some args
  | _ => none

/-- Splice the elements of unpacked fixed tuples into the arguments of a tuple. -/
def expandedTupleShapeSemanticArgs (args : List SemanticType) : List SemanticType :=
  args.flatMap fun arg =>
    match arg.unpackedInner.bind unpackedFixedTupleSemanticElements with
    | some elements => elements
    | none => [arg]

@[simp] theorem mem_addBranch (branches : List SemanticType) (branch ty : SemanticType) :
    ty ∈ addBranch branches branch ↔ ty ∈ branches ∨ ty = branch := by
  by_cases h : branch ∈ branches
  · simp only [addBranch, h, if_true]
    constructor
    · exact .inl
    · rintro (hty | rfl)
      · exact hty
      · exact h
  · simp [addBranch, h]

theorem mem_foldl_addBranch (types branches : List SemanticType) (ty : SemanticType) :
    ty ∈ types.foldl addBranch branches ↔ ty ∈ branches ∨ ty ∈ types := by
  induction types generalizing branches with
  | nil => simp
  | cons branch rest ih => rw [List.foldl_cons, ih, mem_addBranch, List.mem_cons, or_assoc]

end TypePython.Checking
