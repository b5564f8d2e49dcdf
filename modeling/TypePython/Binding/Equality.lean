import TypePython.Binding.Graph

/-!
# Equality of declarations and modules

Type expressions and guards are nested, so their equality tests are proved right by recursion;
equality of declarations and modules is derived.
-/

namespace TypePython.Syntax

mutual

theorem TypeExpr.beq_iff : ∀ a b : TypeExpr, a.beq b = true ↔ a = b
  | .name a, b => by cases b <;> simp [TypeExpr.beq]
  | .generic h as, b => by cases b <;> simp [TypeExpr.beq, beqExprs_iff as]
  | .callable p r, b => by
    cases b <;> simp [TypeExpr.beq, CallableParamExpr.beq_iff p, TypeExpr.beq_iff r]
  | .union bs style, b => by cases b <;> simp [TypeExpr.beq, beqExprs_iff bs]
  | .annotated v m, b => by cases b <;> simp [TypeExpr.beq, TypeExpr.beq_iff v]
  | .unpack t, b => by cases b <;> simp [TypeExpr.beq, TypeExpr.beq_iff t]

theorem CallableParamExpr.beq_iff : ∀ a b : CallableParamExpr, a.beq b = true ↔ a = b
  | .ellipsis, b => by cases b <;> simp [CallableParamExpr.beq]
  | .paramList ts, b => by cases b <;> simp [CallableParamExpr.beq, beqExprs_iff ts]
  | .concatenate ts, b => by cases b <;> simp [CallableParamExpr.beq, beqExprs_iff ts]
  | .single t, b => by cases b <;> simp [CallableParamExpr.beq, TypeExpr.beq_iff t]

theorem beqExprs_iff : ∀ as bs : List TypeExpr, beqExprs as bs = true ↔ as = bs
  | [], bs => by cases bs <;> simp [beqExprs]
  | a :: as, bs => by cases bs <;> simp [beqExprs, TypeExpr.beq_iff a, beqExprs_iff as]

end

instance : DecidableEq TypeExpr := fun a b => decidable_of_iff _ (TypeExpr.beq_iff a b)

instance : LawfulBEq TypeExpr where
  eq_of_beq := (TypeExpr.beq_iff _ _).1
  rfl := (TypeExpr.beq_iff _ _).2 rfl

end TypePython.Syntax

namespace TypePython.Binding

mutual

def GuardConditionSite.beq : GuardConditionSite → GuardConditionSite → Bool
  | .isNone name negated, .isNone name' negated' => name == name' && negated == negated'
  | .isInstance name types, .isInstance name' types' => name == name' && types == types'
  | .predicateCall name callee, .predicateCall name' callee' => name == name' && callee == callee'
  | .truthyName name, .truthyName name' => name == name'
  | .not inner, .not inner' => inner.beq inner'
  | .and parts, .and parts' => beqGuards parts parts'
  | .or parts, .or parts' => beqGuards parts parts'
  | _, _ => false

def beqGuards : List GuardConditionSite → List GuardConditionSite → Bool
  | [], [] => true
  | guard :: rest, guard' :: rest' => guard.beq guard' && beqGuards rest rest'
  | _, _ => false

end

mutual

theorem GuardConditionSite.beq_iff : ∀ a b : GuardConditionSite, a.beq b = true ↔ a = b
  | .isNone name negated, b => by cases b <;> simp [GuardConditionSite.beq]
  | .isInstance name types, b => by cases b <;> simp [GuardConditionSite.beq]
  | .predicateCall name callee, b => by cases b <;> simp [GuardConditionSite.beq]
  | .truthyName name, b => by cases b <;> simp [GuardConditionSite.beq]
  | .not inner, b => by
    cases b <;> simp [GuardConditionSite.beq, GuardConditionSite.beq_iff inner]
  | .and parts, b => by cases b <;> simp [GuardConditionSite.beq, beqGuards_iff parts]
  | .or parts, b => by cases b <;> simp [GuardConditionSite.beq, beqGuards_iff parts]

theorem beqGuards_iff : ∀ as bs : List GuardConditionSite, beqGuards as bs = true ↔ as = bs
  | [], bs => by cases bs <;> simp [beqGuards]
  | a :: as, bs => by
    cases bs <;> simp [beqGuards, GuardConditionSite.beq_iff a, beqGuards_iff as]

end

instance : DecidableEq GuardConditionSite := fun a b =>
  decidable_of_iff _ (GuardConditionSite.beq_iff a b)

deriving instance DecidableEq for BoundTypeExpr
deriving instance DecidableEq for DirectFunctionParamSite
deriving instance ReflBEq for DirectFunctionParamSite
deriving instance LawfulBEq for DirectFunctionParamSite
deriving instance DecidableEq for BoundCallableSignature
deriving instance DecidableEq for DeclarationMetadata
deriving instance DecidableEq for GenericTypeParam
deriving instance DecidableEq for Declaration
deriving instance DecidableEq for IfGuardSite
deriving instance DecidableEq for AssertGuardSite
deriving instance DecidableEq for ModuleNode

end TypePython.Binding
