import TypePython.Binding.Equality
import TypePython.Checking.ClassGraph
import TypePython.Lib.Linearization

/-!
# Classes as Python orders them

The classes a class lists as its bases, the order in which Python searches them, and what the body
of a class binds a name to.
-/

namespace TypePython.Checking

open TypePython.Lib
open TypePython.Binding

section

variable (nodes : List ModuleNode)

/-- The name a base is written with, without the arguments. -/
def baseClassName (text : String) : Option String :=
  semanticNominalOwnerName (lowerTypeTextOrName text)

/-- The class that a base of a class names. -/
def namedBase (cls : ClassRef) (text : String) : Option ClassRef :=
  (baseClassName text).bind (resolveDirectBase nodes cls.1)

/-- The classes a class derives from, in the order it lists them. -/
def listedBases (cls : ClassRef) : List ClassRef :=
  cls.2.renderedClassBases.filterMap (namedBase nodes cls)

/-- `order` is the method resolution order of a class. -/
def HasOrder (cls : ClassRef) (order : List ClassRef) : Prop :=
  Linearizes (listedBases nodes) cls order

end

/-- The declarations of a name in the body of a class. -/
def definitions (cls : ClassRef) (name : String) : List Declaration :=
  cls.1.declarations.filter fun declaration =>
    isOwnedBy cls.2.name declaration && declaration.name = name

/-- The body of a class binds a name. -/
def Defines (cls : ClassRef) (name : String) : Prop := definitions cls name ≠ []

instance (cls : ClassRef) (name : String) : Decidable (Defines cls name) :=
  inferInstanceAs (Decidable (definitions cls name ≠ []))

/-- The first class of an order that binds a name. -/
def firstDefining (order : List ClassRef) (name : String) : Option ClassRef :=
  order.find? fun cls => Defines cls name

end TypePython.Checking
