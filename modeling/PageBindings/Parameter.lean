import PageBindings.Json.Rebuild
import PageBindings.Page.Basic

/-!
# Parameters

The parameters of an endpoint are values in which lists with a marker in front stand for something else:
`["dynamic", resolver, arguments…]` for what the resolver reads from the page when the event fires, and
`["lit", value]` for the value as it is.  Neither is looked into any further; everything else is itself.
-/

namespace PageBindings

/-- A parameter that is read from the page. -/
structure DynamicParameter where
  resolver : String
  arguments : List Json

/-- The dynamic parameter that a value stands for. -/
def DynamicParameter.ofJson? : Json → Option DynamicParameter
  | .array (.string marker :: .string resolver :: arguments) =>
    if marker = "dynamic" then some ⟨resolver, arguments⟩ else none
  | _ => none

/-- Reads a value from the page. -/
abbrev Resolver (π : Type) := π → List Json → Except LookupError Json

/-- The resolvers by name. -/
structure Resolvers (π : Type) where
  find? : String → Option (Resolver π)

namespace Resolvers

variable {π : Type}

/-- No resolvers. -/
def empty : Resolvers π := ⟨fun _ => none⟩

/-- Adds a resolver, or replaces the one of that name. -/
def insert (resolvers : Resolvers π) (name : String) (resolver : Resolver π) : Resolvers π :=
  ⟨fun n => if n = name then some resolver else resolvers.find? n⟩

/-- What becomes of a node of a parameter. -/
def visit (resolvers : Resolvers π) (page : π) (node : Json) : Except LookupError Json.Visit :=
  match node with
  | .array [.string "lit", value] => .ok (.keep value)
  | node =>
    match DynamicParameter.ofJson? node with
    | none => .ok (.enter node)
    | some parameter =>
      match resolvers.find? parameter.resolver with
      | none => .error (.unknownResolver parameter.resolver)
      | some resolver => (resolver page parameter.arguments).map .keep

/-- The value that a parameter stands for; as many levels as the parameter is nested reach all of it. -/
def resolveOne (resolvers : Resolvers π) (page : π) (parameter : Json) : Except LookupError Json :=
  Json.rebuild (resolvers.visit page) (parameter.depth + 1) parameter

/-- The values that parameters stand for, or the first failure. -/
def resolve (resolvers : Resolvers π) (page : π) (parameters : List Json) : Except LookupError (List Json) :=
  parameters.mapM (resolvers.resolveOne page)

variable [Page π]

/-- The first element of the document that matches a selector. -/
def firstMatch (page : π) (selector : String) : Except LookupError NodeId :=
  match Page.query page none selector with
  | .error cause => .error (.page cause)
  | .ok [] => .error (.noParameterMatch selector)
  | .ok (node :: _) => .ok node

/-- The form value of the first element that matches a selector. -/
def formValue : Resolver π := fun page arguments =>
  match arguments with
  | [.string selector] => do
    let node ← firstMatch page selector
    match Page.value? page node with
    | some value => .ok (.string value)
    | none => .error (.noValue selector "form value")
  | _ => .error (.badArguments "value" "a single selector")

/-- An attribute of the first element that matches a selector. -/
def attributeValue : Resolver π := fun page arguments =>
  match arguments with
  | [.string selector, .string name] => do
    let node ← firstMatch page selector
    match Page.attribute? page node name with
    | some value => .ok (.string value)
    | none => .error (.noValue selector "such attribute")
  | _ => .error (.badArguments "attribute" "a selector and an attribute name")

/-- The resolvers that every client has. -/
def standard : Resolvers π :=
  (empty.insert "value" formValue).insert "attribute" attributeValue

end Resolvers

end PageBindings
