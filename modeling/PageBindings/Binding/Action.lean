import PageBindings.Json.Basic

/-!
# Actions

An action says how to patch the page when an event fires: the kind of patch, the target, and the endpoint that
supplies the new content.  Its entry (`Action.declaration`) is the JSON form in which a page declares it.
-/

namespace PageBindings

/-- The ways to patch an element: put new content in its place, into it at the end or at the start; remove it; or
reset a form or form control. -/
inductive PatchKind where
  | swap
  | append
  | prepend
  | remove
  | reset
deriving DecidableEq, Repr

namespace PatchKind

/-- The name of a kind. -/
def name : PatchKind → String
  | .swap => "swap"
  | .append => "append"
  | .prepend => "prepend"
  | .remove => "remove"
  | .reset => "reset"

/-- The kind with this name. -/
def ofName? (name : String) : Option PatchKind :=
  if name = "swap" then some .swap
  else if name = "append" then some .append
  else if name = "prepend" then some .prepend
  else if name = "remove" then some .remove
  else if name = "reset" then some .reset
  else none

@[simp] theorem ofName?_name (kind : PatchKind) : ofName? kind.name = some kind := by
  cases kind <;> rfl

/-- Whether the kind puts new content into the page, and so needs a fragment to make it from. -/
def creates : PatchKind → Bool
  | .swap | .append | .prepend => true
  | .remove | .reset => false

/-- Whether there is anything to bind after a patch of this kind: where there is new content. -/
def bindsAfterwards (kind : PatchKind) : Bool :=
  kind.creates

end PatchKind

/-- Where the content of an action comes from, and the parameters that are sent there. -/
structure Endpoint where
  path : String
  parameters : List Json

/-- One action of a binding.  Without an endpoint it is local and patches without content. -/
structure Action where
  kind : PatchKind
  /-- The selector of the elements to patch, if the action names one. -/
  target : Option String
  /-- The other settings of the action, which have no meaning here, sorted by name. -/
  hints : List (String × Json)
  endpoint : Option Endpoint

namespace Endpoint

/-- Equality, with numbers compared as numbers. -/
def same (a b : Endpoint) : Bool :=
  a.path == b.path && Json.sameItems a.parameters b.parameters

/-- The list of path and parameters that declares an endpoint. -/
def declaration (endpoint : Endpoint) : Json :=
  .array (.string endpoint.path :: endpoint.parameters)

end Endpoint

namespace Action

/-- Equality, with numbers compared as numbers. -/
def same (a b : Action) : Bool :=
  a.kind == b.kind && a.target == b.target && Json.sameMembers a.hints b.hints &&
    match a.endpoint, b.endpoint with
    | some e, some f => e.same f
    | none, none => true
    | _, _ => false

/-- The settings of an action: its hints, and its target among them. -/
def settings (action : Action) : List (String × Json) :=
  match action.target with
  | some target => Json.insertMember "target" (.string target) action.hints
  | none => action.hints

/-- The list of kind, settings and endpoint that declares an action. -/
def declaration (action : Action) : Json :=
  .array (.string action.kind.name :: .object action.settings :: (action.endpoint.map Endpoint.declaration).toList)

end Action

end PageBindings
