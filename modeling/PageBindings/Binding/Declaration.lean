import PageBindings.Binding.Action
import PageBindings.Json.Reader
import PageBindings.Json.Printer

/-!
# Declared bindings

An element declares its bindings in one attribute: a JSON object from event types to lists of entries, each of which
is `[kind]`, `[kind, endpoint]`, `[kind, settings]` or `[kind, settings, endpoint]`.  `Bindings.parse` reads such a
text.  It is all or nothing: the first fault, by event type and then by entry, is the answer.  `Bindings.toJson`
writes bindings out again.
-/

namespace PageBindings

/-- Why a declaration could not be read.  Entries are counted from zero within their event type. -/
inductive BindingError where
  | notJson
  | notAMapping
  | notAList (eventType : String)
  | malformedEntry (eventType : String) (index : Nat)
  | unknownKind (eventType kind : String)
  | unexpectedSecond (eventType : String) (index : Nat)
  /-- The target among the settings is not a string. -/
  | invalidTarget (eventType : String) (index : Nat) (found : Json)
  | invalidEndpoint (eventType : String) (index : Nat)

namespace BindingError

open Text (quoted)

/-- The wording of an error. -/
def message : BindingError → String
  | .notJson => "events attribute is not valid JSON"
  | .notAMapping => "events attribute must be a mapping from event type to a list of actions"
  | .notAList eventType => "actions for event type " ++ quoted eventType ++ " must be a list"
  | .malformedEntry eventType index =>
    "action entry #" ++ toString index ++ " for " ++ quoted eventType ++ " must be a non-empty list"
  | .unknownKind eventType kind => "unknown action kind " ++ quoted kind ++ " for " ++ quoted eventType
  | .unexpectedSecond eventType index =>
    "second element of action entry #" ++ toString index ++ " for " ++ quoted eventType ++
      " must be a config mapping or an endpoint list"
  | .invalidTarget eventType index found =>
    "config of action entry #" ++ toString index ++ " for " ++ quoted eventType ++ " is invalid: invalid type: " ++
      found.describe ++ ", expected a string"
  | .invalidEndpoint eventType index =>
    "endpoint of action entry #" ++ toString index ++ " for " ++ quoted eventType ++
      " must be a list starting with a URL path"

end BindingError

/-- The bindings of an element: the actions of each event type, sorted by event type. -/
structure Bindings where
  events : List (String × List Action)

namespace Bindings

/-- Equality, with numbers compared as numbers. -/
def same (a b : Bindings) : Bool :=
  a.events.length == b.events.length &&
    (a.events.zip b.events).all fun (e, f) =>
      e.1 == f.1 && e.2.length == f.2.length && (e.2.zip f.2).all fun (x, y) => x.same y

/-- The actions of an event type. -/
def actions? (bindings : Bindings) (eventType : String) : Option (List Action) :=
  (bindings.events.find? (·.1 == eventType)).map (·.2)

/-- The object that declares the bindings. -/
def toJson (bindings : Bindings) : Json :=
  .object (bindings.events.map fun (eventType, actions) => (eventType, .array (actions.map Action.declaration)))

/-- The endpoint that a list declares. -/
def readEndpoint? : Json → Option Endpoint
  | .array (.string path :: parameters) => some ⟨path, parameters⟩
  | _ => none

/-- The target among the settings; null counts as none. -/
def readTarget (eventType : String) (index : Nat) (settings : List (String × Json)) :
    Except BindingError (Option String) :=
  match Json.member? "target" settings with
  | none => .ok none
  | some .null => .ok none
  | some (.string target) => .ok (some target)
  | some found => .error (.invalidTarget eventType index found)

/-- The endpoint of an entry, if it has one. -/
def readEndpoint (eventType : String) (index : Nat) : Option Json → Except BindingError (Option Endpoint)
  | none => .ok none
  | some declared =>
    match readEndpoint? declared with
    | some endpoint => .ok (some endpoint)
    | none => .error (.invalidEndpoint eventType index)

/-- The settings and the endpoint among the parts of an entry after its kind. -/
def splitParts (eventType : String) (index : Nat) :
    List Json → Except BindingError (List (String × Json) × Option Json)
  | [] => .ok ([], none)
  | [.array endpoint] => .ok ([], some (.array endpoint))
  | [.object settings] => .ok (settings, none)
  | [.object settings, endpoint] => .ok (settings, some endpoint)
  | _ => .error (.unexpectedSecond eventType index)

/--
The action that an entry declares.  `selfTarget` selects the view of the element and is the target of an action that
names none.
-/
def readEntry (eventType : String) (selfTarget : Option String) (index : Nat) (entry : Json) :
    Except BindingError Action :=
  match entry with
  | .array (kind :: parts) =>
    if 2 < parts.length then .error (.malformedEntry eventType index)
    else
      match kind with
      | .string name =>
        match PatchKind.ofName? name with
        | none => .error (.unknownKind eventType name)
        | some kind => do
          let (settings, endpoint) ← splitParts eventType index parts
          let target ← readTarget eventType index settings
          let endpoint ← readEndpoint eventType index endpoint
          return {
            kind
            target := target.or selfTarget
            hints := settings.filter (·.1 != "target")
            endpoint }
      | _ => .error (.malformedEntry eventType index)
  | _ => .error (.malformedEntry eventType index)

/-- The actions that entries declare, counted from `index`. -/
def readEntries (eventType : String) (selfTarget : Option String) :
    Nat → List Json → Except BindingError (List Action)
  | _, [] => .ok []
  | index, entry :: rest => do
    let action ← readEntry eventType selfTarget index entry
    let actions ← readEntries eventType selfTarget (index + 1) rest
    return action :: actions

/-- The actions of one event type. -/
def readEvent (selfTarget : Option String) : String × Json → Except BindingError (String × List Action)
  | (eventType, .array entries) => do
    let actions ← readEntries eventType selfTarget 0 entries
    return (eventType, actions)
  | (eventType, _) => .error (.notAList eventType)

/-- The bindings that a value declares. -/
def ofJson (selfTarget : Option String) : Json → Except BindingError Bindings
  | .object members => do
    let events ← members.mapM (readEvent selfTarget)
    return ⟨events⟩
  | _ => .error .notAMapping

/-- The bindings that a text declares; `selfTarget` is the target of every action that names none. -/
def parse (text : String) (selfTarget : Option String) : Except BindingError Bindings :=
  match Json.parse? text with
  | none => .error .notJson
  | some value => ofJson selfTarget value

end Bindings

end PageBindings
