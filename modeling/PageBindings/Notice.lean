import PageBindings.Binding.Declaration
import PageBindings.Failure
import PageBindings.Node

/-!
# Notices

Failures that nobody waits for are reported as notices, in the order in which they happen.  `Notice.line` words one;
how an element is called is the page's business.
-/

namespace PageBindings

/-- Something worth reporting. -/
inductive Notice where
  | unreadableBindings (node : NodeId) (cause : BindingError)
  | refusedListener (eventType : String) (node : NodeId) (cause : PageError)
  | failedScan (node : NodeId) (cause : PageError)
  | failedMutation (kind : PatchKind) (cause : PageError)
  | skippedAction (eventType : String) (action : Action) (node : Option NodeId) (cause : LookupError)
  | abortedAction (eventType : String) (action : Action) (node : Option NodeId) (cause : LookupError)
  | failedPatch (kind : PatchKind) (target : String) (cause : PatchError)
  | failedTransport (cause : ConnectionError)
  | orphanedEvent (eventType : String)
  | unopenedChannel (cause : ConnectionError)
  | channelInUse (state : String)
  | droppedFragment (cause : PatchError)
  | unmarkedNode (node : NodeId)
  | unmarkedEvent (eventType : String) (node : NodeId)
  | stuckMark (eventType : String) (node : NodeId)

namespace Notice

/-- How grave a notice is. -/
inductive Severity where
  | error
  | warning
deriving DecidableEq, Repr

/-- A warning is about something that has no effect; everything else is an error. -/
def severity : Notice → Severity
  | .orphanedEvent _ | .channelInUse _ => .warning
  | _ => .error

mutual

/-- A value as messages show it, with the type of each part. -/
def shown : Json → String
  | .null => "Null"
  | .bool b => "Bool(" ++ (if b then "true" else "false") ++ ")"
  | .number n => "Number(" ++ String.ofList (Json.writeNumber n) ++ ")"
  | .string s => "String(" ++ Text.quoted s ++ ")"
  | .array items => "Array [" ++ shownItems items ++ "]"
  | .object members => "Object \x7b" ++ shownMembers members ++ "\x7d"

/-- Items as messages show them. -/
def shownItems : List Json → String
  | [] => ""
  | [v] => shown v
  | v :: rest => shown v ++ ", " ++ shownItems rest

/-- Members as messages show them. -/
def shownMembers : List (String × Json) → String
  | [] => ""
  | [(k, v)] => Text.quoted k ++ ": " ++ shown v
  | (k, v) :: rest => Text.quoted k ++ ": " ++ shown v ++ ", " ++ shownMembers rest

end

/-- The settings of an action as messages show them. -/
def shownSettings (action : Action) : String :=
  let target := match action.target with
    | some target => "Some(" ++ Text.quoted target ++ ")"
    | none => "None"
  "ActionConfig \x7b target: " ++ target ++ ", hints: \x7b" ++ shownMembers action.hints ++ "\x7d \x7d"

/-- An element that may be missing, as messages show it. -/
def shownOptional (label : NodeId → String) : Option NodeId → String
  | some node => "Some(" ++ label node ++ ")"
  | none => "None"

/-- The wording of a notice; `label` names the elements of the page. -/
def message (label : NodeId → String) : Notice → String
  | .unreadableBindings node cause => "Failed to parse events for node " ++ label node ++ ": " ++ cause.message
  | .refusedListener eventType node cause =>
    "Failed to add '" ++ eventType ++ "' listener to " ++ label node ++ ": " ++ cause.message
  | .failedScan node cause => "Failed to scan below " ++ label node ++ ": " ++ cause.message
  | .failedMutation kind cause => "Failed to " ++ kind.name ++ " element: " ++ cause.message
  | .skippedAction eventType action node cause =>
    "Skipping '" ++ eventType ++ "' " ++ action.kind.name ++ " action of node " ++ shownOptional label node ++
      " (config " ++ shownSettings action ++ "): " ++ cause.message
  | .abortedAction eventType action node cause =>
    "Aborting '" ++ eventType ++ "' " ++ action.kind.name ++ " action of node " ++ shownOptional label node ++
      ", entry " ++ action.declaration.render ++ ": " ++ cause.message
  | .failedPatch kind target cause => kind.name ++ " of " ++ Text.quoted target ++ " failed: " ++ cause.message
  | .failedTransport cause => cause.message
  | .orphanedEvent eventType => "'" ++ eventType ++ "' fired after its runtime was dropped."
  | .unopenedChannel cause => "Failed to open push channel: " ++ cause.message
  | .channelInUse state => "Push channel already " ++ state ++ "; not opening another."
  | .droppedFragment cause => "Dropping pushed fragment: " ++ cause.message
  | .unmarkedNode node => "Could not mark " ++ label node ++ " as bound. It may be bound again."
  | .unmarkedEvent eventType node =>
    "Could not mark JsValue(" ++ Text.quoted eventType ++ ") as bound on " ++ label node ++
      ". It may be bound again."
  | .stuckMark eventType node => "Could not unmark '" ++ eventType ++ "' on " ++ label node ++ "."

/-- The line of a notice in a log. -/
def line (label : NodeId → String) (notice : Notice) : String :=
  (match notice.severity with
    | .error => "ERROR "
    | .warning => "WARN ") ++ notice.message label

end Notice

end PageBindings
