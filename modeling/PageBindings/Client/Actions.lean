import PageBindings.Binding.Target
import PageBindings.Client.Basic

/-!
# Running actions

When an event fires, the actions bound to it run in order (`Client.run`), each on the page that the one before has
left.  An action without an endpoint patches at once; one with an endpoint sends a request, and its patch is made when
the response arrives (`Client.complete`).  An action that fails is reported and does not hold up the others.
-/

namespace PageBindings

/-- What became of a request. -/
abbrev Outcome := Except PageError Response

namespace Client

variable {π : Type} [Page π]

/-- Resolves the parameters of an action and sends its request. -/
def request (client : Client π) (node : Option NodeId) (eventType : String) (scene : Scene π) (action : Action)
    (endpoint : Endpoint) (target : String) : Scene π :=
  match client.resolvers.resolve scene.page endpoint.parameters with
  | .error cause => scene.note (.abortedAction eventType action node cause)
  | .ok parameters =>
    let request := Request.forEndpoint client.settings client.id endpoint.path parameters
    match Page.send scene.page request { client := client.ref, kind := action.kind, target } with
    | .ok page => { scene with page }
    | .error cause => scene.note (.failedTransport (.page cause))

/-- Runs one action of an element. -/
def runAction (client : Client π) (node : Option NodeId) (eventType : String) (view : Option View) (scene : Scene π)
    (action : Action) : Scene π :=
  match targetSelector client.settings.vocabulary action.target view with
  | .error cause => scene.note (.skippedAction eventType action node cause)
  | .ok target =>
    match action.endpoint with
    | none => client.patchReporting scene action.kind target none
    | some endpoint => client.request node eventType scene action endpoint target

/-- Runs actions one after the other. -/
def run (client : Client π) (node : Option NodeId) (eventType : String) (view : Option View) (scene : Scene π)
    (actions : List Action) : Scene π :=
  actions.foldl (client.runAction node eventType view) scene

/-- Makes the patch that a request was for, if it succeeded. -/
def complete (client : Client π) (scene : Scene π) (errand : Errand) (outcome : Outcome) : Scene π :=
  match outcome with
  | .error cause => scene.note (.failedTransport (.request cause.message))
  | .ok response =>
    if response.status = 200 then client.patchReporting scene errand.kind errand.target (some response.body)
    else scene.note (.failedTransport (.status response.status))

/--
Swaps a pushed fragment in for the first element of the document with the view id of its root, and binds it.  If there
is no such element, or no such root, the document stays as it is.
-/
def swapPushed (client : Client π) (scene : Scene π) (html : String) : Scene π × Except PatchError PatchOutcome :=
  let viewId := client.settings.vocabulary.viewId
  match Page.create scene.page html with
  | .error cause => (scene, .error (.page cause))
  | .ok (none, page) => ({ scene with page }, .error (.content .noElement))
  | .ok (some element, page) =>
    let scene := { scene with page }
    match Page.attribute? page element viewId with
    | none => (scene, .error (.lookup .missingViewId))
    | some id =>
      match Page.query page none (Selector.forAttribute viewId id) with
      | .error cause => (scene, .error (.page cause))
      | .ok [] => (scene, .error (.lookup (.unknownView id)))
      | .ok (target :: _) =>
        match insertElement .swap page target element with
        | .error cause => (scene, .error (.page cause))
        | .ok page =>
          let outcome : PatchOutcome := { kind := .swap, inserted := [element] }
          (client.bindInserted { scene with page } outcome, .ok outcome)

end Client

end PageBindings
