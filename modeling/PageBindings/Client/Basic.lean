import PageBindings.Parameter
import PageBindings.Patch
import PageBindings.Binding.Discovery

/-!
# Clients

A client works on one page: it binds the elements that declare bindings (`Client.scan`) and patches the page
(`Client.patch`), after which it binds the new content.  An event type is bound on an element only once, by whichever
client comes first.
-/

namespace PageBindings

/-- What a client is made of.  Its id goes out with every request. -/
structure Client (π : Type) where
  ref : ClientRef
  settings : Settings
  id : String
  resolvers : Resolvers π
  channel : PushChannel

namespace Client

variable {π : Type} [Page π]

/-- Binds one event type of an element, unless it is bound there already, and gives the number of listeners added. -/
def bindEvent (client : Client π) (node : NodeId) (view : Option View) (scene : Scene π)
    (event : String × List Action) : Scene π × Nat :=
  let (eventType, actions) := event
  match scene.claim node eventType with
  | (scene, false) => (scene, 0)
  | (scene, true) =>
    match Page.listen scene.page { node, eventType, client := client.ref, view, actions } with
    | .ok page => ({ scene with page }, 1)
    | .error cause => ((scene.release node eventType).note (.refusedListener eventType node cause), 0)

/-- Binds event types of an element in turn, and gives the number of listeners added. -/
def bindEvents (client : Client π) (node : NodeId) (view : Option View) (scene : Scene π)
    (events : List (String × List Action)) : Scene π × Nat :=
  events.foldl
    (fun (scene, added) event =>
      let (scene, more) := client.bindEvent node view scene event
      (scene, added + more))
    (scene, 0)

/-- Binds what an element declares, and gives the number of listeners added. -/
def bind (client : Client π) (scene : Scene π) (node : NodeId) : Scene π × Except BindingError Nat :=
  let names := client.settings.vocabulary
  match Page.attribute? scene.page node names.events with
  | none => (scene, .ok 0)
  | some declared =>
    let view := Page.view? scene.page names node
    match Bindings.parse declared (view.map (View.selector names)) with
    | .error cause => (scene, .error cause)
    | .ok bindings =>
      let (scene, added) := client.bindEvents node view scene bindings.events
      (scene, .ok added)

/-- Binds an element as part of a scan: a declaration that cannot be read is reported, and adds nothing. -/
def bindReporting (client : Client π) (scene : Scene π) (node : NodeId) : Scene π × Nat :=
  match client.bind scene node with
  | (scene, .ok added) => (scene, added)
  | (scene, .error cause) => (scene.note (.unreadableBindings node cause), 0)

/--
Binds the elements that declare bindings among the roots and below them, and gives the number of listeners added.
-/
def scan (client : Client π) (scene : Scene π) (roots : List NodeId) : Scene π × Nat :=
  let (scene, found) := declaringElements client.settings.vocabulary.events scene roots
  found.foldl
    (fun (scene, added) node =>
      let (scene, more) := client.bindReporting scene node
      (scene, added + more))
    (scene, 0)

/-- Binds what a patch has put in. -/
def bindInserted (client : Client π) (scene : Scene π) (outcome : PatchOutcome) : Scene π :=
  (client.scan scene outcome.toBind).1

/-- Patches the elements that match a selector and binds what that has put in. -/
def patch (client : Client π) (scene : Scene π) (kind : PatchKind) (selector : String) (fragment : Option String) :
    Scene π × Except PatchError PatchOutcome :=
  match PageBindings.patch kind selector fragment scene with
  | (scene, .error cause) => (scene, .error cause)
  | (scene, .ok outcome) => (client.bindInserted scene outcome, .ok outcome)

/-- Patches as part of an action: a failure is reported. -/
def patchReporting (client : Client π) (scene : Scene π) (kind : PatchKind) (selector : String)
    (fragment : Option String) : Scene π :=
  match client.patch scene kind selector fragment with
  | (scene, .ok _) => scene
  | (scene, .error cause) => scene.note (.failedPatch kind selector cause)

end Client

end PageBindings
