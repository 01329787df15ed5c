import PageBindings.Client.Actions
import PageBindings.Push.Message

/-!
# Worlds

A `World` is a page with the clients that work on it.  Clients come and go; what they leave on the page, listeners and
pending requests and streams, stays and does nothing once its client is gone.  Each push channel is moved by its own
client's steps alone.
-/

namespace PageBindings

/-- A page with its clients, by number, where the ones that are gone have left a gap. -/
structure World (π : Type) extends Scene π where
  clients : List (Option (Client π)) := []

/-- What happens to a push stream. -/
inductive StreamSignal where
  | opening
  | message (data : String)
  | failure (detail : String)
deriving DecidableEq, Repr

namespace World

variable {π : Type}

/-- The client of a number, unless it is gone or never was. -/
def client? (world : World π) (ref : ClientRef) : Option (Client π) :=
  (world.clients[ref]?).join

/-- The world with another scene. -/
def withScene (world : World π) (scene : Scene π) : World π :=
  { world with toScene := scene }

/-- Drops a client. -/
def drop (world : World π) (ref : ClientRef) : World π :=
  { world with clients := world.clients.set ref none }

/-- Moves the push channel of a client. -/
def setChannel (world : World π) (client : Client π) (channel : PushChannel) : World π :=
  { world with clients := world.clients.set client.ref (some { client with channel }) }

variable [Page π]

/-- Adds a client, with an id from the page. -/
def addClient (world : World π) (settings : Settings) (resolvers : Resolvers π) : World π × Client π :=
  let (id, page) := Page.freshClientId world.page
  let client := { ref := world.clients.length, settings, id, resolvers, channel := .idle }
  ({ world with page, clients := world.clients ++ [some client] }, client)

/-- Runs a listener, and says whether it prevents the default action of its event. -/
def notify (world : World π) (listener : Listener) : World π × Bool :=
  match world.client? listener.client with
  | none => (world.withScene (world.note (.orphanedEvent listener.eventType)), false)
  | some client =>
    let node := Page.currentTarget? world.page listener.node
    (world.withScene (client.run node listener.eventType listener.view world.toScene listener.actions),
      client.settings.prevents listener.eventType)

/-- Fires an event on an element, and says whether its default action is prevented. -/
def dispatch (world : World π) (node : NodeId) (eventType : String) : World π × Bool :=
  (Page.listeners world.page node eventType).foldl
    (fun (world, prevented) listener =>
      let (world, prevents) := world.notify listener
      (world, prevented || prevents))
    (world, false)

/-- Delivers the outcome of a request to the client that sent it, unless it is gone. -/
def complete (world : World π) (errand : Errand) (outcome : Outcome) : World π :=
  match world.client? errand.client with
  | none => world
  | some client => world.withScene (client.complete world.toScene errand outcome)

/-- Opens the push channel of a client.  There is only ever one, and a closed one stays closed. -/
def connect (world : World π) (client : Client π) : World π × Except ConnectionError Unit :=
  match client.settings.streamUrl with
  | none => (world, .error (.stream "no stream URL configured"))
  | some url =>
    if client.channel.state = .idle then
      match Page.subscribe world.page url client.ref with
      | .ok (stream, page) => ({ world with page }.setChannel client (.connecting stream), .ok ())
      | .error cause => (world.setChannel client client.channel.afterFailure, .error (.page cause))
    else (world.withScene (world.note (.channelInUse client.channel.state.name)), .ok ())

/-- Closes the push channel of a client for good. -/
def close (world : World π) (client : Client π) : World π :=
  let world := match client.channel.stream? with
    | some stream => { world with page := Page.unsubscribe world.page stream }
    | none => world
  world.setChannel client .closed

/-- Delivers a message of the push stream to a client. -/
def receive (world : World π) (client : Client π) (data : String) : World π :=
  match StreamMessage.ofData client.settings data with
  | .heartbeat => world
  | .ending => world.close client
  | .fragment html =>
    match client.swapPushed world.toScene html with
    | (scene, .ok _) => world.withScene scene
    | (scene, .error cause) => world.withScene (scene.note (.droppedFragment cause))

/-- Delivers a signal of a push stream to the client that opened it, unless that is gone or has closed its channel. -/
def hear (world : World π) (owner : ClientRef) (signal : StreamSignal) : World π :=
  match world.client? owner with
  | none => world
  | some client =>
    if client.channel.state = .closed then world
    else
      match signal with
      | .opening => world.setChannel client client.channel.afterOpening
      | .failure detail => (world.withScene (world.note (.failedTransport (.stream detail)))).close client
      | .message data => world.receive client data

/-- Binds the roots of a client and opens its push channel, if it has one; gives the number of listeners added. -/
def start (world : World π) (client : Client π) : World π × Except PageError Nat :=
  match Page.query world.page none client.settings.rootSelector with
  | .error cause => (world, .error cause)
  | .ok roots =>
    let (scene, added) := client.scan world.toScene roots
    let world := world.withScene scene
    if client.settings.streamUrl.isSome then
      match world.connect client with
      | (world, .ok ()) => (world, .ok added)
      | (world, .error cause) => (world.withScene (world.note (.unopenedChannel cause)), .ok added)
    else (world, .ok added)

end World

end PageBindings
