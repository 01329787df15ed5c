import PageBindings.Script.Step

/-!
# Sessions on a page in memory

A session is a script on a page in memory, with one client from the start.  Besides the steps of clients and of the
page, it makes and drops clients, answers requests, feeds the push stream that was opened last, and switches
capabilities off and on.
-/

namespace PageBindings.Script

/-- Which pending request is meant. -/
inductive RequestRef where
  | number (index : Nat)
  | first
  | last

/-- A step of a session. -/
inductive MemoryStep where
  | addClient (settings : Option String) (resolvers : List (String × SampleResolver))
  | dropClient (client : ClientRef)
  | withClient (client : ClientRef) (step : ClientStep)
  | onPage (step : PageStep)
  | respond (request : RequestRef) (outcome : Outcome)
  | stream (signal : StreamSignal)
  | refuse (capability : MemoryPage.Capability) (off : Bool)

/-- The pending request that is meant, with its errand. -/
def pendingRequest? (exchanges : List Exchange) : RequestRef → Option (Nat × Errand)
  | .number index => (Exchange.pending? exchanges index).map fun errand => (index, errand)
  | .first => (pendingRequests exchanges).head?
  | .last => (pendingRequests exchanges).getLast?
where
  pendingRequests (exchanges : List Exchange) : List (Nat × Errand) :=
    exchanges.zipIdx.filterMap fun (exchange, index) => exchange.errand.map fun errand => (index, errand)

/-- Performs a step of a session. -/
def MemoryStep.perform (world : World MemoryPage) : MemoryStep → Result MemoryPage
  | .addClient settings added =>
    match readSettings settings with
    | .error cause => (world, .error (.settings cause))
    | .ok settings =>
      let (world, client) := world.addClient settings (resolversWith added)
      (world, .ok (.text client.id))
  | .dropClient ref =>
    if ref < world.clients.length then (world.drop ref, .ok .nothing) else (world, .error .noSuchClient)
  | .withClient ref step =>
    match world.client? ref with
    | some client => step.perform world client
    | none => (world, .error .noSuchClient)
  | .onPage step => step.perform world
  | .respond ref outcome =>
    match pendingRequest? world.page.exchanges ref with
    | none => (world, .error .noSuchRequest)
    | some (index, errand) =>
      let page := { world.page with exchanges := Exchange.settle world.page.exchanges index }
      ({ world with page }.complete errand outcome, .ok (.number index))
  | .stream signal =>
    match world.page.streams.getLast? with
    | none => (world, .error .noStream)
    | some latest => (world.hear latest.owner signal, .ok .nothing)
  | .refuse capability off => ({ world with page := world.page.setRefused capability off }, .ok .nothing)

/-- A session: the world, and the outline that was last reported. -/
structure MemorySession where
  world : World MemoryPage
  shown : Option Outline

/-- What a session reports after a step. -/
structure MemoryReport where
  answer : Except Fault Answer
  log : List String
  sent : List Request
  channels : List (Option String)
  /-- The URL of the stream that was opened last. -/
  stream : Option String
  /-- How many times a stream was closed. -/
  closings : Nat
  /-- The outline of the document, if it has changed. -/
  outline : Option (Option Outline)

namespace MemorySession

/-- A session on a page with the given markup in its body. -/
def begin (markup : String) (settings : Settings) (added : List (String × SampleResolver)) : MemorySession :=
  let world : World MemoryPage := { page := MemoryPage.withBody markup }
  let (world, _) := world.addClient settings (resolversWith added)
  { world, shown := Outline.ofPage world.page }

/-- Performs a step and reports what it did. -/
def step (session : MemorySession) (step : MemoryStep) : MemorySession × MemoryReport :=
  let before := session.world.page.exchanges.length
  let (world, answer) := step.perform session.world
  let page := world.page
  let outline := Outline.ofPage page
  let report : MemoryReport := {
    answer
    log := logLines MemoryPage.label world.notices
    sent := (page.exchanges.drop before).map Exchange.request
    channels := channelStates world.clients
    stream := page.streams.getLast?.map MemoryPage.Stream.url
    closings := page.closed.length
    outline := if outline == session.shown then none else some outline }
  ({ world := { world with notices := [] }, shown := outline }, report)

end MemorySession

end PageBindings.Script
