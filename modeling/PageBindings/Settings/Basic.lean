/-!
# Settings

What a client is told about the pages it works on.  Everything has a default, so that settings name only what differs.
-/

namespace PageBindings

/-- The names of the attributes by which a page declares its bindings and views. -/
structure Vocabulary where
  events : String := "silta-events"
  viewId : String := "silta-view-id"
  viewName : String := "silta-view-name"
  viewType : String := "silta-view-type"
deriving DecidableEq, Repr

/-- The settings of a client. -/
structure Settings where
  vocabulary : Vocabulary := {}
  /-- The query parameter that carries the list of parameters. -/
  parameterKey : String := "__params"
  /-- The request header that carries the client's id. -/
  idHeader : String := "client-id"
  /-- Selects the roots that are bound at the start. -/
  rootSelector : String := "body"
  /-- Where fragments are pushed from; without it there is no push channel. -/
  streamUrl : Option String := some "/stream"
  heartbeat : String := "ping"
  /-- Ends the push stream, alone or as the `msg` of an object. -/
  endWord : String := "end"
  /-- The event types whose default action is prevented. -/
  preventedTypes : List String := ["click", "submit"]
deriving DecidableEq, Repr

/-- Whether the default action of an event of this type is prevented. -/
def Settings.prevents (settings : Settings) (eventType : String) : Bool :=
  settings.preventedTypes.contains eventType

end PageBindings
