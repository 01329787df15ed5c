import PageBindings.Settings.Basic
import PageBindings.Json.Reader
import PageBindings.Text.Blank

/-!
# Messages of a push stream

A message is a heartbeat, the end of the stream, or a fragment of content (`StreamMessage.ofData`).  Blanks around a
control message do not matter; a fragment keeps its own.
-/

namespace PageBindings

/-- What a message of a push stream is. -/
inductive StreamMessage where
  | heartbeat
  | ending
  | fragment (html : String)
deriving DecidableEq, Repr

namespace StreamMessage

/-- Whether a text is a JSON object whose `msg` is the given string. -/
def isObjectSaying (message text : String) : Bool :=
  match Json.parse? text with
  | some (.object members) =>
    match Json.member? "msg" members with
    | some (.string said) => said == message
    | _ => false
  | _ => false

/-- Sorts a message: heartbeats go first, then the end, as the bare word or as an object saying it. -/
def ofData (settings : Settings) (data : String) : StreamMessage :=
  let trimmed := Text.trim data
  if trimmed = settings.heartbeat then .heartbeat
  else if trimmed = settings.endWord ∨ isObjectSaying settings.endWord trimmed then .ending
  else .fragment data

end StreamMessage

end PageBindings
