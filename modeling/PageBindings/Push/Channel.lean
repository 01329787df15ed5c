/-!
# Push channels

A client has one push channel for its life: a state, which is idle at first, then connecting, then open, and closed in
the end, and apart from that the stream that the channel holds.  The two are written separately.
-/

namespace PageBindings

/-- A stream that the page opened, by number. -/
abbrev StreamRef := Nat

/-- The state of a push channel. -/
inductive PushState where
  | idle
  | connecting
  | opened
  | closed
deriving DecidableEq, Repr

/-- The name of a state, as messages put it. -/
def PushState.name : PushState → String
  | .idle => "Idle"
  | .connecting => "Connecting"
  | .opened => "Open"
  | .closed => "Closed"

/-- The push channel of a client. -/
structure PushChannel where
  state : PushState
  stream? : Option StreamRef
deriving DecidableEq, Repr

namespace PushChannel

/-- The channel of a new client. -/
def idle : PushChannel :=
  ⟨.idle, none⟩

/-- The channel that has got a stream, which has not opened yet. -/
def connecting (stream : StreamRef) : PushChannel :=
  ⟨.connecting, some stream⟩

/-- The channel that has given up the stream it held, if any. -/
def closed : PushChannel :=
  ⟨.closed, none⟩

@[simp] theorem state_idle : idle.state = .idle := rfl

@[simp] theorem stream?_idle : idle.stream? = none := rfl

@[simp] theorem state_connecting (stream : StreamRef) : (connecting stream).state = .connecting := rfl

@[simp] theorem stream?_connecting (stream : StreamRef) : (connecting stream).stream? = some stream := rfl

@[simp] theorem state_closed : closed.state = .closed := rfl

@[simp] theorem stream?_closed : closed.stream? = none := rfl

/-- The channel for which no stream could be got. -/
def afterFailure (channel : PushChannel) : PushChannel :=
  { channel with state := .closed }

/-- The channel whose stream has opened.  That it holds this stream, and is not idle, is `World.turn_hear`. -/
def afterOpening (channel : PushChannel) : PushChannel :=
  { channel with state := .opened }

end PushChannel

end PageBindings
