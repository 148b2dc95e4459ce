import Fleet.Text.Quoted

/-!
# Progress

What whoever watches a pass gets to see: a line for each operation when it
begins, when it is done and when it fails, under the service it belongs to.
Events go into a channel; once nobody watches any more they are lost, and the
ones already sent can still be read.

## Main definitions

* `Event`: A change of status.
* `Channel`: The events sent so far.
-/

namespace Fleet

/-- The status an event reports. -/
inductive Status
  -- An operation has begun.
  | working
  -- An operation is done.
  | done
  -- An operation failed.
  | failed
  deriving DecidableEq

/-- The name of a status. -/
def Status.name : Status → String
  | working => "Working"
  | done => "Done"
  | failed => "Error"

/-- A change of status of one service. -/
structure Event where
  -- What the status belongs to.
  id : String
  status : Status
  -- The status in words.
  text : String
  deriving DecidableEq

/-- An event of a service. -/
def Event.ofService (service : String) (status : Status) (text : String) : Event :=
  ⟨"Service " ++ Text.quoted service, status, text⟩

/-- The events sent to whoever watches. -/
structure Channel where
  -- Events in the order they were sent.
  sent : List Event
  -- Somebody still watches.
  watched : Bool

namespace Channel

/-- A channel that is watched from the start. -/
def fresh : Channel := ⟨[], true⟩

/-- Sends an event; it is lost if nobody watches. -/
def send (channel : Channel) (event : Event) : Channel :=
  if channel.watched then { channel with sent := channel.sent ++ [event] } else channel

/-- Whoever watches goes away. -/
def close (channel : Channel) : Channel := { channel with watched := false }

end Channel

end Fleet
