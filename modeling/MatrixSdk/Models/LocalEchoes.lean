/-
The local echoes of a room, `src/models/room.js`, as far as redactions and relations are concerned.

An event and its redaction may both be pending. A pending redaction is applied at once, looked up in
the list of pending events and then in the timeline; when it is cancelled its target is looked up in
the timeline alone. The room has one timeline set. Events are named by their objects, so that an id
that is replaced once the event is sent is not seen here.
-/
import MatrixSdk.Lib.System
import MatrixSdk.Models.Relations

set_option autoImplicit false

namespace MatrixSdk.Models

open MatrixSdk.Lib

/-- A `Room`. There is a list of pending events only if these are detached from the timeline;
`txnToEvent` has the local events whose remote echo has not come. -/
structure EchoRoom where
  set : RelationsState
  pendingEventList : Option (List String)
  txnToEvent : List String

namespace RelationsState

variable (st : RelationsState)

/-- An event that is pending redacts its target. -/
def redactLocally (pending : List String) (e : String) : Option RelationsState :=
  if (st.event e).isRedaction then
    match (st.event e).redacts.bind fun id =>
        (pending.find? (· = id)).or (st.findEventById id) with
    | none => some st
    | some redactedEvent => (st.markLocallyRedacted redactedEvent e).toOption
  else some st

/-- An event that has been received redacts its target. -/
def redactReceived (e : String) : Option RelationsState :=
  if (st.event e).isRedaction then
    match (st.event e).redacts.bind st.findEventById with
    | none => some st
    | some redactedEvent => (st.makeRedacted redactedEvent e).toOption
  else some st

/-- `_revertRedactionLocalEcho`. -/
def revertRedactionLocalEcho (redactionEvent : String) : Option RelationsState :=
  match (st.event redactionEvent).redacts.bind st.findEventById with
  | none => some st
  | some redactedEvent =>
    let st := st.unmarkLocallyRedacted redactedEvent
    if (st.event redactedEvent).getRelation.isSome then
      (st.aggregateRelations redactedEvent).toOption
    else some st

/-- An event joins the timeline unless it is there. -/
def addOnce (e : String) : Option RelationsState :=
  if e ∈ st.timeline then some st else (st.addEventToTimeline e).toOption

end RelationsState

namespace EchoRoom

variable (room : EchoRoom)

/-- `addPendingEvent`. -/
def addPendingEvent (e : String) : Option EchoRoom :=
  if (room.set.event e).status ≠ some .sending ∨ e ∈ room.txnToEvent then none
  else
    match room.pendingEventList with
    | none =>
      (room.set.addEventToTimeline e).toOption.map fun set =>
        { room with set := set, txnToEvent := room.txnToEvent ++ [e] }
    | some pending =>
      let notSent := pending.any fun e => (room.set.event e).status = some .notSent
      let set := if notSent then (room.set.setStatus e (some .notSent)).toOption else some room.set
      let set := set.bind fun set =>
        if (set.event e).getRelation.isSome then (set.aggregateRelations e).toOption else some set
      let set := set.bind fun set => set.redactLocally (pending ++ [e]) e
      set.map fun set => ⟨set, some (pending ++ [e]), room.txnToEvent ++ [e]⟩

/-- `_addLiveEvent` of an event that is no echo. What the server sends has no status. -/
def addLiveEvent (e : String) : Option EchoRoom :=
  if (room.set.event e).isSending ∨ e ∈ room.txnToEvent then none
  else
    ((room.set.redactReceived e).bind fun set => set.addOnce e).map fun set =>
      { room with set := set }

/-- An event of a page that has been fetched joins the timeline. -/
def addEventsToTimeline (e : String) : Option EchoRoom :=
  if (room.set.event e).isSending ∨ e ∈ room.txnToEvent then none
  else (room.set.addOnce e).map fun set => { room with set := set }

/-- `_addLiveEvent` of the remote echo of a local event. The server sends what it has been sent, with
a timestamp of its own. -/
def handleRemoteEcho (e : String) (originServerTs : ℕ) : Option EchoRoom :=
  if e ∉ room.txnToEvent then none
  else
    let set := (room.set.redactReceived e).bind fun set =>
      ((set.setEvent e { set.event e with originServerTs := originServerTs }).setStatus
        e none).toOption
    (set.bind fun set => set.addOnce e).map fun set =>
      ⟨set, room.pendingEventList.map fun pending => pending.erase e, room.txnToEvent.erase e⟩

/-- `updatePendingEvent`. -/
def updatePendingEvent (e : String) (newStatus : EventStatus) : Option EchoRoom :=
  if newStatus = .sent ∧ e ∈ room.set.timeline ∧ e ∉ room.txnToEvent then some room
  else
    (room.set.event e).status.bind fun oldStatus =>
      if newStatus ∉ allowedTransitions oldStatus then none
      else
        (room.set.setStatus e (some newStatus)).toOption.bind fun set =>
          if newStatus ≠ .cancelled then some { room with set := set }
          else
            let pending := room.pendingEventList.getD []
            let set :=
              if e ∈ pending ∧ (set.event e).isRedaction then set.revertRedactionLocalEcho e
              else some set
            set.map fun set =>
              ⟨{ set with timeline := set.timeline.erase e },
                room.pendingEventList.map fun pending => pending.erase e, room.txnToEvent⟩

end EchoRoom

/-! ## All runs -/

/-- What is done with a room. -/
inductive EchoCall
  | addPendingEvent (e : String)
  | addLiveEvent (e : String)
  | addEventsToTimeline (e : String)
  | handleRemoteEcho (e : String) (originServerTs : ℕ)
  | updatePendingEvent (e : String) (newStatus : EventStatus)

def EchoRoom.call (room : EchoRoom) : EchoCall → Option EchoRoom
  | .addPendingEvent e => room.addPendingEvent e
  | .addLiveEvent e => room.addLiveEvent e
  | .addEventsToTimeline e => room.addEventsToTimeline e
  | .handleRemoteEcho e originServerTs => room.handleRemoteEcho e originServerTs
  | .updatePendingEvent e newStatus => room.updatePendingEvent e newStatus

/-- A room whose pending events are detached from its timeline, over all calls that do not throw, for
events as they come or are made. -/
def echoSystem (event : String → MatrixEvent) : System EchoRoom EchoCall where
  init := ⟨⟨fun e => { event e with localRedactionEvent := none, replacingEvent := none }, [],
    fun _ => none, fun _ => [], fun _ => [], fun _ => 0⟩, some [], []⟩
  step room call := room.call call

end MatrixSdk.Models
