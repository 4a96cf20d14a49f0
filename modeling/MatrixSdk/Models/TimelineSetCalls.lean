/-
Any sequence of calls on an `EventTimelineSet`: `src/models/event-timeline-set.js`, seen by those
who use it.

A batch can be added to any timeline that has been made for the set, since a request for it is
answered later; the set may have dropped the timeline by then. What a call that throws has made of
the set is kept, with the set as it was before.

The id of an event changes when the event has been sent. The two calls that tell the set come after
the change, so each of them is one step with it.
-/
import MatrixSdk.Lib.System
import MatrixSdk.Models.EventTimelineSet

set_option autoImplicit false

namespace MatrixSdk.Models

open MatrixSdk.Lib

/-- A timeline set, the ids of events, and the calls that have thrown, each with the set before and
after it. -/
structure TimelineSetState (Event EventId Token : Type) where
  set : EventTimelineSet Event EventId Token
  getId : Event → EventId
  thrown : List (EventTimelineSet Event EventId Token × EventTimelineSet Event EventId Token)

inductive TimelineSetCall (Event EventId Token : Type)
  | addTimeline
  | addEventsToTimeline (events : List Event) (toStartOfTimeline : Bool) (timeline : Option ℕ)
      (paginationToken : Option Token)
  | addLiveEvent (event : Event) (replace : Bool)
  | resetLiveTimeline (backPaginationToken forwardPaginationToken : Option Token)
  | removeEvent (eventId : EventId)
  | handleRemoteEcho (localEvent : Event) (oldEventId newEventId : EventId)
  | replaceEventId (event : Event) (oldEventId newEventId : EventId)

namespace TimelineSetState

variable {Event EventId Token : Type}

/-- A call has returned, or thrown. -/
def called (s : TimelineSetState Event EventId Token)
    (result : Except (EventTimelineSet.Thrown Event EventId Token)
      (EventTimelineSet Event EventId Token)) : TimelineSetState Event EventId Token :=
  match result with
  | .ok set => { s with set := set }
  | .error thrown => { s with set := thrown.set, thrown := s.thrown ++ [(s.set, thrown.set)] }

/-- `addTimeline` throws before it has changed anything. -/
def addTimeline (s : TimelineSetState Event EventId Token) : TimelineSetState Event EventId Token :=
  match s.set.addTimeline with
  | .ok (_, set) => { s with set := set }
  | .error _ => { s with thrown := s.thrown ++ [(s.set, s.set)] }

end TimelineSetState

section Model

variable {Event EventId Token : Type} [DecidableEq Event] [DecidableEq EventId]

/-- The calls on a set, whatever they are. -/
def timelineSetSystem (timelineSupport : Bool) (filter : Option (Event → Bool))
    (getId : Event → EventId) :
    System (TimelineSetState Event EventId Token) (TimelineSetCall Event EventId Token) where
  init := ⟨.new timelineSupport filter, getId, []⟩
  step s
    | .addTimeline => some s.addTimeline
    | .addEventsToTimeline events toStart timeline token =>
      if timeline.all fun t => t < s.set.created then
        some (s.called (s.set.addEventsToTimeline s.getId events toStart timeline token))
      else none
    | .addLiveEvent event replace =>
      some { s with set := s.set.addLiveEvent s.getId event replace }
    | .resetLiveTimeline back forward =>
      some { s with set := s.set.resetLiveTimeline back forward }
    | .removeEvent eventId => some { s with set := s.set.removeEvent s.getId eventId }
    | .handleRemoteEcho localEvent oldEventId newEventId =>
      let getId := Function.update s.getId localEvent newEventId
      let set := s.set.handleRemoteEcho getId localEvent oldEventId newEventId
      some { s with set := set, getId := getId }
    | .replaceEventId event oldEventId newEventId =>
      let set := s.set.replaceEventId oldEventId newEventId
      some { s with set := set, getId := Function.update s.getId event newEventId }

end Model

end MatrixSdk.Models
