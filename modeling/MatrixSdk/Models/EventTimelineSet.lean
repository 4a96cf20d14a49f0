/-
`EventTimelineSet` and `EventTimeline` (`src/models/event-timeline-set.js`,
`src/models/event-timeline.js`).

Timelines are objects that refer to each other, so they are numbered in the order
they are made and looked up by number. An event is whatever the timelines are
lists of; its id is read with `getId`, a parameter, since the id of an event that
is being sent changes. Of a room state only the pagination token is kept.
-/
import MatrixSdk.Lib.JsObject

set_option autoImplicit false

namespace MatrixSdk.Models

open MatrixSdk.Lib

/-! ## Timelines -/

/-- `EventTimeline.BACKWARDS` and `EventTimeline.FORWARDS`. -/
inductive Direction
  | backwards
  | forwards
  deriving DecidableEq, Repr

namespace Direction

def inverse : Direction → Direction
  | backwards => forwards
  | forwards => backwards

/-- The direction a batch is added in. -/
def ofToStart (toStartOfTimeline : Bool) : Direction :=
  if toStartOfTimeline then backwards else forwards

@[simp] theorem inverse_inverse (d : Direction) : d.inverse.inverse = d := by cases d <;> rfl

theorem ne_inverse (d : Direction) : d ≠ d.inverse := by cases d <;> decide

end Direction

/-- An `EventTimeline`. The two tokens are those of the states at its start and its end. -/
structure EventTimeline (Event Token : Type) where
  events : List Event
  baseIndex : ℕ
  prevTimeline : Option ℕ
  nextTimeline : Option ℕ
  startToken : Option Token
  endToken : Option Token

namespace EventTimeline

variable {Event EventId Token : Type}

/-- The constructor. -/
def new : EventTimeline Event Token := ⟨[], 0, none, none, none, none⟩

def getPaginationToken (t : EventTimeline Event Token) : Direction → Option Token
  | .backwards => t.startToken
  | .forwards => t.endToken

def setPaginationToken (t : EventTimeline Event Token) (token : Option Token) (d : Direction) :
    EventTimeline Event Token :=
  { t with
    startToken := if d = .backwards then token else t.startToken
    endToken := if d = .forwards then token else t.endToken }

def getNeighbouringTimeline (t : EventTimeline Event Token) : Direction → Option ℕ
  | .backwards => t.prevTimeline
  | .forwards => t.nextTimeline

/-- `setNeighbouringTimeline`; the timeline is not paginated in that direction any more. -/
def setNeighbouringTimeline (t : EventTimeline Event Token) (neighbour : ℕ) (d : Direction) :
    Except String (EventTimeline Event Token) :=
  if (t.getNeighbouringTimeline d).isSome then
    .error ("timeline already has a neighbouring timeline - cannot reset neighbour (direction: " ++
      (match d with | .backwards => "b" | .forwards => "f") ++ ")")
  else .ok { t with
    prevTimeline := if d = .backwards then some neighbour else t.prevTimeline
    nextTimeline := if d = .forwards then some neighbour else t.nextTimeline
    startToken := if d = .backwards then none else t.startToken
    endToken := if d = .forwards then none else t.endToken }

def addEvent (t : EventTimeline Event Token) (event : Event) (atStart : Bool) :
    EventTimeline Event Token :=
  { t with
    events := if atStart then event :: t.events else t.events ++ [event]
    baseIndex := if atStart then t.baseIndex + 1 else t.baseIndex }

/-- The last index of an event with the id. -/
def lastIndexOf [DecidableEq EventId] (getId : Event → EventId) (events : List Event)
    (eventId : EventId) : Option ℕ :=
  (List.range events.length).reverse.find? fun i => events[i]?.map getId = some eventId

/-- `removeEvent`, with the event it has removed. -/
def removeEvent [DecidableEq EventId] (getId : Event → EventId) (t : EventTimeline Event Token)
    (eventId : EventId) : Option (Event × EventTimeline Event Token) :=
  (lastIndexOf getId t.events eventId).bind fun i => t.events[i]?.map fun ev =>
    (ev, { t with
      events := t.events.eraseIdx i
      baseIndex := if i < t.baseIndex then t.baseIndex - 1 else t.baseIndex })

end EventTimeline

/-! ## Timeline sets -/

/-- An `EventTimelineSet`. `timeline` has every timeline ever made for it, of which
`created` have been; `timelines` are those it still has. -/
structure EventTimelineSet (Event EventId Token : Type) where
  timelineSupport : Bool
  filter : Option (Event → Bool)
  timelines : List ℕ
  liveTimeline : ℕ
  eventIdToTimeline : JsObject EventId ℕ
  timeline : ℕ → EventTimeline Event Token
  created : ℕ

namespace EventTimelineSet

variable {Event EventId Token : Type}

/-- The constructor. -/
def new (timelineSupport : Bool) (filter : Option (Event → Bool)) :
    EventTimelineSet Event EventId Token where
  timelineSupport := timelineSupport
  filter := filter
  timelines := [0]
  liveTimeline := 0
  eventIdToTimeline := .empty
  timeline _ := .new
  created := 1

/-- `_filter.filterRoomTimeline`; everything passes when there is no filter. -/
def filterRoomTimeline (s : EventTimelineSet Event EventId Token) (events : List Event) :
    List Event :=
  match s.filter with
  | none => events
  | some check => events.filter check

def setTimeline (s : EventTimelineSet Event EventId Token) (t : ℕ)
    (timeline : EventTimeline Event Token) : EventTimelineSet Event EventId Token :=
  { s with timeline := Function.update s.timeline t timeline }

/-- `addTimeline`, with the timeline it has made. -/
def addTimeline (s : EventTimelineSet Event EventId Token) :
    Except String (ℕ × EventTimelineSet Event EventId Token) :=
  if !s.timelineSupport then
    .error ("timeline support is disabled. Set the 'timelineSupport'" ++
      " parameter to true when creating MatrixClient to enable it.")
  else .ok (s.created, { s with
    timelines := s.timelines ++ [s.created]
    timeline := Function.update s.timeline s.created .new
    created := s.created + 1 })

/-- `resetLiveTimeline`, without its event. `forkLive` moves the end state of the old
timeline over, `fork` copies it; a copy has no token. -/
def resetLiveTimeline (s : EventTimelineSet Event EventId Token)
    (backPaginationToken forwardPaginationToken : Option Token) :
    EventTimelineSet Event EventId Token :=
  let resetAllTimelines := !s.timelineSupport || forwardPaginationToken.isNone
  let oldTimeline := s.timeline s.liveTimeline
  let newTimeline : EventTimeline Event Token :=
    ⟨[], 0, none, none, backPaginationToken,
      if resetAllTimelines then oldTimeline.endToken else none⟩
  let oldTimeline := { oldTimeline with
    endToken := forwardPaginationToken <|>
      (if resetAllTimelines then none else oldTimeline.endToken) }
  { s with
    timelines := if resetAllTimelines then [s.created] else s.timelines ++ [s.created]
    eventIdToTimeline := if resetAllTimelines then .empty else s.eventIdToTimeline
    liveTimeline := s.created
    timeline := Function.update (Function.update s.timeline s.liveTimeline oldTimeline)
      s.created newTimeline
    created := s.created + 1 }

variable [DecidableEq EventId] (getId : Event → EventId)

/-- `addEventToTimeline`, without its event. -/
def addEventToTimeline (s : EventTimelineSet Event EventId Token) (event : Event) (t : ℕ)
    (toStartOfTimeline : Bool) : EventTimelineSet Event EventId Token :=
  { s with
    timeline := Function.update s.timeline t ((s.timeline t).addEvent event toStartOfTimeline)
    eventIdToTimeline := s.eventIdToTimeline.set (getId event) t }

/-- `addLiveEvent`. With the strategy "replace" (`replace`) the event takes the place
of the one that has its id. -/
def addLiveEvent (s : EventTimelineSet Event EventId Token) (event : Event) (replace : Bool) :
    EventTimelineSet Event EventId Token :=
  if s.filterRoomTimeline [event] = [] then s
  else match s.eventIdToTimeline.get (getId event) with
    | some t =>
      if !replace then s
      else
        let events := (s.timeline t).events
        s.setTimeline t { s.timeline t with
          events := events.set (events.findIdx fun ev => getId ev = getId event) event }
    | none => s.addEventToTimeline getId event s.liveTimeline false

/-- `replaceEventId`. -/
def replaceEventId (s : EventTimelineSet Event EventId Token) (oldEventId newEventId : EventId) :
    EventTimelineSet Event EventId Token :=
  match s.eventIdToTimeline.get oldEventId with
  | none => s
  | some t => { s with
    eventIdToTimeline := (s.eventIdToTimeline.delete oldEventId).set newEventId t }

/-- `handleRemoteEcho`; `localEvent` has the new id by now. -/
def handleRemoteEcho (s : EventTimelineSet Event EventId Token) (localEvent : Event)
    (oldEventId newEventId : EventId) : EventTimelineSet Event EventId Token :=
  if (s.eventIdToTimeline.get oldEventId).isSome then s.replaceEventId oldEventId newEventId
  else if s.filterRoomTimeline [localEvent] = [] then s
  else s.addEventToTimeline getId localEvent s.liveTimeline false

/-- `removeEvent`, without its event. -/
def removeEvent (s : EventTimelineSet Event EventId Token) (eventId : EventId) :
    EventTimelineSet Event EventId Token :=
  match s.eventIdToTimeline.get eventId with
  | none => s
  | some t =>
    match (s.timeline t).removeEvent getId eventId with
    | none => s
    | some (_, timeline) =>
      { s.setTimeline t timeline with eventIdToTimeline := s.eventIdToTimeline.delete eventId }

/-! ## Adding a batch of events -/

/-- An exception, and what the code had made of the set when it was thrown. -/
structure Thrown (Event EventId Token : Type) where
  message : String
  set : EventTimelineSet Event EventId Token

/-- The variables of the loop in `addEventsToTimeline`. -/
structure AddEventsState (Event EventId Token : Type) where
  set : EventTimelineSet Event EventId Token
  timeline : ℕ
  didUpdate : Bool
  lastEventWasNew : Bool

omit [DecidableEq EventId] in
/-- Link the timelines `t` and `existing`, `existing` being beyond `t` in the direction. -/
def joinTimelines (s : EventTimelineSet Event EventId Token) (t existing : ℕ) (d : Direction) :
    Except (Thrown Event EventId Token) (EventTimelineSet Event EventId Token) :=
  match (s.timeline t).setNeighbouringTimeline existing d with
  | .error message => .error ⟨message, s⟩
  | .ok joined =>
    let s := s.setTimeline t joined
    match (s.timeline existing).setNeighbouringTimeline t d.inverse with
    | .error message => .error ⟨message, s⟩
    | .ok joined => .ok (s.setTimeline existing joined)

/-- The body of the loop. -/
def addNextEvent (d : Direction) (st : AddEventsState Event EventId Token) (event : Event) :
    Except (Thrown Event EventId Token) (AddEventsState Event EventId Token) :=
  match st.set.eventIdToTimeline.get (getId event) with
  | none =>
    -- we don't know about this event yet
    .ok ⟨st.set.addEventToTimeline getId event st.timeline (d = .backwards), st.timeline, true,
      true⟩
  | some existing =>
    if existing = st.timeline then .ok { st with lastEventWasNew := false }
    else if ((st.set.timeline st.timeline).getNeighbouringTimeline d).isSome then
      -- assume the timelines are already correctly linked up
      .ok { st with timeline := existing, lastEventWasNew := false }
    else if (d = .backwards ∧ existing = st.set.liveTimeline) ∨
        (d = .forwards ∧ st.timeline = st.set.liveTimeline) then
      -- the live timeline should never be spliced into a non-live position
      .ok { st with lastEventWasNew := false }
    else
      (st.set.joinTimelines st.timeline existing d).map fun set => ⟨set, existing, true, false⟩

omit [DecidableEq EventId] in
/-- What follows the loop: the token is stored if the last event was new, or if nothing
was, but not at the end of the live timeline. -/
def AddEventsState.updateToken (d : Direction) (paginationToken : Option Token)
    (st : AddEventsState Event EventId Token) : EventTimelineSet Event EventId Token :=
  if (st.lastEventWasNew || !st.didUpdate) &&
      !(d = .forwards && st.timeline = st.set.liveTimeline) then
    st.set.setTimeline st.timeline
      ((st.set.timeline st.timeline).setPaginationToken paginationToken d)
  else st.set

/-- `addEventsToTimeline`. -/
def addEventsToTimeline (s : EventTimelineSet Event EventId Token) (events : List Event)
    (toStartOfTimeline : Bool) (timeline : Option ℕ) (paginationToken : Option Token) :
    Except (Thrown Event EventId Token) (EventTimelineSet Event EventId Token) :=
  match timeline with
  | none => .error ⟨"'timeline' not specified for EventTimelineSet.addEventsToTimeline", s⟩
  | some t =>
    if !toStartOfTimeline ∧ t = s.liveTimeline then
      .error ⟨"EventTimelineSet.addEventsToTimeline cannot be used for adding events to " ++
        "the live timeline - use Room.addLiveEvents instead", s⟩
    else if s.filter.isSome ∧ s.filterRoomTimeline events = [] then .ok s
    else
      let d := Direction.ofToStart toStartOfTimeline
      ((s.filterRoomTimeline events).foldlM (addNextEvent getId d) ⟨s, t, false, false⟩).map
        (AddEventsState.updateToken d paginationToken)

end EventTimelineSet

/-- An event is added to one timeline. -/
theorem mem_addEventToTimeline {Event EventId Token : Type} [DecidableEq EventId]
    {getId : Event → EventId} (s : EventTimelineSet Event EventId Token) (x e : Event) (t u : ℕ)
    (b : Bool) : e ∈ ((s.addEventToTimeline getId x t b).timeline u).events ↔
      e ∈ (s.timeline u).events ∨ (u = t ∧ e = x) := by
  simp only [EventTimelineSet.addEventToTimeline]
  by_cases hu : u = t
  · subst hu
    rw [Function.update_self]
    cases b <;> simp [EventTimeline.addEvent, or_comm]
  · rw [Function.update_of_ne hu]
    simp [hu]

end MatrixSdk.Models
