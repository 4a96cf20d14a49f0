/-
`TimelineWindow` and `TimelineIndex` of `src/timeline-window.js`.

A window lies between two places in a chain of timelines. Each end of it is a timeline and an index
relative to the timeline's base index, so that events which are put in at the start of the timeline
do not move it; how many events there are in between is counted separately.

A walk along the links has a bound; what is said to return does so with every bound that is large
enough, which the number of timelines is.
-/
import MatrixSdk.Models.TimelineLinks

set_option autoImplicit false

namespace MatrixSdk.Models

open MatrixSdk.Lib

variable {Event EventId Token : Type}

/-! ## Timeline indices -/

/-- A `TimelineIndex`; `pendingPaginate` says whether there is a promise. -/
structure TimelineIndex where
  timeline : ℕ
  index : Int
  pendingPaginate : Bool
  deriving DecidableEq

namespace TimelineIndex

variable (s : EventTimelineSet Event EventId Token)

def minIndex (tl : TimelineIndex) : Int := ((s.timeline tl.timeline).baseIndex : Int) * -1

def maxIndex (tl : TimelineIndex) : Int :=
  (s.timeline tl.timeline).events.length - (s.timeline tl.timeline).baseIndex

/-- `advance`, with how far it has got; nothing when it goes on after `fuel` neighbours. -/
def advance (fuel : ℕ) (tl : TimelineIndex) (delta : Int) : Option (TimelineIndex × Int) :=
  if delta = 0 then some (tl, 0)
  else
    let cappedDelta :=
      if delta < 0 then max delta (tl.minIndex s - tl.index)
      else min delta (tl.maxIndex s - tl.index)
    if if delta < 0 then cappedDelta < 0 else 0 < cappedDelta then
      some ({ tl with index := tl.index + cappedDelta }, cappedDelta)
    else
      -- the index is already at the start or the end of the timeline
      match s.link (if delta < 0 then .backwards else .forwards) tl.timeline with
      | none => some (tl, 0)
      | some neighbour =>
        let tl := { tl with timeline := neighbour }
        match fuel with
        | 0 => none
        | fuel + 1 =>
          advance fuel { tl with index := if delta < 0 then tl.maxIndex s else tl.minIndex s } delta

/-- `retreat`. -/
def retreat (fuel : ℕ) (tl : TimelineIndex) (delta : Int) : Option (TimelineIndex × Int) :=
  (tl.advance s fuel (delta * -1)).map fun r => (r.1, r.2 * -1)

end TimelineIndex

/-! ## Windows -/

/-- `_start`, inclusive, and `_end`, exclusive. -/
structure WindowEnds where
  start : TimelineIndex
  stop : TimelineIndex
  deriving DecidableEq

/-- A `TimelineWindow`. It has no ends until it is loaded. -/
structure TimelineWindow where
  ends : Option WindowEnds
  eventCount : Int
  windowLimit : ℕ
  deriving DecidableEq

namespace TimelineWindow

/-- The constructor; 0 stands for an option that is not given. -/
def new (windowLimit : ℕ) : TimelineWindow :=
  ⟨none, 0, if windowLimit = 0 then 1000 else windowLimit⟩

def getTimelineIndex (w : TimelineWindow) (direction : Direction) : Option TimelineIndex :=
  w.ends.map fun ends => match direction with
    | .backwards => ends.start
    | .forwards => ends.stop

/-- One of the two objects has changed. -/
def setTimelineIndex (w : TimelineWindow) (direction : Direction) (tl : TimelineIndex) :
    TimelineWindow :=
  { w with ends := w.ends.map fun ends => match direction with
      | .backwards => { ends with start := tl }
      | .forwards => { ends with stop := tl } }

section Load

variable [DecidableEq EventId] (getId : Event → EventId) (s : EventTimelineSet Event EventId Token)

/-- `initFields` in `load`. An `initialWindowSize` of 0 stands for one that is not given. -/
def initFields (w : TimelineWindow) (timeline : ℕ) (initialEventId : Option EventId)
    (initialWindowSize : ℕ) : Except String TimelineWindow :=
  let initialWindowSize := if initialWindowSize = 0 then 20 else initialWindowSize
  let events := (s.timeline timeline).events
  let eventIndex := match initialEventId with
    | none => some events.length
    | some eventId => events.findIdx? fun ev => getId ev = eventId
  match eventIndex with
  | none => .error "getEventTimeline result didn't include requested event"
  | some eventIndex =>
    let endIndex := min events.length (eventIndex + (initialWindowSize + 1) / 2)
    let startIndex := endIndex - initialWindowSize
    let baseIndex := (s.timeline timeline).baseIndex
    .ok { w with
      ends := some ⟨⟨timeline, startIndex - baseIndex, false⟩, ⟨timeline, endIndex - baseIndex, false⟩⟩
      eventCount := endIndex - startIndex }

end Load

variable (s : EventTimelineSet Event EventId Token)

/-- The loop of `unpaginate`. A round takes an event off, so there are at most `rounds` to come. -/
def unpaginateLoop (fuel : ℕ) (startOfTimeline : Bool) (rounds : ℕ) (delta : Int)
    (w : TimelineWindow) : Option (TimelineWindow × Except String Unit) :=
  if delta ≤ 0 then some (w, .ok ())
  else
    let direction : Direction := if startOfTimeline then .backwards else .forwards
    match w.getTimelineIndex direction with
    | none => some (w, .error "TypeError")
    | some tl =>
      match if startOfTimeline then tl.advance s fuel delta else tl.retreat s fuel delta with
      | none => none
      | some (tl, count) =>
        let w := w.setTimelineIndex direction tl
        if count ≤ 0 then
          some (w, .error ("Unable to unpaginate any further, but still have " ++
            toString w.eventCount ++ " events"))
        else
          match rounds with
          | 0 => none
          | rounds + 1 =>
            unpaginateLoop fuel startOfTimeline rounds (delta - count)
              { w with eventCount := w.eventCount - count }

/-- `unpaginate`: the window afterwards, and what is thrown. -/
def unpaginate (fuel : ℕ) (delta : Int) (startOfTimeline : Bool) (w : TimelineWindow) :
    Option (TimelineWindow × Except String Unit) :=
  if delta > w.eventCount ∨ delta < 0 then
    some (w, .error ("Attemting to unpaginate " ++ toString delta ++ " events, but " ++
      "only have " ++ toString w.eventCount ++ " in the timeline"))
  else unpaginateLoop s fuel startOfTimeline delta.toNat delta w

/-- `extend`: the window afterwards, and what is returned or thrown. -/
def extend (fuel : ℕ) (direction : Direction) (size : ℕ) (w : TimelineWindow) :
    Option (TimelineWindow × Except String Bool) :=
  match w.getTimelineIndex direction with
  | none => some (w, .ok false)
  | some tl =>
    (if direction = .backwards then tl.retreat s fuel size else tl.advance s fuel size).bind
      fun (tl, count) =>
        let w := w.setTimelineIndex direction tl
        if count = 0 then some (w, .ok false)
        else
          let w : TimelineWindow := { w with eventCount := w.eventCount + count }
          -- remove some events from the other end, if necessary
          let excess := w.eventCount - (w.windowLimit : Int)
          if excess > 0 then
            (w.unpaginate s fuel excess (direction ≠ .backwards)).map fun (w, thrown) =>
              (w, thrown.map fun _ => true)
          else some (w, .ok true)

/-- `events[i]`. -/
def eventAt (events : List Event) (i : Int) : Option Event :=
  if i < 0 then none else events[i.toNat]?

/-- The loop of `getEvents`; `null` has no events, so the end has to be reached. -/
def getEventsLoop (ends : WindowEnds) (fuel timeline : ℕ) (result : List (Option Event)) :
    Option (Except String (List (Option Event))) :=
  let events := (s.timeline timeline).events
  let baseIndex : Int := (s.timeline timeline).baseIndex
  let startIndex := if timeline = ends.start.timeline then ends.start.index + baseIndex else 0
  let endIndex :=
    if timeline = ends.stop.timeline then ends.stop.index + baseIndex else events.length
  let result := result ++
    (List.range (endIndex - startIndex).toNat).map fun i : ℕ => eventAt events (startIndex + i)
  if timeline = ends.stop.timeline then some (.ok result)
  else
    match s.link .forwards timeline with
    | none => some (.error "TypeError")
    | some next =>
      match fuel with
      | 0 => none
      | fuel + 1 => getEventsLoop ends fuel next result

/-- `getEvents`. An element that is `none` is `undefined`. -/
def getEvents (fuel : ℕ) (w : TimelineWindow) : Option (Except String (List (Option Event))) :=
  match w.ends with
  | none => some (.ok [])
  | some ends => getEventsLoop s ends fuel ends.start.timeline []

end TimelineWindow

/-! ## A window and its timelines -/

/-- A request `paginate` waits for. It knows the `TimelineIndex` it is for by how often the window
had been given new ones. -/
structure PaginateRequest where
  direction : Direction
  size : ℕ
  requestLimit : ℕ
  loads : ℕ

/-- A window, its timelines, and the requests it waits for: those for more events, and those for
the timeline of an event to load. -/
structure WindowState (Event EventId Token : Type) where
  set : EventTimelineSet Event EventId Token
  window : TimelineWindow
  loads : ℕ
  paginating : List PaginateRequest
  loading : List (EventId × ℕ)

namespace WindowState

variable [DecidableEq EventId] (getId : Event → EventId)

/-- `initFields`; nothing has changed when it throws. -/
def initFields (st : WindowState Event EventId Token) (timeline : ℕ)
    (initialEventId : Option EventId) (initialWindowSize : ℕ) : WindowState Event EventId Token :=
  match st.window.initFields getId st.set timeline initialEventId initialWindowSize with
  | .error _ => st
  | .ok window => { st with window := window, loads := st.loads + 1 }

/-- `load`. -/
def load (st : WindowState Event EventId Token) (initialEventId : Option EventId)
    (initialWindowSize : ℕ) : WindowState Event EventId Token :=
  match initialEventId with
  | none => st.initFields getId st.set.liveTimeline none initialWindowSize
  | some eventId =>
    match st.set.eventIdToTimeline.get eventId with
    | some timeline => st.initFields getId timeline (some eventId) initialWindowSize
    | none => { st with loading := st.loading ++ [(eventId, initialWindowSize)] }

omit [DecidableEq EventId] in
/-- `paginate`. -/
def paginate (st : WindowState Event EventId Token) (direction : Direction) (size : ℕ)
    (makeRequest : Bool) (requestLimit : ℕ) : Option (WindowState Event EventId Token) :=
  match st.window.getTimelineIndex direction with
  | none => some st
  | some tl =>
    if tl.pendingPaginate then some st
    else
      (st.window.extend st.set st.set.created direction size).map fun (window, extended) =>
        let st := { st with window := window }
        match extended with
        | .error _ => st
        | .ok true => st
        | .ok false =>
          if !makeRequest || requestLimit = 0 then st
          else
            -- trying to extend has moved the index to the last neighbour
            match window.getTimelineIndex direction with
            | none => st
            | some tl =>
              if ((st.set.timeline tl.timeline).getPaginationToken direction).isNone then st
              else { st with
                window := window.setTimelineIndex direction { tl with pendingPaginate := true }
                paginating := st.paginating ++ [⟨direction, size, requestLimit, st.loads⟩] }

omit [DecidableEq EventId] in
/-- A request of `paginate` is over; `more` is what `paginateEventTimeline` resolves to, and not
if it rejects. -/
def paginated (st : WindowState Event EventId Token) (request : PaginateRequest) (more : Bool)
    : Option (WindowState Event EventId Token) :=
  let window :=
    if request.loads = st.loads then
      match st.window.getTimelineIndex request.direction with
      | none => st.window
      | some tl => st.window.setTimelineIndex request.direction { tl with pendingPaginate := false }
    else st.window
  let st := { st with window := window }
  if !more then some st
  else st.paginate request.direction request.size true (request.requestLimit - 1)

end WindowState

/-- What is called on the window, what it gets from the server, and how its timelines grow. -/
inductive WindowStep (Event EventId : Type)
  | load (initialEventId : Option EventId) (initialWindowSize : ℕ)
  | loaded (i : ℕ) (timeline : ℕ)
  | extend (direction : Direction) (size : ℕ)
  | unpaginate (delta : Int) (startOfTimeline : Bool)
  | paginate (direction : Direction) (size : ℕ) (makeRequest : Bool) (requestLimit : ℕ)
  | paginated (i : ℕ) (more : Bool)
  | addTimeline
  | addEvent (event : Event) (timeline : ℕ) (atStart : Bool)
  | join (timeline existing : ℕ) (direction : Direction)

section Model

variable [DecidableEq EventId] (getId : Event → EventId)

/-- A window on the timelines `set`, over all that happens to it and to them. Timelines are linked
at the ends of two chains. Links are followed at most as often as there are timelines. -/
def windowSystem (set : EventTimelineSet Event EventId Token) (windowLimit : ℕ) :
    System (WindowState Event EventId Token) (WindowStep Event EventId) where
  init := ⟨set, .new windowLimit, 0, [], []⟩
  step st
    | .load initialEventId initialWindowSize =>
      some (st.load getId initialEventId initialWindowSize)
    | .loaded i timeline =>
      if timeline < st.set.created then
        (st.loading[i]?).map fun (eventId, initialWindowSize) =>
          { st with loading := st.loading.eraseIdx i }.initFields getId timeline (some eventId)
            initialWindowSize
      else none
    | .extend direction size =>
      (st.window.extend st.set st.set.created direction size).map fun r =>
        { st with window := r.1 }
    | .unpaginate delta startOfTimeline =>
      (st.window.unpaginate st.set st.set.created delta startOfTimeline).map fun r =>
        { st with window := r.1 }
    | .paginate direction size makeRequest requestLimit =>
      st.paginate direction size makeRequest requestLimit
    | .paginated i more =>
      (st.paginating[i]?).bind fun request =>
        { st with paginating := st.paginating.eraseIdx i }.paginated request more
    | .addTimeline =>
      match st.set.addTimeline with
      | .error _ => none
      | .ok (_, set) => some { st with set := set }
    | .addEvent event timeline atStart =>
      if timeline < st.set.created then
        some { st with set := st.set.addEventToTimeline getId event timeline atStart }
      else none
    | .join timeline existing direction =>
      if timeline < st.set.created ∧ existing < st.set.created ∧ existing ≠ timeline ∧
          st.set.link direction timeline = none ∧
          walk (st.set.link direction) timeline st.set.created (some existing) = some false then
        match st.set.joinTimelines timeline existing direction with
        | .error _ => none
        | .ok set => some { st with set := set }
      else none

end Model

end MatrixSdk.Models
