/-
`MatrixClient.paginateEventTimeline` of `src/client.js`, and the loop of `TimelineWindow.paginate`
(`src/timeline-window.js`) over it.

A promise is the number of the request it was made for. The request for notifications is answered
through a chain: the response is handled, then the entry in `_paginationRequests` is cleared, and
then the promise that was returned settles. For a room the chain is made but it is not what is
returned: that is the promise of the request itself, so the caller gets the response, and whatever
becomes of the handling. The chain was put on it first, so the response has been handled when the
caller has it.

Anything may be done to the timelines and to the window in between.
-/
import MatrixSdk.Lib.System
import MatrixSdk.Models.TimelineWindow

set_option autoImplicit false

namespace MatrixSdk.Models

open MatrixSdk.Lib

variable {Event EventId Token Raw State : Type}

/-! ## Requests -/

/-- A response of `/messages`, or of `/notifications`, where only the events and `next_token` are:
`next` is that or `end`. -/
structure Page (Raw Token : Type) where
  state : Option (List Raw)
  chunk : Option (List Raw)
  start : Option Token
  next : Option Token

/-- What a promise resolves to. -/
inductive PageValue (Raw Token : Type)
  | boolean (more : Bool)
  | response (page : Page Raw Token)

/-- `reply` is how the request ended, with what became of handling the response; `settled` is what
the promise that was returned settled to. The entry in `_paginationRequests` may have been
`cleared`. -/
structure PageRequest (Raw Token : Type) where
  timeline : ℕ
  direction : Direction
  token : Token
  limit : ℕ
  reply : Option (Except String (Page Raw Token × Except String Unit))
  settled : Option (Except String (PageValue Raw Token))
  cleared : Bool

/-- The promise `paginateEventTimeline` returns: one that is resolved to `false`, or that of a
request. -/
inductive PagePromise
  | resolvedFalse
  | request (r : ℕ)

/-- What `TimelineWindow.paginate` has come to: it waits for a promise, whose `finally` may have
run; it has returned or thrown; or it does what another call does. -/
inductive WindowOutcome
  | waits (promise : PagePromise) (cleared : Bool)
  | settled (result : Except String Bool)
  | follows (call : ℕ)

/-- A call of `TimelineWindow.paginate`. `extended` is whether it has moved the end of the window
over an event; `loads` tells the `TimelineIndex` it is for. -/
structure WindowCall where
  direction : Direction
  size : ℕ
  requestLimit : ℕ
  loads : ℕ
  extended : Bool
  outcome : WindowOutcome

/-- The timelines of a set with the room states at their ends, the requests, and a window on them.
-/
structure PaginationState (Event EventId Token Raw State : Type) where
  set : EventTimelineSet Event EventId Token
  states : ℕ × Direction → State
  paginationRequests : ℕ × Direction → Option ℕ
  requests : List (PageRequest Raw Token)
  window : TimelineWindow
  loads : ℕ
  pendingPaginate : ℕ × Direction → Option ℕ
  calls : List WindowCall

/-- The calls, what the server answers, and the continuations. -/
inductive PaginationStep (Event EventId Token Raw State : Type)
  | changed (set : EventTimelineSet Event EventId Token) (states : ℕ × Direction → State)
      (window : TimelineWindow) (loads : ℕ)
  | paginateEventTimeline (timeline : ℕ) (backwards : Bool) (limit : Option ℕ) (roomKnown : Bool)
  | respond (r : ℕ) (reply : Except String (Page Raw Token))
  | cleared (r : ℕ)
  | paginate (direction : Direction) (size : ℕ) (makeRequest : Bool) (requestLimit : ℕ)
      (roomKnown : Bool)
  | paginateFinally (i : ℕ)
  | paginateThen (i : ℕ) (roomKnown : Bool)

namespace Page

variable [DecidableEq Token]

/-- The response shows the end of the history. -/
def ended (isNotif : Bool) (page : Page Raw Token) : Bool :=
  if isNotif then page.next.isNone else page.next = page.start

end Page

section Model

variable [DecidableEq EventId] [DecidableEq Token] (getId : Event → EventId)
variable (mapEvent : Raw → Except String Event) (knows : State → Event → Bool)
variable (setStateEvents : State → List Event → State × Except String Unit) (isNotif : Bool)

/-- `setUnknownStateEvents`. -/
def setUnknownStateEvents (state : State) (events : List Event) : State × Except String Unit :=
  setStateEvents state (events.filter fun event => !knows state event)

/-- The state events of a response are put into the room state at that end. -/
def applyState (states : ℕ × Direction → State) (timeline : ℕ) (dir : Direction)
    (state : Option (List Raw)) : (ℕ × Direction → State) × Except String Unit :=
  match state with
  | none => (states, .ok ())
  | some raw =>
    match raw.mapM mapEvent with
    | .error message => (states, .error message)
    | .ok stateEvents =>
      let r := setUnknownStateEvents knows setStateEvents (states (timeline, dir)) stateEvents
      (Function.update states (timeline, dir) r.1, r.2)

/-- The events of a response are put into the timeline, and the token goes at the end of the
history. -/
def applyEvents (set : EventTimelineSet Event EventId Token) (timeline : ℕ) (dir : Direction)
    (page : Page Raw Token) : EventTimelineSet Event EventId Token × Except String Unit :=
  match page.chunk with
  | none => (set, .error "TypeError")
  | some raw =>
    match raw.mapM mapEvent with
    | .error message => (set, .error message)
    | .ok matrixEvents =>
      match set.addEventsToTimeline getId matrixEvents (dir = .backwards) (some timeline)
        page.next with
      | .error thrown => (thrown.set, .error thrown.message)
      | .ok set =>
        -- we need to keep the forwards token, to recover from gappy syncs
        (if dir = .backwards ∧ page.ended isNotif = true then
          set.setTimeline timeline ((set.timeline timeline).setPaginationToken none dir)
        else set, .ok ())

/-- The handler of a response: what it makes of the timelines and the room states, and what it
throws. -/
def handleResponse (set : EventTimelineSet Event EventId Token) (states : ℕ × Direction → State)
    (timeline : ℕ) (dir : Direction) (page : Page Raw Token) :
    EventTimelineSet Event EventId Token × (ℕ × Direction → State) × Except String Unit :=
  let stateApplied := if isNotif then (states, .ok ())
    else applyState mapEvent knows setStateEvents states timeline dir page.state
  match stateApplied.2 with
  | .error message => (set, stateApplied.1, .error message)
  | .ok _ =>
    let eventsApplied := applyEvents getId mapEvent isNotif set timeline dir page
    (eventsApplied.1, stateApplied.1, eventsApplied.2)

/-- What the chain of a request resolves to, or rejects with. -/
def chained (reply : Except String (Page Raw Token × Except String Unit)) :
    Except String (PageValue Raw Token) :=
  match reply with
  | .error message => .error message
  | .ok (_, .error message) => .error message
  | .ok (page, .ok _) => .ok (.boolean !page.ended isNotif)

namespace PaginationState

/-- `paginateEventTimeline`: the state afterwards, and the promise or what is thrown. -/
def paginateEventTimeline (st : PaginationState Event EventId Token Raw State) (timeline : ℕ)
    (backwards : Bool) (limit : Option ℕ) (roomKnown : Bool) :
    PaginationState Event EventId Token Raw State × Except String PagePromise :=
  let dir : Direction := .ofToStart backwards
  if isNotif && !backwards then
    (st, .error "paginateNotifTimeline can only paginate backwards")
  else match (st.set.timeline timeline).getPaginationToken dir with
    | none => (st, .ok .resolvedFalse)
    | some token => match st.paginationRequests (timeline, dir) with
      | some r => (st, .ok (.request r))
      | none =>
        if !isNotif && !roomKnown then (st, .error "Unknown room")
        else
          ({ st with
            requests := st.requests ++
              [⟨timeline, dir, token, limit.getD 30, none, none, false⟩]
            paginationRequests :=
              Function.update st.paginationRequests (timeline, dir) (some st.requests.length) },
            .ok (.request st.requests.length))

/-- What a promise has settled to. -/
def settlement (st : PaginationState Event EventId Token Raw State) :
    PagePromise → Option (Except String (PageValue Raw Token))
  | .resolvedFalse => some (.ok (.boolean false))
  | .request r => (st.requests[r]?).bind fun request => request.settled

/-- A request ends. The handler runs if there is a response, and the promise of a room's request has
settled. -/
def respond (st : PaginationState Event EventId Token Raw State) (r : ℕ)
    (reply : Except String (Page Raw Token)) :
    Option (PaginationState Event EventId Token Raw State) :=
  (st.requests[r]?).bind fun request =>
    if request.reply.isSome then none
    else
      let settled := if isNotif then none else some (reply.map .response)
      match reply with
      | .error message => some { st with
        requests := st.requests.set r
          { request with reply := some (.error message), settled := settled } }
      | .ok page =>
        let handled := handleResponse getId mapEvent knows setStateEvents isNotif st.set st.states
          request.timeline request.direction page
        some { st with
          set := handled.1
          states := handled.2.1
          requests := st.requests.set r
            { request with reply := some (.ok (page, handled.2.2)), settled := settled } }

/-- The `finally` of a chain runs, and the chain settles. -/
def clear (st : PaginationState Event EventId Token Raw State) (r : ℕ) :
    Option (PaginationState Event EventId Token Raw State) :=
  (st.requests[r]?).bind fun request =>
    if request.cleared then none
    else request.reply.map fun reply => { st with
      paginationRequests :=
        Function.update st.paginationRequests (request.timeline, request.direction) none
      requests := st.requests.set r { request with
        cleared := true
        settled := if isNotif then some (chained isNotif reply) else request.settled } }

/-- Whether `extend` goes over an event. -/
def reaches (st : PaginationState Event EventId Token Raw State) (direction : Direction)
    (size : ℕ) : Bool :=
  match st.window.getTimelineIndex direction with
  | none => false
  | some tl =>
    match if direction = .backwards then tl.retreat st.set st.set.created size
      else tl.advance st.set st.set.created size with
    | none => false
    | some (_, count) => count ≠ 0

def addCall (st : PaginationState Event EventId Token Raw State) (call : WindowCall) :
    PaginationState Event EventId Token Raw State :=
  { st with calls := st.calls ++ [call] }

/-- `TimelineWindow.paginate` where `extend` has returned `false`. -/
def askForMore (st : PaginationState Event EventId Token Raw State) (call : WindowCall)
    (makeRequest roomKnown : Bool) : PaginationState Event EventId Token Raw State :=
  if !makeRequest || call.requestLimit = 0 then st.addCall call
  else match st.window.getTimelineIndex call.direction with
    | none => st.addCall call
    | some tl =>
      if ((st.set.timeline tl.timeline).getPaginationToken call.direction).isNone then
        st.addCall call
      else
        let asked := st.paginateEventTimeline isNotif tl.timeline (call.direction = .backwards)
          (some call.size) roomKnown
        match asked.2 with
        | .error message => asked.1.addCall { call with outcome := .settled (.error message) }
        | .ok promise =>
          { asked.1.addCall { call with outcome := .waits promise false } with
            pendingPaginate := Function.update asked.1.pendingPaginate
              (call.loads, call.direction) (some st.calls.length) }

/-- `TimelineWindow.paginate`. -/
def paginate (st : PaginationState Event EventId Token Raw State) (direction : Direction)
    (size : ℕ) (makeRequest : Bool) (requestLimit : ℕ) (roomKnown : Bool) :
    Option (PaginationState Event EventId Token Raw State) :=
  let call : WindowCall := ⟨direction, size, requestLimit, st.loads, false, .settled (.ok false)⟩
  if (st.window.getTimelineIndex direction).isNone then some (st.addCall call)
  else match st.pendingPaginate (st.loads, direction) with
    | some i => some (st.addCall { call with outcome := .follows i })
    | none =>
      (st.window.extend st.set st.set.created direction size).map fun (window, result) =>
        let call := { call with extended := st.reaches direction size }
        let st := { st with window := window }
        match result with
        | .ok false => st.askForMore isNotif call makeRequest roomKnown
        | result => st.addCall { call with outcome := .settled result }

/-- The `finally` that `paginate` puts on the promise. -/
def paginateFinally (st : PaginationState Event EventId Token Raw State) (i : ℕ) :
    Option (PaginationState Event EventId Token Raw State) :=
  (st.calls[i]?).bind fun call =>
    match call.outcome with
    | .waits promise false =>
      if (st.settlement promise).isSome then
        some { st with
          pendingPaginate :=
            Function.update st.pendingPaginate (call.loads, call.direction) none
          calls := st.calls.set i { call with outcome := .waits promise true } }
      else none
    | _ => none

/-- `r` is taken for true. -/
def truthy : PageValue Raw Token → Bool
  | .boolean more => more
  | .response _ => true

/-- The `then` after it: it is over, or there is another call. -/
def paginateThen (st : PaginationState Event EventId Token Raw State) (i : ℕ) (roomKnown : Bool) :
    Option (PaginationState Event EventId Token Raw State) :=
  (st.calls[i]?).bind fun call =>
    let becomes (outcome : WindowOutcome) : PaginationState Event EventId Token Raw State :=
      { st with calls := st.calls.set i { call with outcome := outcome } }
    match call.outcome with
    | .waits promise true => (st.settlement promise).bind fun result =>
      match result with
      | .error message => some (becomes (.settled (.error message)))
      | .ok value =>
        if truthy value then
          (becomes (.follows st.calls.length)).paginate isNotif call.direction call.size true
            (call.requestLimit - 1) roomKnown
        else some (becomes (.settled (.ok false)))
    | _ => none

end PaginationState

/-- The calls and their continuations, in any order that promises allow. -/
def paginationSystem (set : EventTimelineSet Event EventId Token) (states : ℕ × Direction → State)
    (window : TimelineWindow) :
    System (PaginationState Event EventId Token Raw State)
      (PaginationStep Event EventId Token Raw State) where
  init := ⟨set, states, fun _ => none, [], window, 0, fun _ => none, []⟩
  step st
    | .changed set states window loads =>
      if st.loads ≤ loads then
        some { st with set := set, states := states, window := window, loads := loads }
      else none
    | .paginateEventTimeline timeline backwards limit roomKnown =>
      some (st.paginateEventTimeline isNotif timeline backwards limit roomKnown).1
    | .respond r reply => st.respond getId mapEvent knows setStateEvents isNotif r reply
    | .cleared r => st.clear isNotif r
    | .paginate direction size makeRequest requestLimit roomKnown =>
      st.paginate isNotif direction size makeRequest requestLimit roomKnown
    | .paginateFinally i => st.paginateFinally i
    | .paginateThen i roomKnown => st.paginateThen isNotif i roomKnown

end Model

/-! ## The contract -/

section Contract

variable [DecidableEq Token]

/-- **What the promise of a request settles to**: the response has been handled; it is `false`
when the response shows the end of the history and `true` otherwise, and an error if the request
or the handling has failed. -/
def SettlesRight (isNotif : Bool) (requests : List (PageRequest Raw Token)) : Prop :=
  ∀ request ∈ requests, ∀ result, request.settled = some result →
    ∃ reply, request.reply = some reply ∧ result = chained isNotif reply

/-- Of the requests that are not over there is one at most for a timeline and a direction. -/
def SharesRequests (requests : List (PageRequest Raw Token)) : Prop :=
  ∀ (r r' : ℕ) (request request' : PageRequest Raw Token), requests[r]? = some request →
    requests[r']? = some request' → request.cleared = false → request'.cleared = false →
    request.timeline = request'.timeline → request.direction = request'.direction → r = r'

/-- The promise of a call of `TimelineWindow.paginate` has resolved. -/
inductive ResolvesTo (calls : List WindowCall) : ℕ → Bool → Prop
  | settled {i : ℕ} {call : WindowCall} {b : Bool} (hi : calls[i]? = some call)
      (hcall : call.outcome = .settled (.ok b)) : ResolvesTo calls i b
  | follows {i j : ℕ} {call : WindowCall} {b : Bool} (hi : calls[i]? = some call)
      (hcall : call.outcome = .follows j) (hj : ResolvesTo calls j b) : ResolvesTo calls i b

/-- A call, or one it has come to follow, has moved the end of the window over an event. -/
inductive HasExtended (calls : List WindowCall) : ℕ → Prop
  | here {i : ℕ} {call : WindowCall} (hi : calls[i]? = some call) (hcall : call.extended = true) :
      HasExtended calls i
  | follows {i j : ℕ} {call : WindowCall} (hi : calls[i]? = some call)
      (hcall : call.outcome = .follows j) (hj : HasExtended calls j) : HasExtended calls i

/-- **The contract of pagination**, of the client and of the window that relies on it. -/
structure PaginatesRight (isNotif : Bool) (st : PaginationState Event EventId Token Raw State) :
    Prop where
  settles : SettlesRight isNotif st.requests
  shares : SharesRequests st.requests
  window : ∀ i b, ResolvesTo st.calls i b → (b = true ↔ HasExtended st.calls i)

/-- No response arrives for the timeline of a room. -/
def NoRoomResponse (isNotif : Bool) : PaginationState Event EventId Token Raw State →
    PaginationStep Event EventId Token Raw State → Prop
  | _, .respond _ (.ok _) => isNotif = true
  | _, _ => True

instance (isNotif : Bool) (st : PaginationState Event EventId Token Raw State)
    (e : PaginationStep Event EventId Token Raw State) :
    Decidable (NoRoomResponse isNotif st e) := by
  unfold NoRoomResponse
  split <;> infer_instance

end Contract

/-! ## Requests that are under way -/

section Requests

variable {isNotif : Bool} {st st' : PaginationState Event EventId Token Raw State}
  {request' : PageRequest Raw Token}

/-- A request that is not over is the one `_paginationRequests` has. -/
def Entered (st : PaginationState Event EventId Token Raw State) : Prop :=
  ∀ r request, st.requests[r]? = some request → request.cleared = false →
    st.paginationRequests (request.timeline, request.direction) = some r

theorem Entered.shares (h : Entered st) : SharesRequests st.requests := by
  intro r r' request request' hr hr' hcleared hcleared' htimeline hdirection
  have hentry := h r request hr hcleared
  rw [htimeline, hdirection, h r' request' hr' hcleared'] at hentry
  exact (Option.some.inj hentry).symm

/-- The requests are as they were, or there is one more, for a timeline and a direction that had
none. -/
def Asks (st st' : PaginationState Event EventId Token Raw State) : Prop :=
  (st'.requests = st.requests ∧ st'.paginationRequests = st.paginationRequests) ∨
    ∃ request : PageRequest Raw Token,
      st.paginationRequests (request.timeline, request.direction) = none ∧
      request.settled = none ∧
      st'.requests = st.requests ++ [request] ∧
      st'.paginationRequests = Function.update st.paginationRequests
        (request.timeline, request.direction) (some st.requests.length)

theorem Entered.asks (h : Entered st) (hasks : Asks st st') : Entered st' := by
  rcases hasks with ⟨hrequests, hentries⟩ | ⟨request, hnone, -, hrequests, hentries⟩
  · unfold Entered
    rw [hrequests, hentries]
    exact h
  · intro r other hr hcleared
    rw [hrequests] at hr
    rw [hentries]
    by_cases hlt : r < st.requests.length
    · rw [List.getElem?_append_left hlt] at hr
      have hentry := h r other hr hcleared
      have hne : (other.timeline, other.direction) ≠ (request.timeline, request.direction) := by
        intro heq
        rw [heq, hnone] at hentry
        exact nomatch hentry
      rw [Function.update_of_ne hne, hentry]
    · obtain ⟨hbound, -⟩ := List.getElem?_eq_some_iff.1 hr
      rw [List.length_append, List.length_singleton] at hbound
      obtain rfl : r = st.requests.length := by omega
      obtain rfl : request = other := by simpa using hr
      rw [Function.update_self]

/-- A request that is as little over as before may have been answered. -/
theorem Entered.set {r : ℕ} {request : PageRequest Raw Token} (h : Entered st)
    (hr : st.requests[r]? = some request) (hrequests : st'.requests = st.requests.set r request')
    (hentries : st'.paginationRequests = st.paginationRequests)
    (hkey : (request'.timeline, request'.direction) = (request.timeline, request.direction))
    (hcleared : request'.cleared = request.cleared) : Entered st' := by
  intro r' other hr' hother
  rw [hrequests, List.getElem?_set] at hr'
  rw [hentries]
  split at hr'
  next heq =>
    subst heq
    obtain rfl : request' = other := by
      simpa [(List.getElem?_eq_some_iff.1 hr).1] using hr'
    rw [hkey]
    exact h r request hr (hcleared ▸ hother)
  next => exact h r' other hr' hother

variable (isNotif st) in
/-- **What `paginateEventTimeline` does.** -/
theorem paginateEventTimeline_asks (timeline : ℕ) (backwards : Bool) (limit : Option ℕ)
    (roomKnown : Bool) :
    Asks st (st.paginateEventTimeline isNotif timeline backwards limit roomKnown).1 ∧
      (st.paginateEventTimeline isNotif timeline backwards limit roomKnown).1.calls = st.calls := by
  unfold PaginationState.paginateEventTimeline
  dsimp only
  split
  · exact ⟨.inl ⟨rfl, rfl⟩, rfl⟩
  · split
    · exact ⟨.inl ⟨rfl, rfl⟩, rfl⟩
    · split
      · exact ⟨.inl ⟨rfl, rfl⟩, rfl⟩
      next hnone =>
        split
        · exact ⟨.inl ⟨rfl, rfl⟩, rfl⟩
        · exact ⟨.inr ⟨_, hnone, rfl, rfl, rfl⟩, rfl⟩

variable [DecidableEq Token]

theorem SettlesRight.asks (h : SettlesRight isNotif st.requests) (hasks : Asks st st') :
    SettlesRight isNotif st'.requests := by
  rcases hasks with ⟨hrequests, -⟩ | ⟨request, -, hsettled, hrequests, -⟩
  · rw [hrequests]
    exact h
  · rw [hrequests]
    intro other hmem result hresult
    rcases List.mem_append.1 hmem with hmem | hmem
    · exact h other hmem result hresult
    · rw [List.mem_singleton.1 hmem, hsettled] at hresult
      exact nomatch hresult

theorem SettlesRight.set {r : ℕ} {requests : List (PageRequest Raw Token)}
    (h : SettlesRight isNotif requests) (hrequest : ∀ result, request'.settled = some result →
      ∃ reply, request'.reply = some reply ∧ result = chained isNotif reply) :
    SettlesRight isNotif (requests.set r request') := by
  intro other hmem result hresult
  rcases List.mem_or_eq_of_mem_set hmem with hmem | rfl
  · exact h other hmem result hresult
  · exact hrequest result hresult

/-- **A request ends.** The promise of a room's request is right if no response has arrived. -/
theorem respond_spec [DecidableEq EventId] {getId : Event → EventId}
    {mapEvent : Raw → Except String Event} {knows : State → Event → Bool}
    {setStateEvents : State → List Event → State × Except String Unit} {r : ℕ}
    {reply : Except String (Page Raw Token)}
    (hst' : st.respond getId mapEvent knows setStateEvents isNotif r reply = some st')
    (hentered : Entered st) : Entered st' ∧ st'.calls = st.calls ∧
      (SettlesRight isNotif st.requests →
        (SettlesRight isNotif st'.requests ↔ ∀ page, reply = .ok page → isNotif = true)) := by
  obtain ⟨request, hr, hst'⟩ := Option.bind_eq_some_iff.1 hst'
  split at hst'
  · exact nomatch hst'
  · cases reply with
    | error message =>
      obtain rfl := Option.some.inj hst'
      refine ⟨hentered.set hr rfl rfl rfl rfl, rfl, fun hsettles => ?_⟩
      refine iff_of_true (hsettles.set fun result hresult => ⟨_, rfl, ?_⟩) fun page h => nomatch h
      dsimp only at hresult
      split at hresult
      · exact nomatch hresult
      · exact (Option.some.inj hresult).symm
    | ok page =>
      obtain rfl := Option.some.inj hst'
      refine ⟨hentered.set hr rfl rfl rfl rfl, rfl, fun hsettles => ⟨fun hright page _ => ?_, ?_⟩⟩
      · -- a room's promise has the response, and what is right is a boolean or an error
        by_contra hroom
        obtain ⟨reply, hreply, hresult⟩ := hright _
          (List.mem_set (List.getElem?_eq_some_iff.1 hr).1 _) _ (if_neg hroom)
        obtain rfl := Option.some.inj hreply
        unfold chained at hresult
        split at hresult
        · exact nomatch hresult
        · exact nomatch hresult
        · exact absurd (Except.ok.inj hresult) (by simp)
      · intro hnotif
        refine hsettles.set fun result hresult => ?_
        rw [if_pos (hnotif page rfl)] at hresult
        exact nomatch hresult

/-- **The chain of a request ends.** -/
theorem clear_spec {r : ℕ} (hst' : st.clear isNotif r = some st') (hentered : Entered st) :
    Entered st' ∧ st'.calls = st.calls ∧
      (SettlesRight isNotif st.requests → SettlesRight isNotif st'.requests) := by
  obtain ⟨request, hr, hst'⟩ := Option.bind_eq_some_iff.1 hst'
  split at hst'
  · exact nomatch hst'
  next hnot =>
    have hcleared : request.cleared = false := Bool.eq_false_iff.2 hnot
    obtain ⟨reply, hreply, rfl⟩ := Option.map_eq_some_iff.1 hst'
    refine ⟨fun r' other hr' hother => ?_, rfl, fun hsettles => hsettles.set fun result hresult =>
      ⟨reply, hreply, ?_⟩⟩
    · change (st.requests.set r _)[r']? = _ at hr'
      rw [List.getElem?_set] at hr'
      split at hr'
      next =>
        split at hr'
        · obtain rfl := Option.some.inj hr'
          exact nomatch hother
        · exact nomatch hr'
      next hne =>
        -- the entry of another request is another one, since there is one request for each
        have hkey : (other.timeline, other.direction) ≠ (request.timeline, request.direction) := by
          intro hkey
          obtain ⟨htimeline, hdirection⟩ := Prod.mk.inj hkey
          exact hne (hentered.shares r r' request other hr hr' hcleared hother htimeline.symm
            hdirection.symm)
        exact (Function.update_of_ne hkey _ _).trans (hentered r' other hr' hother)
    · dsimp only at hresult
      split at hresult
      · exact (Option.some.inj hresult).symm
      · obtain ⟨reply', hreply', hright⟩ := hsettles request (List.mem_of_getElem? hr) result hresult
        exact Option.some.inj (hreply.symm.trans hreply') ▸ hright

end Requests

/-! ## Calls of the window -/

section Calls

variable {calls : List WindowCall}

/-- A call that is over has extended the window exactly if it resolves to `true`; one that goes on
has not yet. -/
def WindowCall.Right (call : WindowCall) : Prop :=
  match call.outcome with
  | .settled (.ok b) => b = true ↔ call.extended = true
  | .settled (.error _) => True
  | _ => call.extended = false

/-- A call follows others until one is over, and that one has extended the window or not. -/
theorem ResolvesTo.iff_hasExtended (h : ∀ call ∈ calls, call.Right) {i : ℕ} {b : Bool}
    (hb : ResolvesTo calls i b) : b = true ↔ HasExtended calls i := by
  induction hb with
  | @settled i call b hi hcall =>
    have hright := h call (List.mem_of_getElem? hi)
    simp only [WindowCall.Right, hcall] at hright
    rw [hright]
    refine ⟨.here hi, fun hextended => ?_⟩
    cases hextended with
    | here hi' hcall' => exact Option.some.inj (hi.symm.trans hi') ▸ hcall'
    | follows hi' hcall' _ =>
      obtain rfl := Option.some.inj (hi.symm.trans hi')
      exact nomatch hcall.symm.trans hcall'
  | @follows i j call b hi hcall hj ih =>
    have hright := h call (List.mem_of_getElem? hi)
    simp only [WindowCall.Right, hcall] at hright
    rw [ih]
    refine ⟨.follows hi hcall, fun hextended => ?_⟩
    cases hextended with
    | here hi' hcall' =>
      obtain rfl := Option.some.inj (hi.symm.trans hi')
      exact nomatch hright.symm.trans hcall'
    | follows hi' hcall' hj' =>
      obtain rfl := Option.some.inj (hi.symm.trans hi')
      obtain rfl := WindowOutcome.follows.inj (hcall.symm.trans hcall')
      exact hj'

variable {isNotif : Bool} {st st' : PaginationState Event EventId Token Raw State}
  {call : WindowCall}

/-- What `extend` returns says whether it has gone over an event. -/
theorem extend_reaches {direction : Direction} {size : ℕ} {window : TimelineWindow} {b : Bool}
    (h : st.window.extend st.set st.set.created direction size = some (window, .ok b)) :
    b = true ↔ st.reaches direction size = true := by
  unfold TimelineWindow.extend at h
  unfold PaginationState.reaches
  cases htl : st.window.getTimelineIndex direction with
  | none =>
    simp only [htl, Option.some.injEq, Prod.mk.injEq, Except.ok.injEq] at h
    simp [← h.2]
  | some tl =>
    simp only [htl] at h
    obtain ⟨⟨tl', count⟩, hmoved, h⟩ := Option.bind_eq_some_iff.1 h
    simp only [hmoved]
    by_cases hcount : count = 0
    · simp only [hcount, if_true, Option.some.injEq, Prod.mk.injEq, Except.ok.injEq] at h
      simp [← h.2, hcount]
    · simp only [hcount, if_false] at h
      have hb : b = true := by
        split at h
        · obtain ⟨⟨window', thrown⟩, -, h⟩ := Option.map_eq_some_iff.1 h
          cases thrown with
          | error message => simp [Except.map] at h
          | ok _ => simpa [Except.map, eq_comm] using (Prod.mk.inj h).2
        · simpa [eq_comm] using (Prod.mk.inj (Option.some.inj h)).2
      simp [hb, hcount]

/-- There is another call, which is right, and a request at most. -/
def Calls (st st' : PaginationState Event EventId Token Raw State) : Prop :=
  Asks st st' ∧ ∃ call : WindowCall, st'.calls = st.calls ++ [call] ∧ call.Right

theorem calls_addCall (h : call.Right) : Calls st (st.addCall call) :=
  ⟨.inl ⟨rfl, rfl⟩, call, rfl, h⟩

theorem askForMore_calls (hnot : call.extended = false)
    (hcall : call.outcome = .settled (.ok false)) (makeRequest roomKnown : Bool) :
    Calls st (st.askForMore isNotif call makeRequest roomKnown) := by
  have hstops : Calls st (st.addCall call) :=
    calls_addCall (by simp [WindowCall.Right, hcall, hnot])
  unfold PaginationState.askForMore
  split
  · exact hstops
  · split
    · exact hstops
    next tl _ =>
      split
      · exact hstops
      · obtain ⟨hasks, hcalls⟩ := paginateEventTimeline_asks isNotif st tl.timeline
          (call.direction = .backwards) (some call.size) roomKnown
        dsimp only
        split
        · exact ⟨hasks, _, congrArg (· ++ _) hcalls, trivial⟩
        · exact ⟨hasks, _, congrArg (· ++ _) hcalls, hnot⟩

/-- **What a call of `TimelineWindow.paginate` does.** -/
theorem paginate_calls {direction : Direction} {size requestLimit : ℕ}
    {makeRequest roomKnown : Bool}
    (h : st.paginate isNotif direction size makeRequest requestLimit roomKnown = some st') :
    Calls st st' := by
  unfold PaginationState.paginate at h
  dsimp only at h
  split at h
  · obtain rfl := Option.some.inj h
    exact calls_addCall (by simp [WindowCall.Right])
  · split at h
    · obtain rfl := Option.some.inj h
      exact calls_addCall rfl
    · obtain ⟨⟨window, result⟩, hextend, h⟩ := Option.map_eq_some_iff.1 h
      subst h
      cases result with
      | error message => exact calls_addCall trivial
      | ok b =>
        have hb := extend_reaches hextend
        cases b with
        | true => exact calls_addCall hb
        | false =>
          exact askForMore_calls (Bool.eq_false_iff.2 fun h => nomatch hb.2 h) rfl makeRequest
            roomKnown

/-- The calls are right when one has come to another outcome that is. -/
theorem right_set (h : ∀ call ∈ calls, call.Right) (i : ℕ) (hcall : call.Right) :
    ∀ other ∈ calls.set i call, other.Right := by
  intro other hother
  rcases List.mem_or_eq_of_mem_set hother with hother | heq
  · exact h other hother
  · exact heq ▸ hcall

theorem Calls.right (h : Calls st st') (hcalls : ∀ call ∈ st.calls, call.Right) :
    ∀ call ∈ st'.calls, call.Right := by
  obtain ⟨-, call, hcall, hright⟩ := h
  intro other hother
  rw [hcall] at hother
  rcases List.mem_append.1 hother with hother | hother
  · exact hcalls other hother
  · exact List.mem_singleton.1 hother ▸ hright

/-- A call that waits has not extended the window. -/
theorem not_extended_of_waits {i : ℕ} {promise : PagePromise} {cleared : Bool}
    (h : ∀ call ∈ calls, call.Right) (hi : calls[i]? = some call)
    (hcall : call.outcome = .waits promise cleared) : call.extended = false := by
  have hright := h call (List.mem_of_getElem? hi)
  simpa only [WindowCall.Right, hcall] using hright

theorem paginateFinally_spec {i : ℕ} (h : st.paginateFinally i = some st')
    (hcalls : ∀ call ∈ st.calls, call.Right) :
    Asks st st' ∧ ∀ call ∈ st'.calls, call.Right := by
  obtain ⟨call, hi, h⟩ := Option.bind_eq_some_iff.1 h
  split at h
  next promise hcall =>
    split at h
    · obtain rfl := Option.some.inj h
      have hnot := not_extended_of_waits hcalls hi hcall
      exact ⟨.inl ⟨rfl, rfl⟩, right_set hcalls i hnot⟩
    · exact nomatch h
  · exact nomatch h

theorem paginateThen_spec {i : ℕ} {roomKnown : Bool}
    (h : st.paginateThen isNotif i roomKnown = some st')
    (hcalls : ∀ call ∈ st.calls, call.Right) :
    Asks st st' ∧ ∀ call ∈ st'.calls, call.Right := by
  obtain ⟨call, hi, h⟩ := Option.bind_eq_some_iff.1 h
  split at h
  next promise hcall =>
    have hnot := not_extended_of_waits hcalls hi hcall
    obtain ⟨result, -, h⟩ := Option.bind_eq_some_iff.1 h
    cases result with
    | error message =>
      obtain rfl := Option.some.inj h
      exact ⟨.inl ⟨rfl, rfl⟩, right_set hcalls i trivial⟩
    | ok value =>
      dsimp only at h
      split at h
      · -- the next call is made once this one follows it
        have hnext := paginate_calls h
        exact ⟨hnext.1, hnext.right (right_set hcalls i hnot)⟩
      · obtain rfl := Option.some.inj h
        exact ⟨.inl ⟨rfl, rfl⟩, right_set hcalls i (by simp [WindowCall.Right, hnot])⟩
  · exact nomatch h

end Calls

/-! ## Runs -/

section Runs

variable [DecidableEq EventId] [DecidableEq Token] {getId : Event → EventId}
variable {mapEvent : Raw → Except String Event} {knows : State → Event → Bool}
variable {setStateEvents : State → List Event → State × Except String Unit} {isNotif : Bool}
variable {st st' : PaginationState Event EventId Token Raw State}

/-- What every run keeps. -/
structure PaginationInv (st : PaginationState Event EventId Token Raw State) : Prop where
  entered : Entered st
  calls : ∀ call ∈ st.calls, call.Right

omit [DecidableEq EventId] in
theorem PaginationInv.paginatesRight (h : PaginationInv st) :
    PaginatesRight isNotif st ↔ SettlesRight isNotif st.requests :=
  ⟨fun hright => hright.settles, fun hsettles =>
    ⟨hsettles, h.entered.shares, fun _ _ hb => hb.iff_hasExtended h.calls⟩⟩

variable {set : EventTimelineSet Event EventId Token} {states : ℕ × Direction → State}
variable {window : TimelineWindow}

/-- **What a step does.** Only the response to a request for a room leaves a promise that is not
right. -/
theorem pagination_step {e : PaginationStep Event EventId Token Raw State} (hI : PaginationInv st)
    (hstep : (paginationSystem getId mapEvent knows setStateEvents isNotif set states window).step
      st e = some st') :
    PaginationInv st' ∧ (SettlesRight isNotif st.requests →
      (SettlesRight isNotif st'.requests ↔ NoRoomResponse isNotif st e)) := by
  have hasked (hasks : Asks st st') (hcalls : ∀ call ∈ st'.calls, call.Right)
      (hC : NoRoomResponse isNotif st e) :
      PaginationInv st' ∧ (SettlesRight isNotif st.requests →
        (SettlesRight isNotif st'.requests ↔ NoRoomResponse isNotif st e)) :=
    ⟨⟨hI.entered.asks hasks, hcalls⟩, fun hsettles => iff_of_true (hsettles.asks hasks) hC⟩
  cases e with
  | changed set states window loads =>
    simp only [paginationSystem] at hstep
    split at hstep
    · obtain rfl := Option.some.inj hstep
      exact hasked (.inl ⟨rfl, rfl⟩) hI.calls trivial
    · exact absurd hstep (by simp)
  | paginateEventTimeline timeline backwards limit roomKnown =>
    obtain rfl := Option.some.inj hstep
    obtain ⟨hasks, hcalls⟩ := paginateEventTimeline_asks isNotif st timeline backwards limit
      roomKnown
    refine hasked hasks ?_ trivial
    rw [hcalls]
    exact hI.calls
  | respond r reply =>
    obtain ⟨hentered, hcalls, hright⟩ := respond_spec hstep hI.entered
    refine ⟨⟨hentered, ?_⟩, fun hsettles => (hright hsettles).trans ?_⟩
    · rw [hcalls]
      exact hI.calls
    · cases reply with
      | error message => exact iff_of_true (fun page hpage => (nomatch hpage)) trivial
      | ok page => exact ⟨fun h => h page rfl, fun h _ _ => h⟩
  | cleared r =>
    obtain ⟨hentered, hcalls, hright⟩ := clear_spec hstep hI.entered
    refine ⟨⟨hentered, ?_⟩, fun hsettles => iff_of_true (hright hsettles) trivial⟩
    rw [hcalls]
    exact hI.calls
  | paginate direction size makeRequest requestLimit roomKnown =>
    have hnext := paginate_calls hstep
    exact hasked hnext.1 (hnext.right hI.calls) trivial
  | paginateFinally i =>
    obtain ⟨hasks, hcalls⟩ := paginateFinally_spec hstep hI.calls
    exact hasked hasks hcalls trivial
  | paginateThen i roomKnown =>
    obtain ⟨hasks, hcalls⟩ := paginateThen_spec hstep hI.calls
    exact hasked hasks hcalls trivial

theorem paginationInv_init : PaginationInv
    (paginationSystem getId mapEvent knows setStateEvents isNotif set states window).init :=
  ⟨fun _ _ hr => absurd hr (by simp [paginationSystem]), fun _ hcall => absurd hcall (by
    simp [paginationSystem])⟩

/-- **Pagination keeps its contract all along a run exactly if no response arrives for the
timeline of a room.** Requests are shared, and the window says rightly whether it was extended, in
every run. -/
theorem paginatesRight_iff {tr : List (PaginationState Event EventId Token Raw State ×
      PaginationStep Event EventId Token Raw State)}
    (h : (paginationSystem getId mapEvent knows setStateEvents isNotif set states window).Trace
      tr st) :
    (System.HoldsAlong (PaginatesRight isNotif) tr st ↔
        System.Meets (NoRoomResponse isNotif) tr) ∧
      SharesRequests st.requests ∧
      ∀ i b, ResolvesTo st.calls i b → (b = true ↔ HasExtended st.calls i) := by
  have hkept : ∀ st e st', PaginationInv st → (paginationSystem getId mapEvent knows setStateEvents
      isNotif set states window).step st e = some st' → PaginationInv st' :=
    fun st e st' hI hstep => (pagination_step hI hstep).1
  refine ⟨h.holdsAlong_iff paginationInv_init hkept ?_ ?_, ?_⟩
  · exact paginationInv_init.paginatesRight.2 fun request hrequest =>
      absurd hrequest (by simp [paginationSystem])
  · intro st e st' hI hright hstep
    obtain ⟨hI', hiff⟩ := pagination_step hI hstep
    rw [hI'.paginatesRight]
    exact hiff hright.settles
  · have hI : PaginationInv st := h.invariant_under (C := fun _ _ => True) paginationInv_init
      (fun st e st' hI _ hstep => hkept st e st' hI hstep) fun _ _ => trivial
    exact ⟨hI.entered.shares, fun _ _ hb => hb.iff_hasExtended hI.calls⟩

end Runs

/-! Events are their own ids and come as they are; the timeline has a token at its start, and the
window is at its start too. -/

section Examples

abbrev PageExample := PaginationStep ℕ ℕ ℕ ℕ Unit

def withToken : EventTimelineSet ℕ ℕ ℕ :=
  let set : EventTimelineSet ℕ ℕ ℕ := .new true none
  set.setTimeline 0 ((set.timeline 0).setPaginationToken (some 1) .backwards)

abbrev examplePagination (isNotif : Bool) :
    System (PaginationState ℕ ℕ ℕ ℕ Unit) PageExample :=
  paginationSystem id (fun raw => .ok raw) (fun _ _ => false) (fun state _ => (state, .ok ()))
    isNotif withToken (fun _ => ()) ⟨some ⟨⟨0, 0, false⟩, ⟨0, 0, false⟩⟩, 0, 10⟩

/-- The window asks for events, and so does somebody else; there are two, and more to come. -/
def overlappingCalls : List PageExample :=
  [.paginate .backwards 2 true 5 true, .paginateEventTimeline 0 true none true,
    .respond 0 (.ok ⟨none, some [7, 8], none, some 2⟩), .cleared 0, .paginateFinally 0,
    .paginateThen 0 true]

theorem overlappingCalls_runs : ((examplePagination true).run overlappingCalls).isSome := by
  decide +kernel

theorem paginatesRight_iff_overlappingCalls :
    System.HoldsAlong (PaginatesRight true) ((examplePagination true).steps overlappingCalls)
        (((examplePagination true).run overlappingCalls).get overlappingCalls_runs) ∧
      (((examplePagination true).run overlappingCalls).get
        overlappingCalls_runs).requests.length = 1 ∧
      HasExtended
        (((examplePagination true).run overlappingCalls).get overlappingCalls_runs).calls 0 := by
  have htrace := System.trace_get overlappingCalls_runs
  refine ⟨(paginatesRight_iff htrace).1.2 ?_, by decide +kernel, ?_⟩
  · decide +kernel
  · exact ((paginatesRight_iff htrace).2.2 0 true (.follows rfl rfl (.settled rfl rfl))).1 rfl

/-- The timeline of a room: the response shows that it starts here. -/
def startOfRoom : List PageExample :=
  [.paginateEventTimeline 0 true none true, .respond 0 (.ok ⟨none, some [], some 1, some 1⟩)]

theorem startOfRoom_runs : ((examplePagination false).run startOfRoom).isSome := by decide +kernel

/-- Not in all runs: the promise resolves to the response. -/
theorem paginatesRight_fails :
    ¬ ∀ st, (examplePagination false).Reachable st → PaginatesRight false st := by
  intro h
  obtain ⟨reply, hreply, hright⟩ := (h _ (System.reachable_get startOfRoom_runs)).settles _
    (List.mem_singleton.2 rfl) _ rfl
  obtain rfl := Option.some.inj hreply
  exact absurd (Except.ok.inj hright) (by simp)

end Examples

end MatrixSdk.Models
