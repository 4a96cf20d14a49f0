/-
`SyncAccumulator` of `src/sync-accumulator.js`.

Sync responses go in one by one (`accumulate`), and one response comes out that stands for them all
(`getJSON`): it is saved, and fed to the next session as if the server had sent it (`_syncFromCache` of
`src/sync.js`). So what comes out is of the types of what goes in.

`none` stands for what a response does not have, at whatever level it is missing. What the code takes
as it is, is a `J`. A call that takes something inherited from `Object.prototype` for the data of a room
throws or writes to it, and is `none` here.
-/
import MatrixSdk.Lib.JsObject
import MatrixSdk.Lib.System

set_option autoImplicit false

namespace MatrixSdk.Sync

open MatrixSdk.Lib

/-! ## Responses -/

/-- `unsigned` of an event. -/
structure Unsigned (J : Type) where
  prevContent : Option J
  prevSender : Option String
  deriving DecidableEq

/-- An event; `other` is what is neither read nor written. -/
structure SyncEvent (J : Type) where
  type : String
  stateKey : Option String
  sender : String
  content : J
  unsigned : Option (Unsigned J)
  other : J
  deriving DecidableEq

structure AccountDataEvent (J : Type) where
  type : String
  content : J
  deriving DecidableEq

/-- An ephemeral event. For an event id its content has, under `m.read`, the receipts of users. -/
structure EphemeralEvent (J : Type) where
  type : String
  roomId : Option String
  content : Option (JsObject String (Option (JsObject String J)))

structure Timeline (J : Type) where
  limited : Bool
  events : List (SyncEvent J)
  prevBatch : Option String

structure Summary where
  heroes : Option (List String)
  joinedMemberCount : Option ℕ
  invitedMemberCount : Option ℕ
  deriving DecidableEq

/-- A room under `join`. -/
structure JoinData (J : Type) where
  accountData : Option (List (AccountDataEvent J))
  unreadNotifications : Option (JsObject String J)
  summary : Option Summary
  ephemeral : Option (List (EphemeralEvent J))
  state : Option (List (SyncEvent J))
  timeline : Option (Timeline J)

/-- A room under `invite`: the events of its `invite_state`. -/
structure InviteData (J : Type) where
  inviteState : Option (List (SyncEvent J))

structure Rooms (J : Type) where
  invite : Option (JsObject String (InviteData J))
  join : Option (JsObject String (JoinData J))
  leave : Option (JsObject String Unit)

structure Groups (J : Type) where
  invite : JsObject String J
  join : JsObject String J
  leave : JsObject String J

structure SyncResponse (J : Type) where
  nextBatch : Option String
  rooms : Option (Rooms J)
  groups : Option (Groups J)
  accountData : Option (List (AccountDataEvent J))

/-- What `getJSON` returns. -/
structure SavedSync (J : Type) where
  nextBatch : Option String
  roomsData : Rooms J
  groupsData : Groups J
  accountData : List (AccountDataEvent J)

/-- The response that `_syncFromCache` makes of a saved one. -/
def syncFromCache {J : Type} (savedSync : SavedSync J) : SyncResponse J where
  nextBatch := savedSync.nextBatch
  rooms := some savedSync.roomsData
  groups := some savedSync.groupsData
  accountData := some savedSync.accountData

/-- `o[k] = v` for a `{}`, where `__proto__` is not a key but sets the prototype. -/
def assign {V : Type} (o : JsObject String V) (k : String) (v : V) : JsObject String V :=
  if k = "__proto__" then o else o.set k v

/-- `token` as a condition. -/
def hasToken (token : Option String) : Bool := token.any fun token => token ≠ ""

/-! ## The accumulator -/

/-- `{ $event_type: { $state_key: json } }`, without a prototype. -/
abbrev EventMap (J : Type) := JsObject String (JsObject String (SyncEvent J))

/-- `setState`. -/
def setState {J : Type} (eventMap : EventMap J) (event : SyncEvent J) : EventMap J :=
  match event.stateKey with
  | none => eventMap
  | some stateKey =>
    if event.type = "" then eventMap
    else eventMap.set event.type (((eventMap.get event.type).getD .empty).set stateKey event)

/-- An element of `_timeline`. -/
structure TimelineEntry (J : Type) where
  event : SyncEvent J
  token : Option String

/-- An element of `_readReceipts`. -/
structure ReadReceipt (J : Type) where
  data : J
  eventId : String

/-- An element of `joinRooms`. -/
structure RoomData (J : Type) where
  currentState : EventMap J
  timeline : List (TimelineEntry J)
  accountData : JsObject String (AccountDataEvent J)
  unreadNotifications : JsObject String J
  summary : Summary
  readReceipts : JsObject String (ReadReceipt J)

/-- The element of `inviteRooms` of a room is its invite state. -/
structure SyncAccumulator (J : Type) where
  maxTimelineEntries : ℕ
  accountData : JsObject String (AccountDataEvent J)
  inviteRooms : JsObject String (List (SyncEvent J))
  joinRooms : JsObject String (RoomData J)
  nextBatch : Option String
  groups : Groups J

namespace RoomData

variable {J : Type}

def new : RoomData J := ⟨.empty, [], .empty, .empty, ⟨none, none, none⟩, .empty⟩

/-- What a room has of its own summary; `0` does not clobber. -/
def accumulateSummary (acc sum : Summary) : Summary where
  heroes := sum.heroes.or acc.heroes
  joinedMemberCount := (sum.joinedMemberCount.filter (· ≠ 0)).or acc.joinedMemberCount
  invitedMemberCount := (sum.invitedMemberCount.filter (· ≠ 0)).or acc.invitedMemberCount

/-- The receipts of an ephemeral event. They clobber by user. -/
def accumulateReceipts (readReceipts : JsObject String (ReadReceipt J)) (e : EphemeralEvent J) :
    JsObject String (ReadReceipt J) :=
  match e.content with
  | none => readReceipts
  | some content =>
    if e.type ≠ "m.receipt" then readReceipts
    else content.entries.foldl (fun readReceipts (eventId, mRead) =>
      match mRead with
      | none => readReceipts
      | some mRead => mRead.entries.foldl (fun readReceipts (userId, data) =>
        assign readReceipts userId ⟨data, eventId⟩) readReceipts) readReceipts

/-- The entries of a batch. Only its first event has a token. -/
def batchEntries (timeline : Timeline J) : List (TimelineEntry J) :=
  timeline.events.mapIdx fun index e => ⟨e, if index = 0 then timeline.prevBatch else none⟩

/-- The first entry with a token from `startIndex` on begins what is kept, if there is one. -/
def prune (maxTimelineEntries : ℕ) (timeline : List (TimelineEntry J)) : List (TimelineEntry J) :=
  if timeline.length > maxTimelineEntries then
    match (timeline.drop (timeline.length - maxTimelineEntries)).dropWhile
        fun msgData => !hasToken msgData.token with
    | [] => timeline
    | kept => kept
  else timeline

/-- `_accumulateJoinState` on the data of the room. -/
def accumulateJoinState (maxTimelineEntries : ℕ) (currentData : RoomData J) (data : JoinData J) :
    RoomData J :=
  let stateEvents := data.state.getD []
  let limited := data.timeline.any Timeline.limited
  let timelineEvents := (data.timeline.map Timeline.events).getD []
  { accountData := (data.accountData.getD []).foldl (fun accountData e =>
      accountData.set e.type e) currentData.accountData
    unreadNotifications := data.unreadNotifications.getD currentData.unreadNotifications
    summary := (data.summary.map (accumulateSummary currentData.summary)).getD currentData.summary
    readReceipts := (data.ephemeral.getD []).foldl accumulateReceipts currentData.readReceipts
    currentState := timelineEvents.foldl setState (stateEvents.foldl setState
      currentData.currentState)
    timeline := prune maxTimelineEntries ((if limited then [] else currentData.timeline) ++
      (data.timeline.map batchEntries).getD []) }

end RoomData

namespace SyncAccumulator

variable {J : Type}

def new (maxTimelineEntries : ℕ) : SyncAccumulator J where
  maxTimelineEntries := if maxTimelineEntries = 0 then 50 else maxTimelineEntries
  accountData := .empty
  inviteRooms := .empty
  joinRooms := .empty
  nextBatch := none
  groups := ⟨.empty, .empty, .empty⟩

/-! ### Rooms -/

/-- An event of an invite state that is there already. It clobbers by type and state key. -/
def accumulateInviteEvent (events : List (SyncEvent J)) (e : SyncEvent J) : List (SyncEvent J) :=
  let same (current : SyncEvent J) : Bool := current.type = e.type ∧ current.stateKey = e.stateKey
  if events.any same then events.map fun current => if same current then e else current
  else events ++ [e]

/-- `_accumulateInviteState`. -/
def accumulateInviteState (acc : SyncAccumulator J) (roomId : String) (data : InviteData J) :
    Option (SyncAccumulator J) :=
  match data.inviteState with
  | none => some acc
  | some inviteState =>
    match acc.inviteRooms.lookup roomId with
    | .missing => some { acc with inviteRooms := acc.inviteRooms.set roomId inviteState }
    | .inherited => if inviteState = [] then some acc else none
    | .own currentData => some { acc with
        inviteRooms := acc.inviteRooms.set roomId (inviteState.foldl accumulateInviteEvent
          currentData) }

/-- `_accumulateJoinState`. -/
def accumulateJoinState (acc : SyncAccumulator J) (roomId : String) (data : JoinData J) :
    Option (SyncAccumulator J) :=
  match acc.joinRooms.lookup roomId with
  | .inherited => none
  | .missing => some { acc with
      joinRooms := acc.joinRooms.set roomId
        (RoomData.new.accumulateJoinState acc.maxTimelineEntries data) }
  | .own currentData => some { acc with
      joinRooms := acc.joinRooms.set roomId
        (currentData.accumulateJoinState acc.maxTimelineEntries data) }

/-- What a response has for a room. -/
inductive Block (J : Type)
  | invite (data : InviteData J)
  | join (data : JoinData J)
  | leave

/-- An invitation that is accepted. -/
def deleteInvite (acc : SyncAccumulator J) (roomId : String) : SyncAccumulator J :=
  match acc.inviteRooms.lookup roomId with
  | .missing => acc
  | _ => { acc with inviteRooms := acc.inviteRooms.delete roomId }

/-- `_accumulateRoom`. -/
def accumulateRoom (acc : SyncAccumulator J) (roomId : String) :
    Block J → Option (SyncAccumulator J)
  | .invite data => acc.accumulateInviteState roomId data
  | .join data => (acc.deleteInvite roomId).accumulateJoinState roomId data
  | .leave =>
    match acc.inviteRooms.lookup roomId with
    | .missing => some { acc with joinRooms := acc.joinRooms.delete roomId }
    | _ => some { acc with inviteRooms := acc.inviteRooms.delete roomId }

/-- The rooms of a response in the order they are accumulated in. -/
def blocks (rooms : Rooms J) : List (String × Block J) :=
  (rooms.invite.getD .empty).entries.map (fun (roomId, data) => (roomId, .invite data)) ++
    (rooms.join.getD .empty).entries.map (fun (roomId, data) => (roomId, .join data)) ++
    (rooms.leave.getD .empty).entries.map fun (roomId, _) => (roomId, .leave)

/-- `_accumulateRooms`. -/
def accumulateRooms (acc : SyncAccumulator J) (rooms : Option (Rooms J)) :
    Option (SyncAccumulator J) :=
  match rooms with
  | none => some acc
  | some rooms =>
    (blocks rooms).foldlM (fun acc (roomId, block) => acc.accumulateRoom roomId block) acc

/-! ### Groups and account data -/

/-- A group is taken out of all categories. -/
def deleteGroup (groups : Groups J) (groupId : String) : Groups J where
  invite := groups.invite.delete groupId
  join := groups.join.delete groupId
  leave := groups.leave.delete groupId

/-- `_accumulateGroups`. -/
def accumulateGroups (groups : Groups J) (incoming : Option (Groups J)) : Groups J :=
  match incoming with
  | none => groups
  | some incoming =>
    let groups := incoming.invite.entries.foldl (fun groups (groupId, data) =>
      let groups := deleteGroup groups groupId
      { groups with invite := assign groups.invite groupId data }) groups
    let groups := incoming.join.entries.foldl (fun groups (groupId, data) =>
      let groups := deleteGroup groups groupId
      { groups with join := assign groups.join groupId data }) groups
    incoming.leave.entries.foldl (fun groups (groupId, data) =>
      let groups := deleteGroup groups groupId
      { groups with leave := assign groups.leave groupId data }) groups

/-- `accumulate`. -/
def accumulate (acc : SyncAccumulator J) (syncResponse : SyncResponse J) :
    Option (SyncAccumulator J) :=
  (acc.accumulateRooms syncResponse.rooms).map fun acc =>
    { acc with
      groups := accumulateGroups acc.groups syncResponse.groups
      accountData := (syncResponse.accountData.getD []).foldl (fun accountData e =>
        assign accountData e.type e) acc.accountData
      nextBatch := syncResponse.nextBatch }

/-! ## What comes out -/

/-- The event before a state event, made of it, since only its content and its sender are known. -/
def prevStateEvent (timelineEvent : SyncEvent J) : SyncEvent J :=
  match timelineEvent.unsigned with
  | none => timelineEvent
  | some unsigned =>
    { timelineEvent with
      content := unsigned.prevContent.getD timelineEvent.content
      sender := (unsigned.prevSender.filter (· ≠ "")).getD timelineEvent.sender }

/-- The events from the first one with a token on, and that token. -/
def timelineJson (timeline : List (TimelineEntry J)) : Timeline J :=
  timeline.foldl (fun json msgData =>
    if hasToken json.prevBatch then { json with events := json.events ++ [msgData.event] }
    else if hasToken msgData.token then
      { json with prevBatch := msgData.token, events := json.events ++ [msgData.event] }
    else json) ⟨false, [], none⟩

/-- `rollBackState`: the earliest event of the timeline clobbers the later ones. -/
def rollBackState (events : List (SyncEvent J)) : EventMap J :=
  events.foldr (fun timelineEvent rollBackState =>
    if timelineEvent.stateKey = none then rollBackState
    else setState rollBackState (prevStateEvent timelineEvent)) .empty

/-- What an event map has for a type and a state key. -/
def getState (eventMap : EventMap J) (evType stateKey : String) : Option (SyncEvent J) :=
  (eventMap.get evType).bind fun events => events.get stateKey

/-- The state events before the timeline. -/
def stateJson (currentState rollBackState : EventMap J) : List (SyncEvent J) :=
  currentState.entries.flatMap fun (evType, events) =>
    events.entries.map fun (stateKey, ev) => (getState rollBackState evType stateKey).getD ev

/-- The content of the receipt event of a room. -/
def receiptContent (readReceipts : JsObject String (ReadReceipt J)) :
    Option (JsObject String (Option (JsObject String J))) :=
  readReceipts.entries.foldlM (fun content (userId, receiptData) =>
    match content.lookup receiptData.eventId with
    | .inherited => none
    | .missing => some (content.set receiptData.eventId
        (some (JsObject.empty.set userId receiptData.data)))
    | .own mRead => some (content.set receiptData.eventId
        (some ((mRead.getD .empty).set userId receiptData.data)))) .empty

/-- A room under `join`. -/
def roomJson (roomId : String) (roomData : RoomData J) : Option (JoinData J) :=
  (receiptContent roomData.readReceipts).map fun content =>
    let timeline := timelineJson roomData.timeline
    { accountData := some (roomData.accountData.entries.map Prod.snd)
      unreadNotifications := some roomData.unreadNotifications
      summary := some roomData.summary
      ephemeral := some
        (if content.keys = [] then [] else [⟨"m.receipt", some roomId, some content⟩])
      state := some (stateJson roomData.currentState (rollBackState timeline.events))
      timeline := some timeline }

/-- `getJSON`. -/
def getJSON (acc : SyncAccumulator J) : Option (SavedSync J) :=
  let join : Option (JsObject String (JoinData J)) := acc.joinRooms.entries.foldlM (fun join room =>
    (roomJson room.1 room.2).map fun json => join.set room.1 json) .empty
  join.map fun join =>
  { nextBatch := acc.nextBatch
    roomsData :=
      { invite := some (acc.inviteRooms.map fun _ events => ⟨some events⟩)
        join := some join
        leave := some .empty }
    groupsData := acc.groups
    accountData := acc.accountData.entries.map Prod.snd }

/-! ## All runs -/

/-- An accumulator over all sequences of responses. -/
def accumulatorSystem (J : Type) (maxTimelineEntries : ℕ) :
    System (SyncAccumulator J) (SyncResponse J) where
  init := .new maxTimelineEntries
  step := accumulate

end SyncAccumulator

end MatrixSdk.Sync
