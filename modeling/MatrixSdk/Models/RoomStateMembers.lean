/-
The members of a room: `models/room-state.js` with `RoomMember` of `models/room-member.js`.

A room state keeps the member events, the members made of them, the users of each display name and
the numbers of joined and invited members. What names have in common is told by
`removeHiddenChars` of `utils.ts`, and what is left of a name is a key of an object.

The four go together while no operation takes one of the branches that [`Harmless`] excludes, see
[`consistent_of_harmless`].
-/
import MatrixSdk.Lib.JsObject
import MatrixSdk.Lib.System
import Mathlib.Data.Nat.Notation

set_option autoImplicit false

namespace MatrixSdk.Members

open MatrixSdk.Lib JsObject

/-! ## Names -/

/-- What strings are compared by: the normal form NFD, and one character for all that look alike. -/
structure Unicode where
  normalize : String → String
  unhomoglyph : String → String

/-- `removeHiddenCharsRegex`, where `\s` adds white space and line ends. -/
def isHiddenChar (c : Char) : Bool :=
  (0x2000 ≤ c.toNat && c.toNat ≤ 0x200F) || (0x2028 ≤ c.toNat && c.toNat ≤ 0x202F) ||
    (0x0300 ≤ c.toNat && c.toNat ≤ 0x036F) || (9 ≤ c.toNat && c.toNat ≤ 13) ||
    [0xFEFF, 0x20, 0xA0, 0x1680, 0x205F, 0x3000].contains c.toNat

/-- `removeHiddenChars` -/
def Unicode.removeHiddenChars (u : Unicode) (str : String) : String :=
  u.unhomoglyph (String.ofList ((u.normalize str).toList.filter (!isHiddenChar ·)))

/-- `/@.+:.+/`, where a dot is no line end. -/
def containsMxid (displayName : String) : Bool :=
  displayName.toList.tails.any fun
    | '@' :: rest =>
      let line := rest.takeWhile fun c => !(['\n', '\r', '\u2028', '\u2029'].contains c)
      (line.drop 1).dropLast.contains ':'
    | _ => false

/-- `/[\u200E\u200F\u202A-\u202F]/` -/
def containsDirectionMark (displayName : String) : Bool :=
  displayName.toList.any fun c =>
    c.toNat == 0x200E || c.toNat == 0x200F || (0x202A ≤ c.toNat && c.toNat ≤ 0x202F)

/-! ## Events, members and the state -/

structure MemberContent where
  membership : Option String
  displayname : Option String
  deriving DecidableEq

/-- A `MatrixEvent`, with what a room state reads of it. -/
structure MatrixEvent where
  roomId : String
  type : String
  stateKey : Option String
  content : MemberContent
  prevContent : MemberContent
  forwardLooking : Bool
  deriving DecidableEq

def MatrixEvent.getDirectionalContent (event : MatrixEvent) : MemberContent :=
  if event.forwardLooking then event.content else event.prevContent

/-- The event objects. States and their copies share them, and `setStateEvents` writes to them. -/
abbrev Heap := ℕ → MatrixEvent

structure RoomMember where
  userId : String
  membership : Option String
  name : String
  isOutOfBand : Bool
  deriving DecidableEq

/-- `new RoomMember(roomId, userId)` -/
def RoomMember.new (userId : String) : RoomMember := ⟨userId, none, userId, false⟩

structure RoomState where
  roomId : String
  /-- userId -> member. -/
  members : JsObject String RoomMember
  /-- type -> state key -> event. -/
  events : JsObject String (JsObject (Option String) ℕ)
  displayNameToUserIds : JsObject String (List String)
  userIdsToDisplayNames : JsObject String (Option String)
  joinedMemberCount : Option ℕ
  summaryJoinedMemberCount : Option ℕ
  invitedMemberCount : Option ℕ
  summaryInvitedMemberCount : Option ℕ

/-- `new RoomState(roomId)` -/
def RoomState.new (roomId : String) : RoomState :=
  ⟨roomId, .empty, .empty, .empty, .empty, none, none, none, none⟩

variable (u : Unicode)

namespace RoomState

variable (s : RoomState)

def getMembers : List RoomMember := s.members.entries.map (·.2)

/-- How many members have this membership. -/
def countMembers (membership : String) : ℕ :=
  s.getMembers.countP fun m => m.membership = some membership

def getJoinedMemberCount : ℕ × RoomState :=
  match s.summaryJoinedMemberCount with
  | some count => (count, s)
  | none =>
    let count := s.joinedMemberCount.getD (s.countMembers "join")
    (count, { s with joinedMemberCount := count })

def getInvitedMemberCount : ℕ × RoomState :=
  match s.summaryInvitedMemberCount with
  | some count => (count, s)
  | none =>
    let count := s.invitedMemberCount.getD (s.countMembers "invite")
    (count, { s with invitedMemberCount := count })

/-- `none` when what is found is no list but something that every object has. -/
def getUserIdsWithDisplayName (displayName : String) : Option (List String) :=
  match s.displayNameToUserIds.lookup (u.removeHiddenChars displayName) with
  | .own userIds => some userIds
  | .missing => some []
  | .inherited => none

/-- The m.room.member event of a user. -/
def memberEvent (userId : String) : Option ℕ :=
  (s.events.get "m.room.member").bind (·.get (some userId))

def setStateEvent (heap : Heap) (event : ℕ) : RoomState :=
  let byStateKey := (s.events.get (heap event).type).getD .empty
  { s with events := s.events.set (heap event).type (byStateKey.set (heap event).stateKey event) }

/-- The user is no longer one of those with the old name. -/
def removeOldName (userId : String) : Except String (JsObject String (List String)) :=
  let oldName := match s.userIdsToDisplayNames.lookup userId with
    | .own (some oldName) => if oldName = "" then none else some (u.removeHiddenChars oldName)
    | .own none => none
    | .missing => none
    -- what every object has is no string, and nothing is left of it
    | .inherited => some ""
  match oldName with
  | none => .ok s.displayNameToUserIds
  | some strippedOldName =>
    match s.displayNameToUserIds.lookup strippedOldName with
    | .own existingUserIds => .ok (s.displayNameToUserIds.set strippedOldName
        (existingUserIds.filter fun id => id ≠ userId))
    | .missing => .ok s.displayNameToUserIds
    | .inherited => .error "TypeError"

/-- `_updateDisplayNameCache` -/
def updateDisplayNameCache (userId : String) (displayName : Option String) :
    Except String RoomState :=
  (s.removeOldName u userId).bind fun displayNameToUserIds =>
    let s := { s with
      displayNameToUserIds := displayNameToUserIds
      userIdsToDisplayNames := (s.userIdsToDisplayNames.delete userId).set userId displayName }
    match displayName with
    | none => .ok s
    | some displayName =>
      let strippedDisplayname := u.removeHiddenChars displayName
      if displayName = "" ∨ strippedDisplayname = "" then .ok s
      else
        match displayNameToUserIds.lookup strippedDisplayname with
        | .own userIds =>
          .ok { s with
            displayNameToUserIds :=
              displayNameToUserIds.set strippedDisplayname (userIds ++ [userId]) }
        | .missing =>
          .ok { s with
            displayNameToUserIds := displayNameToUserIds.set strippedDisplayname [userId] }
        | .inherited => .error "TypeError"

/-- `_updateMember`, without the power level. -/
def updateMember (member : RoomMember) : RoomState :=
  { s with
    members := s.members.set member.userId member
    joinedMemberCount := none
    invitedMemberCount := none }

/-- `_getOrCreateMember`; what every object has is no member. -/
def getOrCreateMember (userId : String) : Except String (RoomMember × RoomState) :=
  match s.members.lookup userId with
  | .own member => .ok (member, s)
  | .missing =>
    .ok (.new userId, { s with members := s.members.set userId (.new userId) })
  | .inherited => .error "TypeError"

end RoomState

/-- `calculateDisplayName` -/
def calculateDisplayName (selfUserId : String) (displayName : Option String)
    (roomState : RoomState) : Except String String :=
  match displayName with
  | none => .ok selfUserId
  | some displayName =>
    if displayName = "" ∨ displayName = selfUserId then .ok selfUserId
    else if u.removeHiddenChars displayName = "" then .ok selfUserId
    else if containsMxid displayName ∨ containsDirectionMark displayName then
      .ok (displayName ++ " (" ++ selfUserId ++ ")")
    else
      match roomState.getUserIdsWithDisplayName u displayName with
      | some userIds =>
        if userIds.any (· ≠ selfUserId) then .ok (displayName ++ " (" ++ selfUserId ++ ")")
        else .ok displayName
      | none => .error "TypeError"

/-- `setMembershipEvent`, of an m.room.member event. -/
def RoomMember.setMembershipEvent (member : RoomMember) (event : MatrixEvent)
    (roomState : RoomState) : Except String RoomMember :=
  (calculateDisplayName u member.userId event.getDirectionalContent.displayname roomState).map
    fun name =>
      { member with
        isOutOfBand := false
        membership := event.getDirectionalContent.membership
        name := name }

/-! ## Setting state events -/

/-- "leave events apparently elide the displayname", so it is taken from the content before. -/
def Heap.fakeDisplayname (heap : Heap) (event : ℕ) : Heap :=
  let content := (heap event).content
  if content.membership = some "leave" ∨ content.membership = some "ban" then
    let displayname :=
      if content.displayname = none ∨ content.displayname = some "" then
        (heap event).prevContent.displayname
      else content.displayname
    Function.update heap event
      { heap event with content := { content with displayname := displayname } }
  else heap

namespace RoomState

/-- `setStateEvents` leaves out what is for another room or no state event. -/
def Takes (s : RoomState) (event : MatrixEvent) : Prop :=
  event.roomId = s.roomId ∧ event.stateKey ≠ none

instance (s : RoomState) (event : MatrixEvent) : Decidable (s.Takes event) :=
  inferInstanceAs (Decidable (_ ∧ _))

/-- "update the core event dict" -/
def updateEvents (heap : Heap) : RoomState → List ℕ → Except String RoomState
  | s, [] => .ok s
  | s, event :: events =>
    match (heap event).stateKey with
    | none => updateEvents heap s events
    | some userId =>
      if ¬ s.Takes (heap event) then updateEvents heap s events
      else if (heap event).type ≠ "m.room.member" then
        updateEvents heap (s.setStateEvent heap event) events
      else
        ((s.setStateEvent heap event).updateDisplayNameCache u userId
          (heap event).content.displayname).bind fun s => updateEvents heap s events

/-- "update higher level data structures", of the members. -/
def updateMembers : Heap → RoomState → List ℕ → Except String (Heap × RoomState)
  | heap, s, [] => .ok (heap, s)
  | heap, s, event :: events =>
    match (heap event).stateKey with
    | none => updateMembers heap s events
    | some userId =>
      if ¬ s.Takes (heap event) ∨ (heap event).type ≠ "m.room.member" then
        updateMembers heap s events
      else
        let heap := heap.fakeDisplayname event
        (s.getOrCreateMember userId).bind fun (member, s) =>
          (member.setMembershipEvent u (heap event) s).bind fun member =>
            updateMembers heap (s.updateMember member) events

def setStateEvents (heap : Heap) (s : RoomState) (stateEvents : List ℕ) :
    Except String (Heap × RoomState) :=
  (s.updateEvents u heap stateEvents).bind fun s => s.updateMembers u heap stateEvents

/-! ## Out-of-band members -/

/-- `_setOutOfBandMember` -/
def setOutOfBandMember (heap : Heap) (s : RoomState) (stateEvent : ℕ) : Except String RoomState :=
  if (heap stateEvent).type ≠ "m.room.member" then .ok s
  else
    let userId := (heap stateEvent).stateKey.getD "undefined"
    match s.members.lookup userId with
    | .own existingMember => if ¬ existingMember.isOutOfBand then .ok s else setMember userId
    | .missing => setMember userId
    | .inherited => .error "TypeError"
where
  setMember (userId : String) : Except String RoomState :=
    (s.getOrCreateMember userId).bind fun (member, s) =>
      (member.setMembershipEvent u (heap stateEvent) s).bind fun member =>
        (s.updateDisplayNameCache u member.userId member.name).map fun s =>
          (s.setStateEvent heap stateEvent).updateMember { member with isOutOfBand := true }

/-- The loop of `setOutOfBandMembers`. -/
def setOutOfBandMembers (heap : Heap) (s : RoomState) (stateEvents : List ℕ) :
    Except String RoomState :=
  stateEvents.foldlM (setOutOfBandMember u heap) s

/-- The loop of `clearOutOfBandMembers`. -/
def clearOutOfBandMembers (s : RoomState) : RoomState :=
  { s with
    members := s.members.filter fun userId => !(s.members.get userId).any (·.isOutOfBand) }

/-- The copy of the `clone`, before members are marked. -/
def copyEvents (heap : Heap) (s : RoomState) : Except String (Heap × RoomState) :=
  (s.events.entries.foldlM (fun (made : Heap × RoomState) entry =>
      setStateEvents u made.1 made.2 (entry.2.entries.map (·.2)))
    (heap, RoomState.new s.roomId)).map fun made =>
      (made.1, { made.2 with
        summaryJoinedMemberCount := s.summaryJoinedMemberCount
        summaryInvitedMemberCount := s.summaryInvitedMemberCount })

/-- `copy.getMember(member.userId).markOutOfBand()` -/
def markOutOfBand (copy : RoomState) (member : RoomMember) : Except String RoomState :=
  match copy.members.lookup member.userId with
  | .own copyMember =>
    .ok { copy with
      members := copy.members.set member.userId { copyMember with isOutOfBand := true } }
  | .missing => .error "TypeError"
  | .inherited => .error "TypeError"

/-- "copy markOutOfBand flags" -/
def copyOutOfBandFlags (s copy : RoomState) : Except String RoomState :=
  (s.getMembers.filter (·.isOutOfBand)).foldlM markOutOfBand copy

end RoomState

inductive OobStatus
  | notStarted
  | inProgress
  | finished
  deriving DecidableEq

/-- `clone` -/
def RoomState.clone (heap : Heap) (status : OobStatus) (s : RoomState) :
    Except String (Heap × RoomState) :=
  (s.copyEvents u heap).bind fun (heap, copy) =>
    if status = .finished then (s.copyOutOfBandFlags copy).map (heap, ·) else .ok (heap, copy)

/-! ## Runs -/

/-- A room state and its copies, which share the events and `_oobMemberFlags`. -/
structure World where
  heap : Heap
  status : OobStatus
  states : List RoomState

/-- The operations, with what they are done on. -/
inductive Operation
  | setStateEvents (stateEvents : List ℕ)
  | markOutOfBandMembersStarted
  | markOutOfBandMembersFailed
  | setOutOfBandMembers (stateEvents : List ℕ)
  | clearOutOfBandMembers
  | clone
  | getJoinedMemberCount
  | getInvitedMemberCount
  | setJoinedMemberCount (count : ℕ)
  | setInvitedMemberCount (count : ℕ)

namespace World

/-- An operation on the state `s`, which is number `i`. -/
def perform (w : World) (i : ℕ) (s : RoomState) : Operation → Except String World
  | .setStateEvents stateEvents =>
    (s.setStateEvents u w.heap stateEvents).map fun (heap, s) =>
      { w with heap := heap, states := w.states.set i s }
  | .markOutOfBandMembersStarted =>
    if w.status ≠ .notStarted then .ok w else .ok { w with status := .inProgress }
  | .markOutOfBandMembersFailed =>
    if w.status ≠ .inProgress then .ok w else .ok { w with status := .notStarted }
  | .setOutOfBandMembers stateEvents =>
    if w.status ≠ .inProgress then .ok w
    else (s.setOutOfBandMembers u w.heap stateEvents).map fun s =>
      { w with status := .finished, states := w.states.set i s }
  | .clearOutOfBandMembers =>
    .ok { w with status := .notStarted, states := w.states.set i s.clearOutOfBandMembers }
  | .clone =>
    (s.clone u w.heap w.status).map fun (heap, copy) =>
      { w with heap := heap, states := w.states ++ [copy] }
  | .getJoinedMemberCount => .ok { w with states := w.states.set i s.getJoinedMemberCount.2 }
  | .getInvitedMemberCount => .ok { w with states := w.states.set i s.getInvitedMemberCount.2 }
  | .setJoinedMemberCount count =>
    .ok { w with states := w.states.set i { s with summaryJoinedMemberCount := some count } }
  | .setInvitedMemberCount count =>
    .ok { w with states := w.states.set i { s with summaryInvitedMemberCount := some count } }

/-- Any sequence of operations on the state of a room and its copies; none after one has thrown. -/
def system (roomId : String) (heap : Heap) : System (Except String World) (ℕ × Operation) where
  init := .ok ⟨heap, .notStarted, [.new roomId]⟩
  step w op :=
    match w with
    | .error _ => none
    | .ok w => w.states[op.1]?.map fun s => w.perform u op.1 s op.2

end World

/-! ## What goes together -/

/-- **The parts of a state go together**: every user with a member event is a member, the counts are
those of the members, and the users of a name are those whose member events give it. -/
structure Consistent (heap : Heap) (s : RoomState) : Prop where
  members : ∀ userId, (s.members.get userId).isSome ↔ (s.memberEvent userId).isSome
  joined : s.summaryJoinedMemberCount = none → s.getJoinedMemberCount.1 = s.countMembers "join"
  invited : s.summaryInvitedMemberCount = none →
    s.getInvitedMemberCount.1 = s.countMembers "invite"
  names : ∀ name, u.removeHiddenChars name ∉ JsObject.inheritedNames →
    ∃ userIds, s.getUserIdsWithDisplayName u name = some userIds ∧ userIds.Nodup ∧
      ∀ userId, userId ∈ userIds ↔ ∃ event displayname, s.memberEvent userId = some event ∧
        (heap event).content.displayname = some displayname ∧
          u.removeHiddenChars displayname = u.removeHiddenChars name

/-- Something is left of the name, and it is not what every object has. -/
def ValidName (displayname : String) : Prop :=
  displayname ≠ "" ∧ u.removeHiddenChars displayname ≠ "" ∧
    u.removeHiddenChars displayname ∉ JsObject.inheritedNames

/-- `calculateDisplayName` looks for others with the name. -/
def LooksUp (userId displayname : String) : Prop :=
  displayname ≠ "" ∧ displayname ≠ userId ∧ u.removeHiddenChars displayname ≠ "" ∧
    ¬ (containsMxid displayname ∨ containsDirectionMark displayname)

/-- A member event with valid names, if any, that does not get its displayname from the content
before. -/
structure Fine (event : MatrixEvent) (userId : String) : Prop where
  user : userId ∉ JsObject.inheritedNames
  name : ∀ displayname, event.content.displayname = some displayname → ValidName u displayname
  notFaked : event.content.membership = some "leave" ∨ event.content.membership = some "ban" →
    event.content.displayname = none → event.prevContent.displayname = none
  lookedUp : ∀ displayname, event.getDirectionalContent.displayname = some displayname →
    LooksUp u userId displayname → u.removeHiddenChars displayname ∉ JsObject.inheritedNames

namespace RoomState

/-- The displayname that the member event of a user gives. -/
def called (heap : Heap) (s : RoomState) (userId : String) : Option String :=
  (s.memberEvent userId).bind fun event => (heap event).content.displayname

/-- There is a member from the sync. -/
def HasSynced (s : RoomState) (userId : String) : Prop :=
  ∃ member, s.members.get userId = some member ∧ member.isOutOfBand = false

/-- Each out-of-band member that replaces none from the sync has a displayname and is shown under
it: no other user has a similar one by then. -/
def OutOfBandFine (heap : Heap) (s : RoomState) :
    (String → Option String) → List ℕ → Prop
  | _, [] => True
  | called, event :: events =>
    ((heap event).type ≠ "m.room.member" ∨ s.HasSynced ((heap event).stateKey.getD "undefined")) ∧
        OutOfBandFine heap s called events ∨
      (heap event).type = "m.room.member" ∧ ∃ userId displayname,
        (heap event).stateKey = some userId ∧ ¬ s.HasSynced userId ∧ Fine u (heap event) userId ∧
        (heap event).content.displayname = some displayname ∧
        (heap event).getDirectionalContent.displayname = some displayname ∧
        (displayname = userId ∨ LooksUp u userId displayname ∧ ∀ other, other ≠ userId →
          ∀ name, called other = some name →
            u.removeHiddenChars name ≠ u.removeHiddenChars displayname) ∧
        OutOfBandFine heap s (Function.update called userId (some displayname)) events

end RoomState

/-- **The operation takes none of the branches after which the parts come apart.** -/
def Harmless (w : World) (op : ℕ × Operation) : Prop :=
  ∀ s, w.states[op.1]? = some s →
    match op.2 with
    | .setStateEvents stateEvents =>
      ∀ event ∈ stateEvents, s.Takes (w.heap event) → (w.heap event).type = "m.room.member" →
        ∀ userId, (w.heap event).stateKey = some userId → Fine u (w.heap event) userId
    | .setOutOfBandMembers stateEvents =>
      w.status = .inProgress → s.OutOfBandFine u w.heap (s.called w.heap) stateEvents
    | .clearOutOfBandMembers => ∀ member ∈ s.getMembers, member.isOutOfBand = false
    | .clone =>
      w.status = .finished → ∀ userId member event, s.members.get userId = some member →
        member.isOutOfBand = true → s.memberEvent userId = some event →
          (w.heap event).roomId = s.roomId
    | _ => True

/-! ## The names and their users -/

variable {u}

theorem fakeDisplayname_eq {heap : Heap} {event : ℕ} {userId : String}
    (h : Fine u (heap event) userId) : heap.fakeDisplayname event = heap := by
  rw [Heap.fakeDisplayname]
  split
  next hgone =>
    have hsame : (if (heap event).content.displayname = none ∨
        (heap event).content.displayname = some "" then (heap event).prevContent.displayname
        else (heap event).content.displayname) = (heap event).content.displayname := by
      split
      next hmissing =>
        rcases hmissing with hnone | hempty
        · rw [hnone]
          exact h.notFaked hgone hnone
        · exact absurd rfl (h.name "" hempty).1
      next => rfl
    rw [hsame]
    exact Function.update_eq_self event heap
  next => rfl

/-- The caches of names say who is `called` what. -/
structure Cached (u : Unicode) (called : String → Option String) (s : RoomState) : Prop where
  name : ∀ userId, (s.userIdsToDisplayNames.get userId).getD none = called userId
  nodup : ∀ key, ((s.displayNameToUserIds.get key).getD []).Nodup
  users : ∀ key userId, userId ∈ (s.displayNameToUserIds.get key).getD [] ↔
    ∃ displayname, called userId = some displayname ∧ u.removeHiddenChars displayname = key
  valid : ∀ userId displayname, called userId = some displayname → ValidName u displayname

theorem getUserIds_eq {s : RoomState} {name : String}
    (hname : u.removeHiddenChars name ∉ inheritedNames) :
    s.getUserIdsWithDisplayName u name =
      some ((s.displayNameToUserIds.get (u.removeHiddenChars name)).getD []) := by
  rw [RoomState.getUserIdsWithDisplayName, lookup_of_not_inherited hname]
  cases s.displayNameToUserIds.get (u.removeHiddenChars name) with
  | none => rfl
  | some userIds => rfl

variable {called : String → Option String} {s : RoomState} {userId : String} {s' : RoomState}
  {member : RoomMember}

theorem Cached.filter_eq_self (h : Cached u called s) {key : String}
    (hkey : ∀ displayname, called userId = some displayname →
      u.removeHiddenChars displayname ≠ key) :
    ((s.displayNameToUserIds.get key).getD []).filter (fun id => id ≠ userId) =
      (s.displayNameToUserIds.get key).getD [] := by
  rw [List.filter_eq_self]
  intro id hid
  refine decide_eq_true ?_
  rintro rfl
  obtain ⟨displayname, hcalled, hstripped⟩ := (h.users key id).1 hid
  exact hkey displayname hcalled hstripped

/-- The user is taken out of the list of the old name, and was in no other. -/
theorem Cached.removeOldName (h : Cached u called s) (huser : userId ∉ inheritedNames) :
    ∃ o, s.removeOldName u userId = .ok o ∧ ∀ key, (o.get key).getD [] =
      ((s.displayNameToUserIds.get key).getD []).filter (fun id => id ≠ userId) := by
  have hname := h.name userId
  rw [RoomState.removeOldName, lookup_of_not_inherited huser]
  cases hold : (s.userIdsToDisplayNames.get userId).getD none with
  | none =>
    rw [hold] at hname
    refine ⟨s.displayNameToUserIds, ?_, fun key => ?_⟩
    · cases hget : s.userIdsToDisplayNames.get userId with
      | none => rfl
      | some name =>
        rw [hget, Option.getD_some] at hold
        rw [hold]
    · rw [h.filter_eq_self]
      intro displayname hcalled
      exact nomatch hname.trans hcalled
  | some oldName =>
    rw [hold] at hname
    obtain ⟨hnonempty, -, hvalid⟩ := h.valid userId oldName hname.symm
    have hget : s.userIdsToDisplayNames.get userId = some (some oldName) := by
      cases hget : s.userIdsToDisplayNames.get userId with
      | none =>
        rw [hget] at hold
        exact nomatch hold
      | some name =>
        rw [hget, Option.getD_some] at hold
        rw [hold]
    simp only [hget, if_neg hnonempty, lookup_of_not_inherited hvalid]
    have hother : ∀ key, key ≠ u.removeHiddenChars oldName →
        ((s.displayNameToUserIds.get key).getD []).filter (fun id => id ≠ userId) =
          (s.displayNameToUserIds.get key).getD [] := by
      intro key hkey
      refine h.filter_eq_self fun displayname hcalled => ?_
      rw [← hname] at hcalled
      rw [← Option.some.inj hcalled]
      exact hkey.symm
    cases hlist : s.displayNameToUserIds.get (u.removeHiddenChars oldName) with
    | none =>
      refine ⟨s.displayNameToUserIds, rfl, fun key => ?_⟩
      by_cases hkey : key = u.removeHiddenChars oldName
      · rw [hkey, hlist]
        rfl
      · rw [hother key hkey]
    | some existingUserIds =>
      refine ⟨_, rfl, fun key => ?_⟩
      rw [get_set]
      by_cases hkey : key = u.removeHiddenChars oldName
      · rw [if_pos hkey, hkey, hlist]
        rfl
      · rw [if_neg hkey, hother key hkey]

/-- The members and the counts are the same. -/
structure SameMembers (s s' : RoomState) : Prop where
  roomId : s'.roomId = s.roomId
  members : s'.members = s.members
  joined : s'.joinedMemberCount = s.joinedMemberCount
  invited : s'.invitedMemberCount = s.invitedMemberCount

theorem SameMembers.trans {s s'' : RoomState} (h : SameMembers s s') (h' : SameMembers s' s'') :
    SameMembers s s'' where
  roomId := h'.roomId.trans h.roomId
  members := h'.members.trans h.members
  joined := h'.joined.trans h.joined
  invited := h'.invited.trans h.invited

/-- **The caches of names** take up a new name. -/
theorem Cached.updateDisplayNameCache (h : Cached u called s)
    (huser : userId ∉ inheritedNames) {displayName : Option String}
    (hname : ∀ displayname, displayName = some displayname → ValidName u displayname) :
    ∃ s', s.updateDisplayNameCache u userId displayName = .ok s' ∧ SameMembers s s' ∧
      s'.events = s.events ∧ Cached u (Function.update called userId displayName) s' := by
  obtain ⟨o, hremove, hlists⟩ := h.removeOldName huser
  have hvalid : ∀ id displayname, Function.update called userId displayName id =
      some displayname → ValidName u displayname := by
    intro id displayname hcalled
    by_cases hid : id = userId
    · rw [hid, Function.update_self] at hcalled
      exact hname displayname hcalled
    · rw [Function.update_of_ne hid] at hcalled
      exact h.valid id displayname hcalled
  have hnames : ∀ id, (((s.userIdsToDisplayNames.delete userId).set userId displayName).get
      id).getD none = Function.update called userId displayName id := by
    intro id
    rw [get_set]
    by_cases hid : id = userId
    · rw [if_pos hid, hid, Function.update_self, Option.getD_some]
    · rw [if_neg hid, Function.update_of_ne hid, get_delete_ne hid, h.name]
  obtain ⟨o', hupdate, hadded⟩ : ∃ o', s.updateDisplayNameCache u userId displayName = .ok
      { s with
        displayNameToUserIds := o'
        userIdsToDisplayNames := (s.userIdsToDisplayNames.delete userId).set userId displayName } ∧
      ∀ key, (o'.get key).getD [] = (o.get key).getD [] ++
        if displayName.map u.removeHiddenChars = some key then [userId] else [] := by
    rw [RoomState.updateDisplayNameCache, hremove]
    cases displayName with
    | none => exact ⟨o, rfl, fun key => (List.append_nil _).symm⟩
    | some displayname =>
      obtain ⟨hnonempty, hleft, hnotInherited⟩ := hname displayname rfl
      simp only [Except.bind, if_neg (not_or.2 ⟨hnonempty, hleft⟩),
        lookup_of_not_inherited hnotInherited, Option.map_some, Option.some.injEq]
      cases hlist : o.get (u.removeHiddenChars displayname) with
      | none =>
        refine ⟨_, rfl, fun key => ?_⟩
        rw [get_set]
        by_cases hkey : key = u.removeHiddenChars displayname
        · rw [if_pos hkey, if_pos hkey.symm, hkey, hlist]
          rfl
        · rw [if_neg hkey, if_neg (Ne.symm hkey), List.append_nil]
      | some userIds =>
        refine ⟨_, rfl, fun key => ?_⟩
        rw [get_set]
        by_cases hkey : key = u.removeHiddenChars displayname
        · rw [if_pos hkey, if_pos hkey.symm, hkey, hlist]
          rfl
        · rw [if_neg hkey, if_neg (Ne.symm hkey), List.append_nil]
  -- without the new name, the lists have lost the user
  have hkept : ∀ key id, id ∈ (o.get key).getD [] ↔ id ≠ userId ∧ ∃ displayname,
      called id = some displayname ∧ u.removeHiddenChars displayname = key := by
    intro key id
    rw [hlists, List.mem_filter, h.users, decide_eq_true_iff, and_comm]
  refine ⟨_, hupdate, ⟨rfl, rfl, rfl, rfl⟩, rfl, hnames, fun key => ?_, fun key id => ?_, hvalid⟩
  · show ((o'.get key).getD []).Nodup
    rw [hadded, List.nodup_append']
    refine ⟨?_, ?_, ?_⟩
    · rw [hlists]
      exact (h.nodup key).filter _
    · split
      · exact List.nodup_singleton userId
      · exact List.nodup_nil
    · intro id hid hid'
      split at hid'
      · exact ((hkept key id).1 hid).1 (List.mem_singleton.1 hid')
      · exact List.not_mem_nil hid'
  · show id ∈ (o'.get key).getD [] ↔ _
    rw [hadded, List.mem_append, hkept]
    by_cases hid : id = userId
    · rw [hid, Function.update_self]
      constructor
      · rintro (⟨hne, -⟩ | hmem)
        · exact absurd rfl hne
        · split at hmem
          next hmap => exact Option.map_eq_some_iff.1 hmap
          next => exact absurd hmem List.not_mem_nil
      · intro hcalled
        rw [if_pos (Option.map_eq_some_iff.2 hcalled)]
        exact .inr (List.mem_singleton_self userId)
    · rw [Function.update_of_ne hid, and_iff_right hid, or_iff_left]
      intro hmem
      split at hmem
      · exact hid (List.mem_singleton.1 hmem)
      · exact List.not_mem_nil hmem

/-! ## The name of a member -/

/-- No name is looked up that every object has, so there is a name. -/
theorem exists_calculateDisplayName {displayName : Option String}
    (h : ∀ displayname, displayName = some displayname → LooksUp u userId displayname →
      u.removeHiddenChars displayname ∉ inheritedNames) :
    ∃ name, calculateDisplayName u userId displayName s = .ok name := by
  cases displayName with
  | none => exact ⟨userId, rfl⟩
  | some displayname =>
    rw [calculateDisplayName]
    split
    · exact ⟨_, rfl⟩
    next hself =>
      split
      · exact ⟨_, rfl⟩
      next hleft =>
        split
        · exact ⟨_, rfl⟩
        next hplain =>
          rw [not_or] at hself
          rw [getUserIds_eq (h displayname rfl ⟨hself.1, hself.2, hleft, hplain⟩)]
          dsimp only
          split
          · exact ⟨_, rfl⟩
          · exact ⟨_, rfl⟩

/-- A member is shown under its displayname when no other has a similar one. -/
theorem Cached.calculateDisplayName (h : Cached u called s) {displayname : String}
    (hvalid : ValidName u displayname)
    (hplain : displayname = userId ∨ LooksUp u userId displayname ∧ ∀ other, other ≠ userId →
      ∀ name, called other = some name →
        u.removeHiddenChars name ≠ u.removeHiddenChars displayname) :
    calculateDisplayName u userId (some displayname) s = .ok displayname := by
  rw [Members.calculateDisplayName]
  rcases hplain with rfl | ⟨⟨hnonempty, hself, hleft, hplain⟩, hunique⟩
  · rw [if_pos (.inr rfl)]
  · rw [if_neg (not_or.2 ⟨hnonempty, hself⟩), if_neg hleft, if_neg hplain,
      getUserIds_eq hvalid.2.2]
    dsimp only
    rw [if_neg]
    rw [List.any_eq_true]
    rintro ⟨other, hother, hne⟩
    obtain ⟨name, hcalled, hsimilar⟩ := (h.users _ _).1 hother
    exact hunique other (of_decide_eq_true hne) name hcalled hsimilar

/-! ## The events -/

@[simp] theorem memberEvent_setStateEvent (heap : Heap) (s : RoomState) (event : ℕ)
    (userId : String) : (s.setStateEvent heap event).memberEvent userId =
      if (heap event).type = "m.room.member" ∧ (heap event).stateKey = some userId then some event
      else s.memberEvent userId := by
  rw [RoomState.memberEvent, RoomState.setStateEvent, JsObject.get_set]
  by_cases htype : (heap event).type = "m.room.member"
  · rw [if_pos htype.symm, htype, Option.bind_some, JsObject.get_set]
    by_cases hkey : (heap event).stateKey = some userId
    · rw [if_pos hkey.symm, if_pos ⟨rfl, hkey⟩]
    · rw [if_neg (Ne.symm hkey), if_neg (fun hcontra => hkey hcontra.2), RoomState.memberEvent]
      cases s.events.get "m.room.member" with
      | none => rfl
      | some byStateKey => rfl
  · rw [if_neg (Ne.symm htype), if_neg (fun hcontra => htype hcontra.1)]
    rfl

/-- What the events and the caches of names of a state fulfil. -/
structure Named (u : Unicode) (heap : Heap) (s : RoomState) : Prop where
  cached : Cached u (s.called heap) s
  keyed : ∀ type byStateKey key event, s.events.get type = some byStateKey →
    byStateKey.get key = some event → (heap event).type = type ∧ (heap event).stateKey = key
  fine : ∀ userId event, s.memberEvent userId = some event → Fine u (heap event) userId

variable {heap : Heap} {event : ℕ}

theorem Named.new (u : Unicode) (heap : Heap) (roomId : String) :
    Named u heap (RoomState.new roomId) where
  cached :=
    { name := fun _ => rfl
      nodup := fun _ => List.nodup_nil
      users := by
        intro key userId
        refine iff_of_false List.not_mem_nil ?_
        rintro ⟨displayname, hcalled, -⟩
        exact nomatch hcalled
      valid := fun _ _ hcalled => nomatch hcalled }
  keyed := fun _ _ _ _ hevents => nomatch hevents
  fine := fun _ _ hevent => nomatch hevent

theorem keyed_setStateEvent (h : ∀ type byStateKey key event, s.events.get type = some byStateKey →
      byStateKey.get key = some event → (heap event).type = type ∧ (heap event).stateKey = key)
    (event : ℕ) : ∀ type byStateKey key event',
      (s.setStateEvent heap event).events.get type = some byStateKey →
        byStateKey.get key = some event' →
          (heap event').type = type ∧ (heap event').stateKey = key := by
  intro type byStateKey key event' htype hkey
  rw [RoomState.setStateEvent, get_set] at htype
  split at htype
  next heq =>
    obtain rfl := Option.some.inj htype
    rw [get_set] at hkey
    split at hkey
    next hsame =>
      rw [← Option.some.inj hkey, heq, hsame]
      exact ⟨rfl, rfl⟩
    next =>
      cases hold : s.events.get (heap event).type with
      | none =>
        rw [hold] at hkey
        exact nomatch hkey
      | some old =>
        rw [hold] at hkey
        rw [heq]
        exact h _ old key event' hold hkey
  next => exact h type byStateKey key event' htype hkey

/-- The event says what the user is called. -/
theorem called_setStateEvent (htype : (heap event).type = "m.room.member")
    (huser : (heap event).stateKey = some userId) : (s.setStateEvent heap event).called heap =
      Function.update (s.called heap) userId (heap event).content.displayname := by
  funext id
  rw [RoomState.called, memberEvent_setStateEvent]
  by_cases hid : id = userId
  · rw [hid, Function.update_self, if_pos ⟨htype, huser⟩, Option.bind_some]
  · rw [Function.update_of_ne hid, if_neg]
    · rfl
    · rintro ⟨-, hcontra⟩
      exact hid (Option.some.inj (hcontra.symm.trans huser))

theorem Named.setStateEvent_other (h : Named u heap s)
    (htype : (heap event).type ≠ "m.room.member") : Named u heap (s.setStateEvent heap event) := by
  have hmember : ∀ id, (s.setStateEvent heap event).memberEvent id = s.memberEvent id := by
    intro id
    rw [memberEvent_setStateEvent, if_neg (fun hcontra => htype hcontra.1)]
  have hcalled : (s.setStateEvent heap event).called heap = s.called heap := by
    funext id
    rw [RoomState.called, hmember]
    rfl
  refine ⟨?_, keyed_setStateEvent h.keyed event, fun id event' hevent => ?_⟩
  · rw [hcalled]
    exact ⟨h.cached.name, h.cached.nodup, h.cached.users, h.cached.valid⟩
  · rw [hmember] at hevent
    exact h.fine id event' hevent

/-- A fine member event is stored, and its name goes to the caches. -/
theorem Named.setStateEvent_member (h : Named u heap s)
    (htype : (heap event).type = "m.room.member") (huser : (heap event).stateKey = some userId)
    (hfine : Fine u (heap event) userId) (hevents : s'.events = (s.setStateEvent heap event).events)
    (hcached : Cached u (Function.update (s.called heap) userId (heap event).content.displayname)
      s') : Named u heap s' := by
  have hmember : ∀ id, s'.memberEvent id = (s.setStateEvent heap event).memberEvent id := by
    intro id
    rw [RoomState.memberEvent, hevents]
    rfl
  refine ⟨?_, ?_, fun id event' hevent => ?_⟩
  · have hcalled : s'.called heap = (s.setStateEvent heap event).called heap := by
      funext id
      rw [RoomState.called, hmember]
      rfl
    rw [hcalled, called_setStateEvent htype huser]
    exact hcached
  · rw [hevents]
    exact keyed_setStateEvent h.keyed event
  · rw [hmember, memberEvent_setStateEvent] at hevent
    split at hevent
    next hsame =>
      obtain rfl := Option.some.inj hevent
      rw [← Option.some.inj (huser.symm.trans hsame.2)]
      exact hfine
    next => exact h.fine id event' hevent

/-- `setStateEvents` takes the event for the member event of the user. -/
def RoomState.TakesMember (heap : Heap) (s : RoomState) (event : ℕ) (userId : String) : Prop :=
  s.Takes (heap event) ∧ (heap event).type = "m.room.member" ∧
    (heap event).stateKey = some userId

theorem SameMembers.takesMember {s : RoomState} (h : SameMembers s s') :
    s'.TakesMember heap event userId ↔ s.TakesMember heap event userId := by
  rw [RoomState.TakesMember, RoomState.TakesMember, RoomState.Takes, RoomState.Takes, h.roomId]

/-- **The first loop** stores the events and their names. -/
theorem Named.updateEvents (events : List ℕ) : ∀ s : RoomState, Named u heap s →
    (∀ event ∈ events, ∀ userId, s.TakesMember heap event userId → Fine u (heap event) userId) →
    ∃ s', s.updateEvents u heap events = .ok s' ∧ Named u heap s' ∧ SameMembers s s' ∧
      ∀ userId, (s'.memberEvent userId).isSome ↔
        (s.memberEvent userId).isSome ∨ ∃ event ∈ events, s.TakesMember heap event userId := by
  induction events with
  | nil =>
    intro s h _
    refine ⟨s, rfl, h, ⟨rfl, rfl, rfl, rfl⟩, fun userId => ?_⟩
    rw [or_iff_left]
    rintro ⟨event, hevent, -⟩
    exact List.not_mem_nil hevent
  | cons event events ih =>
    intro s h hfine
    have hrest := fun event' (hevent : event' ∈ events) =>
      hfine event' (List.mem_cons_of_mem event hevent)
    -- an event that stores no member event
    have hskip : ∀ s' : RoomState, Named u heap s' → SameMembers s s' →
        (∀ id, s'.memberEvent id = s.memberEvent id) →
        (∀ userId, ¬ s.TakesMember heap event userId) →
        ∃ s'', s'.updateEvents u heap events = .ok s'' ∧ Named u heap s'' ∧ SameMembers s s'' ∧
          ∀ userId, (s''.memberEvent userId).isSome ↔ (s.memberEvent userId).isSome ∨
            ∃ event' ∈ event :: events, s.TakesMember heap event' userId := by
      intro s' hs' hsame hkept hnone
      obtain ⟨s'', hok, hs'', hsame', hmem⟩ := ih s' hs' (by
        intro event' hevent userId htakes
        exact hrest event' hevent userId (hsame.takesMember.1 htakes))
      refine ⟨s'', hok, hs'', hsame.trans hsame', fun userId => ?_⟩
      rw [hmem, hkept]
      simp only [hsame.takesMember, List.exists_mem_cons_iff, hnone, false_or]
    rw [RoomState.updateEvents]
    cases hkey : (heap event).stateKey with
    | none =>
      refine hskip s h ⟨rfl, rfl, rfl, rfl⟩ (fun _ => rfl) fun userId htakes => ?_
      exact nomatch hkey.symm.trans htakes.2.2
    | some userId =>
      dsimp only
      split
      next hnot =>
        exact hskip s h ⟨rfl, rfl, rfl, rfl⟩ (fun _ => rfl) fun id htakes => hnot htakes.1
      next htakes =>
        rw [not_not] at htakes
        split
        next htype =>
          refine hskip _ (h.setStateEvent_other htype) ⟨rfl, rfl, rfl, rfl⟩ (fun id => ?_)
            fun id hcontra => htype hcontra.2.1
          rw [memberEvent_setStateEvent, if_neg (fun hcontra => htype hcontra.1)]
        next htype =>
          rw [ne_eq, not_not] at htype
          have hmember := hfine event List.mem_cons_self userId ⟨htakes, htype, hkey⟩
          have hcached : Cached u (s.called heap) (s.setStateEvent heap event) :=
            ⟨h.cached.name, h.cached.nodup, h.cached.users, h.cached.valid⟩
          obtain ⟨s₁, hupdate, hsame₁, hevents₁, hcached₁⟩ :=
            hcached.updateDisplayNameCache hmember.user hmember.name
          have hsame : SameMembers s s₁ :=
            (show SameMembers s (s.setStateEvent heap event) from
              ⟨rfl, rfl, rfl, rfl⟩).trans hsame₁
          have hkept : ∀ id, s₁.memberEvent id =
              if (heap event).stateKey = some id then some event else s.memberEvent id := by
            intro id
            rw [RoomState.memberEvent, hevents₁]
            show (s.setStateEvent heap event).memberEvent id = _
            rw [memberEvent_setStateEvent]
            simp only [htype, true_and]
          rw [hupdate]
          obtain ⟨s'', hok, hs'', hsame', hmem⟩ := ih s₁
            (h.setStateEvent_member htype hkey hmember hevents₁ hcached₁) (by
              intro event' hevent id htakes'
              exact hrest event' hevent id (hsame.takesMember.1 htakes'))
          refine ⟨s'', hok, hs'', hsame.trans hsame', fun id => ?_⟩
          rw [hmem, hkept]
          simp only [hsame.takesMember, List.exists_mem_cons_iff]
          by_cases hid : (heap event).stateKey = some id
          · rw [if_pos hid]
            exact iff_of_true (.inl rfl) (.inr (.inl ⟨htakes, htype, hid⟩))
          · rw [if_neg hid]
            have hnot : ¬ s.TakesMember heap event id := fun hcontra => hid hcontra.2.2
            simp only [hnot, false_or]

/-! ## The members -/

/-- The events and the names are the same. -/
structure SameNames (s s' : RoomState) : Prop where
  roomId : s'.roomId = s.roomId
  events : s'.events = s.events
  users : s'.displayNameToUserIds = s.displayNameToUserIds
  names : s'.userIdsToDisplayNames = s.userIdsToDisplayNames

theorem SameNames.trans {s s'' : RoomState} (h : SameNames s s') (h' : SameNames s' s'') :
    SameNames s s'' where
  roomId := h'.roomId.trans h.roomId
  events := h'.events.trans h.events
  users := h'.users.trans h.users
  names := h'.names.trans h.names

theorem SameNames.memberEvent {s : RoomState} (h : SameNames s s') (userId : String) :
    s'.memberEvent userId = s.memberEvent userId := by
  rw [RoomState.memberEvent, h.events]
  rfl

theorem SameNames.takesMember {s : RoomState} (h : SameNames s s') :
    s'.TakesMember heap event userId ↔ s.TakesMember heap event userId := by
  rw [RoomState.TakesMember, RoomState.TakesMember, RoomState.Takes, RoomState.Takes, h.roomId]

theorem Named.of_same {s : RoomState} (h : Named u heap s) (hsame : SameNames s s') :
    Named u heap s' := by
  have hcalled : s'.called heap = s.called heap := by
    funext id
    rw [RoomState.called, hsame.memberEvent]
    rfl
  refine ⟨?_, ?_, fun id event hevent => ?_⟩
  · rw [hcalled]
    refine ⟨?_, ?_, ?_, h.cached.valid⟩
    · rw [hsame.names]
      exact h.cached.name
    · rw [hsame.users]
      exact h.cached.nodup
    · rw [hsame.users]
      exact h.cached.users
  · rw [hsame.events]
    exact h.keyed
  · rw [hsame.memberEvent] at hevent
    exact h.fine id event hevent

/-- The members are under their user ids, and the counts are theirs, if there are any. -/
structure Counted (s : RoomState) : Prop where
  keyed : ∀ userId member, s.members.get userId = some member → member.userId = userId
  joined : ∀ count, s.joinedMemberCount = some count → count = s.countMembers "join"
  invited : ∀ count, s.invitedMemberCount = some count → count = s.countMembers "invite"

theorem Counted.new (roomId : String) : Counted (RoomState.new roomId) where
  keyed := fun _ _ hget => nomatch hget
  joined := fun _ hcount => nomatch hcount
  invited := fun _ hcount => nomatch hcount

theorem Counted.of_same {s : RoomState} (h : Counted s) (hsame : SameMembers s s') :
    Counted s' := by
  have hcount : ∀ membership, s'.countMembers membership = s.countMembers membership := by
    intro membership
    rw [RoomState.countMembers, RoomState.getMembers, hsame.members]
    rfl
  refine ⟨?_, fun count hjoined => ?_, fun count hinvited => ?_⟩
  · rw [hsame.members]
    exact h.keyed
  · rw [hsame.joined] at hjoined
    rw [hcount]
    exact h.joined count hjoined
  · rw [hsame.invited] at hinvited
    rw [hcount]
    exact h.invited count hinvited

/-- After a member is set the counts are made anew. -/
theorem Counted.updateMember (h : ∀ userId member, s.members.get userId = some member →
    member.userId = userId) (member : RoomMember) : Counted (s.updateMember member) where
  keyed := by
    intro id member' hget
    rw [RoomState.updateMember, get_set] at hget
    split at hget
    next heq => rw [← Option.some.inj hget, heq]
    next => exact h id member' hget
  joined := fun _ hcount => nomatch hcount
  invited := fun _ hcount => nomatch hcount

/-- The member that there is, or a new one. -/
theorem exists_getOrCreateMember
    (h : ∀ id member, s.members.get id = some member → member.userId = id)
    (huser : userId ∉ inheritedNames) :
    ∃ member s', s.getOrCreateMember userId = .ok (member, s') ∧ member.userId = userId ∧
      SameNames s s' ∧ (∀ id m, s'.members.get id = some m → m.userId = id) ∧
      ∀ id, (s'.members.get id) = if id = userId then some member else s.members.get id := by
  rw [RoomState.getOrCreateMember, lookup_of_not_inherited huser]
  cases hget : s.members.get userId with
  | none =>
    refine ⟨.new userId, _, rfl, rfl, ⟨rfl, rfl, rfl, rfl⟩, fun id m hm => ?_, fun id => ?_⟩
    · rw [get_set] at hm
      split at hm
      next heq => rw [← Option.some.inj hm, heq, RoomMember.new]
      next => exact h id m hm
    · exact get_set _ _ _ _
  | some member =>
    refine ⟨member, s, rfl, h userId member hget, ⟨rfl, rfl, rfl, rfl⟩, h, ?_⟩
    intro id
    split
    next heq => rw [heq, hget]
    next => rfl

/-- The member with another member event. -/
def RoomMember.withMembershipEvent (member : RoomMember) (event : MatrixEvent) (name : String) :
    RoomMember :=
  { member with
    isOutOfBand := false
    membership := event.getDirectionalContent.membership
    name := name }

theorem setMembershipEvent_eq {event : MatrixEvent} {name : String}
    (hname : calculateDisplayName u member.userId event.getDirectionalContent.displayname s =
      .ok name) :
    member.setMembershipEvent u event s = .ok (member.withMembershipEvent event name) := by
  rw [RoomMember.setMembershipEvent, hname]
  rfl

/-- **The second loop** makes members of the events. -/
theorem Counted.updateMembers (events : List ℕ) : ∀ s : RoomState, Counted s →
    (∀ event ∈ events, ∀ userId, s.TakesMember heap event userId → Fine u (heap event) userId) →
    ∃ s', s.updateMembers u heap events = .ok (heap, s') ∧ Counted s' ∧ SameNames s s' ∧
      ∀ userId, (s'.members.get userId).isSome ↔
        (s.members.get userId).isSome ∨ ∃ event ∈ events, s.TakesMember heap event userId := by
  induction events with
  | nil =>
    intro s h _
    refine ⟨s, rfl, h, ⟨rfl, rfl, rfl, rfl⟩, fun userId => ?_⟩
    rw [or_iff_left]
    rintro ⟨event, hevent, -⟩
    exact List.not_mem_nil hevent
  | cons event events ih =>
    intro s h hfine
    have hrest := fun event' (hevent : event' ∈ events) =>
      hfine event' (List.mem_cons_of_mem event hevent)
    have hskip : (∀ userId, ¬ s.TakesMember heap event userId) →
        ∃ s', s.updateMembers u heap events = .ok (heap, s') ∧ Counted s' ∧ SameNames s s' ∧
          ∀ userId, (s'.members.get userId).isSome ↔ (s.members.get userId).isSome ∨
            ∃ event' ∈ event :: events, s.TakesMember heap event' userId := by
      intro hnone
      obtain ⟨s', hok, hs', hsame, hmem⟩ := ih s h hrest
      refine ⟨s', hok, hs', hsame, fun userId => ?_⟩
      rw [hmem]
      simp only [List.exists_mem_cons_iff, hnone, false_or]
    rw [RoomState.updateMembers]
    cases hkey : (heap event).stateKey with
    | none => exact hskip fun userId htakes => nomatch hkey.symm.trans htakes.2.2
    | some userId =>
      dsimp only
      split
      next hnot =>
        refine hskip fun id htakes => ?_
        rcases hnot with hnot | hnot
        · exact hnot htakes.1
        · exact hnot htakes.2.1
      next htakes =>
        rw [not_or, not_not, ne_eq, not_not] at htakes
        have hmember := hfine event List.mem_cons_self userId ⟨htakes.1, htakes.2, hkey⟩
        obtain ⟨member, s₁, hcreate, hid, hsame₁, hkeyed₁, hget₁⟩ :=
          exists_getOrCreateMember h.keyed hmember.user
        rw [fakeDisplayname_eq hmember, hcreate]
        obtain ⟨name, hname⟩ := exists_calculateDisplayName (s := s₁) hmember.lookedUp
        simp only [Except.bind, setMembershipEvent_eq (hid ▸ hname)]
        have hsame : SameNames s (s₁.updateMember (member.withMembershipEvent (heap event)
            name)) :=
          ⟨hsame₁.roomId, hsame₁.events, hsame₁.users, hsame₁.names⟩
        obtain ⟨s', hok, hs', hsame', hmem⟩ := ih _ (Counted.updateMember hkeyed₁
          (member.withMembershipEvent (heap event) name)) (by
            intro event' hevent id htakes'
            exact hrest event' hevent id (hsame.takesMember.1 htakes'))
        refine ⟨s', hok, hs', hsame.trans hsame', fun id => ?_⟩
        have hget : (s₁.updateMember (member.withMembershipEvent (heap event) name)).members.get
            id = if id = userId then some (member.withMembershipEvent (heap event) name)
              else s.members.get id := by
          show (s₁.members.set member.userId _).get id = _
          rw [get_set, hid, hget₁]
          split <;> rfl
        rw [hmem, hget]
        simp only [hsame.takesMember, List.exists_mem_cons_iff]
        by_cases hown : id = userId
        · rw [if_pos hown]
          exact iff_of_true (.inl rfl) (.inr (.inl ⟨htakes.1, htakes.2, hown ▸ hkey⟩))
        · rw [if_neg hown]
          have hnot : ¬ s.TakesMember heap event id := fun hcontra =>
            hown (Option.some.inj (hcontra.2.2.symm.trans hkey))
          simp only [hnot, false_or]

/-! ## The operations on a state -/

/-- What all states fulfil while the operations are harmless. -/
structure Inv (u : Unicode) (heap : Heap) (s : RoomState) : Prop where
  named : Named u heap s
  counted : Counted s
  members : ∀ userId, (s.members.get userId).isSome ↔ (s.memberEvent userId).isSome

theorem Inv.new (u : Unicode) (heap : Heap) (roomId : String) :
    Inv u heap (RoomState.new roomId) :=
  ⟨Named.new u heap roomId, Counted.new roomId, fun _ => Iff.rfl⟩

theorem Inv.consistent (h : Inv u heap s) : Consistent u heap s where
  members := h.members
  joined := by
    intro hsummary
    rw [RoomState.getJoinedMemberCount, hsummary]
    cases hcount : s.joinedMemberCount with
    | none => rfl
    | some count => exact h.counted.joined count hcount
  invited := by
    intro hsummary
    rw [RoomState.getInvitedMemberCount, hsummary]
    cases hcount : s.invitedMemberCount with
    | none => rfl
    | some count => exact h.counted.invited count hcount
  names := by
    intro name hname
    refine ⟨_, getUserIds_eq hname, h.named.cached.nodup _, fun userId => ?_⟩
    rw [h.named.cached.users]
    constructor
    · rintro ⟨displayname, hcalled, hsimilar⟩
      obtain ⟨event, hevent, hdisplayname⟩ := Option.bind_eq_some_iff.1 hcalled
      exact ⟨event, displayname, hevent, hdisplayname, hsimilar⟩
    · rintro ⟨event, displayname, hevent, hdisplayname, hsimilar⟩
      exact ⟨displayname, Option.bind_eq_some_iff.2 ⟨event, hevent, hdisplayname⟩, hsimilar⟩

/-- **Setting state events** that are fine. -/
theorem Inv.setStateEvents (h : Inv u heap s) (events : List ℕ)
    (hfine : ∀ event ∈ events, ∀ userId, s.TakesMember heap event userId →
      Fine u (heap event) userId) :
    ∃ s', s.setStateEvents u heap events = .ok (heap, s') ∧ Inv u heap s' ∧
      s'.roomId = s.roomId ∧ ∀ userId, (s'.memberEvent userId).isSome ↔
        (s.memberEvent userId).isSome ∨ ∃ event ∈ events, s.TakesMember heap event userId := by
  obtain ⟨s₁, hevents, hnamed, hsame₁, hmem₁⟩ := h.named.updateEvents events s hfine
  obtain ⟨s₂, hmembers, hcounted, hsame₂, hmem₂⟩ :=
    (h.counted.of_same hsame₁).updateMembers events s₁ (by
      intro event hevent userId htakes
      exact hfine event hevent userId (hsame₁.takesMember.1 htakes))
  have hgrown : ∀ userId, (s₂.memberEvent userId).isSome ↔
      (s.memberEvent userId).isSome ∨ ∃ event ∈ events, s.TakesMember heap event userId := by
    intro userId
    rw [hsame₂.memberEvent, hmem₁]
  refine ⟨s₂, ?_, ⟨hnamed.of_same hsame₂, hcounted, fun userId => ?_⟩,
    hsame₂.roomId.trans hsame₁.roomId, hgrown⟩
  · rw [RoomState.setStateEvents, hevents]
    exact hmembers
  · rw [hgrown, hmem₂, hsame₁.members, h.members]
    simp only [hsame₁.takesMember]

/-- A single out-of-band member that is shown under its displayname. -/
theorem Inv.setMember (h : Inv u heap s) (htype : (heap event).type = "m.room.member")
    (hkey : (heap event).stateKey = some userId) (hfine : Fine u (heap event) userId)
    {displayname : String} (hname : (heap event).content.displayname = some displayname)
    (hdirectional : (heap event).getDirectionalContent.displayname = some displayname)
    (hplain : displayname = userId ∨ LooksUp u userId displayname ∧ ∀ other, other ≠ userId →
      ∀ name, s.called heap other = some name →
        u.removeHiddenChars name ≠ u.removeHiddenChars displayname) :
    ∃ s', RoomState.setOutOfBandMember.setMember u heap s event userId = .ok s' ∧ Inv u heap s' ∧
      s'.called heap = Function.update (s.called heap) userId (some displayname) ∧
      (∃ member, s'.members.get userId = some member ∧ member.isOutOfBand = true) ∧
      ∀ id, id ≠ userId → s'.members.get id = s.members.get id := by
  obtain ⟨member, s₁, hcreate, hid, hsame₁, hkeyed₁, hget₁⟩ :=
    exists_getOrCreateMember h.counted.keyed hfine.user
  have hcached₁ : Cached u (s.called heap) s₁ := by
    have hcalled : s₁.called heap = s.called heap := by
      funext id
      rw [RoomState.called, hsame₁.memberEvent]
      rfl
    rw [← hcalled]
    exact (h.named.of_same hsame₁).cached
  have hshown : calculateDisplayName u member.userId
      (heap event).getDirectionalContent.displayname s₁ = .ok displayname := by
    rw [hid, hdirectional]
    exact hcached₁.calculateDisplayName (hfine.name displayname hname) hplain
  have hvalid : ∀ name, some displayname = some name → ValidName u name := by
    intro name hsome
    rw [← Option.some.inj hsome]
    exact hfine.name displayname hname
  obtain ⟨s₂, hupdate, hsame₂, hevents₂, hcached₂⟩ :=
    hcached₁.updateDisplayNameCache hfine.user hvalid
  -- the member that is set, and the state it is set in
  obtain ⟨member', hmember'⟩ : ∃ member' : RoomMember, member' =
      { member.withMembershipEvent (heap event) displayname with isOutOfBand := true } :=
    ⟨_, rfl⟩
  have hid' : member'.userId = userId := by
    rw [hmember']
    exact hid
  have hget : ∀ id, ((s₂.setStateEvent heap event).updateMember member').members.get id =
      if id = userId then some member' else s.members.get id := by
    intro id
    show (s₂.members.set member'.userId member').get id = _
    rw [get_set, hid', hsame₂.members, hget₁]
    split <;> rfl
  have hevents : ((s₂.setStateEvent heap event).updateMember member').events =
      (s.setStateEvent heap event).events := by
    show (s₂.setStateEvent heap event).events = _
    rw [RoomState.setStateEvent, RoomState.setStateEvent, hevents₂, hsame₁.events]
  have hmember : ∀ id, ((s₂.setStateEvent heap event).updateMember member').memberEvent id =
      if (heap event).stateKey = some id then some event else s.memberEvent id := by
    intro id
    rw [RoomState.memberEvent, hevents]
    show (s.setStateEvent heap event).memberEvent id = _
    rw [memberEvent_setStateEvent]
    simp only [htype, true_and]
  refine ⟨(s₂.setStateEvent heap event).updateMember member', ?_, ⟨?_, ?_, fun id => ?_⟩, ?_, ?_,
    fun id hne => ?_⟩
  · rw [RoomState.setOutOfBandMember.setMember, hcreate]
    simp only [Except.bind, setMembershipEvent_eq hshown]
    show (s₁.updateDisplayNameCache u member.userId (some displayname)).map _ = _
    rw [hid, hupdate, hmember']
    rfl
  · refine h.named.setStateEvent_member htype hkey hfine hevents ?_
    rw [hname]
    exact ⟨hcached₂.name, hcached₂.nodup, hcached₂.users, hcached₂.valid⟩
  · refine Counted.updateMember ?_ _
    intro id m hm
    refine hkeyed₁ id m ?_
    rw [← hsame₂.members]
    exact hm
  · rw [hget, hmember]
    by_cases hown : id = userId
    · rw [if_pos hown, if_pos (hown ▸ hkey)]
      exact iff_of_true rfl rfl
    · rw [if_neg hown, if_neg (fun hcontra => hown (Option.some.inj (hcontra.symm.trans hkey)))]
      exact h.members id
  · funext id
    rw [RoomState.called, hmember]
    by_cases hown : id = userId
    · rw [hown, Function.update_self, if_pos hkey, Option.bind_some, hname]
    · rw [Function.update_of_ne hown,
        if_neg (fun hcontra => hown (Option.some.inj (hcontra.symm.trans hkey)))]
      rfl
  · rw [hget, if_pos rfl]
    exact ⟨member', rfl, by rw [hmember']⟩
  · rw [hget, if_neg hne]

/-- **The loop over the out-of-band members**, none of which replaces a member from the sync; these
are the same all along the loop. -/
theorem Inv.setOutOfBandMembers {start : RoomState} (events : List ℕ) : ∀ s : RoomState,
    Inv u heap s → (∀ id, s.HasSynced id ↔ start.HasSynced id) →
    start.OutOfBandFine u heap (s.called heap) events →
    ∃ s', s.setOutOfBandMembers u heap events = .ok s' ∧ Inv u heap s' := by
  induction events with
  | nil => exact fun s h _ _ => ⟨s, rfl, h⟩
  | cons event events ih =>
    intro s h hsynced hfine
    rcases hfine with ⟨hskip, hrest⟩ | ⟨htype, userId, displayname, hkey, hreplaces, hevent,
      hname, hdirectional, hplain, hrest⟩
    · obtain ⟨s', hok, hs'⟩ := ih s h hsynced hrest
      refine ⟨s', ?_, hs'⟩
      rw [RoomState.setOutOfBandMembers, List.foldlM_cons]
      have hsame : s.setOutOfBandMember u heap event = .ok s := by
        rw [RoomState.setOutOfBandMember]
        rcases hskip with htype | hthere
        · rw [if_pos htype]
        · split
          · rfl
          · obtain ⟨member, hget, hband⟩ := (hsynced _).2 hthere
            simp only [lookup, hget, hband]
            rfl
      rw [hsame]
      exact hok
    · obtain ⟨s₁, hset, hs₁, hcalled, ⟨member, hget, hband⟩, hother⟩ :=
        h.setMember htype hkey hevent hname hdirectional hplain
      have hsynced₁ : ∀ id, s₁.HasSynced id ↔ start.HasSynced id := by
        intro id
        by_cases hid : id = userId
        · rw [hid]
          refine iff_of_false ?_ hreplaces
          rintro ⟨member', hget', hband'⟩
          obtain rfl := Option.some.inj (hget.symm.trans hget')
          exact nomatch hband.symm.trans hband'
        · rw [← hsynced id, RoomState.HasSynced, hother id hid]
          rfl
      obtain ⟨s', hok, hs'⟩ := ih s₁ hs₁ hsynced₁ (by rw [hcalled]; exact hrest)
      refine ⟨s', ?_, hs'⟩
      rw [RoomState.setOutOfBandMembers, List.foldlM_cons]
      have hfirst : s.setOutOfBandMember u heap event = .ok s₁ := by
        rw [RoomState.setOutOfBandMember, if_neg (not_not_intro htype), hkey]
        dsimp only [Option.getD_some]
        rw [lookup_of_not_inherited hevent.user]
        cases hthere : s.members.get userId with
        | none => exact hset
        | some existing =>
          have hout : existing.isOutOfBand = true := by
            by_contra hin
            exact hreplaces ((hsynced userId).1 ⟨existing, hthere, eq_false_of_ne_true hin⟩)
          dsimp only
          rw [if_neg (not_not_intro hout)]
          exact hset
      rw [hfirst]
      exact hok

theorem mem_getMembers : member ∈ s.getMembers ↔ ∃ userId, s.members.get userId = some member := by
  rw [RoomState.getMembers, List.mem_map]
  constructor
  · rintro ⟨⟨id, value⟩, hmem, rfl⟩
    exact ⟨id, mem_entries.1 hmem⟩
  · rintro ⟨id, hget⟩
    exact ⟨(id, member), mem_entries.2 hget, rfl⟩

/-- Without out-of-band members there is nothing to clear. -/
theorem clearOutOfBandMembers_eq (h : ∀ member ∈ s.getMembers, member.isOutOfBand = false) :
    s.clearOutOfBandMembers = s := by
  have hkept : s.members.filter (fun userId => !(s.members.get userId).any (·.isOutOfBand)) =
      s.members := by
    have hall : ∀ userId, (!(s.members.get userId).any (·.isOutOfBand)) = true := by
      intro userId
      cases hget : s.members.get userId with
      | none => rfl
      | some member =>
        rw [Option.any_some, h member (mem_getMembers.2 ⟨userId, hget⟩)]
        rfl
    refine ext_keys ?_ fun userId _ => ?_
    · rw [keys_filter, List.filter_eq_self]
      exact fun userId _ => hall userId
    · rw [get_filter, if_pos (hall userId)]
  rw [RoomState.clearOutOfBandMembers, hkept]

/-! ## Copies -/

/-- **The loop over the events** sets them in the copy, but for those of other rooms. -/
theorem Inv.copyEntries (h : Inv u heap s) (entries : List (String × JsObject (Option String) ℕ)) :
    ∀ copy : RoomState, (∀ entry ∈ entries, s.events.get entry.1 = some entry.2) →
      Inv u heap copy → copy.roomId = s.roomId →
      ∃ copy', entries.foldlM (fun (made : Heap × RoomState) entry =>
          RoomState.setStateEvents u made.1 made.2 (entry.2.entries.map (·.2))) (heap, copy) =
            .ok (heap, copy') ∧ Inv u heap copy' ∧
        ∀ userId, ((copy.memberEvent userId).isSome ∨ ∃ byStateKey event,
          ("m.room.member", byStateKey) ∈ entries ∧ byStateKey.get (some userId) = some event ∧
            (heap event).roomId = s.roomId) → (copy'.memberEvent userId).isSome := by
  induction entries with
  | nil =>
    intro copy _ hcopy _
    refine ⟨copy, rfl, hcopy, fun userId hthere => ?_⟩
    rcases hthere with hthere | ⟨byStateKey, event, hmem, -⟩
    · exact hthere
    · exact absurd hmem List.not_mem_nil
  | cons entry entries ih =>
    intro copy hentries hcopy hroom
    have hentry := hentries entry List.mem_cons_self
    obtain ⟨copy₁, hset, hcopy₁, hroom₁, hmem₁⟩ :=
      hcopy.setStateEvents (entry.2.entries.map (·.2)) (by
        intro event hevent userId htakes
        -- it is the member event of the user in the original
        obtain ⟨⟨key, value⟩, hmem, rfl⟩ := List.mem_map.1 hevent
        have hkey := mem_entries.1 hmem
        obtain ⟨htype, hstate⟩ := h.named.keyed _ _ _ _ hentry hkey
        refine h.named.fine userId value ?_
        rw [RoomState.memberEvent, ← htakes.2.1, htype, hentry, Option.bind_some,
          ← htakes.2.2, hstate, hkey])
    obtain ⟨copy', hok, hcopy', hmem'⟩ := ih copy₁
      (fun entry' hentry' => hentries entry' (List.mem_cons_of_mem entry hentry')) hcopy₁
      (hroom₁.trans hroom)
    refine ⟨copy', ?_, hcopy', fun userId hthere => hmem' userId ?_⟩
    · rw [List.foldlM_cons, hset]
      exact hok
    · rcases hthere with hthere | ⟨byStateKey, event, hmem, hget, hown⟩
      · exact .inl ((hmem₁ userId).2 (.inl hthere))
      · rcases List.mem_cons.1 hmem with rfl | hmem
        · obtain ⟨htype, hstate⟩ := h.named.keyed _ _ _ _ hentry hget
          refine .inl ((hmem₁ userId).2 (.inr ⟨event, ?_, ⟨?_, ?_⟩, htype, hstate⟩))
          · exact List.mem_map.2 ⟨(some userId, event), mem_entries.2 hget, rfl⟩
          · rw [hroom]
            exact hown
          · rw [hstate]
            exact Option.some_ne_none userId
        · exact .inr ⟨byStateKey, event, hmem, hget, hown⟩

theorem Inv.copyEvents (h : Inv u heap s) : ∃ copy, s.copyEvents u heap = .ok (heap, copy) ∧
    Inv u heap copy ∧ ∀ userId event, s.memberEvent userId = some event →
      (heap event).roomId = s.roomId → (copy.memberEvent userId).isSome := by
  obtain ⟨copy, hok, hcopy, hmem⟩ := h.copyEntries s.events.entries (RoomState.new s.roomId)
    (fun entry hentry => mem_entries.1 hentry) (Inv.new u heap s.roomId) rfl
  refine ⟨{ copy with
    summaryJoinedMemberCount := s.summaryJoinedMemberCount
    summaryInvitedMemberCount := s.summaryInvitedMemberCount }, ?_, ⟨?_, ?_, hcopy.members⟩, ?_⟩
  · rw [RoomState.copyEvents, hok]
    rfl
  · exact hcopy.named.of_same ⟨rfl, rfl, rfl, rfl⟩
  · exact hcopy.counted.of_same ⟨rfl, rfl, rfl, rfl⟩
  · intro userId event hevent hown
    obtain ⟨byStateKey, htype, hkey⟩ := Option.bind_eq_some_iff.1 hevent
    exact hmem userId (.inr ⟨byStateKey, event, mem_entries.2 htype, hkey, hown⟩)

/-- A member that is marked keeps its membership. -/
theorem countMembers_mark (hget : s.members.get userId = some member) (s' : RoomState)
    (hset : s'.members = s.members.set userId { member with isOutOfBand := true })
    (membership : String) : s'.countMembers membership = s.countMembers membership := by
  have hsame : s'.getMembers.map RoomMember.membership =
      s.getMembers.map RoomMember.membership := by
    rw [RoomState.getMembers, RoomState.getMembers, hset, List.map_map, List.map_map,
      entries, entries, keys_set_of_mem (mem_keys_of_get hget),
      List.map_filterMap, List.map_filterMap]
    refine List.filterMap_congr fun id _ => ?_
    rw [get_set]
    split
    next heq =>
      rw [heq, hget]
      rfl
    next => rfl
  have hcount : ∀ s : RoomState, s.countMembers membership =
      (s.getMembers.map RoomMember.membership).countP (· = some membership) := by
    intro s
    rw [List.countP_map]
    rfl
  rw [hcount, hcount, hsame]

theorem Inv.markOutOfBand (h : Inv u heap s) (huser : member.userId ∉ inheritedNames)
    (hthere : (s.memberEvent member.userId).isSome) :
    ∃ s', s.markOutOfBand member = .ok s' ∧ Inv u heap s' ∧ SameNames s s' := by
  obtain ⟨copyMember, hget⟩ := Option.isSome_iff_exists.1 ((h.members _).2 hthere)
  have hsame : SameNames s { s with
      members := s.members.set member.userId { copyMember with isOutOfBand := true } } :=
    ⟨rfl, rfl, rfl, rfl⟩
  refine ⟨_, ?_, ⟨h.named.of_same hsame, ⟨?_, ?_, ?_⟩, ?_⟩, hsame⟩
  · rw [RoomState.markOutOfBand, lookup_of_not_inherited huser, hget]
  · intro id m hm
    rw [get_set] at hm
    split at hm
    next heq =>
      have hid : copyMember.userId = member.userId := h.counted.keyed _ _ hget
      rw [← Option.some.inj hm, heq]
      exact hid
    next => exact h.counted.keyed id m hm
  · intro count hcount
    rw [countMembers_mark hget _ rfl]
    exact h.counted.joined count hcount
  · intro count hcount
    rw [countMembers_mark hget _ rfl]
    exact h.counted.invited count hcount
  · intro id
    show ((s.members.set _ _).get id).isSome ↔ (s.memberEvent id).isSome
    rw [get_set]
    split
    next heq => exact iff_of_true rfl (heq ▸ hthere)
    next => exact h.members id

/-- Members are marked that the copy has. -/
theorem Inv.copyOutOfBandFlags (members : List RoomMember) : ∀ copy : RoomState, Inv u heap copy →
    (∀ member ∈ members, member.userId ∉ inheritedNames ∧
      (copy.memberEvent member.userId).isSome) →
    ∃ copy', members.foldlM RoomState.markOutOfBand copy = .ok copy' ∧ Inv u heap copy' := by
  induction members with
  | nil => exact fun copy hcopy _ => ⟨copy, rfl, hcopy⟩
  | cons member members ih =>
    intro copy hcopy hmembers
    obtain ⟨huser, hthere⟩ := hmembers member List.mem_cons_self
    obtain ⟨copy₁, hmark, hcopy₁, hsame⟩ := hcopy.markOutOfBand huser hthere
    obtain ⟨copy', hok, hcopy'⟩ := ih copy₁ hcopy₁ (by
      intro member' hmember'
      rw [hsame.memberEvent]
      exact hmembers member' (List.mem_cons_of_mem member hmember'))
    refine ⟨copy', ?_, hcopy'⟩
    rw [List.foldlM_cons, hmark]
    exact hok

/-- **A copy**, of a state whose out-of-band members are of the room when their flags are copied. -/
theorem Inv.clone (h : Inv u heap s) (status : OobStatus) (hown : status = .finished →
    ∀ userId member event, s.members.get userId = some member → member.isOutOfBand = true →
      s.memberEvent userId = some event → (heap event).roomId = s.roomId) :
    ∃ copy, s.clone u heap status = .ok (heap, copy) ∧ Inv u heap copy := by
  obtain ⟨copy, hok, hcopy, hmem⟩ := h.copyEvents
  rw [RoomState.clone, hok]
  by_cases hfinished : status = .finished
  · obtain ⟨copy', hmark, hcopy'⟩ := hcopy.copyOutOfBandFlags
      (s.getMembers.filter (·.isOutOfBand)) copy (by
        intro member hmember
        obtain ⟨hmember, hband⟩ := List.mem_filter.1 hmember
        obtain ⟨userId, hget⟩ := mem_getMembers.1 hmember
        obtain ⟨event, hevent⟩ := Option.isSome_iff_exists.1
          ((h.members userId).1 (by rw [hget]; rfl))
        rw [h.counted.keyed userId member hget]
        exact ⟨(h.named.fine userId event hevent).user,
          hmem userId event hevent (hown hfinished userId member event hget hband hevent)⟩)
    refine ⟨copy', ?_, hcopy'⟩
    simp only [Except.bind, if_pos hfinished]
    rw [RoomState.copyOutOfBandFlags, hmark]
    rfl
  · refine ⟨copy, ?_, hcopy⟩
    simp only [Except.bind, if_neg hfinished]

/-! ## Runs of operations -/

theorem Inv.getJoinedMemberCount (h : Inv u heap s) : Inv u heap s.getJoinedMemberCount.2 := by
  rw [RoomState.getJoinedMemberCount]
  cases s.summaryJoinedMemberCount with
  | some count => exact h
  | none =>
    refine ⟨h.named.of_same ⟨rfl, rfl, rfl, rfl⟩, ⟨h.counted.keyed, ?_, h.counted.invited⟩,
      h.members⟩
    intro count hcount
    rw [← Option.some.inj hcount]
    show s.joinedMemberCount.getD (s.countMembers "join") = s.countMembers "join"
    cases hjoined : s.joinedMemberCount with
    | none => rfl
    | some joined => exact h.counted.joined joined hjoined

theorem Inv.getInvitedMemberCount (h : Inv u heap s) : Inv u heap s.getInvitedMemberCount.2 := by
  rw [RoomState.getInvitedMemberCount]
  cases s.summaryInvitedMemberCount with
  | some count => exact h
  | none =>
    refine ⟨h.named.of_same ⟨rfl, rfl, rfl, rfl⟩, ⟨h.counted.keyed, h.counted.joined, ?_⟩,
      h.members⟩
    intro count hcount
    rw [← Option.some.inj hcount]
    show s.invitedMemberCount.getD (s.countMembers "invite") = s.countMembers "invite"
    cases hinvited : s.invitedMemberCount with
    | none => rfl
    | some invited => exact h.counted.invited invited hinvited

theorem Inv.of_summary (h : Inv u heap s) (joined invited : Option ℕ) : Inv u heap { s with
    summaryJoinedMemberCount := joined
    summaryInvitedMemberCount := invited } :=
  ⟨h.named.of_same ⟨rfl, rfl, rfl, rfl⟩, h.counted.of_same ⟨rfl, rfl, rfl, rfl⟩, h.members⟩

/-- The invariant of all the states. -/
def World.Inv (u : Unicode) (w : World) : Prop := ∀ s ∈ w.states, Members.Inv u w.heap s

theorem World.Inv.set {w : World} (h : w.Inv u) (i : ℕ) (hs : Members.Inv u w.heap s')
    (status : OobStatus) :
    World.Inv u { w with status := status, states := w.states.set i s' } := by
  intro t ht
  rcases List.mem_or_eq_of_mem_set ht with ht | rfl
  · exact h t ht
  · exact hs

/-- **A harmless operation** does not throw and keeps the invariant. -/
theorem World.Inv.perform {w : World} (h : w.Inv u) {i : ℕ} {op : Operation}
    (hs : w.states[i]? = some s) (hharmless : Harmless u w (i, op)) :
    ∃ w', w.perform u i s op = .ok w' ∧ w'.Inv u := by
  have hinv := h s (List.mem_of_getElem? hs)
  have hop := hharmless s hs
  cases op with
  | setStateEvents stateEvents =>
    obtain ⟨s', hset, hs', -⟩ := hinv.setStateEvents stateEvents (by
      intro event hevent userId htakes
      exact hop event hevent htakes.1 htakes.2.1 userId htakes.2.2)
    refine ⟨_, ?_, h.set i hs' w.status⟩
    rw [World.perform, hset]
    rfl
  | markOutOfBandMembersStarted =>
    rw [World.perform]
    split
    · exact ⟨w, rfl, h⟩
    · exact ⟨_, rfl, h⟩
  | markOutOfBandMembersFailed =>
    rw [World.perform]
    split
    · exact ⟨w, rfl, h⟩
    · exact ⟨_, rfl, h⟩
  | setOutOfBandMembers stateEvents =>
    rw [World.perform]
    split
    · exact ⟨w, rfl, h⟩
    next hprogress =>
      obtain ⟨s', hset, hs'⟩ := hinv.setOutOfBandMembers stateEvents s (fun _ => Iff.rfl)
        (hop (not_not.1 hprogress))
      refine ⟨_, ?_, h.set i hs' .finished⟩
      rw [hset]
      rfl
  | clearOutOfBandMembers =>
    refine ⟨_, rfl, h.set i ?_ .notStarted⟩
    rw [clearOutOfBandMembers_eq hop]
    exact hinv
  | clone =>
    obtain ⟨copy, hclone, hcopy⟩ := hinv.clone w.status hop
    refine ⟨{ w with states := w.states ++ [copy] }, ?_, ?_⟩
    · rw [World.perform, hclone]
      rfl
    · intro t ht
      rcases List.mem_append.1 ht with ht | ht
      · exact h t ht
      · rw [List.mem_singleton.1 ht]
        exact hcopy
  | getJoinedMemberCount => exact ⟨_, rfl, h.set i hinv.getJoinedMemberCount w.status⟩
  | getInvitedMemberCount => exact ⟨_, rfl, h.set i hinv.getInvitedMemberCount w.status⟩
  | setJoinedMemberCount count =>
    exact ⟨_, rfl, h.set i (hinv.of_summary (some count) s.summaryInvitedMemberCount) w.status⟩
  | setInvitedMemberCount count =>
    exact ⟨_, rfl, h.set i (hinv.of_summary s.summaryJoinedMemberCount (some count)) w.status⟩

/-- The operation is harmless in the world there is. -/
def HarmlessStep (u : Unicode) (w : Except String World) (op : ℕ × Operation) : Prop :=
  ∀ w', w = .ok w' → Harmless u w' op

/-- Strings that are compared as they are. -/
def plainStrings : Unicode := ⟨id, id⟩

/-- A member event of the room. -/
def memberEventOf (userId membership : String) (displayname : Option String) : MatrixEvent :=
  ⟨"!a", "m.room.member", some userId, ⟨some membership, displayname⟩, ⟨none, none⟩, true⟩

/-- Alice has a displayname, Bob has left. -/
def aliceAndBob : Heap := fun event =>
  if event = 0 then memberEventOf "@alice:a" "join" (some "Alice")
  else memberEventOf "@bob:a" "leave" none

theorem fine_memberEventOf {membership : String} {displayname : Option String}
    (huser : userId ∉ inheritedNames)
    (hname : ∀ name, displayname = some name → ValidName plainStrings name) :
    Fine plainStrings (memberEventOf userId membership displayname) userId where
  user := huser
  name := hname
  notFaked := fun _ _ => rfl
  lookedUp := fun name hsome _ => (hname name hsome).2.2

def setAndClone : List (ℕ × Operation) :=
  [(0, .setStateEvents [0, 1]), (0, .clone), (1, .markOutOfBandMembersStarted),
    (1, .getJoinedMemberCount)]

theorem setAndClone_runs :
    ((World.system plainStrings "!a" aliceAndBob).run setAndClone).isSome := by
  decide +kernel

/-- The name is one that every object has. -/
def namedConstructor : Heap := fun _ => memberEventOf "@mallory:a" "join" (some "constructor")

theorem namedConstructor_runs : ((World.system plainStrings "!a" namedConstructor).run
    [(0, .setStateEvents [0])]).isSome := by
  decide +kernel

end MatrixSdk.Members
