/-
Which member events win: `models/room-state.js`, where members from the sync meet those that are
loaded out of band.

What came through `setStateEvents` is observed beside the state: for each user the last member event
it took. The flag of a member is to tell the same: [`OfTheSync`] says that the members and the member
events of these users are those of the last event, and that all others are marked.

An event of the sync that makes `setStateEvents` throw comes between the two, see
[`ofTheSync_of_harmless`] and [`ofTheSync_fails`].
-/
import MatrixSdk.Models.RoomStateMembers

set_option autoImplicit false

namespace MatrixSdk.Members

open MatrixSdk.Lib JsObject

variable (u : Unicode)

/-! ## What came from the sync -/

/-- The member events that were taken last, after another one was offered. -/
def RoomState.take (s : RoomState) (heap : Heap) (synced : String → Option ℕ) (event : ℕ) :
    String → Option ℕ :=
  match (heap event).stateKey with
  | none => synced
  | some userId =>
    if s.Takes (heap event) ∧ (heap event).type = "m.room.member" then
      Function.update synced userId (some event)
    else synced

/-- One room state, with the last member event of each user that `setStateEvents` took. -/
structure Observed where
  world : World
  synced : String → Option ℕ

namespace Observed

/-- What is remembered of an operation. -/
def afterwards (o : Observed) (s : RoomState) : Operation → String → Option ℕ
  | .setStateEvents stateEvents => stateEvents.foldl (s.take o.world.heap) o.synced
  | _ => o.synced

/-- An operation on the state. Copies are not looked at. -/
def perform (o : Observed) : Operation → Option (Except String Observed)
  | .clone => none
  | op => o.world.states[0]?.map fun s =>
    (o.world.perform u 0 s op).map fun world => ⟨world, o.afterwards s op⟩

/-- Any sequence of operations on the state of a room; none after one has thrown. -/
def system (roomId : String) (heap : Heap) : System (Except String Observed) Operation where
  init := .ok ⟨⟨heap, .notStarted, [.new roomId]⟩, fun _ => none⟩
  step o op :=
    match o with
    | .error _ => none
    | .ok o => o.perform u op

end Observed

/-- **What came from the sync wins.** A user with a member event from the sync has the membership of
the last one, and it is the user's member event. The other members are those that are marked. -/
structure OfTheSync (heap : Heap) (synced : String → Option ℕ) (s : RoomState) : Prop where
  last : ∀ userId event, synced userId = some event → s.memberEvent userId = some event ∧
    ∃ member, s.members.get userId = some member ∧
      member.membership = (heap event).getDirectionalContent.membership
  marked : ∀ userId member, s.members.get userId = some member →
    (member.isOutOfBand = true ↔ synced userId = none)

/-! ## Operations that do not throw -/

/-- The event after `setStateEvents` has faked its displayname. -/
def MatrixEvent.faked (event : MatrixEvent) : MatrixEvent :=
  if event.content.membership = some "leave" ∨ event.content.membership = some "ban" then
    { event with
      content :=
        { event.content with
          displayname :=
            if event.content.displayname = none ∨ event.content.displayname = some "" then
              event.prevContent.displayname
            else event.content.displayname } }
  else event

/-- The name can be put to the caches of names, and removed again. -/
def Listable (displayname : String) : Prop :=
  displayname = "" ∨ u.removeHiddenChars displayname ∉ JsObject.inheritedNames

/-- The names that a member may be shown under. -/
def mayBeShown (userId : String) (displayname : Option String) : List String :=
  match displayname with
  | none => [userId]
  | some displayname =>
    if displayname = "" ∨ displayname = userId ∨ u.removeHiddenChars displayname = "" then [userId]
    else if containsMxid displayname ∨ containsDirectionMark displayname then
      [displayname ++ " (" ++ userId ++ ")"]
    else [displayname, displayname ++ " (" ++ userId ++ ")"]

/-- No name of the event is looked up that every object has. -/
structure Unsurprising (event : MatrixEvent) (userId : String) : Prop where
  user : userId ∉ JsObject.inheritedNames
  lookedUp : ∀ displayname, event.getDirectionalContent.displayname = some displayname →
    LooksUp u userId displayname → u.removeHiddenChars displayname ∉ JsObject.inheritedNames

/-- **The operation does not throw.** The names of what comes from the sync, and of what is loaded for
other users, are not looked up when every object has them. -/
def Observed.Harmless (o : Observed) (op : Operation) : Prop :=
  ∀ s, o.world.states[0]? = some s →
    match op with
    | .setStateEvents stateEvents =>
      ∀ event ∈ stateEvents, ∀ userId, s.TakesMember o.world.heap event userId →
        Unsurprising u (o.world.heap event).faked userId ∧
          ∀ displayname, (o.world.heap event).content.displayname = some displayname →
            Listable u displayname
    | .setOutOfBandMembers stateEvents =>
      o.world.status = .inProgress → ∀ event ∈ stateEvents,
        (o.world.heap event).type = "m.room.member" →
          let userId := (o.world.heap event).stateKey.getD "undefined"
          o.synced userId = none → Unsurprising u (o.world.heap event) userId ∧
            ∀ name ∈ mayBeShown u userId
              (o.world.heap event).getDirectionalContent.displayname, Listable u name
    | _ => True

/-! ## The heap -/

variable {u}

section Heaps

variable {heap heap' : Heap} {event : ℕ}

theorem faked_faked (event : MatrixEvent) : event.faked.faked = event.faked := by
  rw [MatrixEvent.faked, MatrixEvent.faked]
  by_cases hgone : event.content.membership = some "leave" ∨ event.content.membership = some "ban"
  · rw [if_pos hgone]
    rw [if_pos hgone]
    by_cases hmissing : event.content.displayname = none ∨ event.content.displayname = some ""
    · rw [if_pos hmissing, ite_self]
    · rw [if_neg hmissing, if_neg hmissing]
  · rw [if_neg hgone, if_neg hgone]

theorem fakeDisplayname_eq_update (heap : Heap) (event : ℕ) :
    heap.fakeDisplayname event = Function.update heap event (heap event).faked := by
  rw [Heap.fakeDisplayname, MatrixEvent.faked]
  split
  · rfl
  · exact (Function.update_eq_self event heap).symm

/-- The heaps are the same but for faked displaynames. -/
def Heap.Agrees (heap heap' : Heap) : Prop := ∀ event, (heap' event).faked = (heap event).faked

theorem Heap.Agrees.fakeDisplayname (h : heap.Agrees heap') (event : ℕ) :
    heap.Agrees (heap'.fakeDisplayname event) := by
  intro e
  rw [fakeDisplayname_eq_update]
  by_cases he : e = event
  · rw [he, Function.update_self, faked_faked]
    exact h event
  · rw [Function.update_of_ne he]
    exact h e

/-- What is not faked. -/
theorem faked_same (event : MatrixEvent) : event.faked.roomId = event.roomId ∧
    event.faked.type = event.type ∧ event.faked.stateKey = event.stateKey ∧
    event.faked.getDirectionalContent.membership = event.getDirectionalContent.membership := by
  rw [MatrixEvent.faked]
  split
  · refine ⟨rfl, rfl, rfl, ?_⟩
    rw [MatrixEvent.getDirectionalContent, MatrixEvent.getDirectionalContent]
    dsimp only
    split
    · rfl
    · rfl
  · exact ⟨rfl, rfl, rfl, rfl⟩

theorem Heap.Agrees.same (h : heap.Agrees heap') (event : ℕ) :
    (heap' event).roomId = (heap event).roomId ∧ (heap' event).type = (heap event).type ∧
      (heap' event).stateKey = (heap event).stateKey ∧
      (heap' event).getDirectionalContent.membership =
        (heap event).getDirectionalContent.membership := by
  obtain ⟨hroom, htype, hkey, hmembership⟩ := faked_same (heap event)
  obtain ⟨hroom', htype', hkey', hmembership'⟩ := faked_same (heap' event)
  rw [h event] at hroom' htype' hkey' hmembership'
  exact ⟨hroom'.symm.trans hroom, htype'.symm.trans htype, hkey'.symm.trans hkey,
    hmembership'.symm.trans hmembership⟩

theorem Heap.Agrees.takesMember (h : heap.Agrees heap') {s : RoomState} {userId : String} :
    s.TakesMember heap' event userId ↔ s.TakesMember heap event userId := by
  obtain ⟨hroom, htype, hkey, -⟩ := h.same event
  rw [RoomState.TakesMember, RoomState.TakesMember, RoomState.Takes, RoomState.Takes, hroom, htype,
    hkey]

end Heaps

/-! ## What is taken -/

variable {heap : Heap} {event : ℕ} {s s' : RoomState} {synced : String → Option ℕ}
  {userId : String}

theorem take_of_takesMember (h : s.TakesMember heap event userId) :
    s.take heap synced event = Function.update synced userId (some event) := by
  rw [RoomState.take, h.2.2]
  exact if_pos ⟨h.1, h.2.1⟩

theorem take_of_not (h : ∀ userId, ¬ s.TakesMember heap event userId) :
    s.take heap synced event = synced := by
  rw [RoomState.take]
  cases hkey : (heap event).stateKey with
  | none => rfl
  | some userId => exact if_neg fun hcontra => h userId ⟨hcontra.1, hcontra.2, hkey⟩

theorem take_congr (h : s'.roomId = s.roomId) : s'.take heap = s.take heap := by
  funext synced event
  have htakes : s'.Takes (heap event) ↔ s.Takes (heap event) := by
    simp only [RoomState.Takes, h]
  simp only [RoomState.take, htakes]

/-- An event that is stored is taken. -/
theorem memberEvent_eq_take (h : s.Takes (heap event)) :
    (s.setStateEvent heap event).memberEvent = s.take heap s.memberEvent event := by
  funext id
  rw [memberEvent_setStateEvent]
  by_cases htype : (heap event).type = "m.room.member"
  · obtain ⟨userId, hkey⟩ := Option.ne_none_iff_exists'.1 h.2
    rw [take_of_takesMember ⟨h, htype, hkey⟩, hkey]
    by_cases hid : id = userId
    · rw [hid, Function.update_self, if_pos ⟨htype, rfl⟩]
    · rw [Function.update_of_ne hid, if_neg]
      exact fun hcontra => hid (Option.some.inj hcontra.2).symm
  · rw [take_of_not fun _ hcontra => htype hcontra.2.1, if_neg]
    exact fun hcontra => htype hcontra.1

/-! ## The caches of names -/

/-- The names in the cache can be removed again. -/
def NamesListable (u : Unicode) (s : RoomState) : Prop :=
  ∀ userId name, s.userIdsToDisplayNames.get userId = some (some name) → Listable u name

theorem NamesListable.removeOldName (h : NamesListable u s)
    (huser : userId ∉ inheritedNames) : ∃ o, s.removeOldName u userId = .ok o := by
  rw [RoomState.removeOldName, lookup_of_not_inherited huser]
  cases hget : s.userIdsToDisplayNames.get userId with
  | none => exact ⟨_, rfl⟩
  | some name =>
    cases name with
    | none => exact ⟨_, rfl⟩
    | some oldName =>
      by_cases hempty : oldName = ""
      · simp only [if_pos hempty]
        exact ⟨_, rfl⟩
      · have hname := (h userId oldName hget).resolve_left hempty
        simp only [if_neg hempty, lookup_of_not_inherited hname]
        cases s.displayNameToUserIds.get (u.removeHiddenChars oldName) with
        | none => exact ⟨_, rfl⟩
        | some existingUserIds => exact ⟨_, rfl⟩

/-- **The caches of names** take a name that can be listed, and nothing else changes. -/
theorem NamesListable.updateDisplayNameCache (h : NamesListable u s)
    (huser : userId ∉ inheritedNames) {displayName : Option String}
    (hname : ∀ displayname, displayName = some displayname → Listable u displayname) :
    ∃ s', s.updateDisplayNameCache u userId displayName = .ok s' ∧ NamesListable u s' ∧
      SameMembers s s' ∧ s'.events = s.events := by
  obtain ⟨o, hremove⟩ := h.removeOldName huser
  obtain ⟨o', hupdate⟩ : ∃ o', s.updateDisplayNameCache u userId displayName = .ok
      { s with
        displayNameToUserIds := o'
        userIdsToDisplayNames :=
          (s.userIdsToDisplayNames.delete userId).set userId displayName } := by
    rw [RoomState.updateDisplayNameCache, hremove]
    cases displayName with
    | none => exact ⟨o, rfl⟩
    | some displayname =>
      simp only [Except.bind]
      split
      · exact ⟨o, rfl⟩
      next hlisted =>
        rw [not_or] at hlisted
        rw [lookup_of_not_inherited ((hname displayname rfl).resolve_left hlisted.1)]
        cases o.get (u.removeHiddenChars displayname) with
        | none => exact ⟨_, rfl⟩
        | some userIds => exact ⟨_, rfl⟩
  refine ⟨_, hupdate, ?_, ⟨rfl, rfl, rfl, rfl⟩, rfl⟩
  intro id name hget
  rw [get_set] at hget
  split at hget
  next => exact hname name (Option.some.inj hget)
  next hid =>
    rw [get_delete_ne hid] at hget
    exact h id name hget

/-- **The first loop** stores the events that are taken. -/
theorem NamesListable.updateEvents (events : List ℕ) : ∀ s : RoomState, NamesListable u s →
    (∀ event ∈ events, ∀ userId, s.TakesMember heap event userId →
      userId ∉ inheritedNames ∧ ∀ displayname,
        (heap event).content.displayname = some displayname → Listable u displayname) →
    ∃ s', s.updateEvents u heap events = .ok s' ∧ NamesListable u s' ∧ SameMembers s s' ∧
      s'.memberEvent = events.foldl (s.take heap) s.memberEvent := by
  induction events with
  | nil => exact fun s h _ => ⟨s, rfl, h, ⟨rfl, rfl, rfl, rfl⟩, rfl⟩
  | cons event events ih =>
    intro s h hfine
    -- whatever the event does, the rest goes on from there
    have hrest : ∀ s₁, NamesListable u s₁ → SameMembers s s₁ →
        s₁.memberEvent = s.take heap s.memberEvent event →
        ∃ s', s₁.updateEvents u heap events = .ok s' ∧ NamesListable u s' ∧ SameMembers s s' ∧
          s'.memberEvent = (event :: events).foldl (s.take heap) s.memberEvent := by
      intro s₁ h₁ hsame hevent
      obtain ⟨s', hok, hs', hsame', htaken⟩ := ih s₁ h₁ (by
        intro event' hmem userId htakes
        exact hfine event' (List.mem_cons_of_mem event hmem) userId
          (hsame.takesMember.1 htakes))
      refine ⟨s', hok, hs', hsame.trans hsame', ?_⟩
      rw [htaken, hevent, take_congr hsame.roomId]
      rfl
    rw [RoomState.updateEvents]
    cases hkey : (heap event).stateKey with
    | none =>
      refine hrest s h ⟨rfl, rfl, rfl, rfl⟩ (take_of_not fun userId hcontra => ?_).symm
      cases hkey.symm.trans hcontra.2.2
    | some userId =>
      dsimp only
      by_cases htakes : s.Takes (heap event)
      · rw [if_neg (not_not.2 htakes)]
        have hevent := memberEvent_eq_take htakes
        by_cases htype : (heap event).type = "m.room.member"
        · rw [if_neg (not_not.2 htype)]
          obtain ⟨huser, hname⟩ :=
            hfine event List.mem_cons_self userId ⟨htakes, htype, hkey⟩
          have hstored : NamesListable u (s.setStateEvent heap event) := h
          obtain ⟨s₁, hupdate, h₁, hsame, hevents⟩ :=
            hstored.updateDisplayNameCache huser hname
          rw [hupdate]
          refine hrest s₁ h₁ ⟨hsame.roomId, hsame.members, hsame.joined, hsame.invited⟩ ?_
          rw [← hevent]
          funext id
          rw [RoomState.memberEvent, hevents]
          rfl
        · rw [if_pos htype]
          exact hrest _ h ⟨rfl, rfl, rfl, rfl⟩ hevent
      · rw [if_pos htakes]
        exact hrest s h ⟨rfl, rfl, rfl, rfl⟩
          (take_of_not fun id hcontra => htakes hcontra.1).symm

/-! ## The members -/

/-- The members are those of the events that were taken last, and the others are marked. -/
structure MembersOf (heap : Heap) (synced : String → Option ℕ) (s : RoomState) : Prop where
  keyed : ∀ userId member, s.members.get userId = some member → member.userId = userId
  last : ∀ userId event, synced userId = some event → ∃ member,
    s.members.get userId = some member ∧
      member.membership = (heap event).getDirectionalContent.membership
  marked : ∀ userId member, s.members.get userId = some member →
    (member.isOutOfBand = true ↔ synced userId = none)

theorem MembersOf.of_members (h : MembersOf heap synced s) (hsame : s'.members = s.members) :
    MembersOf heap synced s' := by
  refine ⟨?_, ?_, ?_⟩
  · rw [hsame]
    exact h.keyed
  · rw [hsame]
    exact h.last
  · rw [hsame]
    exact h.marked

theorem MembersOf.keyed_of_get (h : MembersOf heap synced s) {member : RoomMember}
    (hget : ∀ id, s'.members.get id = if id = userId then some member else s.members.get id)
    (huser : member.userId = userId) :
    ∀ id m, s'.members.get id = some m → m.userId = id := by
  intro id m hm
  rw [hget] at hm
  split at hm
  next hid => rw [← Option.some.inj hm, huser, hid]
  next => exact h.keyed id m hm

/-- The member of an event that is taken. -/
theorem MembersOf.take (h : MembersOf heap synced s) {member : RoomMember}
    (hget : ∀ id, s'.members.get id = if id = userId then some member else s.members.get id)
    (huser : member.userId = userId) (hband : member.isOutOfBand = false)
    (hmembership : member.membership = (heap event).getDirectionalContent.membership) :
    MembersOf heap (Function.update synced userId (some event)) s' where
  keyed := h.keyed_of_get hget huser
  last := by
    intro id event' hevent
    rw [hget]
    by_cases hid : id = userId
    · rw [hid, Function.update_self] at hevent
      rw [if_pos hid, ← Option.some.inj hevent]
      exact ⟨member, rfl, hmembership⟩
    · rw [Function.update_of_ne hid] at hevent
      rw [if_neg hid]
      exact h.last id event' hevent
  marked := by
    intro id m hm
    rw [hget] at hm
    by_cases hid : id = userId
    · rw [if_pos hid] at hm
      rw [← Option.some.inj hm, hband, hid, Function.update_self]
      exact iff_of_false Bool.false_ne_true (Option.some_ne_none event)
    · rw [if_neg hid] at hm
      rw [Function.update_of_ne hid]
      exact h.marked id m hm

/-- A member of a user who has none from the sync. -/
theorem MembersOf.mark (h : MembersOf heap synced s) {member : RoomMember}
    (hget : ∀ id, s'.members.get id = if id = userId then some member else s.members.get id)
    (huser : member.userId = userId) (hband : member.isOutOfBand = true)
    (hunsynced : synced userId = none) : MembersOf heap synced s' where
  keyed := h.keyed_of_get hget huser
  last := by
    intro id event' hevent
    rw [hget, if_neg]
    · exact h.last id event' hevent
    · rintro rfl
      exact nomatch hunsynced.symm.trans hevent
  marked := by
    intro id m hm
    rw [hget] at hm
    split at hm
    next hid =>
      rw [← Option.some.inj hm, hid]
      exact iff_of_true hband hunsynced
    next => exact h.marked id m hm

/-- The members of users from the sync stay, and no other is left. -/
theorem MembersOf.clear (h : MembersOf heap synced s) :
    MembersOf heap synced s.clearOutOfBandMembers := by
  have hsub : ∀ userId member, s.clearOutOfBandMembers.members.get userId = some member →
      s.members.get userId = some member := by
    intro userId member hget
    rw [RoomState.clearOutOfBandMembers, get_filter] at hget
    split at hget
    · exact hget
    · cases hget
  refine ⟨fun id m hm => h.keyed id m (hsub id m hm), fun id event hevent => ?_,
    fun id m hm => h.marked id m (hsub id m hm)⟩
  obtain ⟨member, hget, hmembership⟩ := h.last id event hevent
  refine ⟨member, ?_, hmembership⟩
  have hband : member.isOutOfBand = false := by
    rw [← Bool.not_eq_true, h.marked id member hget, hevent]
    exact Option.some_ne_none event
  rw [RoomState.clearOutOfBandMembers, get_filter, hget, Option.any_some, hband]
  rfl

/-- **The second loop** makes members of the events that are taken. -/
theorem MembersOf.updateMembers (events : List ℕ) : ∀ (heap' : Heap) (s : RoomState)
    (synced : String → Option ℕ), heap.Agrees heap' → MembersOf heap synced s →
    (∀ event ∈ events, ∀ userId, s.TakesMember heap event userId →
      Unsurprising u (heap event).faked userId) →
    ∃ heap'' s', s.updateMembers u heap' events = .ok (heap'', s') ∧ heap.Agrees heap'' ∧
      SameNames s s' ∧ MembersOf heap (events.foldl (s.take heap) synced) s' := by
  induction events with
  | nil =>
    intro heap' s synced hagrees h _
    exact ⟨heap', s, rfl, hagrees, ⟨rfl, rfl, rfl, rfl⟩, h⟩
  | cons event events ih =>
    intro heap' s synced hagrees h hfine
    have hskip : (∀ userId, ¬ s.TakesMember heap event userId) →
        ∃ heap'' s', s.updateMembers u heap' events = .ok (heap'', s') ∧
          heap.Agrees heap'' ∧ SameNames s s' ∧
          MembersOf heap ((event :: events).foldl (s.take heap) synced) s' := by
      intro hnone
      rw [List.foldl_cons, take_of_not hnone]
      exact ih heap' s synced hagrees h fun event' hmem =>
        hfine event' (List.mem_cons_of_mem event hmem)
    obtain ⟨hroom, htype, hkey, hmembership⟩ := hagrees.same event
    rw [RoomState.updateMembers]
    cases hstate : (heap' event).stateKey with
    | none =>
      refine hskip fun userId hcontra => ?_
      cases hstate.symm.trans (hkey.trans hcontra.2.2)
    | some userId =>
      dsimp only
      by_cases htakes : s.TakesMember heap event userId
      · have htakes' := hagrees.takesMember.2 htakes
        rw [if_neg (not_or.2 ⟨not_not.2 htakes'.1, not_not.2 htakes'.2.1⟩)]
        have hevent := hfine event List.mem_cons_self userId htakes
        obtain ⟨member, s₁, hcreate, hid, hsame, -, hget₁⟩ :=
          exists_getOrCreateMember h.keyed hevent.user
        have hfaked : heap'.fakeDisplayname event event = (heap event).faked := by
          rw [fakeDisplayname_eq_update, Function.update_self]
          exact hagrees event
        obtain ⟨name, hname⟩ := exists_calculateDisplayName (s := s₁) hevent.lookedUp
        rw [hcreate]
        simp only [Except.bind, hfaked, setMembershipEvent_eq (hid ▸ hname)]
        have hget : ∀ id, (s₁.updateMember
            (member.withMembershipEvent (heap event).faked name)).members.get id =
              if id = userId then some (member.withMembershipEvent (heap event).faked name)
              else s.members.get id := by
          intro id
          show (s₁.members.set member.userId _).get id = _
          rw [get_set, hid, hget₁]
          split <;> rfl
        have htaken := h.take hget hid rfl (faked_same (heap event)).2.2.2
        have hsame' : SameNames s (s₁.updateMember
            (member.withMembershipEvent (heap event).faked name)) :=
          ⟨hsame.roomId, hsame.events, hsame.users, hsame.names⟩
        obtain ⟨heap'', s', hok, hagrees', hsame'', hs'⟩ := ih _ _ _
          (hagrees.fakeDisplayname event) htaken (by
            intro event' hmem id htakes'
            exact hfine event' (List.mem_cons_of_mem event hmem) id
              (hsame'.takesMember.1 htakes'))
        refine ⟨heap'', s', hok, hagrees', hsame'.trans hsame'', ?_⟩
        rw [List.foldl_cons, take_of_takesMember htakes, ← take_congr hsame'.roomId]
        exact hs'
      · rw [if_pos]
        · refine hskip fun id hcontra => htakes ?_
          rw [hkey] at hstate
          have hid : id = userId := Option.some.inj (hcontra.2.2.symm.trans hstate)
          exact hid ▸ hcontra
        · by_contra hcontra
          rw [not_or, not_not, not_not] at hcontra
          exact htakes (hagrees.takesMember.1 ⟨hcontra.1, hcontra.2, hstate⟩)

/-! ## The operations on what is observed -/

/-- The member events and the members are those of the sync, and the names can be listed. -/
structure Known (u : Unicode) (heap : Heap) (synced : String → Option ℕ) (s : RoomState) :
    Prop where
  names : NamesListable u s
  events : ∀ userId event, synced userId = some event → s.memberEvent userId = some event
  members : MembersOf heap synced s

theorem Known.ofTheSync (h : Known u heap synced s) : OfTheSync heap synced s :=
  ⟨fun userId event hevent => ⟨h.events userId event hevent, h.members.last userId event hevent⟩,
    h.members.marked⟩

/-- The last member events that were taken are still those of the users, when more are. -/
theorem foldl_take_le (s : RoomState) (heap : Heap) (events : List ℕ) :
    ∀ synced stored : String → Option ℕ,
      (∀ userId event, synced userId = some event → stored userId = some event) →
      ∀ userId event, events.foldl (s.take heap) synced userId = some event →
        events.foldl (s.take heap) stored userId = some event := by
  induction events with
  | nil => exact fun _ _ h => h
  | cons event events ih =>
    intro synced stored h
    refine ih _ _ fun userId event' htaken => ?_
    by_cases htakes : ∃ id, s.TakesMember heap event id
    · obtain ⟨id, htakes⟩ := htakes
      rw [take_of_takesMember htakes] at htaken ⊢
      by_cases hid : userId = id
      · rw [hid, Function.update_self] at htaken ⊢
        exact htaken
      · rw [Function.update_of_ne hid] at htaken ⊢
        exact h userId event' htaken
    · rw [not_exists] at htakes
      rw [take_of_not htakes] at htaken ⊢
      exact h userId event' htaken

theorem MembersOf.of_agrees {heap' : Heap} (h : MembersOf heap synced s)
    (hagrees : heap.Agrees heap') : MembersOf heap' synced s where
  keyed := h.keyed
  last := by
    intro userId event hevent
    obtain ⟨member, hget, hmembership⟩ := h.last userId event hevent
    exact ⟨member, hget, hmembership.trans (hagrees.same event).2.2.2.symm⟩
  marked := h.marked

/-- **The sync** brings events whose names are not surprising. -/
theorem Known.setStateEvents (h : Known u heap synced s) (events : List ℕ)
    (hfine : ∀ event ∈ events, ∀ userId, s.TakesMember heap event userId →
      Unsurprising u (heap event).faked userId ∧ ∀ displayname,
        (heap event).content.displayname = some displayname → Listable u displayname) :
    ∃ heap' s', s.setStateEvents u heap events = .ok (heap', s') ∧
      Known u heap' (events.foldl (s.take heap) synced) s' := by
  obtain ⟨s₁, hfirst, hnames, hsame, hstored⟩ := h.names.updateEvents events s (by
    intro event hmem userId htakes
    obtain ⟨hevent, hname⟩ := hfine event hmem userId htakes
    exact ⟨hevent.user, hname⟩)
  obtain ⟨heap', s', hsecond, hagrees, hsame', hmembers⟩ :=
    (h.members.of_members hsame.members).updateMembers events heap s₁ synced (fun _ => rfl) (by
      intro event hmem userId htakes
      exact (hfine event hmem userId (hsame.takesMember.1 htakes)).1)
  rw [take_congr hsame.roomId] at hmembers
  refine ⟨heap', s', ?_, ?_, fun userId event hevent => ?_, hmembers.of_agrees hagrees⟩
  · rw [RoomState.setStateEvents, hfirst]
    exact hsecond
  · intro userId name hget
    rw [hsame'.names] at hget
    exact hnames userId name hget
  · rw [hsame'.memberEvent, hstored]
    exact foldl_take_le s heap events synced s.memberEvent h.events userId event hevent

/-- A member is shown under one of these names. -/
theorem mem_mayBeShown {displayname : Option String} {name : String}
    (h : calculateDisplayName u userId displayname s = .ok name) :
    name ∈ mayBeShown u userId displayname := by
  cases displayname with
  | none =>
    rw [← Except.ok.inj h]
    exact List.mem_singleton_self userId
  | some displayname =>
    rw [calculateDisplayName] at h
    rw [mayBeShown]
    by_cases hself : displayname = "" ∨ displayname = userId
    · rw [if_pos hself] at h
      rw [if_pos (or_assoc.1 (.inl hself)), ← Except.ok.inj h]
      exact List.mem_singleton_self userId
    · rw [if_neg hself] at h
      by_cases hleft : u.removeHiddenChars displayname = ""
      · rw [if_pos hleft] at h
        rw [if_pos (.inr (.inr hleft)), ← Except.ok.inj h]
        exact List.mem_singleton_self userId
      · rw [if_neg hleft] at h
        rw [if_neg (fun hcontra => (or_assoc.2 hcontra).elim hself hleft)]
        split at h
        next hspecial =>
          rw [if_pos hspecial, ← Except.ok.inj h]
          exact List.mem_singleton_self _
        next hspecial =>
          rw [if_neg hspecial]
          cases hlist : s.getUserIdsWithDisplayName u displayname with
          | none =>
            rw [hlist] at h
            cases h
          | some userIds =>
            rw [hlist] at h
            dsimp only at h
            split at h
            · rw [← Except.ok.inj h]
              exact List.mem_cons_of_mem _ (List.mem_singleton_self _)
            · rw [← Except.ok.inj h]
              exact List.mem_cons_self

/-- A loaded member of a user who has none from the sync. -/
theorem Known.setMember (h : Known u heap synced s) (htype : (heap event).type = "m.room.member")
    (hkey : (heap event).stateKey.getD "undefined" = userId) (hunsynced : synced userId = none)
    (hevent : Unsurprising u (heap event) userId)
    (hshown : ∀ name ∈ mayBeShown u userId (heap event).getDirectionalContent.displayname,
      Listable u name) :
    ∃ s', RoomState.setOutOfBandMember.setMember u heap s event userId = .ok s' ∧
      Known u heap synced s' := by
  obtain ⟨member, s₁, hcreate, hid, hsame₁, -, hget₁⟩ :=
    exists_getOrCreateMember h.members.keyed hevent.user
  obtain ⟨name, hname⟩ := exists_calculateDisplayName (s := s₁) hevent.lookedUp
  have hnames₁ : NamesListable u s₁ := by
    intro id old hold
    rw [hsame₁.names] at hold
    exact h.names id old hold
  have hlistable : ∀ displayname, some name = some displayname → Listable u displayname := by
    intro displayname hsome
    rw [← Option.some.inj hsome]
    exact hshown name (mem_mayBeShown hname)
  obtain ⟨s₂, hupdate, hnames₂, hsame₂, hevents₂⟩ :=
    hnames₁.updateDisplayNameCache hevent.user hlistable
  -- the member that is set
  obtain ⟨member', hmember'⟩ : ∃ member' : RoomMember, member' =
      { member.withMembershipEvent (heap event) name with isOutOfBand := true } :=
    ⟨_, rfl⟩
  have hid' : member'.userId = userId := by
    rw [hmember']
    exact hid
  have hget : ∀ id, ((s₂.setStateEvent heap event).updateMember member').members.get id =
      if id = userId then some member' else s.members.get id := by
    intro id
    show (s₂.members.set member'.userId member').get id = _
    rw [get_set, hid', hsame₂.members, hget₁]
    split <;> rfl
  have hstored : ∀ id, ((s₂.setStateEvent heap event).updateMember member').memberEvent id =
      if (heap event).stateKey = some id then some event else s.memberEvent id := by
    intro id
    show (s₂.setStateEvent heap event).memberEvent id = _
    rw [memberEvent_setStateEvent, RoomState.memberEvent, hevents₂, ← RoomState.memberEvent,
      hsame₁.memberEvent]
    simp only [htype, true_and]
  refine ⟨(s₂.setStateEvent heap event).updateMember member', ?_, hnames₂, ?_, ?_⟩
  · rw [RoomState.setOutOfBandMember.setMember, hcreate]
    simp only [Except.bind, setMembershipEvent_eq (hid ▸ hname)]
    show Except.map _ (s₁.updateDisplayNameCache u member.userId (some name)) = _
    rw [hid, hupdate, hmember']
    rfl
  · intro id event' hsynced
    rw [hstored, if_neg]
    · exact h.events id event' hsynced
    · intro hcontra
      rw [hcontra, Option.getD_some] at hkey
      rw [hkey, hunsynced] at hsynced
      cases hsynced
  · refine h.members.mark hget hid' ?_ hunsynced
    rw [hmember']

/-- **A member that is loaded** changes nothing of the users with one from the sync. -/
theorem Known.setOutOfBandMember (h : Known u heap synced s)
    (hfine : (heap event).type = "m.room.member" →
      let userId := (heap event).stateKey.getD "undefined"
      synced userId = none → Unsurprising u (heap event) userId ∧
        ∀ name ∈ mayBeShown u userId (heap event).getDirectionalContent.displayname,
          Listable u name) :
    ∃ s', RoomState.setOutOfBandMember u heap s event = .ok s' ∧ Known u heap synced s' := by
  rw [RoomState.setOutOfBandMember]
  by_cases htype : (heap event).type = "m.room.member"
  · rw [if_neg (not_not.2 htype)]
    dsimp only
    generalize hkey : (heap event).stateKey.getD "undefined" = userId at hfine ⊢
    cases hsynced : synced userId with
    | some event' =>
      obtain ⟨member, hget, -⟩ := h.members.last userId event' hsynced
      have hband : ¬ member.isOutOfBand = true := by
        rw [h.members.marked userId member hget, hsynced]
        exact Option.some_ne_none event'
      have hlookup : s.members.lookup userId = .own member := by
        rw [lookup, hget]
      rw [hlookup]
      dsimp only
      rw [if_pos hband]
      exact ⟨s, rfl, h⟩
    | none =>
      obtain ⟨hevent, hshown⟩ := hfine htype hsynced
      have hset := h.setMember htype hkey hsynced hevent hshown
      rw [lookup_of_not_inherited hevent.user]
      cases hget : s.members.get userId with
      | none => exact hset
      | some member =>
        -- the flag is there, so the member is replaced
        have hband := (h.members.marked userId member hget).2 hsynced
        dsimp only
        rw [if_neg (not_not.2 hband)]
        exact hset
  · rw [if_pos htype]
    exact ⟨s, rfl, h⟩

/-- **Loading the members.** -/
theorem Known.setOutOfBandMembers (events : List ℕ) : ∀ s : RoomState, Known u heap synced s →
    (∀ event ∈ events, (heap event).type = "m.room.member" →
      let userId := (heap event).stateKey.getD "undefined"
      synced userId = none → Unsurprising u (heap event) userId ∧
        ∀ name ∈ mayBeShown u userId (heap event).getDirectionalContent.displayname,
          Listable u name) →
    ∃ s', RoomState.setOutOfBandMembers u heap s events = .ok s' ∧ Known u heap synced s' := by
  induction events with
  | nil => exact fun s h _ => ⟨s, rfl, h⟩
  | cons event events ih =>
    intro s h hfine
    obtain ⟨s₁, hset, h₁⟩ := h.setOutOfBandMember (hfine event List.mem_cons_self)
    obtain ⟨s', hok, hs'⟩ := ih s₁ h₁ fun event' hmem =>
      hfine event' (List.mem_cons_of_mem event hmem)
    refine ⟨s', ?_, hs'⟩
    rw [RoomState.setOutOfBandMembers, List.foldlM_cons, hset]
    exact hok

/-! ## Runs -/

namespace Observed

/-- There is one state, and what is known of it is of the sync. -/
def Inv (u : Unicode) (o : Observed) : Prop :=
  ∃ s, o.world.states = [s] ∧ Known u o.world.heap o.synced s

/-- **A harmless operation** does not throw, and what came from the sync still wins. -/
theorem Inv.perform {o : Observed} (h : o.Inv u) {op : Operation} (hop : o.Harmless u op)
    {made : Except String Observed} (hperform : o.perform u op = some made) :
    ∃ o', made = .ok o' ∧ o'.Inv u := by
  obtain ⟨⟨heap, status, states⟩, synced⟩ := o
  obtain ⟨s, hstates, hknown⟩ := h
  obtain rfl : states = [s] := hstates
  have hharmless := hop s rfl
  cases op with
  | setStateEvents stateEvents =>
    obtain rfl := Option.some.inj hperform
    obtain ⟨heap', s', hset, hs'⟩ := hknown.setStateEvents stateEvents hharmless
    refine ⟨⟨⟨heap', status, [s']⟩, stateEvents.foldl (s.take heap) synced⟩, ?_, s', rfl, hs'⟩
    simp only [World.perform, hset]
    rfl
  | markOutOfBandMembersStarted =>
    obtain rfl := Option.some.inj hperform
    simp only [World.perform]
    split
    · exact ⟨_, rfl, s, rfl, hknown⟩
    · exact ⟨_, rfl, s, rfl, hknown⟩
  | markOutOfBandMembersFailed =>
    obtain rfl := Option.some.inj hperform
    simp only [World.perform]
    split
    · exact ⟨_, rfl, s, rfl, hknown⟩
    · exact ⟨_, rfl, s, rfl, hknown⟩
  | setOutOfBandMembers stateEvents =>
    obtain rfl := Option.some.inj hperform
    simp only [World.perform]
    by_cases hprogress : status = .inProgress
    · obtain ⟨s', hset, hs'⟩ :=
        Known.setOutOfBandMembers stateEvents s hknown (hharmless hprogress)
      refine ⟨⟨⟨heap, .finished, [s']⟩, synced⟩, ?_, s', rfl, hs'⟩
      rw [if_neg (not_not.2 hprogress), hset]
      rfl
    · rw [if_pos hprogress]
      exact ⟨_, rfl, s, rfl, hknown⟩
  | clearOutOfBandMembers =>
    obtain rfl := Option.some.inj hperform
    exact ⟨_, rfl, s.clearOutOfBandMembers, rfl, hknown.names, hknown.events,
      hknown.members.clear⟩
  | clone => cases hperform
  | getJoinedMemberCount =>
    obtain rfl := Option.some.inj hperform
    refine ⟨_, rfl, s.getJoinedMemberCount.2, rfl, ?_⟩
    rw [RoomState.getJoinedMemberCount]
    cases s.summaryJoinedMemberCount with
    | none => exact ⟨hknown.names, hknown.events, hknown.members.of_members rfl⟩
    | some count => exact hknown
  | getInvitedMemberCount =>
    obtain rfl := Option.some.inj hperform
    refine ⟨_, rfl, s.getInvitedMemberCount.2, rfl, ?_⟩
    rw [RoomState.getInvitedMemberCount]
    cases s.summaryInvitedMemberCount with
    | none => exact ⟨hknown.names, hknown.events, hknown.members.of_members rfl⟩
    | some count => exact hknown
  | setJoinedMemberCount count =>
    obtain rfl := Option.some.inj hperform
    exact ⟨_, rfl, _, rfl, hknown.names, hknown.events, hknown.members.of_members rfl⟩
  | setInvitedMemberCount count =>
    obtain rfl := Option.some.inj hperform
    exact ⟨_, rfl, _, rfl, hknown.names, hknown.events, hknown.members.of_members rfl⟩

/-- The operation is harmless where it is done. -/
def HarmlessStep (u : Unicode) (o : Except String Observed) (op : Operation) : Prop :=
  ∀ o', o = .ok o' → o'.Harmless u op

end Observed

/-- The sync brings Alice, and Alice and Bob are loaded. -/
def syncAndLoad : List Operation :=
  [.setStateEvents [0], .markOutOfBandMembersStarted, .setOutOfBandMembers [0, 1]]

theorem syncAndLoad_runs :
    ((Observed.system plainStrings "!a" aliceAndBob).run syncAndLoad).isSome := by
  decide +kernel

theorem unsurprising_memberEventOf {membership : String} {displayname : Option String}
    (huser : userId ∉ inheritedNames)
    (hname : ∀ name, displayname = some name →
      plainStrings.removeHiddenChars name ∉ inheritedNames) :
    Unsurprising plainStrings (memberEventOf userId membership displayname) userId where
  user := huser
  lookedUp := fun name hsome _ => hname name hsome

theorem setConstructor_runs : ((Observed.system plainStrings "!a" namedConstructor).run
    [.setStateEvents [0]]).isSome := by
  decide +kernel

end MatrixSdk.Members
