/-
Who is shown under a displayname: `calculateDisplayName` of `models/room-member.js` and the caches
of names of `models/room-state.js`.

A name is made once, when the member event of the user is processed, and not again when others take
a similar one. What keeps two members from being shown alike is the cache: whoever is shown under a
displayname is listed for it, and a name for which another is listed gets the user id added
([`Guarded`]). The cache is ahead of the names while `setStateEvents` is between its loops, and it
has the names that out-of-band members are shown under in place of their displaynames; neither does
harm.

A user whose displayname is the own user id is shown under it whatever the cache says, and user ids
can be similar. So [`noImpersonation_run`] leaves out these, see [`noImpersonation_fails`].
-/
import MatrixSdk.Lib.Loops
import MatrixSdk.Models.SyncedMembers

set_option autoImplicit false

namespace MatrixSdk.Members

open MatrixSdk.Lib JsObject

variable (u : Unicode)

/-! ## Who is shown plainly -/

/-- The user is joined and shown under the displayname as it is. -/
def ShownPlainly (heap : Heap) (s : RoomState) (userId displayname : String) : Prop :=
  s.called heap userId = some displayname ∧ ∃ member, s.members.get userId = some member ∧
    member.membership = some "join" ∧ member.name = displayname

instance (heap : Heap) (s : RoomState) (userId displayname : String) :
    Decidable (ShownPlainly heap s userId displayname) :=
  decidable_of_iff (s.called heap userId = some displayname ∧
      (s.members.get userId).any fun m => m.membership = some "join" ∧ m.name = displayname) <| by
    simp only [ShownPlainly, Option.any_eq_true, decide_eq_true_eq]

/-- The same, and the displayname is not the user id. -/
def ShownByName (heap : Heap) (s : RoomState) (userId displayname : String) : Prop :=
  displayname ≠ userId ∧ ShownPlainly heap s userId displayname

/-- **No impersonation**: of two joined members with similar displaynames, one at most is shown
plainly, leaving out displaynames that are user ids. -/
def NoImpersonation (heap : Heap) (s : RoomState) : Prop :=
  ∀ userId other displayname name, userId ≠ other → ShownByName heap s userId displayname →
    ShownByName heap s other name → u.removeHiddenChars displayname ≠ u.removeHiddenChars name

/-- What is loaded are state events. -/
def LoadsStateEvents (heap : Heap) : Operation → Prop
  | .setOutOfBandMembers stateEvents => ∀ event ∈ stateEvents,
    (heap event).type = "m.room.member" → (heap event).stateKey ≠ none
  | _ => True

/-- Membership events look forward. -/
def Heap.Forward (heap : Heap) : Prop :=
  ∀ event, (heap event).type = "m.room.member" → (heap event).forwardLooking = true

variable {u}

/-! ## The caches of names -/

/-- The users listed for what is left of a name. -/
def RoomState.listed (s : RoomState) (key : String) : List String :=
  (s.displayNameToUserIds.get key).getD []

variable {heap heap' : Heap} {s s' : RoomState} {userId : String} {event : ℕ} {events : List ℕ}
  {member : RoomMember}

/-- Another user stays where it is listed. -/
theorem removeOldName_listed {o : JsObject String (List String)}
    (h : s.removeOldName u userId = .ok o) {other : String} (hother : other ≠ userId)
    {key : String} (hlisted : other ∈ s.listed key) : other ∈ (o.get key).getD [] := by
  rw [RoomState.removeOldName] at h
  split at h
  · obtain rfl := Except.ok.inj h
    exact hlisted
  next strippedOldName =>
    split at h
    next existingUserIds hown =>
      obtain rfl := Except.ok.inj h
      have hget := get_of_lookup_own hown
      rw [get_set]
      split
      next hkey =>
        rw [RoomState.listed, hkey, hget] at hlisted
        exact List.mem_filter.2 ⟨hlisted, decide_eq_true hother⟩
      next => exact hlisted
    · obtain rfl := Except.ok.inj h
      exact hlisted
    · cases h

/-- **The caches take a name**: the user is listed for it, if anything is left of it, and the others
stay where they are listed. -/
theorem updateDisplayNameCache_listed {displayName : Option String}
    (h : s.updateDisplayNameCache u userId displayName = .ok s') :
    SameMembers s s' ∧ s'.events = s.events ∧
      (∀ other, other ≠ userId → ∀ key, other ∈ s.listed key → other ∈ s'.listed key) ∧
      ∀ displayname, displayName = some displayname → displayname ≠ "" →
        u.removeHiddenChars displayname ≠ "" →
          userId ∈ s'.listed (u.removeHiddenChars displayname) := by
  rw [RoomState.updateDisplayNameCache] at h
  obtain ⟨o, hremove, h⟩ := exists_of_bind_eq_ok h
  have hkeep : ∀ other, other ≠ userId → ∀ key, other ∈ s.listed key →
      other ∈ (o.get key).getD [] := fun other hother key =>
    removeOldName_listed hremove hother
  cases displayName with
  | none =>
    obtain rfl := Except.ok.inj h
    exact ⟨⟨rfl, rfl, rfl, rfl⟩, rfl, hkeep, fun displayname hname => by cases hname⟩
  | some displayname =>
    dsimp only at h
    split at h
    next hempty =>
      obtain rfl := Except.ok.inj h
      refine ⟨⟨rfl, rfl, rfl, rfl⟩, rfl, hkeep, fun name hname hnonempty hleft => ?_⟩
      obtain rfl := Option.some.inj hname
      exact absurd hempty (not_or.2 ⟨hnonempty, hleft⟩)
    next =>
      -- whoever else is listed stays, and the user comes last
      have hadd : ∀ userIds : List String,
          (∀ id ∈ (o.get (u.removeHiddenChars displayname)).getD [], id ∈ userIds) →
            userId ∈ userIds → s' = { s with
              displayNameToUserIds := o.set (u.removeHiddenChars displayname) userIds
              userIdsToDisplayNames :=
                (s.userIdsToDisplayNames.delete userId).set userId (some displayname) } →
            SameMembers s s' ∧ s'.events = s.events ∧
              (∀ other, other ≠ userId → ∀ key, other ∈ s.listed key → other ∈ s'.listed key) ∧
              ∀ name, some displayname = some name → name ≠ "" → u.removeHiddenChars name ≠ "" →
                userId ∈ s'.listed (u.removeHiddenChars name) := by
        rintro userIds hold huser rfl
        refine ⟨⟨rfl, rfl, rfl, rfl⟩, rfl, fun other hother key hlisted => ?_,
          fun name hname _ _ => ?_⟩
        · have hlisted := hkeep other hother key hlisted
          rw [RoomState.listed, get_set]
          split
          next hkey => exact hold other (hkey ▸ hlisted)
          next => exact hlisted
        · obtain rfl := Option.some.inj hname
          rw [RoomState.listed, get_set, if_pos rfl]
          exact huser
      split at h
      next userIds hown =>
        refine hadd (userIds ++ [userId]) ?_ (by simp) (Except.ok.inj h).symm
        rw [get_of_lookup_own hown]
        exact fun id hid => List.mem_append_left _ hid
      next hmissing =>
        refine hadd [userId] ?_ (by simp) (Except.ok.inj h).symm
        rw [get_of_lookup_missing hmissing]
        exact fun id hid => absurd hid List.not_mem_nil
      next => cases h

/-- A displayname other than the user id is a name as it is only when no other user is listed. -/
theorem listed_of_calculateDisplayName {displayname : String} (hother : displayname ≠ userId)
    (h : calculateDisplayName u userId (some displayname) s = .ok displayname) :
    displayname ≠ "" ∧ u.removeHiddenChars displayname ≠ "" ∧
      ∀ id ∈ s.listed (u.removeHiddenChars displayname), id = userId := by
  have hlonger : displayname ++ " (" ++ userId ++ ")" ≠ displayname := by
    intro heq
    have := congrArg String.length heq
    simp only [String.length_append] at this
    have hparen : " (".length = 2 := rfl
    omega
  rw [calculateDisplayName] at h
  split at h
  · exact absurd (Except.ok.inj h).symm hother
  next hself =>
    rw [not_or] at hself
    split at h
    · exact absurd (Except.ok.inj h).symm hother
    next hleft =>
      split at h
      · exact absurd (Except.ok.inj h) hlonger
      · refine ⟨hself.1, hleft, fun id hid => ?_⟩
        split at h
        next userIds hids =>
          split at h
          · exact absurd (Except.ok.inj h) hlonger
          next hnone =>
            have hlist : s.listed (u.removeHiddenChars displayname) = userIds := by
              rw [RoomState.getUserIdsWithDisplayName] at hids
              split at hids
              next hown =>
                rw [RoomState.listed, get_of_lookup_own hown]
                exact Option.some.inj hids
              next hmissing =>
                rw [RoomState.listed, get_of_lookup_missing hmissing]
                exact Option.some.inj hids
              next => cases hids
            by_contra hne
            exact hnone (List.any_eq_true.2 ⟨id, hlist ▸ hid, decide_eq_true hne⟩)
        next => cases h

/-! ## Setting state events: the first loop -/

/-- There is a member event of the user to come. -/
def Pending (heap : Heap) (s : RoomState) (events : List ℕ) (userId : String) : Prop :=
  ∃ event ∈ events, s.TakesMember heap event userId

/-- A user who has joined is listed for the displayname of the member event. -/
def ListedAsCalled (u : Unicode) (heap : Heap) (s : RoomState) (userId : String) : Prop :=
  ∀ event displayname, s.memberEvent userId = some event →
    (heap event).content.membership = some "join" →
      (heap event).content.displayname = some displayname → displayname ≠ "" →
        u.removeHiddenChars displayname ≠ "" → userId ∈ s.listed (u.removeHiddenChars displayname)

theorem not_pending_nil : ¬ Pending heap s [] userId := by
  rintro ⟨event, hevent, -⟩
  exact List.not_mem_nil hevent

theorem pending_cons : Pending heap s (event :: events) userId ↔
    s.TakesMember heap event userId ∨ Pending heap s events userId := by
  simp only [Pending, List.exists_mem_cons_iff]

theorem pending_congr (h : s'.roomId = s.roomId) :
    Pending heap s' events userId ↔ Pending heap s events userId := by
  simp only [Pending, RoomState.TakesMember, RoomState.Takes, h]

theorem foldl_take_of_not_pending (h : ¬ Pending heap s events userId)
    {synced : String → Option ℕ} : events.foldl (s.take heap) synced userId = synced userId := by
  induction events generalizing synced with
  | nil => rfl
  | cons event events ih =>
    rw [pending_cons, not_or] at h
    rw [List.foldl_cons, ih h.2]
    by_cases htakes : ∃ id, s.TakesMember heap event id
    · obtain ⟨id, htakes⟩ := htakes
      rw [take_of_takesMember htakes, Function.update_of_ne]
      rintro rfl
      exact h.1 htakes
    · rw [take_of_not (not_exists.1 htakes)]

/-- The last event of a user who has one does not depend on what came before. -/
theorem foldl_take_of_pending (h : Pending heap s events userId)
    (synced stored : String → Option ℕ) : events.foldl (s.take heap) synced userId =
      events.foldl (s.take heap) stored userId := by
  induction events generalizing synced stored with
  | nil => exact absurd h not_pending_nil
  | cons event events ih =>
    rw [List.foldl_cons, List.foldl_cons]
    by_cases hlater : Pending heap s events userId
    · exact ih hlater _ _
    · have htakes := (pending_cons.1 h).resolve_right hlater
      rw [foldl_take_of_not_pending hlater, foldl_take_of_not_pending hlater,
        take_of_takesMember htakes, take_of_takesMember htakes, Function.update_self,
        Function.update_self]

/-- What the first loop leaves: the users of the events are listed as they are called, and the
others where they were. -/
structure EventsSet (u : Unicode) (heap : Heap) (events : List ℕ) (s s' : RoomState) : Prop where
  same : SameMembers s s'
  memberEvent : s'.memberEvent = events.foldl (s.take heap) s.memberEvent
  taken : ∀ userId, Pending heap s events userId → ListedAsCalled u heap s' userId
  kept : ∀ userId, ¬ Pending heap s events userId → ∀ key, userId ∈ s.listed key →
    userId ∈ s'.listed key

/-- An event that is taken for no member event makes no difference. -/
theorem EventsSet.skip {s₁ : RoomState} (h : EventsSet u heap events s₁ s')
    (hsame : SameMembers s s₁) (hevents : s₁.memberEvent = s.memberEvent)
    (hlisted : s₁.listed = s.listed) (hnone : ∀ userId, ¬ s.TakesMember heap event userId) :
    EventsSet u heap (event :: events) s s' where
  same := hsame.trans h.same
  memberEvent := by
    rw [h.memberEvent, List.foldl_cons, take_of_not hnone, take_congr hsame.roomId, hevents]
  taken userId hpending := by
    refine h.taken userId ((pending_congr hsame.roomId).2 ?_)
    exact (pending_cons.1 hpending).resolve_left (hnone userId)
  kept userId hnot key hkey := by
    refine h.kept userId (fun hpending => hnot (pending_cons.2 (.inr ?_))) key (hlisted ▸ hkey)
    exact (pending_congr hsame.roomId).1 hpending

/-- **The first loop.** -/
theorem updateEvents_listed (events : List ℕ) : ∀ s : RoomState,
    s.updateEvents u heap events = .ok s' → EventsSet u heap events s s' := by
  induction events with
  | nil =>
    intro s h
    obtain rfl := Except.ok.inj h
    exact ⟨⟨rfl, rfl, rfl, rfl⟩, rfl, fun _ hpending => absurd hpending not_pending_nil,
      fun _ _ _ hkey => hkey⟩
  | cons event events ih =>
    intro s h
    rw [RoomState.updateEvents] at h
    split at h
    next hkey =>
      refine (ih s h).skip ⟨rfl, rfl, rfl, rfl⟩ rfl rfl fun userId htakes => ?_
      cases hkey.symm.trans htakes.2.2
    next userId hkey =>
      split at h
      next hnot =>
        exact (ih s h).skip ⟨rfl, rfl, rfl, rfl⟩ rfl rfl fun id htakes => hnot htakes.1
      next htakes =>
        rw [not_not] at htakes
        split at h
        next htype =>
          have hnone : ∀ id, ¬ s.TakesMember heap event id := fun id hcontra => htype hcontra.2.1
          refine (ih _ h).skip ⟨rfl, rfl, rfl, rfl⟩ ?_ rfl hnone
          rw [memberEvent_eq_take htakes, take_of_not hnone]
        next htype =>
          rw [ne_eq, not_not] at htype
          have hmember : s.TakesMember heap event userId := ⟨htakes, htype, hkey⟩
          obtain ⟨s₁, hupdate, h⟩ := exists_of_bind_eq_ok h
          obtain ⟨hsame₁, hevents₁, hothers, hown⟩ := updateDisplayNameCache_listed hupdate
          have hsame : SameMembers s s₁ :=
            (show SameMembers s (s.setStateEvent heap event) from
              ⟨rfl, rfl, rfl, rfl⟩).trans hsame₁
          have hstored : s₁.memberEvent = s.take heap s.memberEvent event := by
            rw [← memberEvent_eq_take htakes]
            funext id
            rw [RoomState.memberEvent, hevents₁]
            rfl
          have hrest := ih s₁ h
          refine ⟨hsame.trans hrest.same, ?_, fun id hpending => ?_,
            fun id hnot key hlisted => ?_⟩
          · rw [hrest.memberEvent, hstored, take_congr hsame.roomId, List.foldl_cons]
          · by_cases hlater : Pending heap s₁ events id
            · exact hrest.taken id hlater
            · -- this is the last event of the user
              obtain rfl : id = userId := by
                rcases pending_cons.1 hpending with htakes' | hlater'
                · exact Option.some.inj (htakes'.2.2.symm.trans hkey)
                · exact absurd ((pending_congr hsame.roomId).2 hlater') hlater
              intro event' displayname hevent' _ hname hnonempty hleft
              rw [hrest.memberEvent, foldl_take_of_not_pending hlater, hstored,
                take_of_takesMember hmember, Function.update_self] at hevent'
              obtain rfl := Option.some.inj hevent'
              exact hrest.kept id hlater _ (hown displayname hname hnonempty hleft)
          · rw [pending_cons, not_or] at hnot
            have hne : id ≠ userId := by
              rintro rfl
              exact hnot.1 hmember
            refine hrest.kept id (fun hlater => hnot.2 ?_) key (hothers id hne key hlisted)
            exact (pending_congr hsame.roomId).1 hlater

/-! ## Heaps with faked displaynames -/

theorem faked_of_joined {event : MatrixEvent} (h : event.content.membership = some "join") :
    event.faked = event := by
  rw [MatrixEvent.faked, if_neg]
  rw [h]
  decide

theorem membership_faked (event : MatrixEvent) :
    event.faked.content.membership = event.content.membership := by
  rw [MatrixEvent.faked]
  split
  · rfl
  · rfl

theorem forwardLooking_faked (event : MatrixEvent) :
    event.faked.forwardLooking = event.forwardLooking := by
  rw [MatrixEvent.faked]
  split
  · rfl
  · rfl

theorem Heap.Agrees.refl (heap : Heap) : heap.Agrees heap := fun _ => rfl

theorem Heap.Agrees.trans {heap'' : Heap} (h : heap.Agrees heap') (h' : heap'.Agrees heap'') :
    heap.Agrees heap'' :=
  fun event => (h' event).trans (h event)

/-- The event of a user who has joined stays as it is. -/
theorem Heap.Agrees.joined (h : heap.Agrees heap')
    (hjoin : (heap' event).content.membership = some "join") : heap event = heap' event := by
  have hmembership : (heap event).content.membership = some "join" := by
    rw [← membership_faked, ← h event, membership_faked, hjoin]
  rw [← faked_of_joined hmembership, ← h event, faked_of_joined hjoin]

theorem Heap.Agrees.forward (h : heap.Agrees heap') (hforward : heap.Forward) : heap'.Forward := by
  intro event htype
  rw [← forwardLooking_faked, h event, forwardLooking_faked]
  refine hforward event ?_
  rw [← (h.same event).2.1, htype]

/-! ## What keeps members apart -/

/-- Users who are shown by name are listed for it, and no two of them for similar names. Nothing is
said of users with events to come. -/
structure Guarded (u : Unicode) (heap : Heap) (s : RoomState) (pending : String → Prop) :
    Prop where
  keyed : ∀ userId member, s.members.get userId = some member → member.userId = userId
  joined : ∀ userId member, ¬ pending userId → s.members.get userId = some member →
    member.membership = some "join" → ∃ event, s.memberEvent userId = some event ∧
      (heap event).content.membership = some "join"
  listed : ∀ userId displayname, ¬ pending userId → ShownByName heap s userId displayname →
    userId ∈ s.listed (u.removeHiddenChars displayname)
  alone : ∀ userId other displayname name, ¬ pending userId → ¬ pending other →
    userId ≠ other → ShownByName heap s userId displayname → ShownByName heap s other name →
      u.removeHiddenChars displayname ≠ u.removeHiddenChars name

theorem Guarded.new (u : Unicode) (heap : Heap) (roomId : String) :
    Guarded u heap (RoomState.new roomId) fun _ => False where
  keyed _ _ hget := nomatch hget
  joined _ _ _ hget := nomatch hget
  listed := by
    rintro userId displayname - ⟨-, -, member, hget, -⟩
    exact nomatch hget
  alone := by
    rintro userId other displayname name - - - ⟨-, -, member, hget, -⟩
    exact nomatch hget

variable {pending pending' : String → Prop}

theorem Guarded.of_agrees (h : Guarded u heap s pending) (hagrees : heap.Agrees heap') :
    Guarded u heap' s pending := by
  have hshown : ∀ userId displayname, ¬ pending userId →
      ShownByName heap' s userId displayname → ShownByName heap s userId displayname := by
    rintro userId displayname hnot ⟨hother, hcalled, member, hget, hjoin, hname⟩
    obtain ⟨event, hevent, hmembership⟩ := h.joined userId member hnot hget hjoin
    refine ⟨hother, ?_, member, hget, hjoin, hname⟩
    have hjoin' : (heap' event).content.membership = some "join" := by
      rw [← membership_faked, hagrees event, membership_faked, hmembership]
    rw [RoomState.called, hevent] at hcalled ⊢
    rw [Option.bind_some, hagrees.joined hjoin']
    exact hcalled
  refine ⟨h.keyed, fun userId member hnot hget hjoin => ?_, fun userId displayname hnot hs => ?_,
    fun userId other displayname name hnot hnot' hne hs hs' => ?_⟩
  · obtain ⟨event, hevent, hmembership⟩ := h.joined userId member hnot hget hjoin
    refine ⟨event, hevent, ?_⟩
    rw [← membership_faked, hagrees event, membership_faked, hmembership]
  · exact h.listed userId displayname hnot (hshown userId displayname hnot hs)
  · exact h.alone userId other displayname name hnot hnot' hne (hshown _ _ hnot hs)
      (hshown _ _ hnot' hs')

/-- **A member is set.** If it is shown by name, no other user was listed for the name, and the user
is listed for it now. -/
theorem Guarded.setMember (h : Guarded u heap s pending)
    (hpending : ∀ other, other ≠ userId → ¬ pending' other → ¬ pending other)
    (hget : ∀ other, s'.members.get other =
      if other = userId then some member else s.members.get other) (hkeyed : member.userId = userId)
    (hevents : ∀ other, other ≠ userId → s'.memberEvent other = s.memberEvent other)
    (hlisted : ∀ other, other ≠ userId → ∀ key, other ∈ s.listed key → other ∈ s'.listed key)
    (hown : ¬ pending' userId → ∃ event, s'.memberEvent userId = some event ∧
      member.membership = (heap event).content.membership ∧
        ∀ displayname, member.membership = some "join" →
          (heap event).content.displayname = some displayname → member.name = displayname →
            displayname ≠ userId →
              (∀ id ∈ s.listed (u.removeHiddenChars displayname), id = userId) ∧
                userId ∈ s'.listed (u.removeHiddenChars displayname)) :
    Guarded u heap s' pending' := by
  have hshown : ∀ other name, other ≠ userId → ShownByName heap s' other name →
      ShownByName heap s other name := by
    rintro other name hne ⟨hother, hcalled, m, hm, hjoin, hname⟩
    rw [hget, if_neg hne] at hm
    rw [RoomState.called, hevents other hne] at hcalled
    exact ⟨hother, hcalled, m, hm, hjoin, hname⟩
  -- what is known of the user's own name
  have hnew : ∀ displayname, ¬ pending' userId → ShownByName heap s' userId displayname →
      (∀ id ∈ s.listed (u.removeHiddenChars displayname), id = userId) ∧
        userId ∈ s'.listed (u.removeHiddenChars displayname) := by
    rintro displayname hnot ⟨hother, hcalled, m, hm, hjoin, hname⟩
    rw [hget, if_pos rfl] at hm
    obtain rfl := Option.some.inj hm
    obtain ⟨event, hevent, -, hlast⟩ := hown hnot
    rw [RoomState.called, hevent, Option.bind_some] at hcalled
    exact hlast displayname hjoin hcalled hname hother
  -- so nobody else is shown by a similar one
  have halone : ∀ other displayname name, other ≠ userId → ¬ pending' userId →
      ¬ pending' other → ShownByName heap s' userId displayname → ShownByName heap s' other name →
        u.removeHiddenChars displayname ≠ u.removeHiddenChars name := by
    intro other displayname name hne hnot hnot' hs hs' hsimilar
    have hother := h.listed other name (hpending other hne hnot') (hshown other name hne hs')
    exact hne ((hnew displayname hnot hs).1 other (hsimilar ▸ hother))
  refine ⟨fun other m hm => ?_, fun other m hnot hm hjoin => ?_, fun other name hnot hs => ?_,
    fun other other' name name' hnot hnot' hne hs hs' => ?_⟩
  · rw [hget] at hm
    split at hm
    next hself => rw [← Option.some.inj hm, hkeyed, hself]
    next => exact h.keyed other m hm
  · rw [hget] at hm
    split at hm
    next hself =>
      subst hself
      obtain rfl := Option.some.inj hm
      obtain ⟨event, hevent, hmembership, -⟩ := hown hnot
      exact ⟨event, hevent, hmembership ▸ hjoin⟩
    next hne =>
      rw [hevents other hne]
      exact h.joined other m (hpending other hne hnot) hm hjoin
  · by_cases hself : other = userId
    · subst hself
      exact (hnew name hnot hs).2
    · exact hlisted other hself _ (h.listed other name (hpending other hself hnot)
        (hshown other name hself hs))
  · by_cases hself : other = userId
    · subst hself
      exact halone other' name name' hne.symm hnot hnot' hs hs'
    · by_cases hself' : other' = userId
      · subst hself'
        exact (halone other name' name hself hnot' hnot hs' hs).symm
      · exact h.alone other other' name name' (hpending other hself hnot)
          (hpending other' hself' hnot') hne (hshown other name hself hs)
          (hshown other' name' hself' hs')

/-! ## Setting state events: the second loop -/

theorem members_getOrCreateMember (h : s.getOrCreateMember userId = .ok (member, s'))
    (hkeyed : ∀ id m, s.members.get id = some m → m.userId = id) :
    member.userId = userId ∧ SameNames s s' ∧ ∀ id, s'.members.get id =
      if id = userId then some member else s.members.get id := by
  rw [RoomState.getOrCreateMember] at h
  split at h
  next member₁ hown =>
    obtain ⟨rfl, rfl⟩ := Prod.mk.inj (Except.ok.inj h)
    have hget := get_of_lookup_own hown
    refine ⟨hkeyed userId member₁ hget, ⟨rfl, rfl, rfl, rfl⟩, fun id => ?_⟩
    split
    next hid => rw [hid, hget]
    next => rfl
  next =>
    obtain ⟨rfl, rfl⟩ := Prod.mk.inj (Except.ok.inj h)
    exact ⟨rfl, ⟨rfl, rfl, rfl, rfl⟩, fun id => get_set _ _ _ _⟩
  next => cases h

/-- A member event is given to the member there is, or to a new one. -/
theorem members_setMembershipEvent {event : MatrixEvent} {made : RoomMember × RoomState}
    (hcreate : s.getOrCreateMember userId = .ok made)
    (hset : made.1.setMembershipEvent u event made.2 = .ok member)
    (hkeyed : ∀ id m, s.members.get id = some m → m.userId = id)
    (hforward : event.forwardLooking = true) :
    member.userId = userId ∧ member.membership = event.content.membership ∧
      calculateDisplayName u userId event.content.displayname made.2 = .ok member.name ∧
        SameNames s made.2 ∧ ∀ id, made.2.members.get id =
          if id = userId then some made.1 else s.members.get id := by
  obtain ⟨huser, hsame, hget⟩ := members_getOrCreateMember hcreate hkeyed
  obtain ⟨name, hname, rfl⟩ := exists_of_map_eq_ok hset
  rw [huser] at hname
  rw [MatrixEvent.getDirectionalContent, if_pos hforward] at hname ⊢
  exact ⟨huser, rfl, hname, hsame, hget⟩

theorem SameNames.listed (h : SameNames s s') (key : String) : s'.listed key = s.listed key := by
  rw [RoomState.listed, h.users]
  rfl

theorem ListedAsCalled.of_same (h : ListedAsCalled u heap s userId) (hsame : SameNames s s')
    (hagrees : heap.Agrees heap') : ListedAsCalled u heap' s' userId := by
  intro event displayname hevent hjoin hname hnonempty hleft
  rw [hsame.memberEvent] at hevent
  have hevent' := hagrees.joined hjoin
  rw [← hevent'] at hjoin hname
  rw [hsame.listed]
  exact h event displayname hevent hjoin hname hnonempty hleft

/-- **The second loop** names the members, one after the other. The caches are complete by then. -/
theorem Guarded.updateMembers (hforward : heap.Forward) (events : List ℕ) :
    ∀ (heap₁ : Heap) (s : RoomState) {heap₂ : Heap}, heap.Agrees heap₁ →
      Guarded u heap₁ s (Pending heap s events) →
      (∀ userId, Pending heap s events userId → ListedAsCalled u heap₁ s userId) →
      events.foldl (s.take heap) s.memberEvent = s.memberEvent →
      s.updateMembers u heap₁ events = .ok (heap₂, s') →
        heap.Agrees heap₂ ∧ SameNames s s' ∧ Guarded u heap₂ s' fun _ => False := by
  induction events with
  | nil =>
    intro heap₁ s heap₂ hagrees h _ _ hok
    obtain ⟨rfl, rfl⟩ := Prod.mk.inj (Except.ok.inj hok)
    refine ⟨hagrees, ⟨rfl, rfl, rfl, rfl⟩, h.keyed, fun userId member _ => ?_,
      fun userId displayname _ => ?_, fun userId other displayname name _ _ => ?_⟩
    · exact h.joined userId member not_pending_nil
    · exact h.listed userId displayname not_pending_nil
    · exact h.alone userId other displayname name not_pending_nil not_pending_nil
  | cons event events ih =>
    intro heap₁ s heap₂ hagrees h hnamed hlast hok
    -- an event that makes no member is none to come
    have hskip : (∀ userId, ¬ s.TakesMember heap event userId) →
        s.updateMembers u heap₁ events = .ok (heap₂, s') →
          heap.Agrees heap₂ ∧ SameNames s s' ∧ Guarded u heap₂ s' fun _ => False := by
      intro hnone hok
      have hsame : Pending heap s (event :: events) = Pending heap s events := by
        funext userId
        exact propext (pending_cons.trans (or_iff_right (hnone userId)))
      rw [hsame] at h
      refine ih heap₁ s hagrees h (fun userId hpending => hnamed userId ?_) ?_ hok
      · rw [hsame]
        exact hpending
      · rwa [List.foldl_cons, take_of_not hnone] at hlast
    obtain ⟨hroom, htype, hkey, -⟩ := hagrees.same event
    rw [RoomState.updateMembers] at hok
    split at hok
    next hstate =>
      refine hskip (fun userId htakes => ?_) hok
      cases (hkey.symm.trans hstate).symm.trans htakes.2.2
    next userId hstate =>
      split at hok
      next hnot =>
        refine hskip (fun id htakes => ?_) hok
        rw [← hagrees.takesMember] at htakes
        exact hnot.elim (fun h => h htakes.1) fun h => h htakes.2.1
      next htakes =>
        rw [not_or, not_not, ne_eq, not_not] at htakes
        have hmember : s.TakesMember heap event userId :=
          hagrees.takesMember.1 ⟨htakes.1, htakes.2, hstate⟩
        obtain ⟨made, hcreate, hok⟩ := exists_of_bind_eq_ok hok
        obtain ⟨member, hset, hok⟩ := exists_of_bind_eq_ok hok
        have hfaked := (Heap.Agrees.refl heap₁).fakeDisplayname event
        have hagrees' := hagrees.trans hfaked
        obtain ⟨huser, hmembership, hname, hsame₁, hget₁⟩ :=
          members_setMembershipEvent hcreate hset h.keyed
            (hagrees'.forward hforward event ((hagrees'.same event).2.1.trans hmember.2.1))
        have hsame : SameNames s (made.2.updateMember member) :=
          ⟨hsame₁.roomId, hsame₁.events, hsame₁.users, hsame₁.names⟩
        have hpending : ∀ id, Pending heap (made.2.updateMember member) events id ↔
            Pending heap s events id := fun id => pending_congr hsame.roomId
        -- the last event of the user is this one, unless there are others to come
        have hthis : ¬ Pending heap s events userId → s.memberEvent userId = some event := by
          intro hnot
          rw [← hlast, List.foldl_cons, foldl_take_of_not_pending hnot,
            take_of_takesMember hmember, Function.update_self]
        have hguarded : Guarded u (heap₁.fakeDisplayname event) (made.2.updateMember member)
            (Pending heap (made.2.updateMember member) events) := by
          refine (h.of_agrees hfaked).setMember ?_ ?_ huser
            (fun other _ => hsame.memberEvent other)
            (fun other _ key hother => by rwa [hsame.listed]) ?_
          · intro other hne hnot hpend
            rcases pending_cons.1 hpend with htakes' | hlater
            · exact hne (Option.some.inj (htakes'.2.2.symm.trans hmember.2.2))
            · exact hnot ((hpending other).2 hlater)
          · intro other
            change (made.2.members.set member.userId member).get other = _
            rw [get_set, huser, hget₁]
            split
            · rfl
            · rfl
          · intro hnot
            rw [hpending] at hnot
            refine ⟨event, (hsame.memberEvent userId).trans (hthis hnot), hmembership, ?_⟩
            intro displayname hjoin hcalled hplain hother
            rw [hcalled, hplain] at hname
            obtain ⟨hnonempty, hleft, halone⟩ := listed_of_calculateDisplayName hother hname
            refine ⟨fun id hid => halone id (by rwa [hsame₁.listed]), ?_⟩
            have hlisted := (hnamed userId (pending_cons.2 (.inl hmember))).of_same hsame hfaked
            exact hlisted event displayname ((hsame.memberEvent userId).trans (hthis hnot))
              (hmembership ▸ hjoin) hcalled hnonempty hleft
        have hlast' : events.foldl (s.take heap) s.memberEvent = s.memberEvent := by
          funext id
          by_cases hpend : Pending heap s events id
          · rw [foldl_take_of_pending hpend _ (s.take heap s.memberEvent event),
              ← List.foldl_cons, hlast]
          · exact foldl_take_of_not_pending hpend
        have hstored : (made.2.updateMember member).memberEvent = s.memberEvent :=
          funext hsame.memberEvent
        obtain ⟨hagrees₂, hsame₂, hguarded₂⟩ := ih _ _ hagrees' hguarded
          (fun id hpend => (hnamed id (pending_cons.2 (.inr ((hpending id).1 hpend)))).of_same
            hsame hfaked) (by rw [take_congr hsame.roomId, hstored, hlast']) hok
        exact ⟨hagrees₂, hsame.trans hsame₂, hguarded₂⟩

/-- **Setting state events** keeps members apart. -/
theorem Guarded.setStateEvents (hforward : heap.Forward) (h : Guarded u heap s fun _ => False)
    (hok : s.setStateEvents u heap events = .ok (heap', s')) :
    heap.Agrees heap' ∧ s'.roomId = s.roomId ∧ Guarded u heap' s' fun _ => False := by
  obtain ⟨s₁, hevents, hmembers⟩ := exists_of_bind_eq_ok hok
  obtain ⟨hsame₁, hstored, htaken, hkept⟩ := updateEvents_listed events s hevents
  have hpending : ∀ userId, Pending heap s₁ events userId ↔ Pending heap s events userId :=
    fun userId => pending_congr hsame₁.roomId
  have hevent : ∀ userId, ¬ Pending heap s₁ events userId →
      s₁.memberEvent userId = s.memberEvent userId := by
    intro userId hnot
    rw [hstored, foldl_take_of_not_pending fun hpend => hnot ((hpending userId).2 hpend)]
  have hshown : ∀ userId displayname, ¬ Pending heap s₁ events userId →
      ShownByName heap s₁ userId displayname → ShownByName heap s userId displayname := by
    rintro userId displayname hnot ⟨hother, hcalled, member, hget, hjoin, hname⟩
    rw [RoomState.called, hevent userId hnot] at hcalled
    rw [hsame₁.members] at hget
    exact ⟨hother, hcalled, member, hget, hjoin, hname⟩
  have hguarded : Guarded u heap s₁ (Pending heap s₁ events) := by
    refine ⟨?_, fun userId member hnot hget hjoin => ?_, fun userId displayname hnot hs => ?_,
      fun userId other displayname name hnot hnot' hne hs hs' => ?_⟩
    · rw [hsame₁.members]
      exact h.keyed
    · rw [hevent userId hnot]
      exact h.joined userId member not_false (hsame₁.members ▸ hget) hjoin
    · refine hkept userId (fun hpend => hnot ((hpending userId).2 hpend)) _ ?_
      exact h.listed userId displayname not_false (hshown userId displayname hnot hs)
    · exact h.alone userId other displayname name not_false not_false hne
        (hshown userId displayname hnot hs) (hshown other name hnot' hs')
  obtain ⟨hagrees, hsame₂, hguarded'⟩ := hguarded.updateMembers hforward events heap s₁
    (.refl heap) (fun userId hpend => htaken userId ((hpending userId).1 hpend)) (by
      funext userId
      rw [take_congr hsame₁.roomId, hstored]
      by_cases hpend : Pending heap s events userId
      · exact foldl_take_of_pending hpend _ _
      · exact foldl_take_of_not_pending hpend) hmembers
  exact ⟨hagrees, hsame₂.roomId.trans hsame₁.roomId, hguarded'⟩

/-! ## Out-of-band members -/

/-- **An out-of-band member** is named before it is listed, and listed as it is named. -/
theorem Guarded.setOutOfBandMember (hforward : heap.Forward)
    (h : Guarded u heap s fun _ => False) (hstate : (heap event).type = "m.room.member" →
      (heap event).stateKey ≠ none) (hok : s.setOutOfBandMember u heap event = .ok s') :
    Guarded u heap s' fun _ => False := by
  rw [RoomState.setOutOfBandMember] at hok
  split at hok
  · obtain rfl := Except.ok.inj hok
    exact h
  next htype =>
    rw [ne_eq, not_not] at htype
    obtain ⟨userId, huserId⟩ := Option.ne_none_iff_exists'.1 (hstate htype)
    have hset : RoomState.setOutOfBandMember.setMember u heap s event userId = .ok s' →
        Guarded u heap s' fun _ => False := by
      intro hok
      obtain ⟨made, hcreate, hok⟩ := exists_of_bind_eq_ok hok
      obtain ⟨member, hset, hok⟩ := exists_of_bind_eq_ok hok
      obtain ⟨s₁, hupdate, rfl⟩ := exists_of_map_eq_ok hok
      obtain ⟨huser, hmembership, hname, hsame, hget⟩ :=
        members_setMembershipEvent hcreate hset h.keyed (hforward event htype)
      obtain ⟨hsame₁, hevents₁, hothers, hlisted⟩ := updateDisplayNameCache_listed hupdate
      rw [huser] at hothers hlisted
      have hstored : ∀ id, ((s₁.setStateEvent heap event).updateMember
          { member with isOutOfBand := true }).memberEvent id =
            if id = userId then some event else s.memberEvent id := by
        intro id
        change (s₁.setStateEvent heap event).memberEvent id = _
        rw [memberEvent_setStateEvent, RoomState.memberEvent, hevents₁, hsame.events]
        by_cases hid : id = userId
        · rw [if_pos hid, if_pos ⟨htype, hid ▸ huserId⟩]
        · rw [if_neg hid, if_neg]
          · rfl
          · rintro ⟨-, hcontra⟩
            exact hid (Option.some.inj (hcontra.symm.trans huserId))
      have hmarked : ({ member with isOutOfBand := true } : RoomMember).userId = userId := huser
      refine h.setMember (fun _ _ hnot => hnot) ?_ hmarked ?_ ?_ fun _ => ?_
      · intro other
        change ((s₁.setStateEvent heap event).members.set member.userId _).get other = _
        rw [get_set, huser]
        split
        · rfl
        next hne =>
          change s₁.members.get other = _
          rw [hsame₁.members, hget, if_neg hne]
      · intro other hne
        rw [hstored, if_neg hne]
      · intro other hne key hkey
        refine hothers other hne key ?_
        rwa [hsame.listed]
      · refine ⟨event, (hstored userId).trans (if_pos rfl), hmembership, ?_⟩
        intro displayname _ hcalled (hplain : member.name = displayname) hother
        rw [hcalled, hplain] at hname
        obtain ⟨hnonempty, hleft, halone⟩ := listed_of_calculateDisplayName hother hname
        refine ⟨fun id hid => halone id (by rwa [hsame.listed]), ?_⟩
        exact hlisted displayname (by rw [hplain]) hnonempty hleft
    simp only [huserId, Option.getD_some] at hok
    split at hok
    next existingMember _ =>
      split at hok
      · obtain rfl := Except.ok.inj hok
        exact h
      · exact hset hok
    next => exact hset hok
    next => cases hok

theorem Guarded.setOutOfBandMembers (hforward : heap.Forward) (events : List ℕ)
    (hstate : ∀ event ∈ events, (heap event).type = "m.room.member" →
      (heap event).stateKey ≠ none) : ∀ s : RoomState, Guarded u heap s (fun _ => False) →
    s.setOutOfBandMembers u heap events = .ok s' → Guarded u heap s' fun _ => False := by
  induction events with
  | nil =>
    intro s h hok
    obtain rfl := Except.ok.inj hok
    exact h
  | cons event events ih =>
    intro s h hok
    rw [RoomState.setOutOfBandMembers, List.foldlM_cons] at hok
    obtain ⟨s₁, hset, hok⟩ := exists_of_bind_eq_ok hok
    refine ih (fun event' hmem => hstate event' (List.mem_cons_of_mem event hmem)) s₁ ?_ hok
    exact h.setOutOfBandMember hforward (hstate event List.mem_cons_self) hset

/-- No member is new, or has another name or membership. -/
theorem Guarded.of_members (h : Guarded u heap s fun _ => False) (hsame : SameNames s s')
    (hmembers : ∀ userId member, s'.members.get userId = some member → ∃ old,
      s.members.get userId = some old ∧ old.userId = member.userId ∧
        old.membership = member.membership ∧ old.name = member.name) :
    Guarded u heap s' fun _ => False := by
  have hshown : ∀ userId displayname, ShownByName heap s' userId displayname →
      ShownByName heap s userId displayname := by
    rintro userId displayname ⟨hother, hcalled, member, hget, hjoin, hname⟩
    obtain ⟨old, hold, -, hmembership, hnames⟩ := hmembers userId member hget
    rw [RoomState.called, hsame.memberEvent] at hcalled
    exact ⟨hother, hcalled, old, hold, hmembership.trans hjoin, hnames.trans hname⟩
  refine ⟨fun userId member hget => ?_, fun userId member _ hget hjoin => ?_,
    fun userId displayname _ hs => ?_, fun userId other displayname name _ _ hne hs hs' => ?_⟩
  · obtain ⟨old, hold, huser, -⟩ := hmembers userId member hget
    rw [← huser]
    exact h.keyed userId old hold
  · obtain ⟨old, hold, -, hmembership, -⟩ := hmembers userId member hget
    rw [hsame.memberEvent]
    exact h.joined userId old not_false hold (hmembership.trans hjoin)
  · rw [hsame.listed]
    exact h.listed userId displayname not_false (hshown userId displayname hs)
  · exact h.alone userId other displayname name not_false not_false hne (hshown _ _ hs)
      (hshown _ _ hs')

theorem Guarded.clearOutOfBandMembers (h : Guarded u heap s fun _ => False) :
    Guarded u heap s.clearOutOfBandMembers fun _ => False := by
  refine h.of_members ⟨rfl, rfl, rfl, rfl⟩ fun userId member hget => ?_
  rw [RoomState.clearOutOfBandMembers, get_filter] at hget
  split at hget
  · exact ⟨member, hget, rfl, rfl, rfl⟩
  · cases hget

/-! ## Copies -/

theorem Guarded.markOutOfBand (h : Guarded u heap s fun _ => False)
    (hok : s.markOutOfBand member = .ok s') : Guarded u heap s' fun _ => False := by
  rw [RoomState.markOutOfBand] at hok
  split at hok
  next copyMember hown =>
    obtain rfl := Except.ok.inj hok
    refine h.of_members ⟨rfl, rfl, rfl, rfl⟩ fun userId marked hget => ?_
    rw [get_set] at hget
    split at hget
    next hid =>
      obtain rfl := Option.some.inj hget
      exact ⟨copyMember, hid ▸ get_of_lookup_own hown, rfl, rfl, rfl⟩
    next => exact ⟨marked, hget, rfl, rfl, rfl⟩
  next => cases hok
  next => cases hok

/-- **A copy** is guarded, whatever it is a copy of: it is made by setting state events. -/
theorem Guarded.clone (hforward : heap.Forward) (s : RoomState) (status : OobStatus)
    {copy : RoomState} (hok : s.clone u heap status = .ok (heap', copy)) :
    heap.Agrees heap' ∧ Guarded u heap' copy fun _ => False := by
  obtain ⟨⟨heap₁, copy₁⟩, hcopied, hok⟩ := exists_of_bind_eq_ok hok
  have hcopy : heap.Agrees heap₁ ∧ Guarded u heap₁ copy₁ fun _ => False := by
    obtain ⟨made, hfold, heq⟩ := exists_of_map_eq_ok hcopied
    obtain ⟨rfl, rfl⟩ := Prod.mk.inj heq
    have hall := outcome_foldlM (f := fun (made : Heap × RoomState)
        (entry : String × JsObject (Option String) ℕ) =>
          RoomState.setStateEvents u made.1 made.2 (entry.2.entries.map (·.2)))
      (G := fun made => heap.Agrees made.1 ∧ Guarded u made.1 made.2 fun _ => False)
      (H := fun _ => True) ?_ s.events.entries (s := (heap, RoomState.new s.roomId))
      ⟨.refl heap, .new u heap s.roomId⟩
    · rw [hfold] at hall
      refine ⟨hall.1, hall.2.of_members ⟨rfl, rfl, rfl, rfl⟩ fun _ member hget => ?_⟩
      exact ⟨member, hget, rfl, rfl, rfl⟩
    · rintro made entry ⟨hagrees, hguarded⟩
      cases hset : RoomState.setStateEvents u made.1 made.2 (entry.2.entries.map (·.2)) with
      | error e => exact trivial
      | ok made₂ =>
        obtain ⟨hagrees₂, -, hguarded₂⟩ :=
          hguarded.setStateEvents (hagrees.forward hforward) hset
        exact ⟨hagrees.trans hagrees₂, hguarded₂⟩
  dsimp only at hok
  split at hok
  next =>
    obtain ⟨copy₂, hflags, heq⟩ := exists_of_map_eq_ok hok
    obtain ⟨rfl, rfl⟩ := Prod.mk.inj heq
    have hall := outcome_foldlM (f := RoomState.markOutOfBand)
      (G := fun copy => Guarded u heap₁ copy fun _ => False) (H := fun _ => True) ?_
      (s.getMembers.filter (·.isOutOfBand)) (s := copy₁) hcopy.2
    · rw [RoomState.copyOutOfBandFlags] at hflags
      rw [hflags] at hall
      exact ⟨hcopy.1, hall⟩
    · intro copy member hguarded
      cases hmark : copy.markOutOfBand member with
      | error e => exact trivial
      | ok copy' => exact hguarded.markOutOfBand hmark
  next =>
    obtain ⟨rfl, rfl⟩ := Prod.mk.inj (Except.ok.inj hok)
    exact hcopy

/-! ## Runs of operations -/

/-- The invariant of a world: all its states are guarded. -/
structure World.Guarded (u : Unicode) (heap : Heap) (w : World) : Prop where
  agrees : heap.Agrees w.heap
  states : ∀ s ∈ w.states, Members.Guarded u w.heap s fun _ => False

theorem World.Guarded.set {w : World} (h : w.Guarded u heap) (i : ℕ) {status : OobStatus}
    (hagrees : w.heap.Agrees heap') (hs : Members.Guarded u heap' s fun _ => False) :
    World.Guarded u heap ⟨heap', status, w.states.set i s⟩ where
  agrees := h.agrees.trans hagrees
  states t ht := by
    rcases List.mem_or_eq_of_mem_set ht with ht | rfl
    · exact (h.states t ht).of_agrees hagrees
    · exact hs

/-- **An operation** that returns keeps the invariant. -/
theorem World.Guarded.perform {w w' : World} (hforward : heap.Forward) (h : w.Guarded u heap)
    {i : ℕ} {op : Operation} (hs : w.states[i]? = some s) (hloads : LoadsStateEvents heap op)
    (hok : w.perform u i s op = .ok w') : w'.Guarded u heap := by
  have hforward' := h.agrees.forward hforward
  have hguarded := h.states s (List.mem_of_getElem? hs)
  have hsame : ∀ {s' : RoomState}, SameNames s s' → s'.members = s.members →
      Members.Guarded u w.heap s' fun _ => False := fun hnames hmembers =>
    hguarded.of_members hnames fun _ member hget => ⟨member, hmembers ▸ hget, rfl, rfl, rfl⟩
  cases op with
  | setStateEvents stateEvents =>
    obtain ⟨made, hset, rfl⟩ := exists_of_map_eq_ok hok
    obtain ⟨hagrees, -, hmade⟩ := hguarded.setStateEvents hforward' hset
    exact h.set i hagrees hmade
  | markOutOfBandMembersStarted =>
    rw [World.perform] at hok
    split at hok
    · exact Except.ok.inj hok ▸ h
    · exact Except.ok.inj hok ▸ ⟨h.agrees, h.states⟩
  | markOutOfBandMembersFailed =>
    rw [World.perform] at hok
    split at hok
    · exact Except.ok.inj hok ▸ h
    · exact Except.ok.inj hok ▸ ⟨h.agrees, h.states⟩
  | setOutOfBandMembers stateEvents =>
    rw [World.perform] at hok
    split at hok
    · exact Except.ok.inj hok ▸ h
    · obtain ⟨s', hset, rfl⟩ := exists_of_map_eq_ok hok
      have hstate : ∀ event ∈ stateEvents, (w.heap event).type = "m.room.member" →
          (w.heap event).stateKey ≠ none := by
        intro event hmem htype
        obtain ⟨-, htype', hkey, -⟩ := h.agrees.same event
        rw [hkey]
        exact hloads event hmem (htype'.symm.trans htype)
      exact h.set i (.refl w.heap)
        (hguarded.setOutOfBandMembers hforward' stateEvents hstate s hset)
  | clearOutOfBandMembers =>
    obtain rfl := Except.ok.inj hok
    exact h.set i (.refl w.heap) hguarded.clearOutOfBandMembers
  | clone =>
    obtain ⟨made, hclone, rfl⟩ := exists_of_map_eq_ok hok
    obtain ⟨hagrees, hmade⟩ := Guarded.clone hforward' s w.status hclone
    refine ⟨h.agrees.trans hagrees, fun t ht => ?_⟩
    rcases List.mem_append.1 ht with ht | ht
    · exact (h.states t ht).of_agrees hagrees
    · rw [List.mem_singleton.1 ht]
      exact hmade
  | getJoinedMemberCount =>
    obtain rfl := Except.ok.inj hok
    refine h.set i (.refl w.heap) ?_
    rw [RoomState.getJoinedMemberCount]
    split
    · exact hguarded
    · exact hsame ⟨rfl, rfl, rfl, rfl⟩ rfl
  | getInvitedMemberCount =>
    obtain rfl := Except.ok.inj hok
    refine h.set i (.refl w.heap) ?_
    rw [RoomState.getInvitedMemberCount]
    split
    · exact hguarded
    · exact hsame ⟨rfl, rfl, rfl, rfl⟩ rfl
  | setJoinedMemberCount count =>
    obtain rfl := Except.ok.inj hok
    exact h.set i (.refl w.heap) (hsame ⟨rfl, rfl, rfl, rfl⟩ rfl)
  | setInvitedMemberCount count =>
    obtain rfl := Except.ok.inj hok
    exact h.set i (.refl w.heap) (hsame ⟨rfl, rfl, rfl, rfl⟩ rfl)

/-- **No impersonation by display name.** In every state reached, of a room or a copy, one at most
of the joined members with similar displaynames is shown under the displayname as it is, if the
displaynames are not the members' own user ids. -/
theorem noImpersonation_run {roomId : String} (hforward : heap.Forward)
    {ops : List (Except String World × (ℕ × Operation))} {w : World}
    (h : (World.system u roomId heap).Trace ops (.ok w))
    (hloads : System.Meets (fun _ op => LoadsStateEvents heap op.2) ops) :
    ∀ s ∈ w.states, NoImpersonation u w.heap s := by
  have hinv := h.invariant_under (P := fun w => ∀ w', w = .ok w' → World.Guarded u heap w')
    ?_ ?_ hloads
  · intro s hs userId other displayname name hne
    exact ((hinv w rfl).states s hs).alone userId other displayname name not_false not_false hne
  · rintro w' hw'
    obtain rfl := Except.ok.inj hw'
    refine ⟨.refl heap, fun s hs => ?_⟩
    rw [List.mem_singleton.1 hs]
    exact Guarded.new u heap roomId
  · rintro w₁ ⟨i, op⟩ w₂ hw₁ hloads hstep w' rfl
    cases w₁ with
    | error e => exact nomatch hstep
    | ok w₁ =>
      obtain ⟨s, hs, hok⟩ := Option.map_eq_some_iff.1 hstep
      exact (hw₁ w₁ rfl).perform hforward hs hloads hok

/-- Alice is in the room, and another Alice is loaded. -/
def twoCalledAlice : Heap := fun event =>
  if event = 0 then memberEventOf "@alice:a" "join" (some "Alice")
  else memberEventOf "@mallory:a" "join" (some "Alice")

def syncLoadAndClone : List (ℕ × Operation) :=
  [(0, .setStateEvents [0]), (0, .markOutOfBandMembersStarted), (0, .setOutOfBandMembers [1]),
    (0, .clone)]

theorem syncLoadAndClone_runs :
    ∃ w, (World.system plainStrings "!a" twoCalledAlice).run syncLoadAndClone = some (.ok w) ∧
      w.states.length = 2 := by
  have hrun : (((World.system plainStrings "!a" twoCalledAlice).run syncLoadAndClone).elim 0
      fun w => match w with
        | .ok w => w.states.length
        | .error _ => 0) = 2 := by
    decide +kernel
  cases hw : (World.system plainStrings "!a" twoCalledAlice).run syncLoadAndClone with
  | none =>
    rw [hw] at hrun
    exact nomatch hrun
  | some w =>
    rw [hw] at hrun
    cases w with
    | error e => exact nomatch hrun
    | ok w => exact ⟨w, rfl, hrun⟩

theorem noImpersonation_syncLoadAndClone : ∃ w,
    (World.system plainStrings "!a" twoCalledAlice).run syncLoadAndClone = some (.ok w) ∧
      w.states.length = 2 ∧ ∀ s ∈ w.states, NoImpersonation plainStrings w.heap s := by
  obtain ⟨w, hrun, hlength⟩ := syncLoadAndClone_runs
  refine ⟨w, hrun, hlength, ?_⟩
  have hforward : twoCalledAlice.Forward := by
    intro event _
    rw [twoCalledAlice]
    split
    · rfl
    · rfl
  refine noImpersonation_run hforward (System.trace_of_run hrun) fun step hstep => ?_
  have hop := System.event_mem_of_mem_stepsFrom hstep
  simp only [syncLoadAndClone, List.mem_cons, List.not_mem_nil, or_false] at hop
  rcases hop with hop | hop | hop | hop
  · rw [hop]
    trivial
  · rw [hop]
    trivial
  · rw [hop]
    intro event hmem _
    obtain rfl := List.mem_singleton.1 hmem
    exact Option.some_ne_none _
  · rw [hop]
    trivial

/-- What looks like a one is an el. -/
def looksLike : Unicode :=
  ⟨id, fun str => String.ofList (str.toList.map fun c => if c = '1' then 'l' else c)⟩

/-- Two users with similar ids, whose displaynames are their ids. -/
def calledByIds : Heap := fun event =>
  if event = 0 then memberEventOf "@al1ce:a" "join" (some "@al1ce:a")
  else memberEventOf "@allce:a" "join" (some "@allce:a")

/-- Both are shown under their displaynames. -/
theorem calledByIds_shown : ∃ w,
    (World.system looksLike "!a" calledByIds).run [(0, .setStateEvents [0, 1])] = some (.ok w) ∧
      ∃ s ∈ w.states, ShownPlainly w.heap s "@al1ce:a" "@al1ce:a" ∧
        ShownPlainly w.heap s "@allce:a" "@allce:a" := by
  have hrun : (((World.system looksLike "!a" calledByIds).run [(0, .setStateEvents [0, 1])]).any
      fun w => match w with
        | .ok w => w.states.any fun s => ShownPlainly w.heap s "@al1ce:a" "@al1ce:a" ∧
            ShownPlainly w.heap s "@allce:a" "@allce:a"
        | .error _ => false) = true := by
    decide +kernel
  obtain ⟨w, hw, hshown⟩ := (Option.any_eq_true _ _).1 hrun
  cases w with
  | error e => exact nomatch hshown
  | ok w =>
    obtain ⟨s, hs, hshown⟩ := List.any_eq_true.1 hshown
    exact ⟨w, hw, s, hs, of_decide_eq_true hshown⟩

/-- Displaynames that are user ids are shown as they are, however similar. -/
theorem noImpersonation_fails : ¬ ∀ (u : Unicode) (roomId : String) (heap : Heap)
    (ops : List (Except String World × (ℕ × Operation))) (w : World), heap.Forward →
    (World.system u roomId heap).Trace ops (.ok w) →
      System.Meets (fun _ op => LoadsStateEvents heap op.2) ops → ∀ s ∈ w.states,
        ∀ userId other displayname name, userId ≠ other →
          u.removeHiddenChars displayname = u.removeHiddenChars name →
            ¬ (ShownPlainly w.heap s userId displayname ∧ ShownPlainly w.heap s other name) := by
  intro h
  obtain ⟨w, hrun, s, hs, hshown⟩ := calledByIds_shown
  have hforward : calledByIds.Forward := by
    intro event _
    rw [calledByIds]
    split
    · rfl
    · rfl
  refine h looksLike "!a" calledByIds _ w hforward (System.trace_of_run hrun) ?_ s hs "@al1ce:a"
    "@allce:a" _ _ (by decide +kernel) (by decide +kernel) hshown
  intro step hstep
  have hop := System.event_mem_of_mem_stepsFrom hstep
  rw [List.mem_singleton.1 hop]
  trivial

end MatrixSdk.Members
