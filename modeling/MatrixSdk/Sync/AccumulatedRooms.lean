/-
Which rooms an accumulator has, and of which of their blocks.

A room is what its last block says, and the accumulator should know it by the blocks it has received
since it has been that ([`RoomsKept`]). `_accumulateRoom` tells the categories apart by a table of what
it expects. [`Restores`] is what it expects of a block.
-/
import MatrixSdk.Sync.SyncAccumulator

set_option autoImplicit false

namespace MatrixSdk.Sync

open MatrixSdk.Lib SyncAccumulator JsObject

variable {J : Type}

/-! ## Memberships -/

/-- What a room is by its last block, and the blocks since it has been that. -/
inductive Membership (J : Type)
  | left
  | invited (blocks : List (InviteData J))
  | joined (blocks : List (JoinData J))

def Membership.isInvited : Membership J → Bool
  | .invited _ => true
  | _ => false

def Membership.isJoined : Membership J → Bool
  | .joined _ => true
  | _ => false

/-- A block is received. -/
def Membership.receive : Membership J → Block J → Membership J
  | .invited blocks, .invite data => .invited (blocks ++ [data])
  | _, .invite data => .invited [data]
  | .joined blocks, .join data => .joined (blocks ++ [data])
  | _, .join data => .joined [data]
  | _, .leave => .left

/-- The memberships after the blocks of a response. -/
def receiveBlocks (membership : String → Membership J) (blocks : List (String × Block J)) :
    String → Membership J :=
  blocks.foldl (fun membership (roomId, block) =>
    Function.update membership roomId ((membership roomId).receive block)) membership

/-- The blocks of a response. -/
def blocksOf (syncResponse : SyncResponse J) : List (String × Block J) :=
  syncResponse.rooms.elim [] blocks

/-- What the blocks of an invitation make of its state. -/
def inviteOf (blocks : List (InviteData J)) : Option (List (SyncEvent J)) :=
  blocks.foldl (fun inviteState data =>
    match inviteState, data.inviteState with
    | inviteState, none => inviteState
    | none, some events => some events
    | some current, some events => some (events.foldl accumulateInviteEvent current)) none

/-- What the blocks of a joined room make of it. -/
def joinOf (maxTimelineEntries : ℕ) (blocks : List (JoinData J)) : RoomData J :=
  blocks.foldl (RoomData.accumulateJoinState maxTimelineEntries) .new

theorem inviteOf_append (blocks : List (InviteData J)) (data : InviteData J) :
    inviteOf (blocks ++ [data]) =
      match inviteOf blocks, data.inviteState with
      | inviteState, none => inviteState
      | none, some events => some events
      | some current, some events => some (events.foldl accumulateInviteEvent current) := by
  unfold inviteOf
  rw [List.foldl_append]
  rfl

theorem inviteOf_singleton (data : InviteData J) : inviteOf [data] = data.inviteState := by
  show (match none, data.inviteState with
    | inviteState, none => inviteState
    | none, some events => some events
    | some current, some events => some (events.foldl accumulateInviteEvent current)) = _
  cases data.inviteState <;> rfl

theorem joinOf_append (maxTimelineEntries : ℕ) (blocks : List (JoinData J)) (data : JoinData J) :
    joinOf maxTimelineEntries (blocks ++ [data]) =
      (joinOf maxTimelineEntries blocks).accumulateJoinState maxTimelineEntries data := by
  unfold joinOf
  rw [List.foldl_append]
  rfl

/-- An accumulator, and what it has been told of the rooms. -/
structure SyncSession (J : Type) where
  acc : SyncAccumulator J
  membership : String → Membership J

def syncSessions (J : Type) (maxTimelineEntries : ℕ) :
    System (SyncSession J) (SyncResponse J) where
  init := ⟨.new maxTimelineEntries, fun _ => .left⟩
  step s syncResponse := (s.acc.accumulate syncResponse).map fun acc =>
    ⟨acc, receiveBlocks s.membership (blocksOf syncResponse)⟩

/-! ## What should be known of a room -/

/-- What is stored of a room comes from the blocks of its membership. -/
def StoredAs (acc : SyncAccumulator J) (roomId : String) : Membership J → Prop
  | .left => acc.inviteRooms.get roomId = none ∧ acc.joinRooms.get roomId = none
  | .invited blocks => (∃ inviteState, inviteOf blocks = some inviteState ∧
      acc.inviteRooms.get roomId = some inviteState) ∧ acc.joinRooms.get roomId = none
  | .joined blocks => acc.inviteRooms.get roomId = none ∧
      acc.joinRooms.get roomId = some (joinOf acc.maxTimelineEntries blocks)

/-- A saved sync has a room in the section of its last block, and in no other. -/
def InItsSection (savedSync : SavedSync J) (roomId : String) (membership : Membership J) : Prop :=
  (roomId ∈ (savedSync.roomsData.invite.getD .empty).keys ↔ membership.isInvited) ∧
    (roomId ∈ (savedSync.roomsData.join.getD .empty).keys ↔ membership.isJoined) ∧
    roomId ∉ (savedSync.roomsData.leave.getD .empty).keys

/-- **Rooms are known by their last block**, and by nothing from before it has been that. -/
structure RoomsKept (s : SyncSession J) : Prop where
  sections : ∀ savedSync, s.acc.getJSON = some savedSync →
    ∀ roomId, InItsSection savedSync roomId (s.membership roomId)
  stored : ∀ roomId, StoredAs s.acc roomId (s.membership roomId)

/-- **What is expected of a block.** An invitation begins with an invite state, and not to a room that
is joined. -/
def Restores (roomId : String) : Membership J → Block J → Prop
  | .left, .invite data => data.inviteState.isSome ∧ roomId ∉ JsObject.inheritedNames
  | .joined _, .invite _ => False
  | _, _ => True

/-- What is expected of the blocks of a response, one after the other. -/
def RestoresAll (membership : String → Membership J) : List (String × Block J) → Prop
  | [] => True
  | (roomId, block) :: blocks => Restores roomId (membership roomId) block ∧
      RestoresAll (Function.update membership roomId ((membership roomId).receive block)) blocks

instance (roomId : String) : (membership : Membership J) → (block : Block J) →
    Decidable (Restores roomId membership block)
  | .left, .invite _ => inferInstanceAs (Decidable (_ ∧ _))
  | .joined _, .invite _ => inferInstanceAs (Decidable False)
  | .invited _, .invite _ => inferInstanceAs (Decidable True)
  | .left, .join _ | .invited _, .join _ | .joined _, .join _ => inferInstanceAs (Decidable True)
  | .left, .leave | .invited _, .leave | .joined _, .leave => inferInstanceAs (Decidable True)

instance decidableRestoresAll : (membership : String → Membership J) →
    (blocks : List (String × Block J)) → Decidable (RestoresAll membership blocks)
  | _, [] => inferInstanceAs (Decidable True)
  | membership, (roomId, block) :: blocks =>
    have := decidableRestoresAll
      (Function.update membership roomId ((membership roomId).receive block)) blocks
    inferInstanceAs (Decidable (_ ∧ _))

/-- A response is about a room in one of its sections only. -/
def NamesOnce (syncResponse : SyncResponse J) : Prop :=
  ((blocksOf syncResponse).map Prod.fst).Nodup

/-! ## One block -/

section Block

variable {acc acc' : SyncAccumulator J} {roomId : String} {membership : Membership J}
  {block : Block J}

/-- A lookup that finds nothing, or an inherited value, where nothing is stored. -/
theorem lookup_of_get_none {V : Type} {o : JsObject String V} (h : o.get roomId = none) :
    o.lookup roomId = if roomId ∈ inheritedNames then .inherited else .missing := by
  unfold lookup
  rw [h]

theorem lookup_of_get_some {V : Type} {o : JsObject String V} {v : V} (h : o.get roomId = some v) :
    o.lookup roomId = .own v := by
  unfold lookup
  rw [h]

/-- An invitation that is accepted is not stored any more. -/
theorem deleteInvite_spec (acc : SyncAccumulator J) (roomId : String) :
    (acc.deleteInvite roomId).maxTimelineEntries = acc.maxTimelineEntries ∧
      (acc.deleteInvite roomId).joinRooms = acc.joinRooms ∧
      (acc.deleteInvite roomId).inviteRooms.get roomId = none ∧
      ∀ other, other ≠ roomId →
        (acc.deleteInvite roomId).inviteRooms.get other = acc.inviteRooms.get other := by
  unfold deleteInvite
  split
  next hmissing =>
    exact ⟨rfl, rfl, get_of_lookup_missing hmissing, fun _ _ => rfl⟩
  next => exact ⟨rfl, rfl, get_delete_self .., fun other hne => get_delete_ne hne⟩

/-- A block changes what is stored of its room only. -/
theorem accumulateRoom_others (h : acc.accumulateRoom roomId block = some acc') :
    acc'.maxTimelineEntries = acc.maxTimelineEntries ∧ ∀ other, other ≠ roomId →
      acc'.inviteRooms.get other = acc.inviteRooms.get other ∧
      acc'.joinRooms.get other = acc.joinRooms.get other := by
  cases block with
  | invite data =>
    simp only [accumulateRoom, accumulateInviteState] at h
    split at h
    next => exact Option.some.inj h ▸ ⟨rfl, fun _ _ => ⟨rfl, rfl⟩⟩
    next =>
      split at h
      next =>
        obtain rfl := Option.some.inj h
        exact ⟨rfl, fun other hne => ⟨JsObject.get_set_ne hne, rfl⟩⟩
      next =>
        split at h
        next => exact Option.some.inj h ▸ ⟨rfl, fun _ _ => ⟨rfl, rfl⟩⟩
        next => exact nomatch h
      next =>
        obtain rfl := Option.some.inj h
        exact ⟨rfl, fun other hne => ⟨JsObject.get_set_ne hne, rfl⟩⟩
  | join data =>
    simp only [accumulateRoom] at h
    obtain ⟨hmax, hjoin, -, hinvite⟩ := deleteInvite_spec acc roomId
    unfold SyncAccumulator.accumulateJoinState at h
    split at h
    next => exact nomatch h
    all_goals
      obtain rfl := Option.some.inj h
      exact ⟨hmax, fun other hne =>
        ⟨hinvite other hne, (get_set_ne hne).trans (by rw [hjoin])⟩⟩
  | leave =>
    simp only [accumulateRoom] at h
    split at h
    next =>
      obtain rfl := Option.some.inj h
      exact ⟨rfl, fun other hne => ⟨rfl, get_delete_ne hne⟩⟩
    next =>
      obtain rfl := Option.some.inj h
      exact ⟨rfl, fun other hne => ⟨JsObject.get_delete_ne hne, rfl⟩⟩

/-- What is stored of another room stays. -/
theorem StoredAs.others {other : String} {membership : Membership J}
    (hmax : acc'.maxTimelineEntries = acc.maxTimelineEntries)
    (hinvite : acc'.inviteRooms.get other = acc.inviteRooms.get other)
    (hjoin : acc'.joinRooms.get other = acc.joinRooms.get other) :
    StoredAs acc' other membership ↔ StoredAs acc other membership := by
  unfold StoredAs
  rw [hmax, hinvite, hjoin]

/-- An invite block leaves the joined rooms alone. -/
theorem joinRooms_invite {data : InviteData J}
    (h : acc.accumulateInviteState roomId data = some acc') : acc'.joinRooms = acc.joinRooms := by
  unfold accumulateInviteState at h
  split at h
  · rw [← Option.some.inj h]
  · split at h
    · rw [← Option.some.inj h]
    · split at h
      · rw [← Option.some.inj h]
      · exact nomatch h
    · rw [← Option.some.inj h]

/-- An invite block. -/
theorem storedAs_invite {data : InviteData J} (hstored : StoredAs acc roomId membership)
    (h : acc.accumulateInviteState roomId data = some acc') :
    StoredAs acc' roomId (membership.receive (.invite data)) ↔
      Restores roomId membership (.invite data) := by
  cases membership with
  | left =>
    unfold accumulateInviteState at h
    obtain ⟨hinvite, hjoin⟩ := hstored
    show (∃ inviteState, inviteOf [data] = some inviteState ∧ _) ∧ _ ↔ _ ∧ _
    rw [inviteOf_singleton]
    cases hdata : data.inviteState with
    | none => simp
    | some events =>
      rw [hdata, lookup_of_get_none hinvite] at h
      by_cases hinherited : roomId ∈ inheritedNames
      · -- nothing is stored
        simp only [if_pos hinherited] at h
        split at h
        next =>
          obtain rfl := Option.some.inj h
          simp [hinherited, hinvite]
        next => exact nomatch h
      · simp only [if_neg hinherited] at h
        obtain rfl := Option.some.inj h
        simp [hinherited, hjoin]
  | invited blocks =>
    unfold accumulateInviteState at h
    obtain ⟨⟨inviteState, hof, hinvite⟩, hjoin⟩ := hstored
    refine iff_of_true ?_ trivial
    show (∃ inviteState, inviteOf (blocks ++ [data]) = some inviteState ∧ _) ∧ _
    rw [inviteOf_append, hof]
    cases hdata : data.inviteState with
    | none =>
      rw [hdata] at h
      obtain rfl := Option.some.inj h
      exact ⟨⟨inviteState, rfl, hinvite⟩, hjoin⟩
    | some events =>
      simp only [hdata, lookup_of_get_some hinvite] at h
      obtain rfl := Option.some.inj h
      exact ⟨⟨_, rfl, get_set_self ..⟩, hjoin⟩
  | joined blocks =>
    refine iff_of_false (fun hinvited => ?_) id
    -- the room is still under those that are joined
    have hnone := hinvited.2
    rw [joinRooms_invite h, hstored.2] at hnone
    exact nomatch hnone

/-- A join block makes something of what there is of its room, which is no invitation any more. -/
theorem joinRooms_join {data : JoinData J}
    (h : acc.accumulateRoom roomId (.join data) = some acc') :
    acc'.inviteRooms.get roomId = none ∧
      acc'.joinRooms.get roomId = some (((acc.joinRooms.get roomId).getD .new).accumulateJoinState
        acc.maxTimelineEntries data) := by
  obtain ⟨hmax, hjoin, hinvite, -⟩ := deleteInvite_spec acc roomId
  simp only [accumulateRoom, SyncAccumulator.accumulateJoinState] at h
  split at h
  next => exact nomatch h
  next hmissing =>
    obtain rfl := Option.some.inj h
    rw [← hjoin, ← hmax, get_of_lookup_missing hmissing]
    exact ⟨hinvite, get_set_self ..⟩
  next currentData hown =>
    obtain rfl := Option.some.inj h
    rw [← hjoin, ← hmax, get_of_lookup_own hown]
    exact ⟨hinvite, get_set_self ..⟩

/-- A join block. -/
theorem storedAs_join {data : JoinData J} (hstored : StoredAs acc roomId membership)
    (h : acc.accumulateRoom roomId (.join data) = some acc') :
    StoredAs acc' roomId (membership.receive (.join data)) := by
  obtain ⟨hinvite, hjoin⟩ := joinRooms_join h
  have hblocks : ∀ blocks, (acc.joinRooms.get roomId).getD .new =
      joinOf acc.maxTimelineEntries blocks → StoredAs acc' roomId (.joined (blocks ++ [data])) := by
    intro blocks hof
    refine ⟨hinvite, ?_⟩
    rw [hjoin, hof, (accumulateRoom_others h).1, joinOf_append]
  cases membership with
  | left => exact hblocks [] (by rw [hstored.2]; rfl)
  | invited blocks => exact hblocks [] (by rw [hstored.2]; rfl)
  | joined blocks => exact hblocks blocks (by rw [hstored.2]; rfl)

/-- A leave block. -/
theorem storedAs_leave (hnamed : (acc.joinRooms.get roomId).isSome → roomId ∉ inheritedNames)
    (hstored : StoredAs acc roomId membership)
    (h : acc.accumulateRoom roomId .leave = some acc') : StoredAs acc' roomId .left := by
  simp only [accumulateRoom] at h
  cases membership with
  | invited blocks =>
    obtain ⟨⟨inviteState, -, hinvite⟩, hjoin⟩ := hstored
    simp only [lookup_of_get_some hinvite] at h
    obtain rfl := Option.some.inj h
    exact ⟨JsObject.get_delete_self .., hjoin⟩
  | left =>
    obtain ⟨hinvite, hjoin⟩ := hstored
    split at h
    next =>
      obtain rfl := Option.some.inj h
      exact ⟨hinvite, get_delete_self ..⟩
    next =>
      obtain rfl := Option.some.inj h
      exact ⟨JsObject.get_delete_self .., hjoin⟩
  | joined blocks =>
    obtain ⟨hinvite, hjoin⟩ := hstored
    have hname : roomId ∉ inheritedNames := hnamed (by rw [hjoin]; rfl)
    rw [lookup_of_get_none hinvite, if_neg hname] at h
    obtain rfl := Option.some.inj h
    exact ⟨hinvite, get_delete_self ..⟩

/-- **One block** is accumulated as it should be exactly if it is as expected. -/
theorem storedAs_receive
    (hnamed : (acc.joinRooms.get roomId).isSome → roomId ∉ inheritedNames)
    (hstored : StoredAs acc roomId membership)
    (h : acc.accumulateRoom roomId block = some acc') :
    StoredAs acc' roomId (membership.receive block) ↔ Restores roomId membership block := by
  cases block with
  | invite data => exact storedAs_invite hstored h
  | join data =>
    refine iff_of_true (storedAs_join hstored h) ?_
    cases membership <;> exact trivial
  | leave =>
    have hleft : membership.receive (.leave : Block J) = .left := by cases membership <;> rfl
    rw [hleft]
    refine iff_of_true (storedAs_leave hnamed hstored h) ?_
    cases membership <;> exact trivial

/-- No room is stored under an inherited name. -/
def RoomsNamed (acc : SyncAccumulator J) : Prop :=
  ∀ roomId, (acc.joinRooms.get roomId).isSome → roomId ∉ JsObject.inheritedNames

theorem RoomsNamed.accumulateRoom (hnamed : RoomsNamed acc)
    (h : acc.accumulateRoom roomId block = some acc') : RoomsNamed acc' := by
  intro other hother
  by_cases hne : other = roomId
  · subst hne
    by_cases hhad : (acc.joinRooms.get other).isSome
    · exact hnamed other hhad
    · -- the room is new, so nothing was found under its name
      rw [Option.not_isSome_iff_eq_none] at hhad
      intro hinherited
      have hsame : acc'.joinRooms.get other = none := by
        cases block with
        | invite data =>
          have hjoin : acc'.joinRooms = acc.joinRooms := joinRooms_invite h
          rw [hjoin, hhad]
        | join data =>
          simp only [SyncAccumulator.accumulateRoom, SyncAccumulator.accumulateJoinState] at h
          rw [(deleteInvite_spec acc other).2.1, lookup_of_get_none hhad, if_pos hinherited] at h
          exact nomatch h
        | leave =>
          simp only [SyncAccumulator.accumulateRoom] at h
          split at h
          · rw [← Option.some.inj h]
            exact get_delete_self ..
          · rw [← Option.some.inj h]
            exact hhad
      rw [hsame] at hother
      exact nomatch hother
  · rw [((accumulateRoom_others h).2 other hne).2] at hother
    exact hnamed other hother

end Block

/-! ## One response -/

section Response

variable {acc acc' : SyncAccumulator J} {membership : String → Membership J}
  {blocks : List (String × Block J)}

theorem receiveBlocks_cons (membership : String → Membership J) (roomId : String) (block : Block J)
    (blocks : List (String × Block J)) :
    receiveBlocks membership ((roomId, block) :: blocks) =
      receiveBlocks (Function.update membership roomId ((membership roomId).receive block)) blocks :=
  rfl

theorem receiveBlocks_of_not_mem {roomId : String} (hnot : roomId ∉ blocks.map Prod.fst) :
    receiveBlocks membership blocks roomId =
      membership roomId := by
  induction blocks generalizing membership with
  | nil => rfl
  | cons block blocks ih =>
    rw [List.map_cons, List.mem_cons, not_or] at hnot
    rw [receiveBlocks_cons, ih hnot.2, Function.update_of_ne hnot.1]

/-- The blocks of a response, accumulated one after the other. -/
theorem accumulate_blocks {syncResponse : SyncResponse J}
    (h : acc.accumulate syncResponse = some acc') :
    ∃ acc₁, (blocksOf syncResponse).foldlM (fun acc (roomId, block) =>
        acc.accumulateRoom roomId block) acc = some acc₁ ∧
      acc'.maxTimelineEntries = acc₁.maxTimelineEntries ∧ acc'.inviteRooms = acc₁.inviteRooms ∧
      acc'.joinRooms = acc₁.joinRooms := by
  obtain ⟨acc₁, hrooms, rfl⟩ := Option.map_eq_some_iff.1 h
  refine ⟨acc₁, ?_, rfl, rfl, rfl⟩
  unfold accumulateRooms at hrooms
  unfold blocksOf
  cases hof : syncResponse.rooms with
  | none =>
    rw [hof] at hrooms
    exact hrooms
  | some rooms =>
    rw [hof] at hrooms
    exact hrooms

/-- Blocks of other rooms leave what is stored of a room alone. -/
theorem foldlM_others {roomId : String} {acc : SyncAccumulator J}
    (h : blocks.foldlM (fun acc (roomId, block) => acc.accumulateRoom roomId block) acc = some acc')
    (hnot : roomId ∉ blocks.map Prod.fst) (membership : Membership J) :
    StoredAs acc' roomId membership ↔ StoredAs acc roomId membership := by
  induction blocks generalizing acc with
  | nil =>
    obtain rfl : acc = acc' := Option.some.inj h
    exact .rfl
  | cons block blocks ih =>
    rw [List.foldlM_cons] at h
    obtain ⟨acc₁, hblock, hrest⟩ := Option.bind_eq_some_iff.1 h
    rw [List.map_cons, List.mem_cons, not_or] at hnot
    obtain ⟨hmax, hothers⟩ := accumulateRoom_others hblock
    obtain ⟨hinvite, hjoin⟩ := hothers roomId hnot.1
    exact (ih hrest hnot.2).trans (StoredAs.others hmax hinvite hjoin)

/-- What is stored after a block of all rooms. -/
theorem storedAs_update {roomId : String} {block : Block J} (hnamed : RoomsNamed acc)
    (hstored : ∀ other, StoredAs acc other (membership other))
    (h : acc.accumulateRoom roomId block = some acc')
    (hrestores : Restores roomId (membership roomId) block) (other : String) :
    StoredAs acc' other
      (Function.update membership roomId ((membership roomId).receive block) other) := by
  by_cases hne : other = roomId
  · subst hne
    rw [Function.update_self]
    exact (storedAs_receive (hnamed other) (hstored other) h).2 hrestores
  · rw [Function.update_of_ne hne]
    obtain ⟨hmax, hothers⟩ := accumulateRoom_others h
    obtain ⟨hinvite, hjoin⟩ := hothers other hne
    exact (StoredAs.others hmax hinvite hjoin).2 (hstored other)

/-- **Blocks that are as expected**, one after the other. -/
theorem storedAs_foldlM (hnamed : RoomsNamed acc)
    (hstored : ∀ roomId, StoredAs acc roomId (membership roomId))
    (h : blocks.foldlM (fun acc (roomId, block) => acc.accumulateRoom roomId block) acc = some acc')
    (hall : RestoresAll membership blocks) (roomId : String) :
    StoredAs acc' roomId (receiveBlocks membership blocks roomId) := by
  induction blocks generalizing acc membership with
  | nil =>
    obtain rfl : acc = acc' := Option.some.inj h
    exact hstored roomId
  | cons block blocks ih =>
    rw [List.foldlM_cons] at h
    obtain ⟨acc₁, hblock, hrest⟩ := Option.bind_eq_some_iff.1 h
    exact ih (hnamed.accumulateRoom hblock) (storedAs_update hnamed hstored hblock hall.1) hrest
      hall.2

/-- Blocks of different rooms must be as expected. -/
theorem restoresAll_of_storedAs (hnamed : RoomsNamed acc)
    (hstored : ∀ roomId, StoredAs acc roomId (membership roomId))
    (hnodup : (blocks.map Prod.fst).Nodup)
    (h : blocks.foldlM (fun acc (roomId, block) => acc.accumulateRoom roomId block) acc = some acc')
    (hafter : ∀ roomId, StoredAs acc' roomId (receiveBlocks membership blocks roomId)) :
    RestoresAll membership blocks := by
  induction blocks generalizing acc membership with
  | nil => trivial
  | cons block blocks ih =>
    obtain ⟨roomId, block⟩ := block
    rw [List.map_cons, List.nodup_cons] at hnodup
    rw [List.foldlM_cons] at h
    obtain ⟨acc₁, hblock, hrest⟩ := Option.bind_eq_some_iff.1 h
    -- the room is not changed any more after its block
    have hroom := hafter roomId
    rw [receiveBlocks_cons, receiveBlocks_of_not_mem hnodup.1, foldlM_others hrest hnodup.1,
      Function.update_self] at hroom
    have hrestores := (storedAs_receive (hnamed roomId) (hstored roomId) hblock).1 hroom
    exact ⟨hrestores, ih (hnamed.accumulateRoom hblock)
      (storedAs_update hnamed hstored hblock hrestores) hnodup.2 hrest hafter⟩

theorem RoomsNamed.foldlM {acc : SyncAccumulator J} (hnamed : RoomsNamed acc)
    (h : blocks.foldlM (fun acc (roomId, block) => acc.accumulateRoom roomId block) acc =
      some acc') : RoomsNamed acc' := by
  induction blocks generalizing acc with
  | nil => exact Option.some.inj h ▸ hnamed
  | cons block blocks ih =>
    rw [List.foldlM_cons] at h
    obtain ⟨acc₁, hblock, hrest⟩ := Option.bind_eq_some_iff.1 h
    exact ih (hnamed.accumulateRoom hblock) hrest

/-- What is saved has the sections of what is stored. -/
theorem inItsSection_of_storedAs {savedSync : SavedSync J} {roomId : String}
    {membership : Membership J} (hstored : StoredAs acc roomId membership)
    (hjson : acc.getJSON = some savedSync) : InItsSection savedSync roomId membership := by
  obtain ⟨join, hjoin, rfl⟩ := Option.map_eq_some_iff.1 hjson
  obtain ⟨hkeys, -⟩ := foldlM_set_entries (fun roomId roomData =>
    roomJson roomId roomData) hjoin
  have hinvited : roomId ∈ acc.inviteRooms.keys ↔ membership.isInvited := by
    cases membership with
    | left => exact iff_of_false (get_eq_none_iff.1 hstored.1) Bool.false_ne_true
    | invited blocks =>
      obtain ⟨⟨inviteState, -, hget⟩, -⟩ := hstored
      exact iff_of_true (mem_keys_of_get hget) rfl
    | joined blocks => exact iff_of_false (get_eq_none_iff.1 hstored.1) Bool.false_ne_true
  have hjoined : roomId ∈ acc.joinRooms.keys ↔ membership.isJoined := by
    cases membership with
    | left => exact iff_of_false (get_eq_none_iff.1 hstored.2) Bool.false_ne_true
    | invited blocks => exact iff_of_false (get_eq_none_iff.1 hstored.2) Bool.false_ne_true
    | joined blocks => exact iff_of_true (mem_keys_of_get hstored.2) rfl
  refine ⟨hinvited, ?_, List.not_mem_nil⟩
  show roomId ∈ join.keys ↔ _
  rw [hkeys]
  exact hjoined

end Response

/-! ## All runs -/

section Runs

variable {maxTimelineEntries : ℕ} {s s' : SyncSession J} {syncResponse : SyncResponse J}

/-- What is expected of a response. -/
def Expected (s : SyncSession J) (syncResponse : SyncResponse J) : Prop :=
  RestoresAll s.membership (blocksOf syncResponse)

instance (s : SyncSession J) (syncResponse : SyncResponse J) :
    Decidable (Expected s syncResponse) :=
  inferInstanceAs (Decidable (RestoresAll _ _))

theorem roomsNamed_of_trace {tr : List (SyncSession J × SyncResponse J)}
    (h : (syncSessions J maxTimelineEntries).Trace tr s) : RoomsNamed s.acc := by
  have hinit : RoomsNamed (syncSessions J maxTimelineEntries).init.acc :=
    fun _ hsome => absurd hsome Bool.false_ne_true
  refine System.Reachable.invariant (P := fun s => RoomsNamed s.acc) hinit
    (fun s syncResponse s' hnamed hstep => ?_) ⟨tr, h⟩
  obtain ⟨acc', haccumulate, rfl⟩ := Option.map_eq_some_iff.1 hstep
  obtain ⟨acc₁, hblocks, -, -, hjoin⟩ := accumulate_blocks haccumulate
  intro roomId hroom
  rw [hjoin] at hroom
  exact hnamed.foldlM hblocks roomId hroom

theorem roomsKept_of_stored
    (hstored : ∀ roomId, StoredAs s.acc roomId (s.membership roomId)) : RoomsKept s :=
  ⟨fun _ hjson roomId => inItsSection_of_storedAs (hstored roomId) hjson, hstored⟩

/-- **One response** keeps the rooms if it is as expected, and only then if it is about each room
once. -/
theorem roomsKept_step (hnamed : RoomsNamed s.acc) (hkept : RoomsKept s)
    (hstep : (syncSessions J maxTimelineEntries).step s syncResponse = some s') :
    (Expected s syncResponse → RoomsKept s') ∧
      (NamesOnce syncResponse → RoomsKept s' → Expected s syncResponse) := by
  obtain ⟨acc', haccumulate, rfl⟩ := Option.map_eq_some_iff.1 hstep
  obtain ⟨acc₁, hblocks, hmax, hinvite, hjoin⟩ := accumulate_blocks haccumulate
  have hsame : ∀ roomId membership,
      StoredAs acc' roomId membership ↔ StoredAs acc₁ roomId membership :=
    fun roomId _ => StoredAs.others hmax (by rw [hinvite]) (by rw [hjoin])
  constructor
  · intro hexpected
    apply roomsKept_of_stored
    intro roomId
    exact (hsame _ _).2 (storedAs_foldlM hnamed hkept.stored hblocks hexpected roomId)
  · intro honce hkept'
    refine restoresAll_of_storedAs hnamed hkept.stored honce hblocks fun roomId => ?_
    exact (hsame _ _).1 (hkept'.stored roomId)

/-- **Rooms are known by their last block** after each response, if all responses are as expected; and
only then, unless a response is about a room in several of its sections. -/
theorem roomsKept_along {tr : List (SyncSession J × SyncResponse J)}
    (h : (syncSessions J maxTimelineEntries).Trace tr s) :
    (System.Meets Expected tr → System.HoldsAlong RoomsKept tr s) ∧
      ((∀ p ∈ tr, NamesOnce p.2) → System.HoldsAlong RoomsKept tr s →
        System.Meets Expected tr) := by
  induction h with
  | start =>
    refine ⟨fun _ => ⟨fun p hp => absurd hp List.not_mem_nil, ?_⟩,
      fun _ _ p hp => absurd hp List.not_mem_nil⟩
    apply roomsKept_of_stored
    intro roomId
    exact ⟨rfl, rfl⟩
  | @snoc tr s s' syncResponse htrace hstep ih =>
    have hnamed := roomsNamed_of_trace htrace
    constructor
    · intro hmeets
      obtain ⟨hmeets, hexpected⟩ := System.meets_snoc.1 hmeets
      have hkept := ih.1 hmeets
      exact System.holdsAlong_snoc.2
        ⟨hkept, (roomsKept_step hnamed hkept.2 hstep).1 hexpected⟩
    · intro honce hkept
      obtain ⟨hkept, hkept'⟩ := System.holdsAlong_snoc.1 hkept
      have honce' := honce (s, syncResponse) (List.mem_append_right tr (List.mem_singleton.2 rfl))
      refine System.meets_snoc.2 ⟨ih.2 (fun p hp => honce p (List.mem_append_left _ hp)) hkept, ?_⟩
      exact (roomsKept_step hnamed hkept.2 hstep).2 honce' hkept'

end Runs

/-- A response with one room in one of its sections. -/
def exampleResponse (roomId : String) : Block String → SyncResponse String
  | .invite data => ⟨none, some ⟨some (JsObject.empty.set roomId data), none, none⟩, none, none⟩
  | .join data => ⟨none, some ⟨none, some (JsObject.empty.set roomId data), none⟩, none, none⟩
  | .leave => ⟨none, some ⟨none, none, some (JsObject.empty.set roomId ())⟩, none, none⟩

/-- A block with nothing in it, but for an invite state. -/
def exampleInvite : Block String := .invite ⟨some []⟩

def exampleJoin : Block String := .join ⟨none, none, none, none, none, none⟩

/-- An invitation is accepted, the room left, and joined again. -/
theorem roomsKept_rejoined :
    ∃ tr s, (syncSessions String 10).Trace tr s ∧ System.HoldsAlong RoomsKept tr s := by
  have h : ((syncSessions String 10).run [exampleResponse "!room" exampleInvite,
    exampleResponse "!room" exampleJoin, exampleResponse "!room" .leave,
    exampleResponse "!room" exampleJoin]).isSome := by decide +kernel
  have hmeets : System.Meets Expected ((syncSessions String 10).steps [
      exampleResponse "!room" exampleInvite, exampleResponse "!room" exampleJoin,
      exampleResponse "!room" .leave, exampleResponse "!room" exampleJoin]) := by
    decide +kernel
  exact ⟨_, _, System.trace_get h, (roomsKept_along (System.trace_get h)).1 hmeets⟩

/-- The user is invited to a room that they have joined, and is shown in both sections. -/
theorem roomsKept_fails :
    ¬ ∀ tr s, (syncSessions String 10).Trace tr s → System.HoldsAlong RoomsKept tr s := by
  intro hclaim
  have h : ((syncSessions String 10).run [exampleResponse "!room" exampleJoin,
    exampleResponse "!room" exampleInvite]).isSome := by decide +kernel
  have hsaved : (((syncSessions String 10).run [exampleResponse "!room" exampleJoin,
    exampleResponse "!room" exampleInvite]).get h).acc.getJSON.isSome := by decide +kernel +revert
  obtain ⟨-, hjoin, -⟩ := (hclaim _ _ (System.trace_get h)).2.sections _
    (Option.some_get hsaved).symm "!room"
  have hinvited : ((((syncSessions String 10).run [exampleResponse "!room" exampleJoin,
    exampleResponse "!room" exampleInvite]).get h).membership "!room").isJoined = false := by
    decide +kernel +revert
  have hshown : "!room" ∈ (((((syncSessions String 10).run [exampleResponse "!room" exampleJoin,
    exampleResponse "!room" exampleInvite]).get h).acc.getJSON.get hsaved).roomsData.join.getD
      .empty).keys := by decide +kernel +revert
  rw [hinvited] at hjoin
  exact Bool.false_ne_true (hjoin.1 hshown)

end MatrixSdk.Sync
