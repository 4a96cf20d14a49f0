/-
The timelines an accumulator has.

What is stored of a room that is joined comes from the join blocks since it appeared, whatever came in
between ([`joinRooms_eq`]). Its timeline is made of batches that begin with a token, and it is cut where
a batch begins ([`TimelineKept`]).
-/
import Mathlib.Data.List.Induction
import MatrixSdk.Lib.Batches
import MatrixSdk.Sync.AccumulatedRooms

set_option autoImplicit false

namespace MatrixSdk.Sync

open MatrixSdk.Lib SyncAccumulator

variable {J : Type} {maxTimelineEntries : ℕ} {tr : List (SyncAccumulator J × SyncResponse J)}
  {batch : Timeline J} {blocks : List (JoinData J)}

/-! ## The join blocks of a room -/

/-- What a response has for a room under `join`. -/
def joinBlockOf (syncResponse : SyncResponse J) (roomId : String) : Option (JoinData J) :=
  (syncResponse.rooms.bind Rooms.join).bind fun join => join.get roomId

/-- The join blocks that have been received for a room since it appeared. -/
def joinBlocks (tr : List (SyncAccumulator J × SyncResponse J)) (roomId : String) :
    List (JoinData J) :=
  tr.foldl (fun blocks (acc, syncResponse) =>
    match joinBlockOf syncResponse roomId with
    | none => blocks
    | some data => if (acc.joinRooms.get roomId).isSome then blocks ++ [data] else [data]) []

theorem joinBlocks_snoc (tr : List (SyncAccumulator J × SyncResponse J)) (acc : SyncAccumulator J)
    (syncResponse : SyncResponse J) (roomId : String) :
    joinBlocks (tr ++ [(acc, syncResponse)]) roomId =
      match joinBlockOf syncResponse roomId with
      | none => joinBlocks tr roomId
      | some data =>
        if (acc.joinRooms.get roomId).isSome then joinBlocks tr roomId ++ [data] else [data] := by
  unfold joinBlocks
  rw [List.foldl_append]
  rfl

section Response

variable {acc acc' : SyncAccumulator J} {roomId : String}

theorem foldlM_max {blocks : List (String × Block J)} {acc : SyncAccumulator J}
    (h : blocks.foldlM (fun acc (roomId, block) => acc.accumulateRoom roomId block) acc =
      some acc') : acc'.maxTimelineEntries = acc.maxTimelineEntries := by
  induction blocks generalizing acc with
  | nil => rw [← Option.some.inj h]
  | cons block blocks ih =>
    rw [List.foldlM_cons] at h
    obtain ⟨acc₁, hblock, hrest⟩ := Option.bind_eq_some_iff.1 h
    rw [ih hrest, (accumulateRoom_others hblock).1]

/-- Invitations leave the joined rooms alone. -/
theorem foldlM_invites {invites : List (String × InviteData J)} {acc : SyncAccumulator J}
    (h : (invites.map fun (roomId, data) => (roomId, Block.invite data)).foldlM
      (fun acc (roomId, block) => acc.accumulateRoom roomId block) acc = some acc') :
    acc'.joinRooms = acc.joinRooms := by
  induction invites generalizing acc with
  | nil => rw [← Option.some.inj h]
  | cons invite invites ih =>
    rw [List.map_cons, List.foldlM_cons] at h
    obtain ⟨acc₁, hblock, hrest⟩ := Option.bind_eq_some_iff.1 h
    rw [ih hrest]
    exact joinRooms_invite hblock

/-- A room that is left is gone, or not touched. -/
theorem foldlM_leaves {leaves : List (String × Unit)} {acc : SyncAccumulator J}
    (h : (leaves.map fun (roomId, _) => (roomId, (Block.leave : Block J))).foldlM
      (fun acc (roomId, block) => acc.accumulateRoom roomId block) acc = some acc') {room : RoomData J}
    (hroom : acc'.joinRooms.get roomId = some room) : acc.joinRooms.get roomId = some room := by
  induction leaves generalizing acc with
  | nil =>
    obtain rfl : acc = acc' := Option.some.inj h
    exact hroom
  | cons left leaves ih =>
    rw [List.map_cons, List.foldlM_cons] at h
    obtain ⟨acc₁, hblock, hrest⟩ := Option.bind_eq_some_iff.1 h
    have hroom := ih hrest
    simp only [accumulateRoom] at hblock
    split at hblock
    · obtain rfl := Option.some.inj hblock
      by_cases hne : roomId = left.1
      · subst hne
        rw [JsObject.get_delete_self] at hroom
        cases hroom
      · rw [JsObject.get_delete_ne hne] at hroom
        exact hroom
    · obtain rfl := Option.some.inj hblock
      exact hroom

/-- **The rooms of a response that are joined**, each once. -/
theorem foldlM_joins {joins : List (String × JoinData J)} {acc : SyncAccumulator J}
    (hnodup : (joins.map Prod.fst).Nodup)
    (h : (joins.map fun (roomId, data) => (roomId, Block.join data)).foldlM
      (fun acc (roomId, block) => acc.accumulateRoom roomId block) acc = some acc') :
    (∀ data, (roomId, data) ∈ joins → acc'.joinRooms.get roomId =
        some (((acc.joinRooms.get roomId).getD .new).accumulateJoinState
          acc.maxTimelineEntries data)) ∧
      (roomId ∉ joins.map Prod.fst → acc'.joinRooms.get roomId = acc.joinRooms.get roomId) := by
  induction joins generalizing acc with
  | nil =>
    obtain rfl : acc = acc' := Option.some.inj h
    exact ⟨fun _ hmem => absurd hmem List.not_mem_nil, fun _ => rfl⟩
  | cons join joins ih =>
    obtain ⟨joined, data⟩ := join
    rw [List.map_cons, List.foldlM_cons] at h
    obtain ⟨acc₁, hblock, hrest⟩ := Option.bind_eq_some_iff.1 h
    rw [List.map_cons, List.nodup_cons] at hnodup
    obtain ⟨hmax, hothers⟩ := accumulateRoom_others hblock
    obtain ⟨hmem, hnot⟩ := ih hnodup.2 hrest
    refine ⟨fun data' hdata' => ?_, fun hroom => ?_⟩
    · rcases List.mem_cons.1 hdata' with heq | hrest'
      · obtain ⟨rfl, rfl⟩ := Prod.mk.inj heq
        rw [hnot hnodup.1]
        exact (joinRooms_join hblock).2
      · have hne : roomId ≠ joined := by
          rintro rfl
          exact hnodup.1 (List.mem_map.2 ⟨_, hrest', rfl⟩)
        rw [hmem data' hrest', (hothers roomId hne).2, hmax]
    · rw [List.map_cons, List.mem_cons, not_or] at hroom
      rw [hnot hroom.2, (hothers roomId hroom.1).2]

/-- **What a response makes of a joined room.** -/
theorem joinRooms_accumulate {syncResponse : SyncResponse J} {room : RoomData J}
    (h : acc.accumulate syncResponse = some acc')
    (hroom : acc'.joinRooms.get roomId = some room) :
    match joinBlockOf syncResponse roomId with
    | none => acc.joinRooms.get roomId = some room
    | some data => room =
        ((acc.joinRooms.get roomId).getD .new).accumulateJoinState acc.maxTimelineEntries data := by
  obtain ⟨acc₁, hblocks, -, -, hjoin⟩ := accumulate_blocks h
  rw [hjoin] at hroom
  unfold joinBlockOf
  unfold blocksOf at hblocks
  cases hrooms : syncResponse.rooms with
  | none =>
    rw [hrooms] at hblocks
    obtain rfl : acc = acc₁ := Option.some.inj hblocks
    exact hroom
  | some rooms =>
    rw [hrooms] at hblocks
    have hall : (blocks rooms).foldlM (fun acc (roomId, block) =>
      acc.accumulateRoom roomId block) acc = some acc₁ := hblocks
    unfold blocks at hall
    rw [List.foldlM_append] at hall
    obtain ⟨acc₃, hall, hleaves⟩ := Option.bind_eq_some_iff.1 hall
    rw [List.foldlM_append] at hall
    obtain ⟨acc₂, hinvites, hjoins⟩ := Option.bind_eq_some_iff.1 hall
    have hroom := foldlM_leaves hleaves hroom
    have hsame := foldlM_invites hinvites
    have hmax := foldlM_max hinvites
    obtain ⟨hmem, hnot⟩ : (∀ data, (roomId, data) ∈ _ → _) ∧ (roomId ∉ _ → _) :=
      foldlM_joins (JsObject.entries_nodup (rooms.join.getD .empty)) hjoins
    rw [hsame, hmax] at hmem
    rw [hsame] at hnot
    show match rooms.join.bind fun join => join.get roomId with
      | none => _
      | some data => _
    have hget : (rooms.join.bind fun join => join.get roomId) =
        (rooms.join.getD .empty).get roomId := by
      cases rooms.join <;> rfl
    rw [hget]
    cases hdata : (rooms.join.getD .empty).get roomId with
    | none =>
      have hkeys : roomId ∉ (rooms.join.getD .empty).entries.map Prod.fst := by
        rw [JsObject.map_fst_entries]
        exact JsObject.get_eq_none_iff.1 hdata
      exact (hnot hkeys).symm.trans hroom
    | some data =>
      have hmade := hmem data (JsObject.mem_entries.2 hdata)
      exact Option.some.inj (hroom.symm.trans hmade)

end Response

/-- **What is stored of a joined room** comes from its join blocks since it appeared. -/
theorem joinRooms_eq {acc : SyncAccumulator J}
    (h : (accumulatorSystem J maxTimelineEntries).Trace tr acc) (roomId : String) :
    acc.maxTimelineEntries = (if maxTimelineEntries = 0 then 50 else maxTimelineEntries) ∧
      ∀ room, acc.joinRooms.get roomId = some room →
        room = joinOf acc.maxTimelineEntries (joinBlocks tr roomId) := by
  induction h with
  | start => exact ⟨rfl, fun room hroom => nomatch hroom⟩
  | @snoc tr acc acc' syncResponse _ hstep ih =>
    have haccumulate : acc.accumulate syncResponse = some acc' := hstep
    obtain ⟨acc₁, hblocks, hmax₁, -, -⟩ := accumulate_blocks haccumulate
    have hmax : acc'.maxTimelineEntries = acc.maxTimelineEntries :=
      hmax₁.trans (foldlM_max hblocks)
    refine ⟨hmax.trans ih.1, fun room hroom => ?_⟩
    have hmade := joinRooms_accumulate haccumulate hroom
    rw [joinBlocks_snoc, hmax]
    cases hdata : joinBlockOf syncResponse roomId with
    | none =>
      rw [hdata] at hmade
      exact ih.2 room hmade
    | some data =>
      rw [hdata] at hmade
      have hmade' : room = ((acc.joinRooms.get roomId).getD .new).accumulateJoinState
        acc.maxTimelineEntries data := hmade
      cases hold : acc.joinRooms.get roomId with
      | none =>
        rw [hmade', hold]
        rfl
      | some old =>
        rw [hmade', hold, Option.getD_some, ih.2 old hold]
        exact (joinOf_append ..).symm

/-! ## Timelines -/

/-- The batches since the last limited one. -/
def batchesSinceLimited (blocks : List (JoinData J)) : List (Timeline J) :=
  blocks.foldl (fun batches data =>
    match data.timeline with
    | none => batches
    | some batch => if batch.limited then [batch] else batches ++ [batch]) []

/-- The batch is not longer than a timeline may be, and has a `prev_batch`. -/
def Fits (maxTimelineEntries : ℕ) (batch : Timeline J) : Prop :=
  batch.events.length ≤ maxTimelineEntries ∧ hasToken batch.prevBatch

/-- **What is stored of the batches.**
- It is not longer than it may be.
- It is of the last batches, whole ones, so a suffix of their events.
- It begins with the first event of a batch, and that one's `prev_batch`. -/
structure TimelineKept (maxTimelineEntries : ℕ) (batches : List (Timeline J))
    (timeline : List (TimelineEntry J)) : Prop where
  bounded : timeline.length ≤ maxTimelineEntries
  boundary : ∃ dropped kept, batches = dropped ++ kept ∧
    timeline = kept.flatMap RoomData.batchEntries
  suffix : timeline.map TimelineEntry.event <:+ batches.flatMap Timeline.events
  first : ∀ entry rest, timeline = entry :: rest → ∃ batch ∈ batches,
    batch.events.head? = some entry.event ∧ entry.token = batch.prevBatch ∧ hasToken entry.token

theorem batchEntries_cons {limited : Bool} {e : SyncEvent J} {events : List (SyncEvent J)}
    {prevBatch : Option String} :
    RoomData.batchEntries ⟨limited, e :: events, prevBatch⟩ =
      ⟨e, prevBatch⟩ :: events.map fun e => ⟨e, none⟩ := by
  have hrest : events.mapIdx (fun _ e => (⟨e, none⟩ : TimelineEntry J)) =
      events.map fun e => ⟨e, none⟩ := List.mapIdx_eq_iff.2 fun i => by simp
  unfold RoomData.batchEntries
  rw [List.mapIdx_cons]
  simp [hrest]

theorem map_event_batchEntries (batch : Timeline J) :
    (RoomData.batchEntries batch).map TimelineEntry.event = batch.events := by
  obtain ⟨limited, events, prevBatch⟩ := batch
  cases events with
  | nil => rfl
  | cons e events =>
    rw [batchEntries_cons, List.map_cons, List.map_map]
    show e :: events.map id = e :: events
    rw [List.map_id]

theorem length_batchEntries (batch : Timeline J) :
    (RoomData.batchEntries batch).length = batch.events.length := by
  unfold RoomData.batchEntries
  exact List.length_mapIdx ..

/-- A batch begins with its token. -/
theorem headed_batchEntries (h : hasToken batch.prevBatch) :
    Headed (fun entry : TimelineEntry J => hasToken entry.token) (RoomData.batchEntries batch) := by
  obtain ⟨limited, events, prevBatch⟩ := batch
  intro entry rest heq
  cases events with
  | nil => exact nomatch heq
  | cons e events =>
    rw [batchEntries_cons] at heq
    obtain ⟨rfl, rfl⟩ := List.cons.inj heq
    refine ⟨h, fun x hx => ?_⟩
    obtain ⟨e', -, rfl⟩ := List.mem_map.1 hx
    rfl

/-- Entries of batches that fit are made of batches that begin with a token. -/
theorem headed_of_fits {batches : List (Timeline J)}
    (hfits : ∀ batch ∈ batches, Fits maxTimelineEntries batch) :
    ∀ entries ∈ batches.map RoomData.batchEntries,
      Headed (fun entry : TimelineEntry J => hasToken entry.token) entries := by
  intro entries hentries
  obtain ⟨batch, hbatch, rfl⟩ := List.mem_map.1 hentries
  exact headed_batchEntries (hfits batch hbatch).2

/-- **Pruning** cuts where a batch begins, and enough. -/
theorem prune_batches {kept : List (Timeline J)}
    (hkept : (kept.flatMap RoomData.batchEntries).length ≤ maxTimelineEntries)
    (hfits : ∀ batch' ∈ kept ++ [batch], Fits maxTimelineEntries batch') :
    ∃ dropped kept', kept ++ [batch] = dropped ++ kept' ∧
      RoomData.prune maxTimelineEntries ((kept ++ [batch]).flatMap RoomData.batchEntries) =
        kept'.flatMap RoomData.batchEntries ∧
      (kept'.flatMap RoomData.batchEntries).length ≤ maxTimelineEntries := by
  generalize hall : (kept ++ [batch]).flatMap RoomData.batchEntries = timeline
  unfold RoomData.prune
  by_cases hlong : timeline.length > maxTimelineEntries
  · rw [if_pos hlong]
    obtain ⟨dropped, cut, hbatches, hcut⟩ :=
      cut_batches (headed_of_fits hfits) (timeline.length - maxTimelineEntries)
    -- the batches are cut as their entries are
    obtain ⟨dropped', kept', hsplit, rfl, rfl⟩ := List.map_eq_append_iff.1 hbatches
    have hflat : ((kept ++ [batch]).map RoomData.batchEntries).flatten = timeline := hall
    rw [hflat] at hcut
    have hsome : (timeline.drop (timeline.length - maxTimelineEntries)).dropWhile
        (fun msgData => !hasToken msgData.token) ≠ [] := by
      have hlast := hfits batch (List.mem_append_right kept (List.mem_singleton.2 rfl))
      have hparts : timeline = kept.flatMap RoomData.batchEntries ++ RoomData.batchEntries batch := by
        rw [← hall, List.flatMap_append, List.flatMap_singleton]
      have hlength := congrArg List.length hparts
      rw [List.length_append, length_batchEntries] at hlength
      have hentries : RoomData.batchEntries batch ≠ [] := by
        rw [← List.length_pos_iff, length_batchEntries]
        omega
      rw [hparts]
      refine cut_ne_nil hentries (headed_batchEntries hlast.2) ?_
      have := hlast.1
      rw [← hparts]
      omega
    refine ⟨dropped', kept', hsplit, ?_, ?_⟩
    · split
      next hnil => exact absurd hnil hsome
      next => exact hcut
    · have hbound := (List.dropWhile_suffix (l := timeline.drop (timeline.length - maxTimelineEntries))
        (fun msgData => !hasToken msgData.token)).length_le
      rw [hcut, List.length_drop] at hbound
      show (kept'.map RoomData.batchEntries).flatten.length ≤ _
      omega
  · rw [if_neg hlong]
    refine ⟨[], kept ++ [batch], rfl, hall.symm, ?_⟩
    rw [hall]
    omega

theorem batchesSinceLimited_append (blocks : List (JoinData J)) (data : JoinData J) :
    batchesSinceLimited (blocks ++ [data]) =
      match data.timeline with
      | none => batchesSinceLimited blocks
      | some batch =>
        if batch.limited then [batch] else batchesSinceLimited blocks ++ [batch] := by
  unfold batchesSinceLimited
  rw [List.foldl_append]
  rfl

theorem mem_batchesSinceLimited (h : batch ∈ batchesSinceLimited blocks) :
    ∃ data ∈ blocks, data.timeline = some batch := by
  induction blocks using List.reverseRecOn with
  | nil => exact absurd h List.not_mem_nil
  | append_singleton blocks data ih =>
    rw [batchesSinceLimited_append] at h
    have hold : batch ∈ batchesSinceLimited blocks →
        ∃ data' ∈ blocks ++ [data], data'.timeline = some batch := by
      intro hmem
      obtain ⟨data', hdata', hbatch⟩ := ih hmem
      exact ⟨data', List.mem_append_left _ hdata', hbatch⟩
    have hnew : data ∈ blocks ++ [data] := List.mem_append_right _ (List.mem_singleton.2 rfl)
    split at h
    next => exact hold h
    next batch' hbatch =>
      split at h
      · obtain rfl := List.mem_singleton.1 h
        exact ⟨data, hnew, hbatch⟩
      · rcases List.mem_append.1 h with hmem | hmem
        · exact hold hmem
        · obtain rfl := List.mem_singleton.1 hmem
          exact ⟨data, hnew, hbatch⟩

/-- **The stored timeline** is of the last batches, and not too long. -/
theorem timeline_joinOf
    (hfits : ∀ data ∈ blocks, ∀ batch, data.timeline = some batch → Fits maxTimelineEntries batch) :
    ∃ dropped kept, batchesSinceLimited blocks = dropped ++ kept ∧
      (joinOf maxTimelineEntries blocks).timeline = kept.flatMap RoomData.batchEntries ∧
      (joinOf maxTimelineEntries blocks).timeline.length ≤ maxTimelineEntries := by
  induction blocks using List.reverseRecOn with
  | nil => exact ⟨[], [], rfl, rfl, Nat.zero_le _⟩
  | append_singleton blocks data ih =>
    obtain ⟨dropped, kept, hbatches, htimeline, hlength⟩ :=
      ih fun data' hdata' => hfits data' (List.mem_append_left _ hdata')
    rw [joinOf_append, batchesSinceLimited_append]
    unfold RoomData.accumulateJoinState
    cases hdata : data.timeline with
    | none =>
      refine ⟨dropped, kept, hbatches, ?_⟩
      have hsame : RoomData.prune maxTimelineEntries
          (joinOf maxTimelineEntries blocks).timeline =
          (joinOf maxTimelineEntries blocks).timeline := by
        unfold RoomData.prune
        rw [if_neg (by omega)]
      simp only [Option.any_none, Bool.false_eq_true, if_false, Option.map_none,
        Option.getD_none, List.append_nil, hsame]
      exact ⟨htimeline, hlength⟩
    | some batch =>
      have hbatch : Fits maxTimelineEntries batch :=
        hfits data (List.mem_append_right _ (List.mem_singleton.2 rfl)) batch hdata
      simp only [Option.any_some, Option.map_some, Option.getD_some]
      by_cases hlimited : batch.limited = true
      · -- what came before is dropped
        simp only [hlimited, if_true, List.nil_append]
        have hfit : ∀ batch' ∈ [] ++ [batch], Fits maxTimelineEntries batch' := by
          intro batch' hmem
          rw [List.mem_singleton.1 hmem]
          exact hbatch
        obtain ⟨dropped', kept', hsplit, hprune, hbound⟩ :=
          prune_batches (Nat.zero_le _) hfit
        rw [List.nil_append, List.flatMap_singleton] at hprune
        rw [hprune]
        exact ⟨dropped', kept', hsplit, rfl, hbound⟩
      · simp only [hlimited, Bool.false_eq_true, if_false]
        have hfit : ∀ batch' ∈ kept ++ [batch], Fits maxTimelineEntries batch' := by
          intro batch' hmem
          rcases List.mem_append.1 hmem with hmem | hmem
          · have hold : batch' ∈ batchesSinceLimited blocks := by
              rw [hbatches]
              exact List.mem_append_right _ hmem
            obtain ⟨data', hdata', hof⟩ := mem_batchesSinceLimited hold
            exact hfits data' (List.mem_append_left _ hdata') batch' hof
          · rw [List.mem_singleton.1 hmem]
            exact hbatch
        rw [htimeline] at hlength ⊢
        obtain ⟨dropped', kept', hsplit, hprune, hbound⟩ := prune_batches hlength hfit
        rw [List.flatMap_append, List.flatMap_singleton] at hprune
        rw [hprune]
        refine ⟨dropped ++ dropped', kept', ?_, rfl, hbound⟩
        rw [hbatches, List.append_assoc, hsplit, List.append_assoc]

theorem timelineKept_joinOf
    (hfits : ∀ data ∈ blocks, ∀ batch, data.timeline = some batch → Fits maxTimelineEntries batch) :
    TimelineKept maxTimelineEntries (batchesSinceLimited blocks)
      (joinOf maxTimelineEntries blocks).timeline := by
  obtain ⟨dropped, kept, hbatches, htimeline, hlength⟩ := timeline_joinOf hfits
  refine ⟨hlength, ⟨dropped, kept, hbatches, htimeline⟩, ?_, fun entry rest heq => ?_⟩
  · rw [htimeline, hbatches, List.map_flatMap, List.flatMap_append]
    simp only [map_event_batchEntries]
    exact List.suffix_append _ _
  · -- the first batch that is not empty
    rw [htimeline] at heq
    have hmem : ∀ batch ∈ kept, batch ∈ batchesSinceLimited blocks := by
      rw [hbatches]
      exact fun batch hbatch => List.mem_append_right _ hbatch
    clear htimeline hbatches hlength
    induction kept with
    | nil => exact nomatch heq
    | cons batch kept ih =>
      have hbatch := hmem batch List.mem_cons_self
      obtain ⟨data, hdata, hof⟩ := mem_batchesSinceLimited hbatch
      have htoken := (hfits data hdata batch hof).2
      obtain ⟨limited, events, prevBatch⟩ := batch
      cases events with
      | nil =>
        rw [List.flatMap_cons] at heq
        exact ih heq fun batch' hbatch' => hmem batch' (List.mem_cons_of_mem _ hbatch')
      | cons e events =>
        rw [List.flatMap_cons, batchEntries_cons, List.cons_append] at heq
        obtain ⟨rfl, -⟩ := List.cons.inj heq
        exact ⟨_, hbatch, rfl, rfl, htoken⟩

/-! ## The timeline that is saved -/

/-- After the first token no event is dropped. -/
theorem timelineJson_foldl (timeline : List (TimelineEntry J)) :
    ∀ json : Timeline J, hasToken json.prevBatch →
      timeline.foldl (fun json msgData =>
        if hasToken json.prevBatch then { json with events := json.events ++ [msgData.event] }
        else if hasToken msgData.token then
          { json with prevBatch := msgData.token, events := json.events ++ [msgData.event] }
        else json) json =
      { json with events := json.events ++ timeline.map TimelineEntry.event } := by
  induction timeline with
  | nil =>
    intro json _
    rw [List.foldl_nil, List.map_nil, List.append_nil]
  | cons msgData timeline ih =>
    intro json htoken
    rw [List.foldl_cons, if_pos htoken,
      ih { json with events := json.events ++ [msgData.event] } htoken]
    simp

/-- **What is saved of a timeline** starts at its first token. -/
theorem timelineJson_eq (timeline : List (TimelineEntry J)) :
    timelineJson timeline =
      ⟨false, (timeline.dropWhile fun msgData => !hasToken msgData.token).map TimelineEntry.event,
        ((timeline.dropWhile fun msgData => !hasToken msgData.token).head?).bind
          TimelineEntry.token⟩ := by
  have hnone : hasToken none = false := rfl
  induction timeline with
  | nil => rfl
  | cons msgData timeline ih =>
    unfold timelineJson at ih ⊢
    rw [List.foldl_cons]
    simp only [hnone, Bool.false_eq_true, if_false]
    by_cases htoken : hasToken msgData.token = true
    · rw [if_pos htoken, timelineJson_foldl timeline _ htoken,
        List.dropWhile_cons_of_neg (by rw [htoken]; simp)]
      rfl
    · rw [if_neg htoken, List.dropWhile_cons_of_pos (by simpa using htoken)]
      exact ih

/-- What is saved of a joined room. -/
theorem getJSON_room {acc : SyncAccumulator J} {savedSync : SavedSync J} {roomId : String}
    {room : RoomData J} (h : acc.getJSON = some savedSync)
    (hroom : acc.joinRooms.get roomId = some room) :
    ∃ json, (savedSync.roomsData.join.getD .empty).get roomId = some json ∧
      roomJson roomId room = some json := by
  obtain ⟨join, hjoin, rfl⟩ := Option.map_eq_some_iff.1 h
  obtain ⟨hkeys, hget⟩ := JsObject.foldlM_set_entries (fun roomId roomData =>
    roomJson roomId roomData) hjoin
  have hmem : roomId ∈ join.keys := by
    rw [hkeys]
    exact JsObject.mem_keys_of_get hroom
  obtain ⟨json, hjson⟩ := JsObject.mem_keys_iff.1 hmem
  refine ⟨json, hjson, ?_⟩
  rw [hget, hroom] at hjson
  exact hjson

/-! ## All runs -/

theorem mem_joinBlocks {roomId : String} {data : JoinData J} (h : data ∈ joinBlocks tr roomId) :
    ∃ p ∈ tr, joinBlockOf p.2 roomId = some data := by
  induction tr using List.reverseRecOn with
  | nil => exact absurd h List.not_mem_nil
  | append_singleton tr p ih =>
    obtain ⟨acc, syncResponse⟩ := p
    rw [joinBlocks_snoc] at h
    have hold : data ∈ joinBlocks tr roomId →
        ∃ p ∈ tr ++ [(acc, syncResponse)], joinBlockOf p.2 roomId = some data := by
      intro hmem
      obtain ⟨p, hp, hof⟩ := ih hmem
      exact ⟨p, List.mem_append_left _ hp, hof⟩
    have hnew : (acc, syncResponse) ∈ tr ++ [(acc, syncResponse)] :=
      List.mem_append_right _ (List.mem_singleton.2 rfl)
    split at h
    next => exact hold h
    next data' hdata' =>
      split at h
      · rcases List.mem_append.1 h with hmem | hmem
        · exact hold hmem
        · exact ⟨_, hnew, by rw [List.mem_singleton.1 hmem]; exact hdata'⟩
      · exact ⟨_, hnew, by rw [List.mem_singleton.1 h]; exact hdata'⟩

/-- The batches of a response fit. -/
def BatchesFit (maxTimelineEntries : ℕ) (syncResponse : SyncResponse J) : Prop :=
  ∀ roomId data batch, joinBlockOf syncResponse roomId = some data →
    data.timeline = some batch → Fits maxTimelineEntries batch

/-- A message, told apart by its content. -/
def exampleMessage (body : String) : SyncEvent String :=
  ⟨"m.room.message", none, "@alice", body, none, ""⟩

/-- A response with a batch for one room. -/
def exampleBatch (bodies : List String) (prevBatch : String) : SyncResponse String :=
  exampleResponse "!room" (.join ⟨none, none, none, none, none,
    some ⟨false, bodies.map exampleMessage, some prevBatch⟩⟩)

theorem batchesFit_exampleBatch {bodies : List String} {prevBatch : String}
    (hlength : bodies.length ≤ maxTimelineEntries) (htoken : hasToken (some prevBatch)) :
    BatchesFit maxTimelineEntries (exampleBatch bodies prevBatch) := by
  intro roomId data batch hdata hbatch
  have hof : (JsObject.empty.set "!room" _).get roomId = some data := hdata
  rw [JsObject.get_set] at hof
  split at hof
  next =>
    obtain rfl := Option.some.inj hof
    obtain rfl := Option.some.inj hbatch
    exact ⟨by rw [List.length_map]; exact hlength, htoken⟩
  next => exact nomatch hof

end MatrixSdk.Sync
