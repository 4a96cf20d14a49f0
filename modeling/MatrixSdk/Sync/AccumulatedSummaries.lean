/-
The summary and the unread notifications of a room that an accumulator has.

A summary is merged field by field, and what comes out is what was sent last ([`summaries_kept`]);
but `||` takes a count of 0 for one that has not been sent, which goes on from there. Unread
notifications are not merged: "these probably clobber, spec is unclear".
-/
import MatrixSdk.Sync.AccumulatedTimelines

set_option autoImplicit false

namespace MatrixSdk.Sync

open MatrixSdk.Lib SyncAccumulator

variable {J : Type}

/-! ## What has been sent last -/

/-- The value of a field in the last block that has it. -/
def lastSent {α : Type} (field : JoinData J → Option α) (blocks : List (JoinData J)) : Option α :=
  (blocks.filterMap field).getLast?

theorem lastSent_snoc {α : Type} (field : JoinData J → Option α) (blocks : List (JoinData J))
    (data : JoinData J) :
    lastSent field (blocks ++ [data]) = (field data).or (lastSent field blocks) := by
  unfold lastSent
  rw [List.filterMap_append]
  cases hdata : field data with
  | none => simp [hdata]
  | some value => simp [hdata]

/-- A filter does not show if it lets the last value pass. -/
theorem lastSent_filter {α : Type} {field : JoinData J → Option α} {p : α → Bool}
    {blocks : List (JoinData J)}
    (h : ∀ value, lastSent field blocks = some value → p value = true) :
    lastSent (fun data => (field data).filter p) blocks = lastSent field blocks := by
  induction blocks using List.reverseRecOn with
  | nil => rfl
  | append_singleton blocks data ih =>
    rw [lastSent_snoc] at h ⊢
    rw [lastSent_snoc]
    cases hdata : field data with
    | none =>
      rw [hdata] at h
      rw [Option.filter_none, Option.none_or, Option.none_or]
      exact ih h
    | some value =>
      rw [hdata] at h
      rw [Option.filter_some, if_pos (h value rfl), Option.some_or, Option.some_or]

def sentHeroes (data : JoinData J) : Option (List String) := data.summary.bind Summary.heroes

def sentJoinedMemberCount (data : JoinData J) : Option ℕ :=
  data.summary.bind Summary.joinedMemberCount

def sentInvitedMemberCount (data : JoinData J) : Option ℕ :=
  data.summary.bind Summary.invitedMemberCount

/-- An unread count, or what else the server counts. -/
def sentUnread (key : String) (data : JoinData J) : Option J :=
  data.unreadNotifications.bind fun unread => unread.get key

/-- Each field has the value that was sent last. -/
structure LastWins (blocks : List (JoinData J)) (json : JoinData J) : Prop where
  heroes : sentHeroes json = lastSent sentHeroes blocks
  joinedMemberCount : sentJoinedMemberCount json = lastSent sentJoinedMemberCount blocks
  invitedMemberCount : sentInvitedMemberCount json = lastSent sentInvitedMemberCount blocks
  unreadNotifications : ∀ key, sentUnread key json = lastSent (sentUnread key) blocks

/-- **What comes out.** The heroes are those that were sent last, if only an empty list; so is a
count, if the last one is not 0; and the unread notifications are those that were sent last, as a
whole. -/
structure SummaryKept (blocks : List (JoinData J)) (json : JoinData J) : Prop where
  heroes : sentHeroes json = lastSent sentHeroes blocks
  joinedMemberCount : lastSent sentJoinedMemberCount blocks ≠ some 0 →
    sentJoinedMemberCount json = lastSent sentJoinedMemberCount blocks
  invitedMemberCount : lastSent sentInvitedMemberCount blocks ≠ some 0 →
    sentInvitedMemberCount json = lastSent sentInvitedMemberCount blocks
  unreadNotifications :
    json.unreadNotifications = some ((lastSent JoinData.unreadNotifications blocks).getD .empty)

/-! ## What the blocks make of a room -/

/-- A block writes what it has of a summary, and the counts that are not 0. -/
theorem summary_accumulateJoinState (maxTimelineEntries : ℕ) (room : RoomData J)
    (data : JoinData J) :
    (room.accumulateJoinState maxTimelineEntries data).summary =
      ⟨(sentHeroes data).or room.summary.heroes,
        ((sentJoinedMemberCount data).filter (· ≠ 0)).or room.summary.joinedMemberCount,
        ((sentInvitedMemberCount data).filter (· ≠ 0)).or room.summary.invitedMemberCount⟩ := by
  unfold RoomData.accumulateJoinState sentHeroes sentJoinedMemberCount sentInvitedMemberCount
  cases data.summary with
  | none => simp
  | some summary => rfl

/-- **The summary of a room.** -/
theorem summary_joinOf (maxTimelineEntries : ℕ) (blocks : List (JoinData J)) :
    (joinOf maxTimelineEntries blocks).summary =
      ⟨lastSent sentHeroes blocks,
        lastSent (fun data => (sentJoinedMemberCount data).filter (· ≠ 0)) blocks,
        lastSent (fun data => (sentInvitedMemberCount data).filter (· ≠ 0)) blocks⟩ := by
  induction blocks using List.reverseRecOn with
  | nil => rfl
  | append_singleton blocks data ih =>
    rw [joinOf_append, summary_accumulateJoinState, ih, lastSent_snoc, lastSent_snoc,
      lastSent_snoc]

/-- **The unread notifications of a room.** -/
theorem unreadNotifications_joinOf (maxTimelineEntries : ℕ) (blocks : List (JoinData J)) :
    (joinOf maxTimelineEntries blocks).unreadNotifications =
      (lastSent JoinData.unreadNotifications blocks).getD .empty := by
  induction blocks using List.reverseRecOn with
  | nil => rfl
  | append_singleton blocks data ih =>
    rw [joinOf_append, lastSent_snoc]
    show data.unreadNotifications.getD (joinOf maxTimelineEntries blocks).unreadNotifications = _
    rw [ih]
    cases data.unreadNotifications <;> rfl

/-- A count that was not 0 when it was sent last is what comes out. -/
theorem lastSent_nonzero {field : JoinData J → Option ℕ} {blocks : List (JoinData J)}
    (h : lastSent field blocks ≠ some 0) :
    lastSent (fun data => (field data).filter (· ≠ 0)) blocks = lastSent field blocks := by
  apply lastSent_filter
  intro count hcount
  refine decide_eq_true ?_
  rintro rfl
  exact h hcount

/-! ## All runs -/

/-- **Summaries are kept**, of all blocks since the room appeared. -/
theorem summaries_kept {maxTimelineEntries : ℕ} {tr : List (SyncAccumulator J × SyncResponse J)}
    {acc : SyncAccumulator J} (h : (accumulatorSystem J maxTimelineEntries).Trace tr acc)
    {savedSync : SavedSync J} (hsaved : acc.getJSON = some savedSync) {roomId : String}
    (hroom : (acc.joinRooms.get roomId).isSome) :
    ∃ json, (savedSync.roomsData.join.getD .empty).get roomId = some json ∧
      SummaryKept (joinBlocks tr roomId) json := by
  obtain ⟨room, hget⟩ := Option.isSome_iff_exists.1 hroom
  obtain ⟨json, hjson, hof⟩ := getJSON_room hsaved hget
  obtain ⟨content, -, rfl⟩ := Option.map_eq_some_iff.1 hof
  have hmade := (joinRooms_eq h roomId).2 room hget
  have hsummary := summary_joinOf acc.maxTimelineEntries (joinBlocks tr roomId)
  rw [← hmade] at hsummary
  refine ⟨_, hjson, ?_, fun hcount => ?_, fun hcount => ?_, ?_⟩
  · exact congrArg Summary.heroes hsummary
  · rw [← lastSent_nonzero hcount]
    exact congrArg Summary.joinedMemberCount hsummary
  · rw [← lastSent_nonzero hcount]
    exact congrArg Summary.invitedMemberCount hsummary
  · show some room.unreadNotifications = _
    rw [hmade, unreadNotifications_joinOf]

/-- A response about one room that is joined. -/
def exampleSummary (unread : Option (JsObject String String)) (summary : Option Summary) :
    SyncResponse String :=
  exampleResponse "!room" (.join ⟨none, unread, summary, none, none, none⟩)

/-- Heroes that are gone, and a count that is sent alone. -/
def emptiedSummary : List (SyncResponse String) :=
  [exampleSummary none (some ⟨some ["@bob"], some 2, none⟩),
    exampleSummary none (some ⟨some [], none, some 1⟩)]

/-- The empty list comes out, with both counts. -/
theorem summaries_kept_heroes :
    ∃ (tr : List (SyncAccumulator String × SyncResponse String)) (acc : SyncAccumulator String)
      (savedSync : SavedSync String),
      (accumulatorSystem String 3).Trace tr acc ∧ acc.getJSON = some savedSync ∧
        ∃ json, (savedSync.roomsData.join.getD .empty).get "!room" = some json ∧
          SummaryKept (joinBlocks tr "!room") json := by
  have h : ((accumulatorSystem String 3).run emptiedSummary).isSome := by decide +kernel
  have hsaved : (((accumulatorSystem String 3).run emptiedSummary).get h).getJSON.isSome := by
    decide +kernel +revert
  have hroom :
      ((((accumulatorSystem String 3).run emptiedSummary).get h).joinRooms.get "!room").isSome := by
    decide +kernel +revert
  exact ⟨_, _, _, System.trace_get h, (Option.some_get hsaved).symm,
    summaries_kept (System.trace_get h) (Option.some_get hsaved).symm hroom⟩

/-- The unread notifications that come last have no highlights, and the last count is 0. -/
def clobberedSummary : List (SyncResponse String) :=
  [exampleSummary (some (JsObject.empty.set "highlight_count" "2")) (some ⟨none, some 2, some 1⟩),
    exampleSummary (some (JsObject.empty.set "notification_count" "5"))
      (some ⟨none, none, some 0⟩)]

/-- The highlights are lost, and the count is the one from before. -/
theorem summaries_kept_fails :
    ∃ (tr : List (SyncAccumulator String × SyncResponse String)) (acc : SyncAccumulator String)
      (savedSync : SavedSync String) (json : JoinData String),
      (accumulatorSystem String 3).Trace tr acc ∧ acc.getJSON = some savedSync ∧
        (savedSync.roomsData.join.getD .empty).get "!room" = some json ∧
        ¬ LastWins (joinBlocks tr "!room") json ∧
        sentUnread "highlight_count" json ≠
          lastSent (sentUnread "highlight_count") (joinBlocks tr "!room") ∧
        sentInvitedMemberCount json ≠
          lastSent sentInvitedMemberCount (joinBlocks tr "!room") := by
  have h : ((accumulatorSystem String 3).run clobberedSummary).isSome := by decide +kernel
  have hsaved : (((accumulatorSystem String 3).run clobberedSummary).get h).getJSON.isSome := by
    decide +kernel +revert
  have hjson : (((((((accumulatorSystem String 3).run clobberedSummary).get h).getJSON).get
      hsaved).roomsData.join.getD .empty).get "!room").isSome := by decide +kernel +revert
  have hunread : sentUnread "highlight_count" (Option.get _ hjson) ≠
      lastSent (sentUnread "highlight_count")
        (joinBlocks ((accumulatorSystem String 3).steps clobberedSummary) "!room") := by
    decide +kernel +revert
  have hcount : sentInvitedMemberCount (Option.get _ hjson) ≠
      lastSent sentInvitedMemberCount
        (joinBlocks ((accumulatorSystem String 3).steps clobberedSummary) "!room") := by
    decide +kernel +revert
  exact ⟨_, _, _, _, System.trace_get h, (Option.some_get hsaved).symm,
    (Option.some_get hjson).symm, fun hwins => hunread (hwins.unreadNotifications _), hunread,
    hcount⟩

end MatrixSdk.Sync
