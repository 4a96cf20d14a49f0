/-
Read receipts: `addReceipt`, `_addReceiptsToStructure` and `_buildReceiptCache` of
`src/models/room.js`.

A room has one receipt of a type for each user. One that is added replaces it unless
`compareEventOrdering` finds the event of the old one later, so that what is kept is the maximum
([`List.argmax`]) of what has been added, by the place in the chain of timelines ([`position`]).
The cache lists the same receipts by event and is made anew each time ([`CacheInverse`]).

The timelines a receipt is compared in are a parameter of adding it; they may change in between.
-/
import Mathlib.Data.List.MinMax
import MatrixSdk.Models.TimelineLinks

set_option autoImplicit false

namespace MatrixSdk.Models

open MatrixSdk.Lib Relation EventTimelineSet

/-! ## Receipts -/

section Definitions

/-- What `_receipts` has for a type and a user. -/
structure Receipt (EventId Data : Type) where
  eventId : EventId
  data : Data
  deriving DecidableEq

/-- What `_receiptCacheByEventId` lists for an event. -/
structure CachedReceipt (UserId Data : Type) where
  userId : UserId
  type : String
  data : Data
  deriving DecidableEq

/-- `{ $receipt_type: { $user_id: { eventId, data } } }`. -/
abbrev Receipts (UserId EventId Data : Type) :=
  JsObject String (JsObject UserId (Receipt EventId Data))

/-- The content of an `m.receipt` event: `{ $event_id: { $receipt_type: { $user_id: data } } }`. -/
abbrev ReceiptContent (UserId EventId Data : Type) :=
  JsObject EventId (JsObject String (JsObject UserId Data))

/-- What a `Room` keeps of receipts. -/
structure RoomReceipts (UserId EventId Data : Type) where
  receipts : Receipts UserId EventId Data
  realReceipts : Receipts UserId EventId Data
  receiptCacheByEventId : JsObject EventId (List (CachedReceipt UserId Data))

variable {UserId Event EventId Token Data : Type}

/-- `ordering !== null && ordering >= 0`. -/
def EventOrdering.notBefore : EventOrdering → Bool
  | .unknown => false
  | .number n => 0 ≤ n
  | .notANumber => false

variable [DecidableEq UserId] [DecidableEq EventId]

/-- `synthesizeReceipt`: the content of the event it makes. -/
def synthesizeReceipt (userId : UserId) (eventId : EventId) (receiptType : String) (data : Data) :
    ReceiptContent UserId EventId Data :=
  JsObject.empty.set eventId (JsObject.empty.set receiptType (JsObject.empty.set userId data))

/-- The body of the loops in `_addReceiptsToStructure`; nothing when comparing two events does not
end. -/
def addReceiptToStructure (getId : Event → EventId) (timelineSet : EventTimelineSet Event EventId Token)
    (fuel : ℕ) (receipts : Receipts UserId EventId Data) (eventId : EventId) (receiptType : String)
    (userId : UserId) (receipt : Data) : Option (Receipts UserId EventId Data) :=
  let ofType := (receipts.get receiptType).getD .empty
  let added := receipts.set receiptType (ofType.set userId ⟨eventId, receipt⟩)
  match ofType.get userId with
  | none => some added
  | some existingReceipt =>
    -- receipts are synthesized locally, so the server does not see to the order
    (timelineSet.compareEventOrdering getId fuel existingReceipt.eventId eventId).map fun ordering =>
      if ordering.notBefore then receipts else added

/-- `_addReceiptsToStructure`. -/
def addReceiptsToStructure (getId : Event → EventId)
    (timelineSet : EventTimelineSet Event EventId Token) (fuel : ℕ)
    (content : ReceiptContent UserId EventId Data) (receipts : Receipts UserId EventId Data) :
    Option (Receipts UserId EventId Data) :=
  content.entries.foldlM (fun receipts (eventId, byType) =>
    byType.entries.foldlM (fun receipts (receiptType, byUser) =>
      byUser.entries.foldlM (fun receipts (userId, receipt) =>
        addReceiptToStructure getId timelineSet fuel receipts eventId receiptType userId receipt)
        receipts) receipts) receipts

/-- `_buildReceiptCache`. -/
def buildReceiptCache (receipts : Receipts UserId EventId Data) :
    JsObject EventId (List (CachedReceipt UserId Data)) :=
  receipts.entries.foldl (fun cache (receiptType, byUser) =>
    byUser.entries.foldl (fun cache (userId, receipt) =>
      cache.push receipt.eventId ⟨userId, receiptType, receipt.data⟩) cache) .empty

namespace RoomReceipts

/-- Those of a new `Room`. -/
def new : RoomReceipts UserId EventId Data := ⟨.empty, .empty, .empty⟩

/-- `addReceipt`, without its event. -/
def addReceipt (getId : Event → EventId) (timelineSet : EventTimelineSet Event EventId Token)
    (fuel : ℕ) (content : ReceiptContent UserId EventId Data) (fake : Bool)
    (room : RoomReceipts UserId EventId Data) : Option (RoomReceipts UserId EventId Data) :=
  let realReceipts :=
    if fake then some room.realReceipts
    else addReceiptsToStructure getId timelineSet fuel content room.realReceipts
  realReceipts.bind fun realReceipts =>
    (addReceiptsToStructure getId timelineSet fuel content room.receipts).map fun receipts =>
      ⟨receipts, realReceipts, buildReceiptCache receipts⟩

/-- `getReceiptsForEvent`. -/
def getReceiptsForEvent (room : RoomReceipts UserId EventId Data) (eventId : EventId) :
    List (CachedReceipt UserId Data) :=
  (room.receiptCacheByEventId.get eventId).getD []

end RoomReceipts

/-- The receipt of a type and a user. -/
def Receipts.receipt (receipts : Receipts UserId EventId Data) (receiptType : String)
    (userId : UserId) : Option (Receipt EventId Data) :=
  (receipts.get receiptType).bind fun ofType => ofType.get userId

/-- `getEventReadUpTo`. -/
def RoomReceipts.getEventReadUpTo (room : RoomReceipts UserId EventId Data) (userId : UserId)
    (ignoreSynthesized : Bool) : Option EventId :=
  let receipts := if ignoreSynthesized then room.realReceipts else room.receipts
  (receipts.receipt "m.read" userId).map Receipt.eventId

end Definitions

/-! ## The order of events in a chain -/

section Order

variable {Event EventId Token : Type} [DecidableEq EventId] (getId : Event → EventId)
  {s : EventTimelineSet Event EventId Token}

/-- The ids of the events of a timeline. -/
def timelineIds (s : EventTimelineSet Event EventId Token) (t : ℕ) : List EventId :=
  (s.timeline t).events.map getId

/-- The place of an event in a chain of timelines: that in the timeline the index has for it, after
the events of the timelines before. -/
def position (s : EventTimelineSet Event EventId Token) (id : EventId) : List ℕ → ℕ
  | [] => 0
  | t :: chain =>
    if s.eventIdToTimeline.get id = some t then (timelineIds getId s t).idxOf id
    else (timelineIds getId s t).length + position s id chain

/-- The event is in the timeline that the index has for it, and this one is in the chain. -/
def InChain (s : EventTimelineSet Event EventId Token) (chain : List ℕ) (id : EventId) : Prop :=
  ∃ t ∈ chain, s.eventIdToTimeline.get id = some t ∧ id ∈ timelineIds getId s t

instance (chain : List ℕ) (id : EventId) : Decidable (InChain getId s chain id) :=
  inferInstanceAs (Decidable (∃ t ∈ chain, _ ∧ _))

variable {getId} {id1 id2 : EventId} {chain : List ℕ}

theorem eventIndices_swap (events : List Event) (idx : ℕ) (a b : Option ℕ) :
    eventIndices getId id2 id1 events idx (b, a) =
      (eventIndices getId id1 id2 events idx (a, b)).swap := by
  induction events generalizing idx a b with
  | nil => rfl
  | cons ev events ih =>
    simp only [eventIndices]
    rw [Bool.and_comm]
    split
    · rfl
    · exact ih ..

theorem eventIndices_found (events : List Event) (idx a b : ℕ) :
    eventIndices getId id1 id2 events idx (some a, some b) = (some a, some b) := by
  cases events with
  | nil => rfl
  | cons ev events => rfl

/-- Once one of the events has been found, the other one is found behind it. -/
theorem eventIndices_second (hne : id1 ≠ id2) {events : List Event} (h : id2 ∈ events.map getId)
    {idx a : ℕ} (ha : a < idx) :
    ∃ a' b, eventIndices getId id1 id2 events idx (some a, none) =
      (some a', some b) ∧ a' < b := by
  induction events generalizing idx a with
  | nil => exact absurd h List.not_mem_nil
  | cons ev events ih =>
    simp only [eventIndices]
    rw [if_neg (by simp)]
    by_cases h2 : getId ev = id2
    · rw [if_pos h2, if_neg fun h1 => hne (h1.symm.trans h2), eventIndices_found]
      exact ⟨a, idx, rfl, ha⟩
    · rw [if_neg h2]
      have hrest : id2 ∈ events.map getId := by
        rcases List.mem_cons.1 h with heq | hrest
        · exact absurd heq.symm h2
        · exact hrest
      by_cases h1 : getId ev = id1
      · rw [if_pos h1]
        exact ih hrest (Nat.lt_succ_self idx)
      · rw [if_neg h1]
        exact ih hrest (Nat.lt_succ_of_lt ha)

/-- **Two events of one timeline**: the loop finds both, in the order of their first places. -/
theorem eventIndices_order (hne : id1 ≠ id2) {events : List Event} (h1 : id1 ∈ events.map getId)
    (h2 : id2 ∈ events.map getId) (idx : ℕ) :
    ∃ a b, eventIndices getId id1 id2 events idx (none, none) =
      (some a, some b) ∧
      (b ≤ a ↔ (events.map getId).idxOf id2 ≤ (events.map getId).idxOf id1) := by
  induction events generalizing idx with
  | nil => exact absurd h1 List.not_mem_nil
  | cons ev events ih =>
    simp only [eventIndices]
    rw [if_neg (by simp)]
    rw [List.map_cons, List.mem_cons] at h1 h2
    by_cases hev1 : getId ev = id1
    · have hev2 : getId ev ≠ id2 := fun heq => hne (hev1.symm.trans heq)
      obtain ⟨a, b, hfound, hlt⟩ := eventIndices_second hne (h2.resolve_left hev2.symm)
        (Nat.lt_add_one idx)
      rw [if_pos hev1, if_neg hev2, List.map_cons, ← hev1, List.idxOf_cons_self,
        List.idxOf_cons_ne _ hev2, hev1]
      exact ⟨a, b, hfound, by omega⟩
    · by_cases hev2 : getId ev = id2
      · obtain ⟨b, a, hfound, hlt⟩ := eventIndices_second hne.symm
          (h1.resolve_left fun heq => hev1 heq.symm) (Nat.lt_add_one idx)
        rw [if_neg hev1, if_pos hev2, eventIndices_swap, hfound, List.map_cons, ← hev2,
          List.idxOf_cons_self, List.idxOf_cons_ne _ hev1]
        exact ⟨a, b, rfl, by omega⟩
      · obtain ⟨a, b, hfound, hiff⟩ := ih (h1.resolve_left fun heq => hev1 heq.symm)
          (h2.resolve_left fun heq => hev2 heq.symm) (idx + 1)
        rw [if_neg hev1, if_neg hev2, List.map_cons, List.idxOf_cons_ne _ hev1,
          List.idxOf_cons_ne _ hev2]
        exact ⟨a, b, hfound, by omega⟩

/-- The places of two events compare as their timelines do, or within their timeline. -/
theorem position_le_iff {t1 t2 : ℕ} (hs : Acyclic (Linked (s.link .forwards)))
    (hchain : List.Pairwise (TransGen (Linked (s.link .forwards))) chain) (ht1 : t1 ∈ chain)
    (ht2 : t2 ∈ chain) (hget1 : s.eventIdToTimeline.get id1 = some t1)
    (hget2 : s.eventIdToTimeline.get id2 = some t2) (hid1 : id1 ∈ timelineIds getId s t1)
    (hid2 : id2 ∈ timelineIds getId s t2) :
    position getId s id2 chain ≤ position getId s id1 chain ↔
      if t1 = t2 then (timelineIds getId s t1).idxOf id2 ≤ (timelineIds getId s t1).idxOf id1
      else TransGen (Linked (s.link .forwards)) t2 t1 := by
  induction chain with
  | nil => exact absurd ht1 List.not_mem_nil
  | cons t chain ih =>
    obtain ⟨hfirst, hrest⟩ := List.pairwise_cons.1 hchain
    have hlt1 := List.idxOf_lt_length_of_mem hid1
    have hlt2 := List.idxOf_lt_length_of_mem hid2
    rw [position, position, hget1, hget2]
    by_cases h1 : t1 = t
    · by_cases h2 : t2 = t
      · rw [h1, h2, if_pos rfl, if_pos rfl, if_pos rfl]
      · have hbefore := hfirst t2 ((List.mem_cons.1 ht2).resolve_left h2)
        have hback : ¬ TransGen (Linked (s.link .forwards)) t2 t := fun h => hs t (hbefore.trans h)
        rw [h1] at hlt1 ⊢
        rw [if_pos rfl, if_neg fun h => h2 (Option.some.inj h), if_neg fun h => h2 h.symm]
        exact iff_of_false (by omega) hback
    · have ht1' := (List.mem_cons.1 ht1).resolve_left h1
      rw [if_neg fun h => h1 (Option.some.inj h)]
      by_cases h2 : t2 = t
      · rw [h2] at hlt2 ⊢
        rw [if_pos rfl, if_neg h1]
        exact iff_of_true (by omega) (hfirst t1 ht1')
      · rw [if_neg fun h => h2 (Option.some.inj h),
          ← ih hrest ht1' ((List.mem_cons.1 ht2).resolve_left h2)]
        omega

/-- Different events of a chain are at different places. -/
theorem position_inj (h1 : InChain getId s chain id1) (h2 : InChain getId s chain id2)
    (heq : position getId s id1 chain = position getId s id2 chain) : id1 = id2 := by
  obtain ⟨t1, ht1, hget1, hid1⟩ := h1
  obtain ⟨t2, ht2, hget2, hid2⟩ := h2
  have hlt1 := List.idxOf_lt_length_of_mem hid1
  have hlt2 := List.idxOf_lt_length_of_mem hid2
  induction chain with
  | nil => exact absurd ht1 List.not_mem_nil
  | cons t chain ih =>
    rw [position, position, hget1, hget2] at heq
    by_cases h1 : t1 = t
    · rw [h1] at hid1 hlt1
      rw [if_pos (congrArg some h1)] at heq
      by_cases h2 : t2 = t
      · rw [if_pos (congrArg some h2)] at heq
        exact (List.idxOf_inj hid1).1 heq
      · rw [if_neg fun h => h2 (Option.some.inj h)] at heq
        omega
    · rw [if_neg fun h => h1 (Option.some.inj h)] at heq
      by_cases h2 : t2 = t
      · rw [h2] at hlt2
        rw [if_pos (congrArg some h2)] at heq
        omega
      · rw [if_neg fun h => h2 (Option.some.inj h)] at heq
        exact ih (by omega) ((List.mem_cons.1 ht1).resolve_left h1)
          ((List.mem_cons.1 ht2).resolve_left h2)

/-- **Comparing two events of a chain**: the answer goes by their places. -/
theorem compareEventOrdering_inChain (hs : Chained s)
    (hchain : List.IsChain (Linked (s.link .forwards)) chain) (h1 : InChain getId s chain id1)
    (h2 : InChain getId s chain id2) {fuel : ℕ} {ordering : EventOrdering}
    (hcompare : s.compareEventOrdering getId fuel id1 id2 = some ordering) :
    ordering.notBefore = true ↔ position getId s id2 chain ≤ position getId s id1 chain := by
  obtain ⟨t1, ht1, hget1, hid1⟩ := h1
  obtain ⟨t2, ht2, hget2, hid2⟩ := h2
  have hpairwise : List.Pairwise (TransGen (Linked (s.link .forwards))) chain :=
    (hchain.imp fun _ _ => TransGen.single).pairwise
  rw [position_le_iff (hs.acyclic .forwards) hpairwise ht1 ht2 hget1 hget2 hid1 hid2]
  unfold compareEventOrdering at hcompare
  by_cases hne : id1 = id2
  · rw [if_pos hne] at hcompare
    obtain rfl : t1 = t2 := Option.some.inj (hget1.symm.trans (hne ▸ hget2))
    rw [← Option.some.inj hcompare, if_pos rfl, hne]
    exact iff_of_true rfl le_rfl
  · rw [if_neg hne, hget1, hget2] at hcompare
    dsimp only at hcompare
    by_cases ht : t1 = t2
    · rw [if_pos ht] at hcompare ⊢
      rw [← ht] at hid2
      obtain ⟨a, b, hfound, hiff⟩ := eventIndices_order hne hid1 hid2 0
      rw [hfound] at hcompare
      rw [← Option.some.inj hcompare]
      refine Iff.trans ?_ hiff
      rw [EventOrdering.ofIndices, EventOrdering.notBefore, decide_eq_true_iff]
      omega
    · rw [if_neg ht] at hcompare ⊢
      -- the second timeline is behind the first one, or before it
      have hcases : TransGen (Linked (s.link .forwards)) t1 t2 ∨
          TransGen (Linked (s.link .forwards)) t2 t1 := by
        let R : ℕ → ℕ → Prop := fun a b => TransGen (Linked (s.link .forwards)) a b ∨
          TransGen (Linked (s.link .forwards)) b a
        have hsymm : Std.Symm R := ⟨fun _ _ h => h.symm⟩
        have hR : chain.Pairwise R := hpairwise.imp Or.inl
        exact hR.forall ht1 ht2 ht
      cases hforth : walk (s.link .forwards) t2 fuel (some t1) with
      | none =>
        rw [hforth] at hcompare
        exact nomatch hcompare
      | some found =>
        have hreach := walk_eq_some_iff hforth
        rw [hforth] at hcompare
        rcases hcases with hahead | hbehind
        · obtain rfl : found = true := hreach.2 hahead.to_reflTransGen
          rw [← Option.some.inj hcompare]
          refine iff_of_false (by decide) fun hback => ?_
          exact hs.acyclic .forwards t1 (hahead.trans hback)
        · have hnot : found = false := by
            rw [← Bool.not_eq_true, hreach]
            intro hahead
            exact hs.acyclic .forwards t2 (hbehind.trans_left hahead)
          rw [hnot] at hcompare
          cases hback : walk (s.link .backwards) t2 fuel (some t1) with
          | none =>
            rw [hback] at hcompare
            exact nomatch hcompare
          | some found' =>
            have hswap : Function.swap (Linked (s.link .forwards)) =
                Linked (s.link .backwards) :=
              funext₂ fun t t' => propext (hs.symmetric .forwards t' t)
            obtain rfl : found' = true := by
              rw [walk_eq_some_iff hback, ← hswap, reflTransGen_swap]
              exact hbehind.to_reflTransGen
            rw [hback] at hcompare
            rw [← Option.some.inj hcompare]
            exact iff_of_true (by decide) hbehind

variable (getId) in
/-- Enough fuel for comparing any two events. -/
theorem compareEventOrdering_ends (hs : Chained s) {n : ℕ}
    (hlink : ∀ d t t', s.link d t = some t' → t < n ∧ t' < n)
    (hindex : ∀ id t, s.eventIdToTimeline.get id = some t → t < n) :
    ∃ fuel, ∀ id1 id2, (s.compareEventOrdering getId fuel id1 id2).isSome := by
  obtain ⟨forth, hforth⟩ := walk_terminates_all (hs.acyclic .forwards) (hlink .forwards)
  obtain ⟨back, hback⟩ := walk_terminates_all (hs.acyclic .backwards) (hlink .backwards)
  refine ⟨max forth back, fun id1 id2 => ?_⟩
  unfold compareEventOrdering
  split
  · rfl
  · split
    next t1 t2 ht1 ht2 =>
      split
      · rfl
      · have hlt1 := hindex id1 t1 ht1
        have hlt2 := hindex id2 t2 ht2
        obtain ⟨found, hfound⟩ := Option.isSome_iff_exists.1 (hforth t1 t2 hlt1 hlt2)
        obtain ⟨found', hfound'⟩ := Option.isSome_iff_exists.1 (hback t1 t2 hlt1 hlt2)
        rw [walk_mono (Nat.le_max_left forth back) hfound,
          walk_mono (Nat.le_max_right forth back) hfound']
        cases found with
        | true => rfl
        | false =>
          cases found' with
          | true => rfl
          | false => rfl
    · rfl

end Order

/-! ## Adding receipts -/

section Adding

variable {UserId Event EventId Token Data : Type} [DecidableEq UserId] [DecidableEq EventId]
  {getId : Event → EventId} {s : EventTimelineSet Event EventId Token}
  {receipts : Receipts UserId EventId Data}

/-- The receipts in the content of an event, one by one in the order of the loops. -/
def ReceiptContent.receiptList (content : ReceiptContent UserId EventId Data) :
    List (EventId × String × UserId × Data) :=
  content.entries.flatMap fun (eventId, byType) => byType.entries.flatMap fun (receiptType, byUser) =>
    byUser.entries.map fun (userId, receipt) => (eventId, receiptType, userId, receipt)

/-- The events that the content has a receipt of a type and a user for. -/
def ReceiptContent.events (content : ReceiptContent UserId EventId Data) (receiptType : String)
    (userId : UserId) : List EventId :=
  (content.receiptList.filter fun r => r.2.1 = receiptType ∧ r.2.2.1 = userId).map Prod.fst

theorem addReceiptsToStructure_eq (fuel : ℕ) (content : ReceiptContent UserId EventId Data)
    (receipts : Receipts UserId EventId Data) :
    addReceiptsToStructure getId s fuel content receipts =
      content.receiptList.foldlM (fun receipts r =>
        addReceiptToStructure getId s fuel receipts r.1 r.2.1 r.2.2.1 r.2.2.2) receipts := by
  rw [ReceiptContent.receiptList, foldlM_flatMap]
  simp only [foldlM_flatMap, List.foldlM_map]
  rfl

omit [DecidableEq EventId] in
theorem Receipts.receipt_set (receipts : Receipts UserId EventId Data) (receiptType : String)
    (userId : UserId) (receipt : Receipt EventId Data) (receiptType' : String) (userId' : UserId) :
    Receipts.receipt (receipts.set receiptType
      (((receipts.get receiptType).getD .empty).set userId receipt)) receiptType' userId' =
      if receiptType' = receiptType ∧ userId' = userId then some receipt
      else receipts.receipt receiptType' userId' := by
  unfold Receipts.receipt
  rw [JsObject.get_set]
  by_cases htype : receiptType' = receiptType
  · rw [if_pos htype, Option.bind_some, JsObject.get_set, htype]
    by_cases huser : userId' = userId
    · rw [if_pos huser, if_pos ⟨rfl, huser⟩]
    · rw [if_neg huser, if_neg fun h => huser h.2]
      cases receipts.get receiptType with
      | none => rfl
      | some ofType => rfl
  · rw [if_neg htype, if_neg fun h => htype h.1]

/-- The event a user has the receipt of a type for. -/
def Receipts.eventOf (receipts : Receipts UserId EventId Data) (receiptType : String)
    (userId : UserId) : Option EventId :=
  (receipts.receipt receiptType userId).map Receipt.eventId

/-- **Adding a receipt**: nothing else changes, and the later of the two events is kept. -/
theorem addReceiptToStructure_eventOf {fuel : ℕ}
    (hends : ∀ id1 id2, (s.compareEventOrdering getId fuel id1 id2).isSome)
    (receipts : Receipts UserId EventId Data) (eventId : EventId) (receiptType : String)
    (userId : UserId) (receipt : Data) :
    ∃ receipts', addReceiptToStructure getId s fuel receipts eventId receiptType userId receipt =
        some receipts' ∧
      (∀ receiptType' userId', ¬ (receiptType' = receiptType ∧ userId' = userId) →
        receipts'.eventOf receiptType' userId' = receipts.eventOf receiptType' userId') ∧
      (receipts.eventOf receiptType userId = none →
        receipts'.eventOf receiptType userId = some eventId) ∧
      ∀ existing, receipts.eventOf receiptType userId = some existing →
        ∃ ordering, s.compareEventOrdering getId fuel existing eventId = some ordering ∧
          receipts'.eventOf receiptType userId =
            some (if ordering.notBefore then existing else eventId) := by
  have hget : ((receipts.get receiptType).getD .empty).get userId =
      receipts.receipt receiptType userId := by
    unfold Receipts.receipt
    cases receipts.get receiptType with
    | none => rfl
    | some ofType => rfl
  have hadded := fun receiptType' userId' => Receipts.receipt_set receipts receiptType userId
    ⟨eventId, receipt⟩ receiptType' userId'
  unfold addReceiptToStructure
  dsimp only
  rw [hget]
  cases hold : receipts.receipt receiptType userId with
  | none =>
    refine ⟨_, rfl, fun receiptType' userId' hne => ?_, fun _ => ?_, fun existing hexisting => ?_⟩
    · rw [Receipts.eventOf, hadded, if_neg hne, Receipts.eventOf]
    · rw [Receipts.eventOf, hadded, if_pos ⟨rfl, rfl⟩]
      rfl
    · rw [Receipts.eventOf, hold] at hexisting
      exact nomatch hexisting
  | some existingReceipt =>
    obtain ⟨ordering, hordering⟩ :=
      Option.isSome_iff_exists.1 (hends existingReceipt.eventId eventId)
    have hevent : receipts.eventOf receiptType userId = some existingReceipt.eventId := by
      rw [Receipts.eventOf, hold]
      rfl
    dsimp only
    rw [hordering, Option.map_some]
    refine ⟨_, rfl, fun receiptType' userId' hne => ?_, fun hnone => ?_, fun existing hexisting => ?_⟩
    · split
      · rfl
      · rw [Receipts.eventOf, hadded, if_neg hne, Receipts.eventOf]
    · exact nomatch hnone.symm.trans hevent
    · obtain rfl := Option.some.inj (hevent.symm.trans hexisting)
      refine ⟨ordering, hordering, ?_⟩
      split
      · exact hevent
      · rw [Receipts.eventOf, hadded, if_pos ⟨rfl, rfl⟩]
        rfl

/-- **Adding the receipts of an event**: of those of a type and a user, one of the latest is kept. -/
theorem addReceiptsToStructure_eventOf {fuel : ℕ} {chain : List ℕ} (hs : Chained s)
    (hchain : List.IsChain (Linked (s.link .forwards)) chain)
    (hends : ∀ id1 id2, (s.compareEventOrdering getId fuel id1 id2).isSome)
    (content : ReceiptContent UserId EventId Data) {receiptType : String} {userId : UserId}
    {seen : List EventId} (hseen : ∀ id ∈ seen, InChain getId s chain id)
    (hnew : ∀ id ∈ content.events receiptType userId, InChain getId s chain id)
    (hreceipts : receipts.eventOf receiptType userId =
      seen.argmax fun id => position getId s id chain) :
    ∃ receipts', addReceiptsToStructure getId s fuel content receipts = some receipts' ∧
      receipts'.eventOf receiptType userId =
        (seen ++ content.events receiptType userId).argmax fun id => position getId s id chain := by
  rw [addReceiptsToStructure_eq]
  unfold ReceiptContent.events at hnew ⊢
  generalize content.receiptList = l at hnew ⊢
  induction l generalizing receipts seen with
  | nil =>
    refine ⟨receipts, rfl, ?_⟩
    rw [List.filter_nil, List.map_nil, List.append_nil]
    exact hreceipts
  | cons r l ih =>
    obtain ⟨eventId, receiptType', userId', receipt⟩ := r
    rw [List.foldlM_cons]
    obtain ⟨receipts₁, hadd, hother, hfirst, hlater⟩ := addReceiptToStructure_eventOf
      hends receipts eventId receiptType' userId' receipt
    rw [hadd]
    by_cases hmine : receiptType' = receiptType ∧ userId' = userId
    · rw [List.filter_cons_of_pos (by simpa using hmine), List.map_cons] at hnew ⊢
      obtain ⟨rfl, rfl⟩ := hmine
      have hid : InChain getId s chain eventId := hnew eventId List.mem_cons_self
      have hseen' : ∀ id ∈ seen ++ [eventId], InChain getId s chain id := by
        intro id hmem
        rcases List.mem_append.1 hmem with hold | hlast
        · exact hseen id hold
        · rw [List.mem_singleton.1 hlast]
          exact hid
      rw [List.append_cons]
      refine ih hseen' ?_ fun id hmem => hnew id (List.mem_cons_of_mem _ hmem)
      rw [List.argmax_concat]
      cases hmax : seen.argmax fun id => position getId s id chain with
      | none => exact hfirst (hreceipts.trans hmax)
      | some existing =>
        obtain ⟨ordering, hordering, hkept⟩ := hlater existing (hreceipts.trans hmax)
        have hiff := compareEventOrdering_inChain hs hchain
          (hseen existing (List.argmax_mem hmax)) hid hordering
        rw [hkept]
        dsimp only
        by_cases hbefore : position getId s existing chain < position getId s eventId chain
        · rw [if_pos hbefore, if_neg fun h => absurd (hiff.1 h) (not_le.2 hbefore)]
        · rw [if_neg hbefore, if_pos (hiff.2 (not_lt.1 hbefore))]
    · rw [List.filter_cons_of_neg (by simpa using hmine)] at hnew ⊢
      refine ih hseen ?_ hnew
      rw [hother receiptType userId fun h => hmine ⟨h.1.symm, h.2.symm⟩]
      exact hreceipts

/-! ## The cache -/

/-- **The inverse.** The receipts listed for an event are those the users have for it now, each of
them once. -/
structure CacheInverse (room : RoomReceipts UserId EventId Data) : Prop where
  listed : ∀ eventId userId receiptType data,
    ⟨userId, receiptType, data⟩ ∈ room.getReceiptsForEvent eventId ↔
      room.receipts.receipt receiptType userId = some ⟨eventId, data⟩
  once : ∀ eventId,
    ((room.getReceiptsForEvent eventId).map fun r => (r.type, r.userId)).Nodup

/-- The receipts one by one, in the order of the loops. -/
def Receipts.receiptList (receipts : Receipts UserId EventId Data) :
    List (String × UserId × Receipt EventId Data) :=
  receipts.entries.flatMap fun (receiptType, byUser) =>
    byUser.entries.map fun (userId, receipt) => (receiptType, userId, receipt)

omit [DecidableEq UserId] [DecidableEq EventId] in
theorem Receipts.mem_receiptList {receiptType : String} {userId : UserId}
    {receipt : Receipt EventId Data} :
    (receiptType, userId, receipt) ∈ receipts.receiptList ↔
      receipts.receipt receiptType userId = some receipt := by
  simp only [Receipts.receiptList, Receipts.receipt, List.mem_flatMap, List.mem_map, Prod.exists,
    JsObject.mem_entries, Option.bind_eq_some_iff, Prod.mk.injEq]
  constructor
  · rintro ⟨_, ofType, htype, _, _, hget, rfl, rfl, rfl⟩
    exact ⟨ofType, htype, hget⟩
  · rintro ⟨ofType, htype, hget⟩
    exact ⟨receiptType, ofType, htype, userId, receipt, hget, rfl, rfl, rfl⟩

omit [DecidableEq UserId] [DecidableEq EventId] in
/-- There is one receipt of a type and a user. -/
theorem Receipts.receiptList_nodup (receipts : Receipts UserId EventId Data) :
    (receipts.receiptList.map fun r => (r.1, r.2.1)).Nodup := by
  rw [Receipts.receiptList, List.map_flatMap, List.nodup_flatMap]
  constructor
  · rintro ⟨receiptType, byUser⟩ -
    rw [List.map_map]
    refine List.Nodup.of_map Prod.snd ?_
    rw [List.map_map]
    exact byUser.entries_nodup
  · refine (List.pairwise_map.1 receipts.entries_nodup).imp ?_
    rintro ⟨receiptType, byUser⟩ ⟨receiptType', byUser'⟩ hne p hp hp'
    simp only [List.map_map, List.mem_map, Function.comp_apply] at hp hp'
    obtain ⟨r, -, rfl⟩ := hp
    obtain ⟨r', -, heq⟩ := hp'
    exact hne (Prod.mk.inj heq).1.symm

omit [DecidableEq UserId] in
theorem buildReceiptCache_eq (receipts : Receipts UserId EventId Data) :
    buildReceiptCache receipts = receipts.receiptList.foldl (fun cache r =>
      cache.push r.2.2.eventId ⟨r.2.1, r.1, r.2.2.data⟩) .empty := by
  rw [Receipts.receiptList, List.foldl_flatMap]
  simp only [List.foldl_map]
  rfl

omit [DecidableEq UserId] in
/-- **Building the cache** makes it the inverse. -/
theorem cacheInverse_build (receipts realReceipts : Receipts UserId EventId Data) :
    CacheInverse ⟨receipts, realReceipts, buildReceiptCache receipts⟩ := by
  have hlist : ∀ eventId, RoomReceipts.getReceiptsForEvent
      ⟨receipts, realReceipts, buildReceiptCache receipts⟩ eventId =
        (receipts.receiptList.filter fun r => r.2.2.eventId = eventId).map fun r =>
          ⟨r.2.1, r.1, r.2.2.data⟩ := by
    intro eventId
    rw [RoomReceipts.getReceiptsForEvent, buildReceiptCache_eq, JsObject.getD_foldl_push]
    rfl
  refine ⟨fun eventId userId receiptType data => ?_, fun eventId => ?_⟩
  · rw [hlist, ← Receipts.mem_receiptList, List.mem_map]
    constructor
    · rintro ⟨⟨receiptType, userId, ⟨eventId', data⟩⟩, hfiltered, heq⟩
      obtain ⟨hmem, hevent⟩ := List.mem_filter.1 hfiltered
      obtain ⟨rfl, rfl, rfl⟩ := CachedReceipt.mk.inj heq
      obtain rfl : eventId' = eventId := of_decide_eq_true hevent
      exact hmem
    · intro hmem
      exact ⟨_, List.mem_filter.2 ⟨hmem, decide_eq_true rfl⟩, rfl⟩
  · rw [hlist, List.map_map]
    exact receipts.receiptList_nodup.sublist (List.filter_sublist.map _)

end Adding

/-! ## Runs -/

section Runs

variable {UserId Event EventId Token Data : Type} [DecidableEq UserId] [DecidableEq EventId]
  (getId : Event → EventId)

/-- Receipts that are added: those of an `m.receipt` event, or synthesized ones (`fake`). -/
structure ReceiptsAdded (UserId EventId Data : Type) where
  content : ReceiptContent UserId EventId Data
  fake : Bool

/-- The receipts of a room over all that is added, with the timelines at that time and how far
their links are followed. -/
def receiptSystem : System (RoomReceipts UserId EventId Data)
    (EventTimelineSet Event EventId Token × ℕ × ReceiptsAdded UserId EventId Data) where
  init := .new
  step room e := room.addReceipt getId e.1 e.2.1 e.2.2.content e.2.2.fake

/-- The events that a user has been given read receipts for. -/
def eventsRead (added : List (ReceiptsAdded UserId EventId Data)) (userId : UserId) :
    List EventId :=
  added.flatMap fun a => a.content.events "m.read" userId

/-- Those that have not been synthesized. -/
def real (added : List (ReceiptsAdded UserId EventId Data)) :
    List (ReceiptsAdded UserId EventId Data) :=
  added.filter fun a => !a.fake

variable {getId} {s : EventTimelineSet Event EventId Token} {chain : List ℕ}

/-- One step: both structures get the receipts, that of the real ones if they are real. -/
theorem addReceipt_eventReadUpTo {fuel : ℕ} (hs : Chained s)
    (hchain : List.IsChain (Linked (s.link .forwards)) chain)
    (hends : ∀ id1 id2, (s.compareEventOrdering getId fuel id1 id2).isSome)
    {room : RoomReceipts UserId EventId Data} {userId : UserId}
    {seen : List (ReceiptsAdded UserId EventId Data)} (a : ReceiptsAdded UserId EventId Data)
    (hin : ∀ id ∈ eventsRead (seen ++ [a]) userId, InChain getId s chain id)
    (hall : room.getEventReadUpTo userId false =
      (eventsRead seen userId).argmax fun id => position getId s id chain)
    (hreal : room.getEventReadUpTo userId true =
      (eventsRead (real seen) userId).argmax fun id => position getId s id chain) :
    ∃ room', room.addReceipt getId s fuel a.content a.fake = some room' ∧
      room'.getEventReadUpTo userId false =
        (eventsRead (seen ++ [a]) userId).argmax (fun id => position getId s id chain) ∧
      room'.getEventReadUpTo userId true =
        (eventsRead (real (seen ++ [a])) userId).argmax fun id => position getId s id chain := by
  have hsnoc : eventsRead (seen ++ [a]) userId =
      eventsRead seen userId ++ a.content.events "m.read" userId := by
    rw [eventsRead, List.flatMap_append, List.flatMap_singleton]
    rfl
  rw [hsnoc] at hin ⊢
  have hseen : ∀ id ∈ eventsRead seen userId, InChain getId s chain id :=
    fun id hid => hin id (List.mem_append_left _ hid)
  have hnew : ∀ id ∈ a.content.events "m.read" userId, InChain getId s chain id :=
    fun id hid => hin id (List.mem_append_right _ hid)
  have hall' : room.receipts.eventOf "m.read" userId = _ := hall
  have hreal' : room.realReceipts.eventOf "m.read" userId = _ := hreal
  obtain ⟨receipts', hreceipts, hevent⟩ :=
    addReceiptsToStructure_eventOf hs hchain hends a.content hseen hnew hall'
  unfold RoomReceipts.addReceipt
  rw [hreceipts]
  cases hfake : a.fake with
  | true =>
    have hsame : real (seen ++ [a]) = real seen := by
      simp [real, hfake]
    rw [hsame]
    exact ⟨_, rfl, hevent, hreal⟩
  | false =>
    have hsnocReal : eventsRead (real (seen ++ [a])) userId =
        eventsRead (real seen) userId ++ a.content.events "m.read" userId := by
      simp [real, hfake, eventsRead]
    have hseenReal : ∀ id ∈ eventsRead (real seen) userId, InChain getId s chain id := by
      intro id hid
      obtain ⟨b, hb, hidb⟩ := List.mem_flatMap.1 hid
      exact hseen id (List.mem_flatMap.2 ⟨b, (List.mem_filter.1 hb).1, hidb⟩)
    obtain ⟨realReceipts', hrealReceipts, heventReal⟩ :=
      addReceiptsToStructure_eventOf hs hchain hends a.content hseenReal hnew hreal'
    rw [hsnocReal, hrealReceipts]
    exact ⟨_, rfl, hevent, heventReal⟩

/-- **A run**: both structures have one of the latest of what has been added to them. -/
theorem runFrom_eventReadUpTo {fuel : ℕ} (hs : Chained s)
    (hchain : List.IsChain (Linked (s.link .forwards)) chain)
    (hends : ∀ id1 id2, (s.compareEventOrdering getId fuel id1 id2).isSome) {userId : UserId}
    (added : List (ReceiptsAdded UserId EventId Data)) (room : RoomReceipts UserId EventId Data)
    (seen : List (ReceiptsAdded UserId EventId Data))
    (hin : ∀ id ∈ eventsRead (seen ++ added) userId, InChain getId s chain id)
    (hall : room.getEventReadUpTo userId false =
      (eventsRead seen userId).argmax fun id => position getId s id chain)
    (hreal : room.getEventReadUpTo userId true =
      (eventsRead (real seen) userId).argmax fun id => position getId s id chain) :
    ∃ room', (receiptSystem getId).runFrom room (added.map fun a => (s, fuel, a)) = some room' ∧
      room'.getEventReadUpTo userId false =
        (eventsRead (seen ++ added) userId).argmax (fun id => position getId s id chain) ∧
      room'.getEventReadUpTo userId true =
        (eventsRead (real (seen ++ added)) userId).argmax fun id => position getId s id chain := by
  induction added generalizing room seen with
  | nil =>
    rw [List.append_nil]
    exact ⟨room, rfl, hall, hreal⟩
  | cons a added ih =>
    rw [List.append_cons] at hin ⊢
    have hin' : ∀ id ∈ eventsRead (seen ++ [a]) userId, InChain getId s chain id := by
      intro id hid
      refine hin id ?_
      rw [eventsRead, List.flatMap_append]
      exact List.mem_append_left _ hid
    obtain ⟨room₁, hadd, hall₁, hreal₁⟩ :=
      addReceipt_eventReadUpTo hs hchain hends a hin' hall hreal
    obtain ⟨room', hrun, hall', hreal'⟩ := ih _ _ hin hall₁ hreal₁
    refine ⟨room', ?_, hall', hreal'⟩
    rw [List.map_cons, System.runFrom]
    exact Option.bind_eq_some_iff.2 ⟨room₁, hadd, hrun⟩

/-- The latest of some events of a chain. -/
def Latest (getId : Event → EventId) (s : EventTimelineSet Event EventId Token) (chain : List ℕ)
    (ids : List EventId) (id : EventId) : Prop :=
  id ∈ ids ∧ ∀ id' ∈ ids, position getId s id' chain ≤ position getId s id chain

instance (chain : List ℕ) (ids : List EventId) (id : EventId) :
    Decidable (Latest getId s chain ids id) :=
  inferInstanceAs (Decidable (_ ∧ ∀ id' ∈ ids, _))

theorem argmax_eq_some_iff_latest {ids : List EventId} (hin : ∀ id ∈ ids, InChain getId s chain id)
    {id : EventId} :
    (ids.argmax fun id => position getId s id chain) = some id ↔ Latest getId s chain ids id := by
  constructor
  · intro hmax
    exact ⟨List.argmax_mem hmax, fun id' hid' => List.le_of_mem_argmax hid' hmax⟩
  · rintro ⟨hid, hlatest⟩
    refine List.argmax_eq_some_iff.2 ⟨hid, hlatest, fun id' hid' hle => ?_⟩
    rw [position_inj (hin id hid) (hin id' hid') (le_antisymm hle (hlatest id' hid'))]

end Runs

/-! A user's receipts for events of two timelines, the last one of them synthesized. Events are their
own ids. -/

section Examples

def threeReceipts : List (ReceiptsAdded String ℕ Unit) :=
  [⟨synthesizeReceipt "u" 3 "m.read" (), false⟩, ⟨synthesizeReceipt "u" 4 "m.read" (), true⟩,
    ⟨synthesizeReceipt "u" 1 "m.read" (), false⟩]

end Examples

end MatrixSdk.Models
