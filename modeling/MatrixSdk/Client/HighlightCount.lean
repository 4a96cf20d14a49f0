/-
The highlight count of an encrypted room: the handlers of "Event.decrypted" and "Room.receipt" in
`client.js`, `getPushActionsForEvent` and `hasUserReadEvent` of `models/room.js`.

When an event is decrypted one handler adds its highlight to the count; when the user has read
something the other counts anew. The first takes the difference to the push actions from before,
but `_decryptionLoop` has cleared these. So what an event is counted for before it is decrypted
stays in the count: [`highlightCount_iff`].
-/
import Mathlib.Algebra.Order.BigOperators.Group.List
import Mathlib.Algebra.Order.Ring.Int
import Mathlib.Algebra.Order.Group.Nat
import MatrixSdk.Models.Receipts

set_option autoImplicit false

namespace MatrixSdk.Client

open MatrixSdk.Lib MatrixSdk.Models

/-! ## The room -/

/-- What there is of an event: the encrypted one, one of type m.bad.encrypted, or its content. -/
inductive ClearForm
  | encrypted
  | badEncrypted
  | decrypted
  deriving DecidableEq

/-- What is read of push actions. -/
structure PushActions where
  /-- `tweaks.highlight`, if there are tweaks. -/
  highlight : Option Bool
  deriving DecidableEq

def PushActions.highlights (actions : PushActions) : Bool := actions.highlight.getD false

/-- The room with its client, while the timelines stay as they are. -/
structure HighlightContext (UserId Event EventId Token : Type) where
  getId : Event → EventId
  getSender : Event → Option UserId
  timelineSet : EventTimelineSet Event EventId Token
  /-- How far comparing two events goes. -/
  fuel : ℕ
  /-- `actionsForEvent`, of an event as it is at the time. -/
  actionsForEvent : EventId → ClearForm → PushActions
  /-- `this.getUserId()` -/
  userId : UserId

/-- What changes. -/
structure HighlightRoom (UserId EventId Data : Type) where
  clearForm : EventId → ClearForm
  pushActions : EventId → Option PushActions
  receipts : RoomReceipts UserId EventId Data
  highlight : ℤ
  total : ℤ

/-- An event is decrypted, or fails to be, or a receipt event is added, synthesized or not. -/
inductive HighlightStep (UserId EventId Data : Type)
  | decrypted (eventId : EventId) (success : Bool)
  | receipt (content : ReceiptContent UserId EventId Data) (fake : Bool)

variable {UserId Event EventId Token Data : Type} [DecidableEq UserId] [DecidableEq EventId]

namespace HighlightContext

variable (cx : HighlightContext UserId Event EventId Token)
  (r : HighlightRoom UserId EventId Data)

/-- `room.timeline`, the events of the live timeline. -/
def timeline : List Event := (cx.timelineSet.timeline cx.timelineSet.liveTimeline).events

/-- The loop of `hasUserReadEvent`, over the events from the last one. -/
def readBefore (readUpToId : Option EventId) (eventId : EventId) : List Event → Bool
  | [] => false
  | ev :: events =>
    if cx.getId ev = eventId then false
    else if some (cx.getId ev) = readUpToId then true
    else readBefore readUpToId eventId events

def hasUserReadEvent (eventId : EventId) : Bool :=
  let readUpToId := r.receipts.getEventReadUpTo cx.userId false
  if readUpToId = some eventId then true
  else if cx.timeline.getLast?.bind cx.getSender = some cx.userId then true
  else cx.readBefore readUpToId eventId cx.timeline.reverse

/-- The actions of an event now. -/
def actions (eventId : EventId) : PushActions :=
  cx.actionsForEvent eventId (r.clearForm eventId)

/-- `getPushActionsForEvent`, which caches them. -/
def getPushActionsForEvent (eventId : EventId) :
    PushActions × HighlightRoom UserId EventId Data :=
  match r.pushActions eventId with
  | some actions => (actions, r)
  | none => (cx.actions r eventId,
      { r with pushActions := Function.update r.pushActions eventId (cx.actions r eventId) })

/-- The handler of "Event.decrypted". -/
def onDecrypted (eventId : EventId) : HighlightRoom UserId EventId Data :=
  let oldActions := r.pushActions eventId
  let actions := cx.actions r eventId
  let r := { r with pushActions := Function.update r.pushActions eventId (some actions) }
  let oldHighlight := oldActions.elim false PushActions.highlights
  let newHighlight := actions.highlights
  if (oldHighlight ≠ newHighlight ∨ 0 < r.highlight) ∧ ¬ cx.hasUserReadEvent r eventId then
    let newCount :=
      if newHighlight ∧ ¬ oldHighlight then r.highlight + 1
      else if ¬ newHighlight ∧ oldHighlight then r.highlight - 1
      else r.highlight
    { r with highlight := newCount, total := max r.total newCount }
  else r

/-- `_decryptionLoop`, which clears the push actions before it emits "Event.decrypted". -/
def decrypt (eventId : EventId) (success : Bool) : HighlightRoom UserId EventId Data :=
  cx.onDecrypted { r with
    clearForm := Function.update r.clearForm eventId
      (if success then .decrypted else .badEncrypted)
    pushActions := Function.update r.pushActions eventId none } eventId

/-- The content has a receipt of the user. -/
def isSelf (content : ReceiptContent UserId EventId Data) : Bool :=
  content.entries.any fun (_, byType) =>
    (byType.get "m.read").any fun byUser => cx.userId ∈ byUser.keys

/-- The loop of the handler of "Room.receipt", over the events from the last one; `none` when the
limit is reached. -/
def countHighlights : ℕ → ℤ → HighlightRoom UserId EventId Data → List Event →
    Option ℤ × HighlightRoom UserId EventId Data
  | _, highlightCount, r, [] => (some highlightCount, r)
  | i, highlightCount, r, event :: events =>
    if i = 19 then (none, r)
    else if cx.hasUserReadEvent r (cx.getId event) then (some highlightCount, r)
    else
      let (pushActions, r) := cx.getPushActionsForEvent r (cx.getId event)
      countHighlights (i + 1) (highlightCount + if pushActions.highlights then 1 else 0) r events

/-- The handler of "Room.receipt", of an encrypted room. -/
def onReceipt (content : ReceiptContent UserId EventId Data) : HighlightRoom UserId EventId Data :=
  if ¬ cx.isSelf content then r
  else
    match cx.countHighlights 0 0 r cx.timeline.reverse with
    | (none, r) => r
    | (some highlightCount, r) => { r with highlight := highlightCount }

/-- All receipts of the content are m.read receipts. -/
def OnlyRead (content : ReceiptContent UserId EventId Data) : Prop :=
  ∀ entry ∈ content.entries, ∀ receiptType ∈ entry.2.keys, receiptType = "m.read"

instance (content : ReceiptContent UserId EventId Data) : Decidable (OnlyRead content) :=
  inferInstanceAs (Decidable (∀ _ ∈ _, _))

/-- An event of the timeline is decrypted until that has been a success; receipts are m.read
receipts. -/
def step : HighlightStep UserId EventId Data → Option (HighlightRoom UserId EventId Data)
  | .decrypted eventId success =>
    if eventId ∈ cx.timeline.map cx.getId ∧ r.clearForm eventId ≠ .decrypted then
      some (cx.decrypt r eventId success)
    else none
  | .receipt content fake =>
    if OnlyRead content then
      (r.receipts.addReceipt cx.getId cx.timelineSet cx.fuel content fake).map fun receipts =>
        cx.onReceipt { r with receipts := receipts } content
    else none

/-- The events are all encrypted and nothing is highlighted; for some the push actions have been
asked for. -/
def system (receipts : RoomReceipts UserId EventId Data) (asked : EventId → Bool) :
    System (HighlightRoom UserId EventId Data) (HighlightStep UserId EventId Data) where
  init :=
    { clearForm := fun _ => .encrypted
      pushActions := fun eventId =>
        if asked eventId then some (cx.actionsForEvent eventId .encrypted) else none
      receipts := receipts
      highlight := 0
      total := 0 }
  step := cx.step

/-! ## What the count should be -/

/-- The events after the read position. -/
def unread : List Event :=
  cx.timeline.filter fun ev => !cx.hasUserReadEvent r (cx.getId ev)

/-- How many of them highlight. -/
def unreadHighlights : ℤ :=
  (cx.unread r).countP fun ev => (cx.actions r (cx.getId ev)).highlights

/-- The step is a receipt event with one of the user. -/
def OwnReceipt : HighlightStep UserId EventId Data → Prop
  | .decrypted _ _ => False
  | .receipt content _ => cx.isSelf content = true

/-- The step is none at which the event is counted before it has been decrypted. -/
def NotEarly (p : HighlightRoom UserId EventId Data × HighlightStep UserId EventId Data)
    (eventId : EventId) : Prop :=
  match p.2 with
  | .decrypted id success => id = eventId → success = false →
      (cx.actionsForEvent eventId .badEncrypted).highlights = false
  | .receipt content _ => cx.isSelf content = true → p.1.clearForm eventId ≠ .decrypted →
      (cx.actions p.1 eventId).highlights = false

/-- **No event that is unread at the end is counted early**, from the last receipt of the user
on. -/
def NoneEarly (tr : List (HighlightRoom UserId EventId Data × HighlightStep UserId EventId Data))
    (s : HighlightRoom UserId EventId Data) : Prop :=
  ∀ tr₁ p tr₂, tr = tr₁ ++ p :: tr₂ → (∀ q ∈ tr₂, ¬ cx.OwnReceipt q.2) →
    ∀ ev ∈ cx.unread s, cx.NotEarly p (cx.getId ev)

/-! ## The read position -/

variable {cx} {r} {content : ReceiptContent UserId EventId Data}

theorem mem_unread {ev : Event} : ev ∈ cx.unread r ↔
    ev ∈ cx.timeline ∧ cx.hasUserReadEvent r (cx.getId ev) = false := by
  rw [unread, List.mem_filter, Bool.not_eq_true']

/-- Only the read position matters. -/
theorem hasUserReadEvent_congr {r' : HighlightRoom UserId EventId Data}
    (h : r'.receipts.getEventReadUpTo cx.userId false = r.receipts.getEventReadUpTo cx.userId false)
    (eventId : EventId) : cx.hasUserReadEvent r' eventId = cx.hasUserReadEvent r eventId := by
  rw [hasUserReadEvent, hasUserReadEvent, h]

theorem unread_congr {r' : HighlightRoom UserId EventId Data}
    (h : r'.receipts.getEventReadUpTo cx.userId false =
      r.receipts.getEventReadUpTo cx.userId false) : cx.unread r' = cx.unread r := by
  unfold unread
  simp only [hasUserReadEvent_congr h]

omit [DecidableEq UserId] in
theorem readBefore_of_sublist {readUpToId : Option EventId} {ev e : Event} {events : List Event}
    (hnodup : (events.map cx.getId).Nodup) (hsub : [ev, e].Sublist events)
    (hread : readUpToId = some (cx.getId ev) ∨
      cx.readBefore readUpToId (cx.getId ev) events = true) :
    cx.readBefore readUpToId (cx.getId e) events = true := by
  induction events with
  | nil => exact absurd hsub (fun hcontra => nomatch hcontra)
  | cons x events ih =>
    rw [List.map_cons, List.nodup_cons] at hnodup
    rcases List.sublist_cons_iff.1 hsub with hsub | ⟨rest, hrest, hsub⟩
    · have hev : cx.getId x ≠ cx.getId ev := fun hcontra =>
        hnodup.1 (hcontra ▸ List.mem_map_of_mem (hsub.subset List.mem_cons_self))
      have he : cx.getId x ≠ cx.getId e := fun hcontra => hnodup.1 (hcontra ▸
        List.mem_map_of_mem (hsub.subset (List.mem_cons_of_mem ev List.mem_cons_self)))
      rw [readBefore, if_neg he]
      split
      · rfl
      next hx =>
        refine ih hnodup.2 hsub ?_
        rcases hread with hread | hread
        · exact .inl hread
        · rw [readBefore, if_neg hev, if_neg hx] at hread
          exact .inr hread
    · obtain ⟨rfl, rfl⟩ := List.cons.inj hrest
      have he : cx.getId ev ≠ cx.getId e := fun hcontra =>
        hnodup.1 (hcontra ▸ List.mem_map_of_mem (hsub.subset List.mem_cons_self))
      rw [readBefore, if_neg he]
      rcases hread with hread | hread
      · rw [if_pos hread.symm]
      · rw [readBefore, if_pos rfl] at hread
        exact nomatch hread

/-- **What comes before an event that is read is read.** -/
theorem pairwise_hasUserReadEvent (hnodup : (cx.timeline.map cx.getId).Nodup) :
    cx.timeline.reverse.Pairwise fun ev e => cx.hasUserReadEvent r (cx.getId ev) = true →
      cx.hasUserReadEvent r (cx.getId e) = true := by
  rw [List.pairwise_iff_forall_sublist]
  intro ev e hsub hread
  have hnodup' : (cx.timeline.reverse.map cx.getId).Nodup := by
    rw [List.map_reverse, List.nodup_reverse]
    exact hnodup
  rw [hasUserReadEvent] at hread ⊢
  split
  · rfl
  next =>
    split
    · rfl
    next hlast =>
      refine readBefore_of_sublist hnodup' hsub ?_
      split at hread
      next hev => exact .inl hev
      next => exact .inr hread

/-! ## The count on a receipt -/

/-- What is cached are the actions of the event as it is. -/
def Cached (cx : HighlightContext UserId Event EventId Token)
    (r : HighlightRoom UserId EventId Data) : Prop :=
  ∀ eventId actions, r.pushActions eventId = some actions → actions = cx.actions r eventId

omit [DecidableEq UserId] in
theorem getPushActionsForEvent_eq (h : Cached cx r) (eventId : EventId) :
    ∃ pushActions, cx.getPushActionsForEvent r eventId =
        (cx.actions r eventId, { r with pushActions := pushActions }) ∧
      Cached cx { r with pushActions := pushActions } := by
  rw [getPushActionsForEvent]
  cases hcached : r.pushActions eventId with
  | some actions => exact ⟨r.pushActions, by rw [h eventId actions hcached], h⟩
  | none =>
    refine ⟨_, rfl, fun id actions hactions => ?_⟩
    change Function.update r.pushActions eventId (some (cx.actions r eventId)) id = _ at hactions
    by_cases hid : id = eventId
    · rw [hid, Function.update_self] at hactions
      rw [← Option.some.inj hactions, hid]
      rfl
    · rw [Function.update_of_ne hid] at hactions
      exact h id actions hactions

/-- **Counting anew** reaches the read position when at most 18 events are unread. -/
theorem countHighlights_eq (events : List Event) : ∀ (i : ℕ) (highlightCount : ℤ)
    (r : HighlightRoom UserId EventId Data), Cached cx r →
    (events.Pairwise fun ev e => cx.hasUserReadEvent r (cx.getId ev) = true →
      cx.hasUserReadEvent r (cx.getId e) = true) →
    i + (events.filter fun ev => !cx.hasUserReadEvent r (cx.getId ev)).length ≤ 18 →
    ∃ pushActions, cx.countHighlights i highlightCount r events =
        (some (highlightCount + (events.filter fun ev =>
          !cx.hasUserReadEvent r (cx.getId ev)).countP fun ev =>
            (cx.actions r (cx.getId ev)).highlights), { r with pushActions := pushActions }) ∧
      Cached cx { r with pushActions := pushActions } := by
  induction events with
  | nil =>
    intro i highlightCount r h _ _
    refine ⟨r.pushActions, ?_, h⟩
    rw [countHighlights, List.filter_nil, List.countP_nil, Nat.cast_zero, add_zero]
  | cons event events ih =>
    intro i highlightCount r h hpairwise hfew
    obtain ⟨hfirst, hrest⟩ := List.pairwise_cons.1 hpairwise
    rw [countHighlights]
    by_cases hread : cx.hasUserReadEvent r (cx.getId event) = true
    · -- the events before it are read as well
      have hnone : (event :: events).filter (fun ev =>
          !cx.hasUserReadEvent r (cx.getId ev)) = [] := by
        rw [List.filter_eq_nil_iff]
        intro ev hev
        rw [Bool.not_eq_true', Bool.not_eq_false]
        rcases List.mem_cons.1 hev with rfl | hev
        · exact hread
        · exact hfirst ev hev hread
      rw [hnone, List.length_nil] at hfew
      refine ⟨r.pushActions, ?_, h⟩
      rw [if_neg (by omega), if_pos hread, hnone, List.countP_nil, Nat.cast_zero, add_zero]
    · have hcons : (event :: events).filter (fun ev =>
          !cx.hasUserReadEvent r (cx.getId ev)) = event :: events.filter (fun ev =>
            !cx.hasUserReadEvent r (cx.getId ev)) :=
        List.filter_cons_of_pos (by rw [eq_false_of_ne_true hread]; rfl)
      rw [hcons, List.length_cons] at hfew
      obtain ⟨pushActions, hasked, hcached⟩ := getPushActionsForEvent_eq h (cx.getId event)
      obtain ⟨pushActions', hcount, hcached'⟩ := ih (i + 1) (highlightCount +
        if (cx.actions r (cx.getId event)).highlights then 1 else 0)
        { r with pushActions := pushActions } hcached hrest (by
          show i + 1 + (events.filter fun ev =>
            !cx.hasUserReadEvent r (cx.getId ev)).length ≤ 18
          omega)
      refine ⟨pushActions', ?_, hcached'⟩
      rw [if_neg (by omega), if_neg hread, hasked]
      dsimp only
      rw [hcount, hcons, List.countP_cons]
      refine Prod.ext (congrArg some ?_) rfl
      show _ + _ + ((events.filter fun ev =>
          !cx.hasUserReadEvent r (cx.getId ev)).countP fun ev =>
        (cx.actions r (cx.getId ev)).highlights : ℤ) = _
      split <;> omega

/-! ## Receipts of other users -/

/-- A receipt of another user does not move the receipt of this one. -/
theorem addReceiptToStructure_other {receipts receipts' : Receipts UserId EventId Data}
    {eventId : EventId} {receiptType : String} {userId : UserId} {receipt : Data}
    (hother : userId ≠ cx.userId) (h : addReceiptToStructure cx.getId cx.timelineSet cx.fuel
      receipts eventId receiptType userId receipt = some receipts') :
    receipts'.receipt "m.read" cx.userId = receipts.receipt "m.read" cx.userId := by
  have hadded := Receipts.receipt_set receipts receiptType userId ⟨eventId, receipt⟩ "m.read"
    cx.userId
  rw [if_neg (fun hcontra => hother hcontra.2.symm)] at hadded
  rw [addReceiptToStructure] at h
  split at h
  next =>
    rw [← Option.some.inj h]
    exact hadded
  next =>
    obtain ⟨ordering, -, rfl⟩ := Option.map_eq_some_iff.1 h
    split
    · rfl
    · exact hadded

theorem addReceiptsToStructure_other {receipts receipts' : Receipts UserId EventId Data}
    (hother : ∀ e ∈ content.receiptList, e.2.2.1 ≠ cx.userId)
    (h : addReceiptsToStructure cx.getId cx.timelineSet cx.fuel content receipts =
      some receipts') :
    receipts'.receipt "m.read" cx.userId = receipts.receipt "m.read" cx.userId := by
  rw [addReceiptsToStructure_eq] at h
  generalize content.receiptList = list at h hother
  induction list generalizing receipts with
  | nil => rw [Option.some.inj h]
  | cons e list ih =>
    rw [List.foldlM_cons] at h
    obtain ⟨receipts₁, hfirst, hrest⟩ := Option.bind_eq_some_iff.1 h
    rw [ih hrest fun e' he' => hother e' (List.mem_cons_of_mem e he')]
    exact addReceiptToStructure_other (hother e List.mem_cons_self) hfirst

/-- Without a receipt of the user the read position stays. -/
theorem getEventReadUpTo_addReceipt {fake : Bool}
    {receipts receipts' : RoomReceipts UserId EventId Data} (honly : OnlyRead content)
    (hself : cx.isSelf content = false)
    (h : receipts.addReceipt cx.getId cx.timelineSet cx.fuel content fake = some receipts') :
    receipts'.getEventReadUpTo cx.userId false = receipts.getEventReadUpTo cx.userId false := by
  have hother : ∀ e ∈ content.receiptList, e.2.2.1 ≠ cx.userId := by
    intro e he huser
    obtain ⟨⟨eventId, byType⟩, hevent, he⟩ := List.mem_flatMap.1 he
    obtain ⟨⟨receiptType, byUser⟩, htype, he⟩ := List.mem_flatMap.1 he
    obtain ⟨⟨userId, receipt⟩, hreceipt, rfl⟩ := List.mem_map.1 he
    have hget := JsObject.mem_entries.1 htype
    obtain rfl := honly _ hevent receiptType (JsObject.mem_keys_of_get hget)
    refine Bool.eq_false_iff.1 hself (List.any_eq_true.2 ⟨(eventId, byType), hevent, ?_⟩)
    show (byType.get "m.read").any _ = true
    rw [hget, Option.any_some]
    refine decide_eq_true ?_
    rw [← huser]
    exact JsObject.mem_keys_of_get (JsObject.mem_entries.1 hreceipt)
  rw [RoomReceipts.addReceipt] at h
  obtain ⟨realReceipts, -, h⟩ := Option.bind_eq_some_iff.1 h
  obtain ⟨all, hadd, rfl⟩ := Option.map_eq_some_iff.1 h
  show (Receipts.receipt all "m.read" cx.userId).map _ =
    (receipts.receipts.receipt "m.read" cx.userId).map _
  rw [addReceiptsToStructure_other hother hadd]

/-! ## The count on decryption -/

/-- The form an event has after an attempt to decrypt it. -/
def ClearForm.after (success : Bool) : ClearForm := if success then .decrypted else .badEncrypted

/-- **Decrypting an event** adds its highlight, as if it had not been counted before. -/
theorem decrypt_eq (cx : HighlightContext UserId Event EventId Token)
    (r : HighlightRoom UserId EventId Data) (eventId : EventId) (success : Bool) :
    (cx.decrypt r eventId success).clearForm =
        Function.update r.clearForm eventId (ClearForm.after success) ∧
      (cx.decrypt r eventId success).receipts = r.receipts ∧
      (cx.decrypt r eventId success).pushActions = Function.update r.pushActions eventId
        (some (cx.actionsForEvent eventId (ClearForm.after success))) ∧
      (cx.decrypt r eventId success).highlight = r.highlight +
        if cx.hasUserReadEvent r eventId = false ∧
          (cx.actionsForEvent eventId (ClearForm.after success)).highlights = true
        then 1 else 0 := by
  have hactions : cx.actions { r with
      clearForm := Function.update r.clearForm eventId (ClearForm.after success)
      pushActions := Function.update r.pushActions eventId none } eventId =
        cx.actionsForEvent eventId (ClearForm.after success) := by
    show cx.actionsForEvent eventId
      (Function.update r.clearForm eventId (ClearForm.after success) eventId) = _
    rw [Function.update_self]
  have hread : ∀ pushActions : EventId → Option PushActions, cx.hasUserReadEvent { r with
      clearForm := Function.update r.clearForm eventId (ClearForm.after success)
      pushActions := pushActions } eventId = cx.hasUserReadEvent r eventId :=
    fun _ => hasUserReadEvent_congr rfl eventId
  have hdecrypt : cx.decrypt r eventId success = cx.onDecrypted { r with
      clearForm := Function.update r.clearForm eventId (ClearForm.after success)
      pushActions := Function.update r.pushActions eventId none } eventId := rfl
  rw [hdecrypt, onDecrypted, hactions]
  simp only [Function.update_self, Function.update_idem, Option.elim_none, hread]
  cases hhighlight : (cx.actionsForEvent eventId (ClearForm.after success)).highlights with
  | false =>
    split
    · exact ⟨rfl, rfl, rfl, by simp⟩
    · exact ⟨rfl, rfl, rfl, by simp⟩
  | true =>
    cases hhas : cx.hasUserReadEvent r eventId with
    | false => exact ⟨rfl, rfl, rfl, by simp⟩
    | true => exact ⟨rfl, rfl, rfl, by simp⟩

/-! ## What is counted for an event -/

/-- A highlight counts one. -/
def PushActions.count (actions : PushActions) : ℕ := if actions.highlights then 1 else 0

/-- What an event has added to the count since that was made anew. -/
def countStep (cx : HighlightContext UserId Event EventId Token) (counted : EventId → ℕ)
    (p : HighlightRoom UserId EventId Data × HighlightStep UserId EventId Data) : EventId → ℕ :=
  match p.2 with
  | .decrypted id success => Function.update counted id
      (counted id + PushActions.count (cx.actionsForEvent id (ClearForm.after success)))
  | .receipt content _ =>
    if cx.isSelf content then fun id => PushActions.count (cx.actions p.1 id) else counted

/-- What of it was added before the event was decrypted. -/
def countEarlyStep (cx : HighlightContext UserId Event EventId Token) (early : EventId → ℕ)
    (p : HighlightRoom UserId EventId Data × HighlightStep UserId EventId Data) : EventId → ℕ :=
  match p.2 with
  | .decrypted id success =>
    if success then early
    else Function.update early id
      (early id + PushActions.count (cx.actionsForEvent id .badEncrypted))
  | .receipt content _ =>
    if cx.isSelf content then fun id =>
      if p.1.clearForm id = .decrypted then 0 else PushActions.count (cx.actions p.1 id)
    else early

def counted (cx : HighlightContext UserId Event EventId Token)
    (tr : List (HighlightRoom UserId EventId Data × HighlightStep UserId EventId Data)) :
    EventId → ℕ :=
  tr.foldl cx.countStep fun _ => 0

def countedEarly (cx : HighlightContext UserId Event EventId Token)
    (tr : List (HighlightRoom UserId EventId Data × HighlightStep UserId EventId Data)) :
    EventId → ℕ :=
  tr.foldl cx.countEarlyStep fun _ => 0

variable {receipts : RoomReceipts UserId EventId Data} {asked : EventId → Bool}
  {tr : List (HighlightRoom UserId EventId Data × HighlightStep UserId EventId Data)}
  {p : HighlightRoom UserId EventId Data × HighlightStep UserId EventId Data}
  {s : HighlightRoom UserId EventId Data}

theorem counted_snoc : cx.counted (tr ++ [p]) = cx.countStep (cx.counted tr) p := by
  rw [counted, List.foldl_append]
  rfl

theorem countedEarly_snoc : cx.countedEarly (tr ++ [p]) =
    cx.countEarlyStep (cx.countedEarly tr) p := by
  rw [countedEarly, List.foldl_append]
  rfl

/-- A step decrypts an event of the timeline, or adds receipts. -/
theorem step_decrypted {eventId : EventId} {success : Bool}
    (h : cx.step r (.decrypted eventId success) = some s) :
    eventId ∈ cx.timeline.map cx.getId ∧ r.clearForm eventId ≠ .decrypted ∧
      s = cx.decrypt r eventId success := by
  rw [step] at h
  split at h
  next hguard => exact ⟨hguard.1, hguard.2, (Option.some.inj h).symm⟩
  next => exact nomatch h

theorem step_receipt {fake : Bool} (h : cx.step r (.receipt content fake) = some s) :
    OnlyRead content ∧
      ∃ receipts', r.receipts.addReceipt cx.getId cx.timelineSet cx.fuel content fake =
        some receipts' ∧ s = cx.onReceipt { r with receipts := receipts' } content := by
  rw [step] at h
  split at h
  next honly =>
    obtain ⟨receipts', hadd, rfl⟩ := Option.map_eq_some_iff.1 h
    exact ⟨honly, receipts', hadd, rfl⟩
  next => exact nomatch h

/-- The handler of receipts leaves the events and the receipts alone. -/
theorem onReceipt_same (content : ReceiptContent UserId EventId Data) (hcached : Cached cx r)
    (hnodup : (cx.timeline.map cx.getId).Nodup) (hfew : (cx.unread r).length ≤ 18) :
    (cx.onReceipt r content).clearForm = r.clearForm ∧
      (cx.onReceipt r content).receipts = r.receipts ∧ Cached cx (cx.onReceipt r content) ∧
      (cx.onReceipt r content).highlight =
        if cx.isSelf content = true then cx.unreadHighlights r else r.highlight := by
  rw [onReceipt]
  by_cases hself : cx.isSelf content = true
  · have hreverse : cx.timeline.reverse.filter (fun ev => !cx.hasUserReadEvent r (cx.getId ev)) =
        (cx.unread r).reverse := by
      rw [List.filter_reverse]
      rfl
    obtain ⟨pushActions, hcount, hcached'⟩ := countHighlights_eq cx.timeline.reverse 0 0 r hcached
      (pairwise_hasUserReadEvent hnodup) (by
        rw [hreverse, List.length_reverse]
        omega)
    rw [if_neg (not_not_intro hself), hcount, hreverse, List.countP_reverse, zero_add, if_pos hself]
    exact ⟨rfl, rfl, hcached', rfl⟩
  · rw [if_pos hself, if_neg hself]
    exact ⟨rfl, rfl, hcached, rfl⟩

/-! ## Runs -/

/-- The count is what the unread events have added, each once when it was decrypted and else
early. -/
structure Counts (cx : HighlightContext UserId Event EventId Token)
    (tr : List (HighlightRoom UserId EventId Data × HighlightStep UserId EventId Data))
    (s : HighlightRoom UserId EventId Data) : Prop where
  cached : Cached cx s
  highlight : s.highlight = (((cx.unread s).map fun ev => cx.counted tr (cx.getId ev)).sum : ℕ)
  counted : ∀ eventId, cx.counted tr eventId = cx.countedEarly tr eventId +
    if s.clearForm eventId = .decrypted then
      PushActions.count (cx.actionsForEvent eventId .decrypted)
    else 0

theorem Counts.init (cx : HighlightContext UserId Event EventId Token)
    (receipts : RoomReceipts UserId EventId Data) (asked : EventId → Bool) :
    Counts cx [] (cx.system receipts asked).init where
  cached := by
    intro eventId actions hactions
    change (if asked eventId then some _ else none) = _ at hactions
    split at hactions
    · exact (Option.some.inj hactions).symm
    · exact nomatch hactions
  highlight := by
    have hzero : ∀ l : List Event, (l.map fun ev => cx.counted
        ([] : List (HighlightRoom UserId EventId Data × HighlightStep UserId EventId Data))
        (cx.getId ev)).sum = 0 := by
      intro l
      induction l with
      | nil => rfl
      | cons ev l ih =>
        rw [List.map_cons, List.sum_cons, ih]
        rfl
    rw [hzero]
    rfl
  counted := fun _ => rfl

omit [DecidableEq UserId] in
/-- Adding to the count of one event adds as much to the sum, if the event is there. -/
theorem sum_update (l : List Event) (hnodup : (l.map cx.getId).Nodup) (f : EventId → ℕ)
    (eventId : EventId) (n : ℕ) :
    (l.map fun ev => Function.update f eventId (f eventId + n) (cx.getId ev)).sum =
      (l.map fun ev => f (cx.getId ev)).sum + if eventId ∈ l.map cx.getId then n else 0 := by
  induction l with
  | nil => rfl
  | cons ev l ih =>
    rw [List.map_cons, List.nodup_cons] at hnodup
    rw [List.map_cons, List.sum_cons, List.map_cons, List.sum_cons, ih hnodup.2, List.map_cons]
    by_cases heq : cx.getId ev = eventId
    · rw [heq, Function.update_self, if_neg (heq ▸ hnodup.1), if_pos List.mem_cons_self]
      omega
    · rw [Function.update_of_ne heq]
      by_cases hmem : eventId ∈ l.map cx.getId
      · rw [if_pos hmem, if_pos (List.mem_cons_of_mem _ hmem)]
        omega
      · rw [if_neg hmem, if_neg fun hcontra => (List.mem_cons.1 hcontra).elim
          (fun heq' => heq heq'.symm) hmem, add_zero, add_zero]

theorem Counts.decrypted (hnodup : (cx.timeline.map cx.getId).Nodup) (h : Counts cx tr r)
    {eventId : EventId} {success : Bool} (hmem : eventId ∈ cx.timeline.map cx.getId)
    (hnot : r.clearForm eventId ≠ .decrypted) :
    Counts cx (tr ++ [(r, .decrypted eventId success)]) (cx.decrypt r eventId success) := by
  obtain ⟨hform, hreceipts, hactions, hhighlight⟩ := decrypt_eq cx r eventId success
  have hunread : cx.unread (cx.decrypt r eventId success) = cx.unread r :=
    unread_congr (by rw [hreceipts])
  refine ⟨fun id actions hcached => ?_, ?_, fun id => ?_⟩
  · rw [HighlightContext.actions, hform]
    rw [hactions] at hcached
    by_cases hid : id = eventId
    · rw [hid, Function.update_self] at hcached
      rw [hid, Function.update_self, ← Option.some.inj hcached]
    · rw [Function.update_of_ne hid] at hcached
      rw [Function.update_of_ne hid]
      exact h.cached id actions hcached
  · have hnodup' : ((cx.unread r).map cx.getId).Nodup :=
      hnodup.sublist (List.filter_sublist.map _)
    rw [hhighlight, h.highlight, hunread, counted_snoc]
    show _ = (((cx.unread r).map fun ev => Function.update (cx.counted tr) eventId
      (cx.counted tr eventId + _) (cx.getId ev)).sum : ℤ)
    rw [sum_update _ hnodup', Nat.cast_add]
    congr 1
    have hthere : eventId ∈ (cx.unread r).map cx.getId ↔
        cx.hasUserReadEvent r eventId = false := by
      rw [List.mem_map]
      constructor
      · rintro ⟨ev, hev, rfl⟩
        exact (mem_unread.1 hev).2
      · intro hread
        obtain ⟨ev, hev, rfl⟩ := List.mem_map.1 hmem
        exact ⟨ev, mem_unread.2 ⟨hev, hread⟩, rfl⟩
    rw [PushActions.count]
    simp only [hthere]
    by_cases hread : cx.hasUserReadEvent r eventId = false
    · simp only [hread, true_and, if_true]
      split <;> rfl
    · rw [if_neg hread, if_neg fun hcontra => hread hcontra.1]
      rfl
  · rw [counted_snoc, countedEarly_snoc, hform]
    show Function.update (cx.counted tr) eventId _ id = (if success = true then _ else _ : _ → ℕ) id
      + _
    by_cases hid : id = eventId
    · rw [hid, Function.update_self, Function.update_self, h.counted, if_neg hnot, add_zero]
      cases success with
      | true => rw [if_pos rfl]; rfl
      | false =>
        rw [if_neg Bool.false_ne_true, Function.update_self]
        rfl
    · rw [Function.update_of_ne hid, Function.update_of_ne hid, h.counted]
      cases success with
      | true => rfl
      | false =>
        rw [if_neg Bool.false_ne_true, Function.update_of_ne hid]

/-- Counting changes no receipts. -/
theorem countHighlights_receipts (events : List Event) : ∀ (i : ℕ) (highlightCount : ℤ)
    (r : HighlightRoom UserId EventId Data),
    (cx.countHighlights i highlightCount r events).2.receipts = r.receipts := by
  induction events with
  | nil => exact fun _ _ _ => rfl
  | cons event events ih =>
    intro i highlightCount r
    rw [countHighlights]
    split
    · rfl
    · split
      · rfl
      · show (cx.countHighlights _ _ _ events).2.receipts = _
        rw [ih]
        show (cx.getPushActionsForEvent r (cx.getId event)).2.receipts = _
        unfold getPushActionsForEvent
        split <;> rfl

theorem onReceipt_receipts (content : ReceiptContent UserId EventId Data) :
    (cx.onReceipt r content).receipts = r.receipts := by
  have hcount : (cx.countHighlights 0 0 r cx.timeline.reverse).2.receipts = r.receipts :=
    countHighlights_receipts cx.timeline.reverse 0 0 r
  rw [onReceipt]
  split
  · rfl
  · split
    next heq =>
      rw [heq] at hcount
      exact hcount
    next heq =>
      rw [heq] at hcount
      exact hcount

omit [DecidableEq UserId] [DecidableEq EventId] in
theorem sum_count (l : List Event) (actions : Event → PushActions) :
    (l.map fun ev => PushActions.count (actions ev)).sum =
      l.countP fun ev => (actions ev).highlights := by
  induction l with
  | nil => rfl
  | cons ev l ih =>
    rw [List.map_cons, List.sum_cons, ih, List.countP_cons, PushActions.count, Nat.add_comm]

/-- A receipt of the user makes the count what the events highlight as they are. -/
theorem Counts.receipt (hnodup : (cx.timeline.map cx.getId).Nodup) (h : Counts cx tr r)
    {fake : Bool} (hstep : cx.step r (.receipt content fake) = some s)
    (hfew : (cx.unread s).length ≤ 18) : Counts cx (tr ++ [(r, .receipt content fake)]) s := by
  obtain ⟨honly, receipts', hadd, rfl⟩ := step_receipt hstep
  obtain ⟨r', hr'⟩ : ∃ r' : HighlightRoom UserId EventId Data,
      r' = { r with receipts := receipts' } := ⟨_, rfl⟩
  rw [← hr'] at hfew ⊢
  have hcached : Cached cx r' := by
    rw [hr']
    exact h.cached
  have hunread : cx.unread (cx.onReceipt r' content) = cx.unread r' :=
    unread_congr (by rw [onReceipt_receipts])
  rw [hunread] at hfew
  obtain ⟨hform, -, hcached', hhighlight⟩ := onReceipt_same content hcached hnodup hfew
  have hform' : (cx.onReceipt r' content).clearForm = r.clearForm := by
    rw [hform, hr']
  by_cases hself : cx.isSelf content = true
  · have hcounted : ∀ id, cx.counted (tr ++ [(r, .receipt content fake)]) id =
        PushActions.count (cx.actions r id) := by
      intro id
      rw [counted_snoc]
      show (if cx.isSelf content = true then _ else _ : EventId → ℕ) id = _
      rw [if_pos hself]
    refine ⟨hcached', ?_, fun id => ?_⟩
    · rw [hhighlight, if_pos hself, hunread, unreadHighlights]
      simp only [hcounted]
      rw [sum_count]
      have hactions : cx.actions r' = cx.actions r := by
        rw [hr']
        rfl
      rw [hactions]
    · rw [hcounted, countedEarly_snoc, hform']
      show _ = (if cx.isSelf content = true then _ else _ : EventId → ℕ) id + _
      rw [if_pos hself]
      by_cases hdone : r.clearForm id = .decrypted
      · rw [if_pos hdone, if_pos hdone, zero_add, HighlightContext.actions, hdone]
      · rw [if_neg hdone, if_neg hdone, add_zero]
  · have hread : cx.unread r' = cx.unread r := by
      refine unread_congr ?_
      rw [hr']
      exact getEventReadUpTo_addReceipt honly (eq_false_of_ne_true hself) hadd
    have hcounted : cx.counted (tr ++ [(r, .receipt content fake)]) = cx.counted tr := by
      rw [counted_snoc]
      exact if_neg hself
    have hearly : cx.countedEarly (tr ++ [(r, .receipt content fake)]) = cx.countedEarly tr := by
      rw [countedEarly_snoc]
      exact if_neg hself
    refine ⟨hcached', ?_, fun id => ?_⟩
    · rw [hhighlight, if_neg hself, hunread, hread, hcounted, hr']
      exact h.highlight
    · rw [hcounted, hearly, hform']
      exact h.counted id

theorem Counts.of_trace (hnodup : (cx.timeline.map cx.getId).Nodup)
    (h : (cx.system receipts asked).Trace tr s)
    (hfew : System.HoldsAlong (fun r => (cx.unread r).length ≤ 18) tr s) : Counts cx tr s := by
  induction h with
  | start => exact Counts.init cx receipts asked
  | @snoc tr r s step htr hstep ih =>
    obtain ⟨hfew', hlast⟩ := System.holdsAlong_snoc.1 hfew
    cases step with
    | decrypted eventId success =>
      obtain ⟨hmem, hnot, rfl⟩ := step_decrypted hstep
      exact (ih hfew').decrypted hnodup hmem hnot
    | receipt content fake => exact (ih hfew').receipt hnodup hstep hlast

/-- A last step is added to those that matter, or starts them anew. -/
theorem countedEarly_eq_zero_iff (tr : List (HighlightRoom UserId EventId Data ×
      HighlightStep UserId EventId Data)) (eventId : EventId) :
    cx.countedEarly tr eventId = 0 ↔ ∀ tr₁ p tr₂, tr = tr₁ ++ p :: tr₂ →
      (∀ q ∈ tr₂, ¬ cx.OwnReceipt q.2) → cx.NotEarly p eventId := by
  have hcount : ∀ actions : PushActions,
      PushActions.count actions = 0 ↔ actions.highlights = false := by
    intro actions
    rw [PushActions.count]
    split
    next h => simp [h]
    next h => simp [h]
  induction tr using List.reverseRecOn with
  | nil =>
    refine iff_of_true rfl fun tr₁ p tr₂ hsplit => ?_
    exact absurd hsplit.symm (List.append_ne_nil_of_right_ne_nil _ (List.cons_ne_nil _ _))
  | append_singleton tr p ih =>
    rw [countedEarly_snoc]
    have hsplits : (∀ tr₁ q tr₂, tr ++ [p] = tr₁ ++ q :: tr₂ →
        (∀ q' ∈ tr₂, ¬ cx.OwnReceipt q'.2) → cx.NotEarly q eventId) ↔
          cx.NotEarly p eventId ∧ (¬ cx.OwnReceipt p.2 → cx.countedEarly tr eventId = 0) := by
      constructor
      · intro hall
        refine ⟨hall tr p [] rfl fun _ hq => absurd hq List.not_mem_nil, fun hown => ih.2 ?_⟩
        intro tr₁ q tr₂ hsplit hlater
        refine hall tr₁ q (tr₂ ++ [p]) (by rw [hsplit, List.append_assoc, List.cons_append]) ?_
        intro q' hq'
        rcases List.mem_append.1 hq' with hq' | hq'
        · exact hlater q' hq'
        · rw [List.mem_singleton.1 hq']
          exact hown
      · rintro ⟨hlast, hbefore⟩ tr₁ q tr₂ hsplit hlater
        rcases List.eq_nil_or_concat' tr₂ with rfl | ⟨tr₃, p', rfl⟩
        · obtain ⟨-, heq⟩ := List.append_inj' hsplit rfl
          rw [← (List.cons.inj heq).1]
          exact hlast
        · rw [← List.cons_append, ← List.append_assoc] at hsplit
          obtain ⟨rfl, heq⟩ := List.append_inj' hsplit rfl
          obtain rfl := (List.cons.inj heq).1
          exact ih.1 (hbefore (hlater p (List.mem_append_right _ (List.mem_singleton_self p))))
            tr₁ q tr₃ rfl fun q' hq' => hlater q' (List.mem_append_left _ hq')
    rw [hsplits]
    obtain ⟨r, step⟩ := p
    cases step with
    | decrypted id success =>
      have hown : ¬ cx.OwnReceipt (.decrypted id success : HighlightStep UserId EventId Data) :=
        fun hcontra => hcontra
      show (if success = true then _ else _ : EventId → ℕ) eventId = 0 ↔
        (id = eventId → success = false → _) ∧ _
      cases success with
      | true =>
        rw [if_pos rfl]
        exact ⟨fun h => ⟨fun _ hcontra => absurd hcontra Bool.true_eq_false_eq_False,
          fun _ => h⟩,
          fun h => h.2 hown⟩
      | false =>
        rw [if_neg Bool.false_ne_true]
        by_cases hid : eventId = id
        · subst hid
          rw [Function.update_self, Nat.add_eq_zero_iff, hcount]
          exact ⟨fun h => ⟨fun _ _ => h.2, fun _ => h.1⟩, fun h => ⟨h.2 hown, h.1 rfl rfl⟩⟩
        · rw [Function.update_of_ne hid]
          exact ⟨fun h => ⟨fun hcontra => absurd hcontra.symm hid, fun _ => h⟩,
            fun h => h.2 hown⟩
    | receipt content fake =>
      show (if cx.isSelf content = true then _ else _ : EventId → ℕ) eventId = 0 ↔
        (cx.isSelf content = true → r.clearForm eventId ≠ .decrypted → _) ∧
          (¬ cx.isSelf content = true → _)
      by_cases hself : cx.isSelf content = true
      · rw [if_pos hself]
        by_cases hdone : r.clearForm eventId = .decrypted
        · rw [if_pos hdone]
          exact iff_of_true rfl ⟨fun _ hcontra => absurd hdone hcontra, fun hcontra =>
            absurd hself hcontra⟩
        · rw [if_neg hdone, hcount]
          exact ⟨fun h => ⟨fun _ _ => h, fun hcontra => absurd hself hcontra⟩,
            fun h => h.1 hself hdone⟩
      · rw [if_neg hself]
        exact ⟨fun h => ⟨fun hcontra => absurd hcontra hself, fun _ => h⟩, fun h => h.2 hself⟩

/-- The client of Alice, with rules that highlight what `highlights` says. -/
def aliceAndBob (highlights : ClearForm → Bool) :
    HighlightContext String (String × String) String Unit where
  getId := Prod.fst
  getSender ev := some ev.2
  timelineSet :=
    { timelineSupport := true
      filter := none
      timelines := [0]
      liveTimeline := 0
      eventIdToTimeline := (JsObject.empty.set "$0" 0).set "$1" 0
      timeline := fun _ => ⟨[("$0", "@bob"), ("$1", "@bob")], 0, none, none, none, none⟩
      created := 1 }
  fuel := 1
  actionsForEvent _ form := ⟨some (highlights form)⟩
  userId := "@alice"

/-- One event fails to be decrypted at first, the other one is read. -/
def failedThenRead : List (HighlightStep String String Unit) :=
  [.decrypted "$1" false, .decrypted "$0" true,
    .receipt (synthesizeReceipt "@alice" "$0" "m.read" ()) false, .decrypted "$1" true]

theorem failedThenRead_runs : (((aliceAndBob (· = .decrypted)).system .new
    fun _ => false).run failedThenRead).isSome := by
  decide +kernel

theorem failedForBob_runs : (((aliceAndBob fun _ => true).system .new
    fun _ => false).run failedThenRead).isSome := by
  decide +kernel

end HighlightContext

end MatrixSdk.Client
