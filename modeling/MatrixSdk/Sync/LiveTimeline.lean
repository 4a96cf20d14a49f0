/-
The live timeline of a joined room, between the responses of `/sync` and the context
loads and paginations of the client (`SyncApi._processSyncResponse` in `src/sync.js`,
`Room.addLiveEvents` in `src/models/room.js`, `MatrixClient.getEventTimeline` and
`paginateEventTimeline` in `src/client.js`).

A limited response that has a known event is taken for one that overlaps the live
timeline: it does not reset it, and what comes before the last known event is cut
off. But the event may be known from another timeline, which a context load has
brought and which may be newer than the live one.

The room is the unfiltered timeline set together with the newest event `/sync` has
brought, which the code does not keep. What is said of the set is [`LiveInv`]: nothing
is known of the timelines other than the live one, since the batches that fill them
are arbitrary segments of the room. [`addNextEvent_known`] says that the loop of
`addEventsToTimeline` leaves the live timeline alone when it does not work on it, and
[`addNextEvent_live`] that going forward from it is the same as adding live events.
-/
import MatrixSdk.Lib.System
import MatrixSdk.Models.AddEvents

set_option autoImplicit false

namespace MatrixSdk.Sync

open MatrixSdk.Lib MatrixSdk.Models

/-! ## The model -/

abbrev Token := String

/-- What `/sync` says about the timeline of a joined room. `forwardToken` is what the
reset would leave at the end of the old live timeline: nothing if the client allows
the entire timeline to be reset, else the token of the last sync. -/
structure JoinedTimeline (Event : Type) where
  isBrandNewRoom : Bool
  limited : Bool
  events : List Event
  prevBatch : Option Token
  forwardToken : Option Token

/-- The response to `/context`. -/
structure ContextResponse (Event : Type) where
  event : Event
  eventsBefore : List Event
  eventsAfter : List Event
  startToken : Option Token
  endToken : Option Token

section Model

variable {Event EventId : Type} [DecidableEq EventId] (getId : Event → EventId)

/-- `getTimelineForEvent`, as a truth value. -/
def known (s : EventTimelineSet Event EventId Token) (e : Event) : Bool :=
  (s.eventIdToTimeline.get (getId e)).isSome

/-- The events from the last known one on; nothing if none is known. -/
def fromLastKnown (isKnown : Event → Bool) : List Event → Option (List Event)
  | [] => none
  | e :: es => fromLastKnown isKnown es <|> if isKnown e then some (e :: es) else none

/-- What is done to the live timeline before the events are added, and the events that
will be. -/
def prepareTimeline (s : EventTimelineSet Event EventId Token) (r : JoinedTimeline Event) :
    EventTimelineSet Event EventId Token × List Event :=
  if r.isBrandNewRoom then
    (s.setTimeline s.liveTimeline
      ((s.timeline s.liveTimeline).setPaginationToken r.prevBatch .backwards), r.events)
  else if r.limited then
    match fromLastKnown (known getId s) r.events with
    | some events => (s, events)
    | none => (s.resetLiveTimeline r.prevBatch r.forwardToken, r.events)
  else (s, r.events)

/-- `Room.addLiveEvents`, with the strategy "ignore". -/
def addLiveEvents (s : EventTimelineSet Event EventId Token) (events : List Event) :
    Except String (EventTimelineSet Event EventId Token) :=
  let liveTimeline := s.timeline s.liveTimeline
  match liveTimeline.getPaginationToken .forwards with
  | some token =>
    .error ("live timeline 0 is no longer live - it has a pagination token " ++
      "(" ++ token ++ ")")
  | none =>
    if (liveTimeline.getNeighbouringTimeline .forwards).isSome then
      .error "live timeline 0 is no longer live - it has a neighbouring timeline"
    else .ok (events.foldl (fun s e => s.addLiveEvent getId e false) s)

/-- A joined room of a response. -/
def processSyncResponse (s : EventTimelineSet Event EventId Token) (r : JoinedTimeline Event) :
    EventTimelineSet Event EventId Token :=
  let prepared := prepareTimeline getId s r
  match addLiveEvents getId prepared.1 prepared.2 with
  | .ok s => s
  | .error _ => prepared.1

omit [DecidableEq EventId] in
/-- The set once `addEventsToTimeline` has returned or thrown. -/
def setAfter (r : Except (EventTimelineSet.Thrown Event EventId Token)
    (EventTimelineSet Event EventId Token)) : EventTimelineSet Event EventId Token :=
  match r with
  | .ok s => s
  | .error thrown => thrown.set

/-- The response to the request of `getEventTimeline` arrives. -/
def contextLoaded (s : EventTimelineSet Event EventId Token) (eventId : EventId)
    (res : ContextResponse Event) : EventTimelineSet Event EventId Token :=
  if (s.eventIdToTimeline.get eventId).isSome then s
  else
    let events := res.eventsAfter.reverse ++ [res.event] ++ res.eventsBefore
    match events.head?.bind fun e => s.eventIdToTimeline.get (getId e) with
    | some t => setAfter (s.addEventsToTimeline getId events true (some t) res.startToken)
    | none =>
      match s.addTimeline with
      | .error _ => s
      | .ok (t, s) =>
        let s := s.setTimeline t ((s.timeline t).setPaginationToken res.endToken .forwards)
        setAfter (s.addEventsToTimeline getId events true (some t) res.startToken)

/-- The response to the request of `paginateEventTimeline` arrives. `atEnd` says that it
has the same token at its start and its end. -/
def paginated (s : EventTimelineSet Event EventId Token) (t : ℕ) (backwards : Bool)
    (events : List Event) (token : Option Token) (atEnd : Bool) :
    EventTimelineSet Event EventId Token :=
  match s.addEventsToTimeline getId events backwards (some t) token with
  | .error thrown => thrown.set
  | .ok s =>
    if backwards && atEnd then
      s.setTimeline t ((s.timeline t).setPaginationToken none .backwards)
    else s

/-- A joined room. `newest` is the newest event that `/sync` has brought. -/
structure LiveRoom (Event EventId : Type) where
  set : EventTimelineSet Event EventId Token
  newest : Option Event

inductive ServerEvent (Event EventId : Type)
  | synced (r : JoinedTimeline Event)
  | contextLoaded (eventId : EventId) (res : ContextResponse Event)
  | paginated (t : ℕ) (backwards : Bool) (events : List Event) (token : Option Token)
      (atEnd : Bool)

/-- The room between responses. A timeline can be paginated once it has been made. -/
def liveSystem (timelineSupport : Bool) :
    System (LiveRoom Event EventId) (ServerEvent Event EventId) where
  init := ⟨.new timelineSupport none, none⟩
  step s
    | .synced r => some ⟨processSyncResponse getId s.set r, (s.newest.toList ++ r.events).getLast?⟩
    | .contextLoaded eventId res => some { s with set := contextLoaded getId s.set eventId res }
    | .paginated t backwards events token atEnd =>
      if t < s.set.created then
        some { s with set := paginated getId s.set t backwards events token atEnd }
      else none

end Model

/-! ## What the server promises, and when the live timeline follows it -/

section Order

variable {Event EventId : Type} [DecidableEq EventId] (getId : Event → EventId) (L : List Event)

omit [DecidableEq EventId] in
/-- The events of the live timeline. -/
def liveEvents (s : EventTimelineSet Event EventId Token) : List Event :=
  (s.timeline s.liveTimeline).events

omit [DecidableEq EventId] in
/-- **The server order** `L`. A chunk is a run of it that ends at the newest event. The first
is not empty; one that is not limited continues where the last one ended, and one that is
limited is not empty and starts there or later. Context loads and paginations bring any
run, but what is asked for at the start of the live timeline starts there. -/
def FollowsOrder (s : LiveRoom Event EventId) : ServerEvent Event EventId → Prop
  | .synced r => r.events <:+: L ∧
      match s.newest with
      | none => r.events ≠ []
      | some n => r.isBrandNewRoom = false ∧
          if r.limited then ∃ f ∈ r.events.head?, n = f ∨ Before L n f
          else n :: r.events <:+: L
  | .contextLoaded _ res => res.eventsAfter.reverse ++ [res.event] ++ res.eventsBefore <:+: L.reverse
  | .paginated t backwards events _ _ =>
    events <:+: (Direction.ofToStart backwards).view L ∧
      (t = s.set.liveTimeline → ∀ x ∈ events.head?, NextTo L .backwards s.set t x)

/-- The response resets the live timeline. -/
def Resets (s : EventTimelineSet Event EventId Token) (r : JoinedTimeline Event) : Prop :=
  r.isBrandNewRoom = false ∧ r.limited ∧ ∀ e ∈ r.events, known getId s e = false

/-- Beyond the end of the live timeline no unknown event of the batch comes after a
known one. -/
def ClearBeyond (s : EventTimelineSet Event EventId Token) (events : List Event) : Prop :=
  ∀ a z b, events = a ++ z :: b → (liveEvents s).getLast? = some z →
    b.Pairwise fun x y => known getId s x → known getId s y

/-- **When the live timeline follows the order.** Unless a response resets it, it ends
with the newest event of the last one or with an event of this one, and the events of
this one that come after it are unknown. When going forward along other timelines leads
past its end, no unknown event comes after a known one there. -/
def StaysLive (s : LiveRoom Event EventId) : ServerEvent Event EventId → Prop
  | .synced r => Resets getId s.set r ∨
      ((liveEvents s.set).getLast? = s.newest ∨
          ∃ z ∈ (liveEvents s.set).getLast?, z ∈ r.events) ∧
        ∀ e ∈ r.events, (∀ f ∈ liveEvents s.set, Before L f e) → known getId s.set e = false
  | .contextLoaded _ _ => True
  | .paginated _ backwards events _ _ => backwards = false → ClearBeyond getId s.set events

end Order

/-! ## What is known of the set -/

section Invariant

variable {Event EventId : Type} (getId : Event → EventId) (L : List Event)

/-- **The live timeline** is a segment of the order with nothing beyond it, and the index
finds its events, and only those, in it. -/
structure LiveInv (s : EventTimelineSet Event EventId Token) : Prop where
  filter : s.filter = none
  live_lt : s.liveTimeline < s.created
  index_lt : ∀ id t, s.eventIdToTimeline.get id = some t → t < s.created
  index : ∀ id, s.eventIdToTimeline.get id = some s.liveTimeline ↔
    ∃ e ∈ liveEvents s, getId e = id
  segment : liveEvents s <:+: L
  next : (s.timeline s.liveTimeline).nextTimeline = none
  endToken : (s.timeline s.liveTimeline).endToken = none

/-- What leaves the live timeline alone and makes no event known. -/
structure KeepsLive (s s' : EventTimelineSet Event EventId Token) : Prop where
  filter : s'.filter = s.filter
  liveTimeline : s'.liveTimeline = s.liveTimeline
  created : s.created ≤ s'.created
  index : s'.eventIdToTimeline = s.eventIdToTimeline
  events : liveEvents s' = liveEvents s
  next : (s'.timeline s'.liveTimeline).nextTimeline =
    (s.timeline s.liveTimeline).nextTimeline
  endToken : (s.timeline s.liveTimeline).endToken = none →
    (s'.timeline s'.liveTimeline).endToken = none

/-- What keeps the live events, and adds none to an empty live timeline. -/
structure GrowsLive (s s' : EventTimelineSet Event EventId Token) : Prop where
  inv : LiveInv getId L s'
  mem : ∀ e ∈ liveEvents s, e ∈ liveEvents s'
  empty : liveEvents s = [] → liveEvents s' = []

variable {getId L} {s s' s'' : EventTimelineSet Event EventId Token} {u : EventTimeline Event Token}
  {d : Direction}

theorem KeepsLive.refl (s : EventTimelineSet Event EventId Token) : KeepsLive s s :=
  ⟨rfl, rfl, le_refl _, rfl, rfl, rfl, id⟩

theorem KeepsLive.trans (h : KeepsLive s s') (h' : KeepsLive s' s'') : KeepsLive s s'' where
  filter := h'.filter.trans h.filter
  liveTimeline := h'.liveTimeline.trans h.liveTimeline
  created := h.created.trans h'.created
  index := h'.index.trans h.index
  events := h'.events.trans h.events
  next := h'.next.trans h.next
  endToken hend := h'.endToken (h.endToken hend)

theorem GrowsLive.trans (h : GrowsLive getId L s s') (h' : GrowsLive getId L s' s'') :
    GrowsLive getId L s s'' where
  inv := h'.inv
  mem e he := h'.mem e (h.mem e he)
  empty hnil := h'.empty (h.empty hnil)

namespace LiveInv

theorem keep (hs : LiveInv getId L s) (h : KeepsLive s s') : LiveInv getId L s' := by
  refine ⟨?_, ?_, fun id t hget => ?_, fun id => ?_, ?_, ?_, h.endToken hs.endToken⟩
  · rw [h.filter]
    exact hs.filter
  · rw [h.liveTimeline]
    exact lt_of_lt_of_le hs.live_lt h.created
  · rw [h.index] at hget
    exact lt_of_lt_of_le (hs.index_lt id t hget) h.created
  · rw [h.index, h.liveTimeline, h.events]
    exact hs.index id
  · rw [h.events]
    exact hs.segment
  · rw [h.next]
    exact hs.next

theorem keep_grows (hs : LiveInv getId L s) (h : KeepsLive s s') : GrowsLive getId L s s' where
  inv := hs.keep h
  mem e he := by
    rw [h.events]
    exact he
  empty hnil := by
    rw [h.events]
    exact hnil

/-- The live timeline has the events of the order that are looked up in it. -/
theorem get_iff (hs : LiveInv getId L s) (hL : (L.map getId).Nodup) {e : Event} (he : e ∈ L) :
    s.eventIdToTimeline.get (getId e) = some s.liveTimeline ↔ e ∈ liveEvents s := by
  rw [hs.index]
  constructor
  · rintro ⟨e', he', hid⟩
    obtain rfl := List.inj_on_of_nodup_map hL (hs.segment.subset he') he hid
    exact he'
  · exact fun hmem => ⟨e, hmem, rfl⟩

/-- Before the first response. -/
theorem new (timelineSupport : Bool) : LiveInv getId L (.new timelineSupport none) where
  filter := rfl
  live_lt := Nat.zero_lt_one
  index_lt id t h := absurd h (by simp [EventTimelineSet.new])
  index id := by simp [EventTimelineSet.new, liveEvents, EventTimeline.new]
  segment := List.nil_infix
  next := rfl
  endToken := rfl

end LiveInv

/-! ## One timeline changes -/

theorem keepsLive_setTimeline {t : ℕ} (h : t = s.liveTimeline → u.events = (s.timeline t).events ∧
      u.nextTimeline = (s.timeline t).nextTimeline ∧
      ((s.timeline t).endToken = none → u.endToken = none)) : KeepsLive s (s.setTimeline t u) := by
  have hlive : (s.setTimeline t u).timeline s.liveTimeline =
      if s.liveTimeline = t then u else s.timeline s.liveTimeline := by
    simp only [EventTimelineSet.setTimeline, Function.update_apply]
  by_cases ht : t = s.liveTimeline
  · obtain ⟨hev, hnext, hend⟩ := h ht
    rw [if_pos ht.symm] at hlive
    subst ht
    refine ⟨rfl, rfl, le_refl _, rfl, ?_, ?_, fun hnone => ?_⟩
    · exact (congrArg EventTimeline.events hlive).trans hev
    · exact (congrArg EventTimeline.nextTimeline hlive).trans hnext
    · exact (congrArg EventTimeline.endToken hlive).trans (hend hnone)
  · rw [if_neg fun h => ht h.symm] at hlive
    refine ⟨rfl, rfl, le_refl _, rfl, ?_, ?_, fun hnone => ?_⟩
    · exact congrArg EventTimeline.events hlive
    · exact congrArg EventTimeline.nextTimeline hlive
    · exact (congrArg EventTimeline.endToken hlive).trans hnone

theorem keepsLive_setPaginationToken {t : ℕ} {token : Option Token}
    (h : d = .forwards → t ≠ s.liveTimeline) :
    KeepsLive s (s.setTimeline t ((s.timeline t).setPaginationToken token d)) := by
  refine keepsLive_setTimeline fun ht => ?_
  cases d with
  | forwards => exact absurd ht (h rfl)
  | backwards => exact ⟨rfl, rfl, id⟩

/-- A link at the beginning of a timeline leaves its end alone. -/
theorem keepsLive_setNeighbouringTimeline {t n : ℕ}
    (hok : (s.timeline t).setNeighbouringTimeline n d = .ok u)
    (h : d = .forwards → t ≠ s.liveTimeline) : KeepsLive s (s.setTimeline t u) := by
  refine keepsLive_setTimeline fun ht => ?_
  unfold EventTimeline.setNeighbouringTimeline at hok
  split at hok
  · exact absurd hok (by simp)
  · obtain rfl := Except.ok.inj hok
    cases d with
    | forwards => exact absurd ht (h rfl)
    | backwards => exact ⟨rfl, rfl, id⟩

/-- The set a join leaves behind, whether it succeeds or not. -/
theorem keepsLive_joinTimelines {t ex : ℕ} (ht : d = .forwards → t ≠ s.liveTimeline)
    (hex : d = .backwards → ex ≠ s.liveTimeline) :
    KeepsLive s (setAfter (s.joinTimelines t ex d)) := by
  unfold EventTimelineSet.joinTimelines
  split
  · exact .refl s
  next u hu =>
    have hkeep := keepsLive_setNeighbouringTimeline hu ht
    dsimp only
    split
    · exact hkeep
    next v hv =>
      refine hkeep.trans (keepsLive_setNeighbouringTimeline hv fun hd => hex ?_)
      cases d with
      | forwards => exact absurd hd (by decide)
      | backwards => rfl

section Loop

variable [DecidableEq EventId] {events : List Event} {r : JoinedTimeline Event}
  {room : LiveRoom Event EventId} {b a : List Event} {isKnown : Event → Bool} {z : Event}

/-- An unknown event is added to another timeline. -/
theorem LiveInv.addElsewhere (hs : LiveInv getId L s) {x : Event} {t : ℕ} {b : Bool}
    (hnew : s.eventIdToTimeline.get (getId x) = none) (ht : t < s.created)
    (hlive : t ≠ s.liveTimeline) :
    LiveInv getId L (s.addEventToTimeline getId x t b) ∧
      liveEvents (s.addEventToTimeline getId x t b) = liveEvents s := by
  have hsame : (s.addEventToTimeline getId x t b).timeline s.liveTimeline =
      s.timeline s.liveTimeline := Function.update_of_ne hlive.symm ..
  have hev : liveEvents (s.addEventToTimeline getId x t b) = liveEvents s :=
    congrArg EventTimeline.events hsame
  refine ⟨⟨hs.filter, hs.live_lt, fun id u hget => ?_, fun id => ?_, ?_, ?_, ?_⟩, hev⟩
  · change (s.eventIdToTimeline.set (getId x) t).get id = some u at hget
    rw [JsObject.get_set] at hget
    split at hget
    · rw [← Option.some.inj hget]
      exact ht
    · exact hs.index_lt id u hget
  · rw [hev, ← hs.index id]
    change (s.eventIdToTimeline.set (getId x) t).get id = some s.liveTimeline ↔ _
    rw [JsObject.get_set]
    split
    next hid =>
      rw [hid, hnew]
      simp [hlive]
    · exact Iff.rfl
  · rw [hev]
    exact hs.segment
  · exact (congrArg EventTimeline.nextTimeline hsame).trans hs.next
  · exact (congrArg EventTimeline.endToken hsame).trans hs.endToken

/-- An unknown event is added at an end of the live timeline. -/
theorem LiveInv.addLive (hs : LiveInv getId L s) {x : Event} {b : Bool}
    (hseg : ((s.timeline s.liveTimeline).addEvent x b).events <:+: L) :
    LiveInv getId L (s.addEventToTimeline getId x s.liveTimeline b) ∧
      liveEvents (s.addEventToTimeline getId x s.liveTimeline b) =
        ((s.timeline s.liveTimeline).addEvent x b).events := by
  have hsame : (s.addEventToTimeline getId x s.liveTimeline b).timeline s.liveTimeline =
      (s.timeline s.liveTimeline).addEvent x b := Function.update_self ..
  have hev : liveEvents (s.addEventToTimeline getId x s.liveTimeline b) =
      ((s.timeline s.liveTimeline).addEvent x b).events := congrArg EventTimeline.events hsame
  refine ⟨⟨hs.filter, hs.live_lt, fun id u hget => ?_, fun id => ?_, ?_, ?_, ?_⟩, hev⟩
  · change (s.eventIdToTimeline.set (getId x) s.liveTimeline).get id = some u at hget
    rw [JsObject.get_set] at hget
    split at hget
    · rw [← Option.some.inj hget]
      exact hs.live_lt
    · exact hs.index_lt id u hget
  · have hmem : ∀ e, e ∈ liveEvents (s.addEventToTimeline getId x s.liveTimeline b) ↔
        e ∈ liveEvents s ∨ e = x := by
      intro e
      refine (mem_addEventToTimeline s x e s.liveTimeline s.liveTimeline b).trans ?_
      simp [liveEvents]
    change (s.eventIdToTimeline.set (getId x) s.liveTimeline).get id = some s.liveTimeline ↔ _
    simp only [hmem]
    rw [JsObject.get_set]
    split
    next hid => exact ⟨fun _ => ⟨x, .inr rfl, hid.symm⟩, fun _ => rfl⟩
    next hid =>
      rw [hs.index]
      constructor
      · rintro ⟨e, he, heid⟩
        exact ⟨e, .inl he, heid⟩
      · rintro ⟨e, he | rfl, heid⟩
        · exact ⟨e, he, heid⟩
        · exact absurd heid.symm hid
  · rw [hev]
    exact hseg
  · exact (congrArg EventTimeline.nextTimeline hsame).trans hs.next
  · exact (congrArg EventTimeline.endToken hsame).trans hs.endToken

/-! ## Live events -/

omit [DecidableEq EventId] in
theorem filterRoomTimeline_of_none (hf : s.filter = none) (events : List Event) :
    s.filterRoomTimeline events = events := by
  unfold EventTimelineSet.filterRoomTimeline
  rw [hf]

theorem addLiveEvent_known (hf : s.filter = none) {x : Event} (hx : known getId s x = true) :
    s.addLiveEvent getId x false = s := by
  obtain ⟨t, ht⟩ := Option.isSome_iff_exists.1 hx
  unfold EventTimelineSet.addLiveEvent
  rw [filterRoomTimeline_of_none hf, if_neg (by simp), ht]
  rfl

omit [DecidableEq EventId] in
theorem known_eq_false {e : Event} :
    known getId s e = false ↔ s.eventIdToTimeline.get (getId e) = none := by
  rw [← Option.not_isSome_iff_eq_none, ← Bool.not_eq_true]
  exact Iff.rfl

theorem addLiveEvent_unknown (hf : s.filter = none) {x : Event}
    (hx : known getId s x = false) :
    s.addLiveEvent getId x false = s.addEventToTimeline getId x s.liveTimeline false := by
  unfold EventTimelineSet.addLiveEvent
  rw [filterRoomTimeline_of_none hf, if_neg (by simp), known_eq_false.1 hx]

theorem known_addEventToTimeline (s : EventTimelineSet Event EventId Token) (x e : Event) (t : ℕ)
    (b : Bool) : known getId (s.addEventToTimeline getId x t b) e =
      (decide (getId e = getId x) || known getId s e) := by
  change ((s.eventIdToTimeline.set (getId x) t).get (getId e)).isSome = _
  rw [JsObject.get_set]
  by_cases hid : getId e = getId x
  · simp [hid]
  · simp [hid, known]

omit [DecidableEq EventId] in
theorem id_ne_of_run (hL : (L.map getId).Nodup) {x e : Event} (hrun : x :: events <:+: L)
    (he : e ∈ events) : getId e ≠ getId x := by
  have hnd : ((x :: events).map getId).Nodup := hL.sublist (hrun.sublist.map getId)
  rw [List.map_cons, List.nodup_cons] at hnd
  intro hid
  exact hnd.1 (hid ▸ List.mem_map_of_mem he)

/-- Known events are ignored. -/
theorem foldl_addLiveEvent_known (hs : LiveInv getId L s)
    (h : ∀ e ∈ events, known getId s e = true) :
    events.foldl (fun s e => s.addLiveEvent getId e false) s = s := by
  induction events with
  | nil => rfl
  | cons x events ih =>
    rw [List.foldl_cons, addLiveEvent_known hs.filter (h x (by simp))]
    exact ih fun e he => h e (List.mem_cons_of_mem x he)

/-- Unknown events that continue the live timeline are appended to it. -/
theorem foldl_addLiveEvent_unknown (hL : (L.map getId).Nodup) :
    ∀ {s : EventTimelineSet Event EventId Token}, LiveInv getId L s →
      (∀ e ∈ events, known getId s e = false) → liveEvents s ++ events <:+: L →
      LiveInv getId L (events.foldl (fun s e => s.addLiveEvent getId e false) s) ∧
        liveEvents (events.foldl (fun s e => s.addLiveEvent getId e false) s) =
          liveEvents s ++ events ∧
        ∀ e, known getId s e = true →
          known getId (events.foldl (fun s e => s.addLiveEvent getId e false) s) e = true := by
  induction events with
  | nil =>
    intro s hs _ _
    exact ⟨hs, (List.append_nil _).symm, fun _ h => h⟩
  | cons x events ih =>
    intro s hs hunknown hseg
    rw [List.foldl_cons, addLiveEvent_unknown hs.filter (hunknown x (by simp))]
    have hx : liveEvents s ++ [x] <:+: L := by
      refine List.IsInfix.trans ⟨[], events, ?_⟩ hseg
      simp
    obtain ⟨hs₁, hev₁⟩ := hs.addLive (b := false) hx
    change liveEvents _ = liveEvents s ++ [x] at hev₁
    have hunknown₁ : ∀ e ∈ events,
        known getId (s.addEventToTimeline getId x s.liveTimeline false) e = false := by
      intro e he
      have hid := id_ne_of_run hL ((List.suffix_append _ _).isInfix.trans hseg) he
      rw [known_addEventToTimeline, hunknown e (List.mem_cons_of_mem x he), decide_eq_false hid]
      rfl
    have hseg₁ : liveEvents (s.addEventToTimeline getId x s.liveTimeline false) ++ events <:+:
        L := by
      rw [hev₁, List.append_assoc]
      exact hseg
    obtain ⟨hs', hev', hknown'⟩ := ih hs₁ hunknown₁ hseg₁
    refine ⟨hs', ?_, fun e he => hknown' e ?_⟩
    · rw [hev', hev₁, List.append_assoc]
      rfl
    · rw [known_addEventToTimeline, he, Bool.or_true]

/-- **Adding live events.** Of known events, unknown ones that continue the live timeline, and
known ones again, the unknown ones are appended. -/
theorem foldl_addLiveEvent (hL : (L.map getId).Nodup) (hs : LiveInv getId L s) {u k : List Event}
    (ha : ∀ e ∈ a, known getId s e = true) (hu : ∀ e ∈ u, known getId s e = false)
    (hk : ∀ e ∈ k, known getId s e = true) (hseg : liveEvents s ++ u <:+: L) :
    LiveInv getId L ((a ++ u ++ k).foldl (fun s e => s.addLiveEvent getId e false) s) ∧
      liveEvents ((a ++ u ++ k).foldl (fun s e => s.addLiveEvent getId e false) s) =
        liveEvents s ++ u := by
  obtain ⟨hs', hev, hknown⟩ := foldl_addLiveEvent_unknown hL hs hu hseg
  rw [List.foldl_append, List.foldl_append, foldl_addLiveEvent_known hs ha,
    foldl_addLiveEvent_known hs' fun e he => hknown e (hk e he)]
  exact ⟨hs', hev⟩

/-! ## The loop of a batch -/

variable {st : EventTimelineSet.AddEventsState Event EventId Token} {x : Event}

/-- Going forward from the live timeline is adding live events. -/
theorem addNextEvent_live (hf : st.set.filter = none)
    (hn : (st.set.timeline st.set.liveTimeline).nextTimeline = none)
    (ht : st.timeline = st.set.liveTimeline) :
    ∃ upd new, EventTimelineSet.addNextEvent getId .forwards st x =
      .ok ⟨st.set.addLiveEvent getId x false, st.timeline, upd, new⟩ := by
  cases hget : st.set.eventIdToTimeline.get (getId x) with
  | none =>
    have hx : known getId st.set x = false := by
      rw [known, hget]
      rfl
    rw [addNextEvent_unknown .forwards hget, addLiveEvent_unknown hf hx, ← ht]
    exact ⟨true, true, rfl⟩
  | some ex =>
    have hx : known getId st.set x = true := by
      rw [known, hget]
      rfl
    rw [addLiveEvent_known hf hx]
    unfold EventTimelineSet.addNextEvent
    simp only [hget]
    have hnext : ¬ ((st.set.timeline st.timeline).getNeighbouringTimeline .forwards).isSome := by
      rw [ht, EventTimeline.getNeighbouringTimeline, hn]
      exact Bool.false_ne_true
    by_cases hsame : ex = st.timeline
    · rw [if_pos hsame]
      exact ⟨_, _, rfl⟩
    · rw [if_neg hsame, if_neg hnext, if_pos (.inr ⟨trivial, ht⟩)]
      exact ⟨_, _, rfl⟩

/-- **A known event** leaves the live timeline alone, unless one goes forward from it. -/
theorem addNextEvent_known {d : Direction} {ex : ℕ}
    (hget : st.set.eventIdToTimeline.get (getId x) = some ex)
    (hd : d = .forwards → st.timeline ≠ st.set.liveTimeline) :
    (∃ st', EventTimelineSet.addNextEvent getId d st x = .ok st' ∧ KeepsLive st.set st'.set ∧
        (st'.timeline = st.timeline ∨ st'.timeline = ex) ∧
        (st'.timeline = st.set.liveTimeline → ex = st.set.liveTimeline)) ∨
      ∃ thrown, EventTimelineSet.addNextEvent getId d st x = .error thrown ∧
        KeepsLive st.set thrown.set := by
  unfold EventTimelineSet.addNextEvent
  simp only [hget]
  by_cases hsame : ex = st.timeline
  · rw [if_pos hsame]
    exact .inl ⟨_, rfl, .refl _, .inl rfl, fun h => hsame.trans h⟩
  · rw [if_neg hsame]
    by_cases hnb : ((st.set.timeline st.timeline).getNeighbouringTimeline d).isSome
    · rw [if_pos hnb]
      exact .inl ⟨_, rfl, .refl _, .inr rfl, id⟩
    · rw [if_neg hnb]
      by_cases hlive : (d = .backwards ∧ ex = st.set.liveTimeline) ∨
          (d = .forwards ∧ st.timeline = st.set.liveTimeline)
      · rw [if_pos hlive]
        have hback := hlive.resolve_right fun h => hd h.1 h.2
        exact .inl ⟨_, rfl, .refl _, .inl rfl, fun _ => hback.2⟩
      · rw [if_neg hlive]
        have hkeep : KeepsLive st.set (setAfter (st.set.joinTimelines st.timeline ex d)) :=
          keepsLive_joinTimelines hd fun hback hex => hlive (.inl ⟨hback, hex⟩)
        cases hjoin : st.set.joinTimelines st.timeline ex d with
        | ok s' =>
          rw [hjoin] at hkeep
          exact .inl ⟨_, rfl, hkeep, .inr rfl, id⟩
        | error thrown =>
          rw [hjoin] at hkeep
          exact .inr ⟨_, rfl, hkeep⟩

variable (getId L) in
/-- The set after the loop, whether it ends or an exception does. -/
def LoopGrows (s : EventTimelineSet Event EventId Token)
    (r : Except (EventTimelineSet.Thrown Event EventId Token)
      (EventTimelineSet.AddEventsState Event EventId Token)) : Prop :=
  match r with
  | .ok st => GrowsLive getId L s st.set
  | .error thrown => GrowsLive getId L s thrown.set

omit [DecidableEq EventId] in
theorem GrowsLive.loop (h : GrowsLive getId L s s')
    {r : Except (EventTimelineSet.Thrown Event EventId Token)
      (EventTimelineSet.AddEventsState Event EventId Token)} (h' : LoopGrows getId L s' r) :
    LoopGrows getId L s r := by
  cases r with
  | ok st => exact h.trans h'
  | error thrown => exact h.trans h'

omit [DecidableEq EventId] in
/-- Once an event of the live timeline is handled, the next one is there or beyond its start. -/
theorem nextTo_head (hL : (L.map getId).Nodup) (hs : LiveInv getId L s) (hx : x ∈ liveEvents s)
    (hrun : x :: events <:+: L.reverse) :
    ∀ y ∈ events.head?, NextTo L .backwards s s.liveTimeline y := by
  intro y hy
  obtain ⟨rest, rfl⟩ := List.head?_eq_some_iff.1 hy
  have hxy : [x, y] <:+: L.reverse := (List.prefix_append [x, y] rest).isInfix.trans hrun
  rcases mem_or_extends (List.nodup_reverse.2 hL.of_map) (List.reverse_infix.2 hs.segment)
    (List.mem_reverse.2 hx) hxy with hmem | hext
  · exact .inl (List.mem_reverse.1 hmem)
  · exact .inr ⟨List.ne_nil_of_mem hx, hext⟩

/-- **Going backward** the live timeline only grows at its start, and only when what is
added there lies there. -/
theorem foldlM_backwards (hL : (L.map getId).Nodup) :
    ∀ {st : EventTimelineSet.AddEventsState Event EventId Token},
      LiveInv getId L st.set → st.timeline < st.set.created → events <:+: L.reverse →
      (st.timeline = st.set.liveTimeline →
        ∀ x ∈ events.head?, NextTo L .backwards st.set st.set.liveTimeline x) →
      LoopGrows getId L st.set
        (events.foldlM (EventTimelineSet.addNextEvent getId .backwards) st) := by
  induction events with
  | nil =>
    intro st hs _ _ _
    exact hs.keep_grows (.refl _)
  | cons x events ih =>
    intro st hs ht hrun hnext
    have hx : x ∈ L := List.mem_reverse.1 (hrun.subset (by simp))
    have hrun₁ : events <:+: L.reverse := (List.suffix_cons x _).isInfix.trans hrun
    rw [List.foldlM_cons]
    cases hget : st.set.eventIdToTimeline.get (getId x) with
    | none =>
      rw [addNextEvent_unknown .backwards hget]
      by_cases hlive : st.timeline = st.set.liveTimeline
      · have hout : x ∉ liveEvents st.set := by
          intro hmem
          rw [(hs.get_iff hL hx).2 hmem] at hget
          exact absurd hget (by simp)
        obtain ⟨hne, hext⟩ := (hnext hlive x rfl).resolve_left hout
        have hext' : x :: liveEvents st.set <:+: L := by
          have h := List.reverse_infix.2 hext
          simpa [Direction.view, liveEvents] using h
        obtain ⟨hs₁, hev₁⟩ := hs.addLive (b := true) hext'
        change liveEvents _ = x :: liveEvents st.set at hev₁
        have hmem₁ : ∀ e, e = x ∨ e ∈ liveEvents st.set →
            e ∈ liveEvents
              (st.set.addEventToTimeline getId x st.set.liveTimeline true) := by
          intro e he
          rw [hev₁]
          exact List.mem_cons.2 he
        rw [hlive]
        refine GrowsLive.loop ⟨hs₁, fun e he => hmem₁ e (.inr he), fun hnil => absurd hnil hne⟩
          (ih hs₁ hs.live_lt hrun₁ fun _ => ?_)
        exact nextTo_head hL hs₁ (hmem₁ x (.inl rfl)) hrun
      · obtain ⟨hs₁, hev₁⟩ := hs.addElsewhere (b := true) hget ht hlive
        refine GrowsLive.loop ⟨hs₁, fun e he => ?_, fun hnil => ?_⟩
          (ih hs₁ ht hrun₁ fun h => absurd h hlive)
        · rw [hev₁]
          exact he
        · rw [hev₁]
          exact hnil
    | some ex =>
      rcases addNextEvent_known (d := .backwards) hget (fun h => absurd h (by decide)) with
        ⟨st', hok, hkeep, hwhere, hlive⟩ | ⟨thrown, herr, hkeep⟩
      · rw [hok]
        have hs₁ := hs.keep hkeep
        refine (hs.keep_grows hkeep).loop (ih hs₁ ?_ hrun₁ fun h => ?_)
        · rcases hwhere with h | h <;> rw [h]
          · exact lt_of_lt_of_le ht hkeep.created
          · exact lt_of_lt_of_le (hs.index_lt _ _ hget) hkeep.created
        · -- the loop has come to the live timeline, or is there still
          rw [hlive (h.trans hkeep.liveTimeline)] at hget
          have hxl := (hs.get_iff hL hx).1 hget
          rw [← hkeep.events] at hxl
          exact nextTo_head hL hs₁ hxl hrun
      · rw [herr]
        exact hs.keep_grows hkeep

omit [DecidableEq EventId] in
/-- Where what is known comes last, the unknown and the known can be told apart. -/
theorem split_of_pairwise (h : b.Pairwise fun x y => isKnown x → isKnown y) :
    ∃ u k, b = u ++ k ∧ (∀ e ∈ u, isKnown e = false) ∧ ∀ e ∈ k, isKnown e = true := by
  induction b with
  | nil => exact ⟨[], [], rfl, by simp, by simp⟩
  | cons x b ih =>
    obtain ⟨hx, hb⟩ := List.pairwise_cons.1 h
    cases hxk : isKnown x with
    | true =>
      refine ⟨[], x :: b, rfl, by simp, fun e he => ?_⟩
      rcases List.mem_cons.1 he with rfl | he
      · exact hxk
      · exact hx e he hxk
    | false =>
      obtain ⟨u, k, rfl, hu, hk⟩ := ih hb
      refine ⟨x :: u, k, rfl, fun e he => ?_, hk⟩
      rcases List.mem_cons.1 he with rfl | he
      · exact hxk
      · exact hu e he

/-- The loop, going forward from the live timeline. -/
theorem foldlM_forwards_live :
    ∀ {st : EventTimelineSet.AddEventsState Event EventId Token}, st.set.filter = none →
      (st.set.timeline st.set.liveTimeline).nextTimeline = none →
      st.timeline = st.set.liveTimeline →
      ∃ t upd new, events.foldlM (EventTimelineSet.addNextEvent getId .forwards) st =
        .ok ⟨events.foldl (fun s e => s.addLiveEvent getId e false) st.set, t, upd, new⟩ := by
  induction events with
  | nil =>
    intro st _ _ _
    exact ⟨_, _, _, rfl⟩
  | cons x events ih =>
    intro st hf hn ht
    obtain ⟨upd, new, hok⟩ := addNextEvent_live hf hn ht (x := x)
    rw [List.foldlM_cons, hok, List.foldl_cons]
    have hsame : (st.set.addLiveEvent getId x false).filter = st.set.filter ∧
        (st.set.addLiveEvent getId x false).liveTimeline = st.set.liveTimeline ∧
        ((st.set.addLiveEvent getId x false).timeline st.set.liveTimeline).nextTimeline =
          (st.set.timeline st.set.liveTimeline).nextTimeline := by
      cases hx : known getId st.set x with
      | true =>
        rw [addLiveEvent_known hf hx]
        exact ⟨rfl, rfl, rfl⟩
      | false =>
        rw [addLiveEvent_unknown hf hx]
        exact ⟨rfl, rfl, neighbour_addEventToTimeline st.set x _ _ false .forwards⟩
    obtain ⟨hf₁, hl₁, hn₁⟩ := hsame
    refine ih (hf₁.trans hf)
      ?_ (ht.trans hl₁.symm)
    change ((st.set.addLiveEvent getId x false).timeline
      (st.set.addLiveEvent getId x false).liveTimeline).nextTimeline = none
    rw [hl₁, hn₁]
    exact hn

/-- The events that follow one of the live timeline, going forward. -/
theorem foldlM_forwards_of_mem (hL : (L.map getId).Nodup) (hs : LiveInv getId L st.set)
    (ht : st.timeline = st.set.liveTimeline) (hx : x ∈ liveEvents st.set)
    (hrun : x :: events <:+: L) (hclear : ClearBeyond getId st.set (x :: events)) :
    LoopGrows getId L st.set
      (events.foldlM (EventTimelineSet.addNextEvent getId .forwards) st) := by
  obtain ⟨t, upd, new, hok⟩ := foldlM_forwards_live hs.filter hs.next ht
  rw [hok]
  change GrowsLive getId L st.set (events.foldl (fun s e => s.addLiveEvent getId e false) st.set)
  have hknown : ∀ e ∈ liveEvents st.set, known getId st.set e = true := by
    intro e he
    rw [known, (hs.get_iff hL (hs.segment.subset he)).2 he]
    rfl
  -- the event itself would be ignored
  have hcons : events.foldl (fun s e => s.addLiveEvent getId e false) st.set =
      (x :: events).foldl (fun s e => s.addLiveEvent getId e false) st.set := by
    rw [List.foldl_cons, addLiveEvent_known hs.filter (hknown x hx)]
  rw [hcons]
  rcases run_cut hL.of_map hs.segment hrun hx with hin | ⟨a, z, b, hab, hz, ha⟩
  · rw [foldl_addLiveEvent_known hs fun e he => hknown e (hin e he).1]
    exact hs.keep_grows (.refl _)
  · obtain ⟨u, k, rfl, hu, hk⟩ := split_of_pairwise (hclear a z b hab hz)
    have hzl : z ∈ liveEvents st.set := List.mem_of_getLast? hz
    have hseg : liveEvents st.set ++ u <:+: L := by
      refine append_of_run hL.of_map hs.segment hz (List.IsInfix.trans ⟨a, k, ?_⟩ hrun)
      rw [hab]
      simp
    have hsplit : x :: events = (a ++ [z]) ++ u ++ k := by
      rw [hab]
      simp
    rw [hsplit]
    have haz : ∀ e ∈ a ++ [z], known getId st.set e = true := by
      intro e he
      rcases List.mem_append.1 he with he | he
      · exact hknown e (ha e he)
      · rw [List.mem_singleton.1 he]
        exact hknown z hzl
    obtain ⟨hs', hev'⟩ := foldl_addLiveEvent hL hs haz hu hk hseg
    refine ⟨hs', fun e he => ?_, fun hnil => ?_⟩
    · rw [hev']
      exact List.mem_append_left u he
    · rw [hnil] at hx
      exact absurd hx List.not_mem_nil

/-- **Going forward** along other timelines, the live timeline grows at its end only by
what lies there. -/
theorem foldlM_forwards (hL : (L.map getId).Nodup) :
    ∀ {st : EventTimelineSet.AddEventsState Event EventId Token},
      LiveInv getId L st.set → st.timeline < st.set.created →
      st.timeline ≠ st.set.liveTimeline → events <:+: L → ClearBeyond getId st.set events →
      LoopGrows getId L st.set
        (events.foldlM (EventTimelineSet.addNextEvent getId .forwards) st) := by
  induction events with
  | nil =>
    intro st hs _ _ _ _
    exact hs.keep_grows (.refl _)
  | cons x events ih =>
    intro st hs ht hlive hrun hclear
    have hx : x ∈ L := hrun.subset (by simp)
    have hrun₁ : events <:+: L := (List.suffix_cons x _).isInfix.trans hrun
    rw [List.foldlM_cons]
    cases hget : st.set.eventIdToTimeline.get (getId x) with
    | none =>
      rw [addNextEvent_unknown .forwards hget]
      obtain ⟨hs₁, hev₁⟩ := hs.addElsewhere (b := false) hget ht hlive
      refine GrowsLive.loop ⟨hs₁, fun e he => ?_, fun hnil => ?_⟩
        (ih hs₁ ht hlive hrun₁ fun a z b hab hz => ?_)
      · rw [hev₁]
        exact he
      · rw [hev₁]
        exact hnil
      · -- the events beyond the live timeline are not the one just added
        change (liveEvents (st.set.addEventToTimeline getId x st.timeline false)).getLast? =
          some z at hz
        rw [hev₁] at hz
        have hpair := hclear (x :: a) z b (by rw [hab]; rfl) hz
        have hsame : ∀ e ∈ b, known getId
            (st.set.addEventToTimeline getId x st.timeline false) e = known getId st.set e := by
          intro e he
          have he' : e ∈ events := by
            rw [hab]
            exact List.mem_append_right a (List.mem_cons_of_mem z he)
          have hid := id_ne_of_run hL hrun he'
          rw [known_addEventToTimeline, decide_eq_false hid, Bool.false_or]
        refine hpair.imp_of_mem fun {v w} hv hw hvw hvk => ?_
        change known getId (st.set.addEventToTimeline getId x st.timeline false) w = true
        change known getId (st.set.addEventToTimeline getId x st.timeline false) v = true at hvk
        rw [hsame v hv] at hvk
        rw [hsame w hw]
        exact hvw hvk
    | some ex =>
      rcases addNextEvent_known (d := .forwards) hget (fun _ => hlive) with
        ⟨st', hok, hkeep, hwhere, hlive'⟩ | ⟨thrown, herr, hkeep⟩
      · rw [hok]
        have hs₁ := hs.keep hkeep
        have hclear' : ∀ {es : List Event}, ClearBeyond getId st.set es →
            ClearBeyond getId st'.set es := by
          intro es h a z b hab hz
          rw [hkeep.events] at hz
          have hpair := h a z b hab hz
          unfold known at hpair ⊢
          rw [hkeep.index]
          exact hpair
        by_cases hl : st'.timeline = st'.set.liveTimeline
        · rw [hlive' (hl.trans hkeep.liveTimeline)] at hget
          have hxl := (hs.get_iff hL hx).1 hget
          rw [← hkeep.events] at hxl
          exact (hs.keep_grows hkeep).loop
            (foldlM_forwards_of_mem hL hs₁ hl hxl hrun (hclear' hclear))
        · refine (hs.keep_grows hkeep).loop (ih hs₁ ?_ hl hrun₁ fun a z b hab hz => ?_)
          · rcases hwhere with h | h <;> rw [h]
            · exact lt_of_lt_of_le ht hkeep.created
            · exact lt_of_lt_of_le (hs.index_lt _ _ hget) hkeep.created
          · exact hclear' hclear (x :: a) z b (by rw [hab]; rfl) hz
      · rw [herr]
        exact hs.keep_grows hkeep

/-! ## The responses -/

omit [DecidableEq EventId] in
/-- What follows the loop leaves the live timeline alone. -/
theorem keepsLive_updateToken (d : Direction) (token : Option Token) :
    KeepsLive st.set (st.updateToken d token) := by
  unfold EventTimelineSet.AddEventsState.updateToken
  split
  next h =>
    refine keepsLive_setPaginationToken fun hd ht => ?_
    subst hd
    simp [ht] at h
  · exact .refl _

/-- **A batch** leaves the live timeline a segment, whether it is added or not. -/
theorem addEventsToTimeline_grows (hL : (L.map getId).Nodup) (hs : LiveInv getId L s)
    {toStart : Bool} {t : ℕ} (ht : t < s.created) (token : Option Token)
    (hrun : events <:+: (Direction.ofToStart toStart).view L)
    (hhead : t = s.liveTimeline → ∀ x ∈ events.head?, NextTo L .backwards s t x)
    (hclear : toStart = false → ClearBeyond getId s events) :
    GrowsLive getId L s (setAfter (s.addEventsToTimeline getId events toStart (some t) token)) := by
  unfold EventTimelineSet.addEventsToTimeline
  dsimp only
  split
  · exact hs.keep_grows (.refl s)
  next hreject =>
    rw [if_neg (by simp [hs.filter]), filterRoomTimeline_of_none hs.filter]
    have hloop : LoopGrows getId L s (events.foldlM
        (EventTimelineSet.addNextEvent getId (Direction.ofToStart toStart)) ⟨s, t, false, false⟩) := by
      cases toStart with
      | true =>
        refine foldlM_backwards hL hs ht hrun fun hlive => ?_
        change t = s.liveTimeline at hlive
        subst hlive
        exact hhead rfl
      | false =>
        refine foldlM_forwards hL hs ht (fun hlive => hreject ?_) hrun (hclear rfl)
        exact ⟨rfl, hlive⟩
    cases hr : events.foldlM (EventTimelineSet.addNextEvent getId (Direction.ofToStart toStart))
        ⟨s, t, false, false⟩ with
    | ok st =>
      rw [hr] at hloop
      have hst : GrowsLive getId L s st.set := hloop
      exact hst.trans (hst.inv.keep_grows (keepsLive_updateToken _ token))
    | error thrown =>
      rw [hr] at hloop
      exact hloop

theorem paginated_grows (hL : (L.map getId).Nodup) (hs : LiveInv getId L s) {backwards atEnd : Bool}
    {t : ℕ} (ht : t < s.created) (token : Option Token)
    (hrun : events <:+: (Direction.ofToStart backwards).view L)
    (hhead : t = s.liveTimeline → ∀ x ∈ events.head?, NextTo L .backwards s t x)
    (hclear : backwards = false → ClearBeyond getId s events) :
    GrowsLive getId L s (paginated getId s t backwards events token atEnd) := by
  have h := addEventsToTimeline_grows hL hs ht token hrun hhead hclear
  unfold paginated
  cases hr : s.addEventsToTimeline getId events backwards (some t) token with
  | error thrown =>
    rw [hr] at h
    exact h
  | ok s' =>
    rw [hr] at h
    have hs' : GrowsLive getId L s s' := h
    dsimp only
    split
    · refine hs'.trans (hs'.inv.keep_grows (keepsLive_setPaginationToken fun hd => ?_))
      exact absurd hd (by decide)
    · exact hs'

omit [DecidableEq EventId] in
/-- A new timeline has a number of its own. -/
theorem keepsLive_addTimeline {t : ℕ} (hlt : s.liveTimeline < s.created)
    (h : s.addTimeline = .ok (t, s')) : t = s.created ∧ t < s'.created ∧ KeepsLive s s' := by
  unfold EventTimelineSet.addTimeline at h
  split at h
  · exact absurd h (by simp)
  · have hpair := Except.ok.inj h
    obtain ⟨rfl, rfl⟩ := Prod.mk.inj hpair
    refine ⟨rfl, Nat.lt_succ_self _, rfl, rfl, Nat.le_succ _, rfl, ?_, ?_, fun hend => ?_⟩
    · simp only [liveEvents]
      rw [Function.update_of_ne hlt.ne]
    · dsimp only
      rw [Function.update_of_ne hlt.ne]
    · dsimp only
      rw [Function.update_of_ne hlt.ne]
      exact hend

theorem contextLoaded_grows (hL : (L.map getId).Nodup) (hs : LiveInv getId L s)
    {res : ContextResponse Event} (eventId : EventId)
    (hrun : res.eventsAfter.reverse ++ [res.event] ++ res.eventsBefore <:+: L.reverse) :
    GrowsLive getId L s (contextLoaded getId s eventId res) := by
  unfold contextLoaded
  split
  · exact hs.keep_grows (.refl s)
  · dsimp only
    split
    next t hget =>
      obtain ⟨x, hx, hxt⟩ := Option.bind_eq_some_iff.1 hget
      refine addEventsToTimeline_grows hL hs (hs.index_lt _ _ hxt) _ hrun (fun hlive y hy => ?_)
        (fun h => absurd h (by decide))
      obtain rfl : x = y := Option.some.inj (hx.symm.trans hy)
      have hxL : x ∈ L := List.mem_reverse.1 (hrun.subset (List.mem_of_mem_head? hx))
      subst hlive
      exact .inl ((hs.get_iff hL hxL).1 hxt)
    next hget =>
      cases hadd : s.addTimeline with
      | error message => exact hs.keep_grows (.refl s)
      | ok added =>
        obtain ⟨t, s₁⟩ := added
        obtain ⟨ht, hlt, hkeep⟩ := keepsLive_addTimeline hs.live_lt hadd
        have hne : t ≠ s₁.liveTimeline := by
          rw [ht, hkeep.liveTimeline]
          exact hs.live_lt.ne'
        have hkeep' : KeepsLive s (s₁.setTimeline t
            ((s₁.timeline t).setPaginationToken res.endToken .forwards)) :=
          hkeep.trans (keepsLive_setPaginationToken fun _ => hne)
        have hgrow := hs.keep_grows hkeep'
        refine hgrow.trans (addEventsToTimeline_grows hL hgrow.inv hlt _ hrun ?_ ?_)
        · exact fun h => absurd h hne
        · exact fun h => absurd h (by decide)

/-! ## The live timeline after a response -/

omit [DecidableEq EventId] in
/-- After a reset nothing is live, and no more is known than before. -/
theorem LiveInv.reset (hs : LiveInv getId L s) (prevBatch forwardToken : Option Token) :
    LiveInv getId L (s.resetLiveTimeline prevBatch forwardToken) ∧
      liveEvents (s.resetLiveTimeline prevBatch forwardToken) = [] ∧
      ∀ e, known getId s e = false →
        known getId (s.resetLiveTimeline prevBatch forwardToken) e = false := by
  have hget : ∀ id t, (s.resetLiveTimeline prevBatch forwardToken).eventIdToTimeline.get id =
      some t → s.eventIdToTimeline.get id = some t := by
    intro id t h
    unfold EventTimelineSet.resetLiveTimeline at h
    dsimp only at h
    split at h
    · exact absurd h (by simp)
    · exact h
  have hlive : (s.resetLiveTimeline prevBatch forwardToken).timeline s.created =
      ⟨[], 0, none, none, prevBatch, none⟩ := by
    unfold EventTimelineSet.resetLiveTimeline
    simp only [Function.update_self, hs.endToken, ite_self]
  have hnil : liveEvents (s.resetLiveTimeline prevBatch forwardToken) = [] :=
    congrArg EventTimeline.events hlive
  refine ⟨⟨hs.filter, Nat.lt_succ_self _, fun id t h => ?_, fun id => ?_, ?_, ?_, ?_⟩, hnil,
    fun e he => ?_⟩
  · exact (hs.index_lt id t (hget id t h)).trans (Nat.lt_succ_self _)
  · rw [hnil]
    constructor
    · intro h
      exact absurd (hs.index_lt id _ (hget id _ h)) (Nat.lt_irrefl _)
    · rintro ⟨e, he, _⟩
      exact absurd he List.not_mem_nil
  · rw [hnil]
    exact List.nil_infix
  · exact congrArg EventTimeline.nextTimeline hlive
  · exact congrArg EventTimeline.endToken hlive
  · by_contra hk
    obtain ⟨t, ht⟩ := Option.isSome_iff_exists.1 (Bool.not_eq_false _ ▸ hk)
    rw [known, hget _ t ht] at he
    exact absurd he (by simp)

theorem addLiveEvents_eq_ok (hs : LiveInv getId L s) (events : List Event) :
    addLiveEvents getId s events =
      .ok (events.foldl (fun s e => s.addLiveEvent getId e false) s) := by
  unfold addLiveEvents
  simp only [EventTimeline.getPaginationToken, EventTimeline.getNeighbouringTimeline, hs.endToken,
    hs.next, Option.isSome_none, Bool.false_eq_true, if_false]

theorem processSyncResponse_eq (hs : LiveInv getId L (prepareTimeline getId s r).1) :
    processSyncResponse getId s r = (prepareTimeline getId s r).2.foldl
      (fun s e => s.addLiveEvent getId e false) (prepareTimeline getId s r).1 := by
  unfold processSyncResponse
  simp only [addLiveEvents_eq_ok hs]

omit [DecidableEq EventId] in
theorem fromLastKnown_eq_none :
    fromLastKnown isKnown events = none ↔ ∀ e ∈ events, isKnown e = false := by
  induction events with
  | nil => simp [fromLastKnown]
  | cons x events ih =>
    cases hx : isKnown x <;> simp [fromLastKnown, ih, hx]

omit [DecidableEq EventId] in
/-- It is cut at the last known event. -/
theorem fromLastKnown_cut (hz : isKnown z = true) (hb : ∀ e ∈ b, isKnown e = false) :
    fromLastKnown isKnown (a ++ z :: b) = some (z :: b) := by
  induction a with
  | nil => simp [fromLastKnown, fromLastKnown_eq_none.2 hb, hz]
  | cons x a ih => simp [fromLastKnown, ih]

/-- **Appending.** Of a run that passes the end of the live timeline, what comes before is
known and what comes after is not: the live timeline ends where the run ends. -/
theorem foldl_addLiveEvent_run (hL : (L.map getId).Nodup) (hs : LiveInv getId L s)
    (hrun : a ++ z :: b <:+: L) (hz : (liveEvents s).getLast? = some z)
    (ha : ∀ e ∈ a, e ∈ liveEvents s)
    (hb : ∀ e ∈ b, (∀ f ∈ liveEvents s, Before L f e) → known getId s e = false) :
    LiveInv getId L ((a ++ z :: b).foldl (fun s e => s.addLiveEvent getId e false) s) ∧
      (liveEvents ((a ++ z :: b).foldl (fun s e => s.addLiveEvent getId e false) s)).getLast? =
        (a ++ z :: b).getLast? := by
  have hrun' : z :: b <:+: L := (List.suffix_append a _).isInfix.trans hrun
  have hknown : ∀ e ∈ a ++ [z], known getId s e = true := by
    intro e he
    have hel : e ∈ liveEvents s := by
      rcases List.mem_append.1 he with he | he
      · exact ha e he
      · rw [List.mem_singleton.1 he]
        exact List.mem_of_getLast? hz
    rw [known, (hs.get_iff hL (hs.segment.subset hel)).2 hel]
    rfl
  have hunknown : ∀ e ∈ b, known getId s e = false := fun e he =>
    hb e he (before_of_getLast hL.of_map hs.segment hz (before_of_run hrun' he))
  have hseg : liveEvents s ++ b <:+: L := append_of_run hL.of_map hs.segment hz hrun'
  obtain ⟨hs', hev'⟩ := foldl_addLiveEvent hL hs hknown hunknown (k := []) (by simp) hseg
  have hsplit : a ++ z :: b = (a ++ [z]) ++ b ++ [] := by simp
  rw [← hsplit] at hs' hev'
  refine ⟨hs', ?_⟩
  rw [hev']
  cases b with
  | nil => simpa using hz
  | cons y b =>
    have hne : y :: b ≠ [] := List.cons_ne_nil y b
    rw [List.getLast?_append_of_ne_nil _ hne, List.getLast?_append_of_ne_nil _ (by simp),
      List.getLast?_cons_cons]

/-- Unknown events that come first, when nothing is live. -/
theorem foldl_addLiveEvent_first (hL : (L.map getId).Nodup) (hs : LiveInv getId L s)
    (hrun : events <:+: L) (hnil : liveEvents s = [])
    (hunknown : ∀ e ∈ events, known getId s e = false) :
    LiveInv getId L (events.foldl (fun s e => s.addLiveEvent getId e false) s) ∧
      liveEvents (events.foldl (fun s e => s.addLiveEvent getId e false) s) = events := by
  have hseg : liveEvents s ++ events <:+: L := by
    rw [hnil]
    exact hrun
  obtain ⟨hs', hev', _⟩ := foldl_addLiveEvent_unknown hL hs hunknown hseg
  rw [hnil, List.nil_append] at hev'
  exact ⟨hs', hev'⟩

variable (getId L) in
/-- **The room between responses**: the newest event is a live one, and if there is none
yet nothing is live. -/
structure RoomInv (s : LiveRoom Event EventId) : Prop where
  live : LiveInv getId L s.set
  empty : s.newest = none → liveEvents s.set = []
  newest : ∀ n, s.newest = some n → n ∈ liveEvents s.set

omit [DecidableEq EventId] in
theorem RoomInv.grows (h : RoomInv getId L room) (hgrow : GrowsLive getId L room.set s') :
    RoomInv getId L { room with set := s' } where
  live := hgrow.inv
  empty hnone := hgrow.empty (h.empty hnone)
  newest n hn := hgrow.mem n (h.newest n hn)

/-- **A fresh start.** When nothing is live yet, or the response resets the live timeline, and
nothing of the response is known, the live timeline gets just its events. -/
theorem processSyncResponse_fresh (hL : (L.map getId).Nodup) (hs : LiveInv getId L s)
    (hrun : r.events <:+: L) (hunknown : ∀ e ∈ r.events, known getId s e = false)
    (hlive : liveEvents s = [] ∨ (r.isBrandNewRoom = false ∧ r.limited)) :
    LiveInv getId L (processSyncResponse getId s r) ∧
      liveEvents (processSyncResponse getId s r) = r.events := by
  have hprep : LiveInv getId L (prepareTimeline getId s r).1 ∧
      liveEvents (prepareTimeline getId s r).1 = [] ∧ (prepareTimeline getId s r).2 = r.events ∧
      ∀ e ∈ r.events, known getId (prepareTimeline getId s r).1 e = false := by
    unfold prepareTimeline
    split
    next hnew =>
      have hkeep : KeepsLive s (s.setTimeline s.liveTimeline
          ((s.timeline s.liveTimeline).setPaginationToken r.prevBatch .backwards)) :=
        keepsLive_setPaginationToken fun hd => absurd hd (by decide)
      have hnil := hlive.resolve_right fun h => by simp [hnew] at h
      refine ⟨hs.keep hkeep, hkeep.events.trans hnil, rfl, fun e he => ?_⟩
      rw [known, hkeep.index]
      exact hunknown e he
    · split
      · rw [fromLastKnown_eq_none.2 hunknown]
        obtain ⟨hs₁, hnil₁, hkeep⟩ := hs.reset r.prevBatch r.forwardToken
        exact ⟨hs₁, hnil₁, rfl, fun e he => hkeep e (hunknown e he)⟩
      next hnew hlimited =>
        have hnil := hlive.resolve_right fun h => hlimited h.2
        exact ⟨hs, hnil, rfl, hunknown⟩
  obtain ⟨hs₁, hnil₁, hevents, hunknown₁⟩ := hprep
  rw [processSyncResponse_eq hs₁, hevents]
  exact foldl_addLiveEvent_first hL hs₁ hrun hnil₁ hunknown₁

/-- **A limited response** that overlaps the live timeline. -/
theorem processSyncResponse_limited (hL : (L.map getId).Nodup) (hs : LiveInv getId L s)
    (hrun : r.events <:+: L) (hnew : r.isBrandNewRoom = false) (hlimited : r.limited)
    (hz : (liveEvents s).getLast? = some z) (hmem : z ∈ r.events)
    (hbeyond : ∀ e ∈ r.events, (∀ f ∈ liveEvents s, Before L f e) → known getId s e = false) :
    LiveInv getId L (processSyncResponse getId s r) ∧
      (liveEvents (processSyncResponse getId s r)).getLast? = r.events.getLast? := by
  obtain ⟨a, b, hab⟩ := List.append_of_mem hmem
  have hrun' : z :: b <:+: L := by
    rw [hab] at hrun
    exact (List.suffix_append a _).isInfix.trans hrun
  have hzk : known getId s z = true := by
    have hzl := List.mem_of_getLast? hz
    rw [known, (hs.get_iff hL (hs.segment.subset hzl)).2 hzl]
    rfl
  have hb : ∀ e ∈ b, (∀ f ∈ liveEvents s, Before L f e) → known getId s e = false := by
    intro e he
    apply hbeyond
    rw [hab]
    exact List.mem_append_right a (List.mem_cons_of_mem z he)
  have hunknown : ∀ e ∈ b, known getId s e = false := fun e he =>
    hb e he (before_of_getLast hL.of_map hs.segment hz (before_of_run hrun' he))
  -- the response is cut at the end of the live timeline
  have hprep : prepareTimeline getId s r = (s, z :: b) := by
    unfold prepareTimeline
    rw [if_neg (by simp [hnew]), if_pos hlimited, hab, fromLastKnown_cut hzk hunknown]
  have hs₁ : LiveInv getId L (prepareTimeline getId s r).1 := by
    rw [hprep]
    exact hs
  rw [processSyncResponse_eq hs₁, hprep]
  obtain ⟨hs', hlast⟩ := foldl_addLiveEvent_run (a := []) hL hs hrun' hz (by simp) hb
  refine ⟨hs', hlast.trans ?_⟩
  rw [hab]
  exact (List.getLast?_append_of_ne_nil a (List.cons_ne_nil z b)).symm

/-- **A response that continues** where the last one ended, in the live timeline. -/
theorem processSyncResponse_continues (hL : (L.map getId).Nodup) (hs : LiveInv getId L s)
    {n : Event} (hrun : n :: r.events <:+: L) (hnew : r.isBrandNewRoom = false)
    (hlimited : ¬ r.limited) (hn : n ∈ liveEvents s) (hz : (liveEvents s).getLast? = some z)
    (hmem : z ∈ n :: r.events)
    (hbeyond : ∀ e ∈ r.events, (∀ f ∈ liveEvents s, Before L f e) → known getId s e = false) :
    LiveInv getId L (processSyncResponse getId s r) ∧
      (liveEvents (processSyncResponse getId s r)).getLast? = (n :: r.events).getLast? := by
  have hprep : prepareTimeline getId s r = (s, r.events) := by
    unfold prepareTimeline
    rw [if_neg (by simp [hnew]), if_neg hlimited]
  have hs₁ : LiveInv getId L (prepareTimeline getId s r).1 := by
    rw [hprep]
    exact hs
  have hnk : known getId s n = true := by
    rw [known, (hs.get_iff hL (hs.segment.subset hn)).2 hn]
    rfl
  -- the newest event would be ignored if it came again
  have hcons : r.events.foldl (fun s e => s.addLiveEvent getId e false) s =
      (n :: r.events).foldl (fun s e => s.addLiveEvent getId e false) s := by
    rw [List.foldl_cons, addLiveEvent_known hs.filter hnk]
  rw [processSyncResponse_eq hs₁, hprep]
  rw [hcons]
  rcases run_cut hL.of_map hs.segment hrun hn with hin | ⟨a, w, b, hab, hw, ha⟩
  · exact absurd hz (hin z hmem).2
  · obtain rfl : w = z := Option.some.inj (hw.symm.trans hz)
    have hb : ∀ e ∈ b, (∀ f ∈ liveEvents s, Before L f e) → known getId s e = false := by
      intro e he hafter
      have hmem' : e ∈ n :: r.events := by
        rw [hab]
        exact List.mem_append_right a (List.mem_cons_of_mem w he)
      rcases List.mem_cons.1 hmem' with rfl | hmem'
      · exact absurd (hafter e hn) (Before.irrefl hL.of_map)
      · exact hbeyond e hmem' hafter
    rw [hab] at hrun ⊢
    exact foldl_addLiveEvent_run hL hs hrun hz ha hb

/-- **A response** of `/sync` leaves the live timeline a segment that ends with the newest
event. -/
theorem processSyncResponse_spec (hL : (L.map getId).Nodup) (h : RoomInv getId L room)
    (hf : FollowsOrder L room (.synced r)) (hc : StaysLive getId L room (.synced r)) :
    LiveInv getId L (processSyncResponse getId room.set r) ∧
      (liveEvents (processSyncResponse getId room.set r)).getLast? =
        (room.newest.toList ++ r.events).getLast? := by
  obtain ⟨hrun, hnewest⟩ := hf
  have hs := h.live
  cases hn : room.newest with
  | none =>
    have hnil := h.empty hn
    have hunknown : ∀ e ∈ r.events, known getId room.set e = false := by
      intro e he
      rcases hc with hreset | ⟨_, hbeyond⟩
      · exact hreset.2.2 e he
      · refine hbeyond e he fun f hfl => ?_
        rw [hnil] at hfl
        exact absurd hfl List.not_mem_nil
    obtain ⟨hs', hev'⟩ := processSyncResponse_fresh hL hs hrun hunknown (.inl hnil)
    rw [hev']
    exact ⟨hs', rfl⟩
  | some n =>
    rw [hn] at hnewest
    obtain ⟨hnew, hwhere⟩ := hnewest
    rw [Option.toList_some, List.singleton_append]
    have hnl : n ∈ liveEvents room.set := h.newest n hn
    by_cases hlimited : r.limited = true
    · rw [if_pos hlimited] at hwhere
      obtain ⟨f, hf, hnf⟩ := hwhere
      obtain ⟨rest, hrest⟩ := List.head?_eq_some_iff.1 hf
      have hcons : (n :: r.events).getLast? = r.events.getLast? := by
        rw [hrest, List.getLast?_cons_cons]
      rw [hcons]
      by_cases hunknown : ∀ e ∈ r.events, known getId room.set e = false
      · obtain ⟨hs', hev'⟩ :=
          processSyncResponse_fresh hL hs hrun hunknown (.inr ⟨hnew, hlimited⟩)
        exact ⟨hs', congrArg List.getLast? hev'⟩
      · obtain ⟨hend, hbeyond⟩ := hc.resolve_left fun hreset => hunknown hreset.2.2
        have hoverlap : ∃ z ∈ (liveEvents room.set).getLast?, z ∈ r.events := by
          rcases hend with hlast | hoverlap
          · rw [hn] at hlast
            rcases hnf with rfl | hbefore
            · exact ⟨n, hlast, List.mem_of_mem_head? hf⟩
            · -- the response starts after the last live event
              have hafter : ∀ e ∈ r.events, Before L n e := by
                intro e he
                rw [hrest] at he hrun
                rcases List.mem_cons.1 he with rfl | he
                · exact hbefore
                · exact hbefore.trans hL.of_map (before_of_run hrun he)
              exact absurd (fun e he => hbeyond e he
                (before_of_getLast hL.of_map hs.segment hlast (hafter e he))) hunknown
          · exact hoverlap
        obtain ⟨z, hz, hmem⟩ := hoverlap
        exact processSyncResponse_limited hL hs hrun hnew hlimited hz hmem hbeyond
    · rw [if_neg hlimited] at hwhere
      obtain ⟨hend, hbeyond⟩ := hc.resolve_left fun hreset => hlimited hreset.2.1
      have hoverlap : ∃ z ∈ (liveEvents room.set).getLast?, z ∈ n :: r.events := by
        rcases hend with hlast | ⟨z, hz, hmem⟩
        · exact ⟨n, hlast.trans hn, List.mem_cons_self⟩
        · exact ⟨z, hz, List.mem_cons_of_mem n hmem⟩
      obtain ⟨z, hz, hmem⟩ := hoverlap
      exact processSyncResponse_continues hL hs hwhere hnew hlimited hnl hz hmem hbeyond

/-- **One response** keeps the room as it is described. -/
theorem RoomInv.step (hL : (L.map getId).Nodup) {timelineSupport : Bool}
    {room' : LiveRoom Event EventId} {e : ServerEvent Event EventId} (h : RoomInv getId L room)
    (hf : FollowsOrder L room e) (hc : StaysLive getId L room e)
    (hstep : (liveSystem getId timelineSupport).step room e = some room') :
    RoomInv getId L room' := by
  cases e with
  | synced r =>
    obtain rfl := Option.some.inj hstep
    obtain ⟨hs', hlast⟩ := processSyncResponse_spec hL h hf hc
    refine ⟨hs', fun hnone => ?_, fun n hn => ?_⟩
    · exact List.getLast?_eq_none_iff.1 (hlast.trans hnone)
    · exact List.mem_of_getLast? (hlast.trans hn)
  | contextLoaded eventId res =>
    obtain rfl := Option.some.inj hstep
    exact h.grows (contextLoaded_grows hL h.live eventId hf)
  | paginated t backwards events token atEnd =>
    obtain ⟨hrun, hhead⟩ := hf
    simp only [liveSystem] at hstep
    split at hstep
    next ht =>
      obtain rfl := Option.some.inj hstep
      exact h.grows (paginated_grows hL h.live ht token hrun hhead hc)
    · exact absurd hstep (by simp)

end Loop

end Invariant

/-! ## Runs -/

/-- A new room, older events, and a limited response that overlaps the live timeline. -/
def overlapping : List (ServerEvent ℕ ℕ) :=
  [.synced ⟨true, false, [1, 2], some "a", none⟩,
   .paginated 0 true [0] none true,
   .synced ⟨false, true, [2, 3], some "b", none⟩]

theorem overlapping_runs : ((liveSystem id true).run overlapping).isSome := by decide

theorem overlapping_reachable : (liveSystem id true).ReachableUnder
    (fun room e => FollowsOrder [0, 1, 2, 3, 4] room e ∧ StaysLive id [0, 1, 2, 3, 4] room e)
    (((liveSystem id true).run overlapping).get overlapping_runs) := by
  refine ⟨_, System.trace_get overlapping_runs, ?_⟩
  change ∀ q ∈ [_, _, _], _
  simp only [List.forall_mem_cons]
  refine ⟨⟨⟨by decide, List.cons_ne_nil _ _⟩, .inr ⟨.inl rfl, fun _ _ _ => rfl⟩⟩,
    ⟨⟨by decide, fun _ x hx => ?_⟩, fun h => absurd h (by decide)⟩,
    ⟨⟨by decide, rfl, 2, rfl, .inl rfl⟩, .inr ⟨.inl rfl, by decide⟩⟩, by simp⟩
  obtain rfl : 0 = x := Option.some.inj hx
  exact .inr ⟨by decide, by decide⟩

theorem overlapping_synced : ((liveSystem id true).step
    (((liveSystem id true).run overlapping).get overlapping_runs)
    (.synced ⟨false, false, [4], none, none⟩)).isSome := by decide

/-- The room after the response that follows the limited one. -/
def overlappingSynced : LiveRoom ℕ ℕ :=
  ((liveSystem id true).step (((liveSystem id true).run overlapping).get overlapping_runs)
    (.synced ⟨false, false, [4], none, none⟩)).get overlapping_synced

/-- A new room, and a context load that brings events newer than the live ones. -/
def newerContext : List (ServerEvent ℕ ℕ) :=
  [.synced ⟨true, false, [0, 1], some "a", none⟩,
   .contextLoaded 4 ⟨4, [3], [], some "b", some "c"⟩]

theorem newerContext_runs : ((liveSystem id true).run newerContext).isSome := by decide

theorem newerContext_reachable : (liveSystem id true).ReachableUnder
    (FollowsOrder [0, 1, 2, 3, 4, 5])
    (((liveSystem id true).run newerContext).get newerContext_runs) := by
  refine ⟨_, System.trace_get newerContext_runs, ?_⟩
  change ∀ q ∈ [_, _], _
  simp only [List.forall_mem_cons]
  have hrun : [4, 3] <:+: [0, 1, 2, 3, 4, 5].reverse := by decide
  exact ⟨⟨by decide, List.cons_ne_nil _ _⟩, hrun, by simp⟩

end MatrixSdk.Sync
