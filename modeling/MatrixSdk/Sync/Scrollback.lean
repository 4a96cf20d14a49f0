/-
Scrolling back: `MatrixClient.scrollback` of `src/client.js` on a room whose live timeline `/sync`
resets (`SyncApi._processSyncResponse` in `src/sync.js`).

The request is made with the token at the start of the live timeline. When the response arrives its
events are added at the start of the timeline that is live then, and its token is stored there. If the
live timeline has been reset in between, the events go into another timeline than the one they belong
before.

The room's events have an order `L`, and a token denotes a position of it, the number of events before.
`/sync` goes through the order; a response that is limited may leave events out, and it resets the live
timeline, since it has nothing the client knows. What the requests for older events bring ends where
their token is.

In the runs that are in order no timeline has a neighbour, so the events that a response can meet in
another timeline are met one timeline after the other, each older than the last, and the loop of
`addEventsToTimeline` does not throw ([`Walks`]).
-/
import MatrixSdk.Models.IndexedTimelines
import MatrixSdk.Sync.LiveTimeline

set_option autoImplicit false

namespace MatrixSdk.Sync

open MatrixSdk.Lib MatrixSdk.Models

/-! ## The model -/

/-- What `_ongoingScrollbacks` has of the room. A request follows a delay, and it is made with the
token there is then. If adding the events throws, the promise is never settled. -/
inductive Scrollback
  | idle
  | delayed
  | requested (token : Option Token)
  | unsettled
  deriving DecidableEq

/-- A joined room. `/sync` has come to the position `synced`. -/
structure ScrollbackRoom (Event EventId : Type) where
  set : EventTimelineSet Event EventId Token
  synced : ℕ
  scrollback : Scrollback

/-- `synced` has the position where the events of the response start. -/
inductive ScrollbackStep (Event : Type)
  | synced (start : ℕ) (r : JoinedTimeline Event)
  | scrollback
  | request
  | failed
  | arrived (chunk : List Event) (endToken : Token)

section Model

variable {Event EventId : Type}

/-- `room.oldState.paginationToken`. -/
def oldToken (s : EventTimelineSet Event EventId Token) : Option Token :=
  (s.timeline s.liveTimeline).getPaginationToken .backwards

/-- `room.oldState.paginationToken` is set. -/
def setOldToken (s : EventTimelineSet Event EventId Token) (token : Option Token) :
    EventTimelineSet Event EventId Token :=
  s.setTimeline s.liveTimeline
    ((s.timeline s.liveTimeline).setPaginationToken token .backwards)

variable [DecidableEq Event] [DecidableEq EventId] (getId : Event → EventId)

/-- The response to the request of `scrollback` arrives. -/
def messagesArrived (s : EventTimelineSet Event EventId Token) (chunk : List Event)
    (endToken : Token) : Except (EventTimelineSet.Thrown Event EventId Token)
      (EventTimelineSet Event EventId Token) :=
  (s.addEventsToTimeline getId chunk true (some s.liveTimeline) none).map fun s =>
    setOldToken s (if chunk.isEmpty then none else some endToken)

variable (L : List Event) (position : Token → ℕ)

/-- **What `/sync` promises.** Its events are a run of the order that starts where it has come to, or
later if it is limited or the room is new; and the token it brings denotes where they start. -/
def FromSync (s : ScrollbackRoom Event EventId) (start : ℕ) (r : JoinedTimeline Event) : Prop :=
  s.synced ≤ start ∧ start ≤ L.length ∧ r.events <+: L.drop start ∧
    (∀ token ∈ r.prevBatch, position token = start) ∧
    (r.isBrandNewRoom = true → s.synced = 0) ∧
    (r.isBrandNewRoom = false → r.limited = false → start = s.synced)

/-- **What `/messages` promises.** Its events are those before the token, the latest first, and the
token it brings denotes where they end. -/
def FromMessages (token : Token) (chunk : List Event) (endToken : Token) : Prop :=
  chunk <+: (L.take (position token)).reverse ∧
    (chunk ≠ [] → position endToken + chunk.length = position token)

instance (s : ScrollbackRoom Event EventId) (start : ℕ) (r : JoinedTimeline Event) :
    Decidable (FromSync L position s start r) := by
  unfold FromSync
  infer_instance

instance (token : Token) (chunk : List Event) (endToken : Token) :
    Decidable (FromMessages L position token chunk endToken) := by
  unfold FromMessages
  infer_instance

/-- The room, `/sync` and the calls of `scrollback`. A call is answered at once when there is nothing
before the live timeline, and with the same promise when there is one already. -/
def scrollbackSystem (timelineSupport : Bool) :
    System (ScrollbackRoom Event EventId) (ScrollbackStep Event) where
  init := ⟨.new timelineSupport none, 0, .idle⟩
  step s
    | .synced start r =>
      if FromSync L position s start r then
        some { s with
          set := processSyncResponse getId s.set r
          synced := start + r.events.length }
      else none
    | .scrollback =>
      some (if s.scrollback = .idle ∧ (oldToken s.set).isSome then { s with scrollback := .delayed }
        else s)
    | .request =>
      if s.scrollback = .delayed then some { s with scrollback := .requested (oldToken s.set) }
      else none
    | .failed =>
      match s.scrollback with
      | .requested _ => some { s with scrollback := .idle }
      | _ => none
    | .arrived chunk endToken =>
      match s.scrollback with
      | .requested (some token) =>
        if FromMessages L position token chunk endToken then
          match messagesArrived getId s.set chunk endToken with
          | .ok set => some { s with set := set, scrollback := .idle }
          | .error thrown => some { s with set := thrown.set, scrollback := .unsettled }
        else none
      | _ => none

end Model

/-! ## Adding to the live timeline -/

section Grow

variable {Event EventId : Type} {getId : Event → EventId}
variable {s s' s'' : EventTimelineSet Event EventId Token} {x : Event}

/-- Only the events of the live timeline differ. -/
structure OnlyLiveEvents (s s' : EventTimelineSet Event EventId Token) : Prop where
  filter : s'.filter = s.filter
  timelines : s'.timelines = s.timelines
  liveTimeline : s'.liveTimeline = s.liveTimeline
  others : ∀ t, t ≠ s.liveTimeline → s'.timeline t = s.timeline t
  neighbour : ∀ d, (s'.timeline s.liveTimeline).getNeighbouringTimeline d =
    (s.timeline s.liveTimeline).getNeighbouringTimeline d
  token : ∀ d, (s'.timeline s.liveTimeline).getPaginationToken d =
    (s.timeline s.liveTimeline).getPaginationToken d

theorem OnlyLiveEvents.refl (s : EventTimelineSet Event EventId Token) : OnlyLiveEvents s s :=
  ⟨rfl, rfl, rfl, fun _ _ => rfl, fun _ => rfl, fun _ => rfl⟩

theorem OnlyLiveEvents.trans (h : OnlyLiveEvents s s') (h' : OnlyLiveEvents s' s'') :
    OnlyLiveEvents s s'' where
  filter := h'.filter.trans h.filter
  timelines := h'.timelines.trans h.timelines
  liveTimeline := h'.liveTimeline.trans h.liveTimeline
  others t ht := by
    rw [h'.others t (by rw [h.liveTimeline]; exact ht), h.others t ht]
  neighbour d := by
    have hsame := h'.neighbour d
    rw [h.liveTimeline] at hsame
    rw [hsame, h.neighbour d]
  token d := by
    have hsame := h'.token d
    rw [h.liveTimeline] at hsame
    rw [hsame, h.token d]

theorem OnlyLiveEvents.oldToken_eq (h : OnlyLiveEvents s s') : oldToken s' = oldToken s := by
  unfold oldToken
  rw [h.liveTimeline, h.token]

/-- **An unlinked set**: no filter, an index that is in order, no links, and nothing to fetch after the
live timeline. -/
structure Unlinked (getId : Event → EventId) (s : EventTimelineSet Event EventId Token) : Prop where
  filter : s.filter = none
  indexed : Indexed getId s
  links : ∀ t d, (s.timeline t).getNeighbouringTimeline d = none
  live : (s.timeline s.liveTimeline).endToken = none

namespace Unlinked

theorem new (timelineSupport : Bool) :
    Unlinked getId (.new timelineSupport none : EventTimelineSet Event EventId Token) where
  filter := rfl
  indexed := .new timelineSupport none
  links t d := by cases d <;> rfl
  live := rfl

theorem onlyLive (hs : Unlinked getId s) (h : OnlyLiveEvents s s') (hindexed : Indexed getId s') :
    Unlinked getId s' where
  filter := h.filter.trans hs.filter
  indexed := hindexed
  links t d := by
    by_cases ht : t = s.liveTimeline
    · rw [ht, h.neighbour, hs.links]
    · rw [h.others t ht, hs.links]
  live := by
    rw [h.liveTimeline]
    exact (h.token .forwards).trans hs.live

/-- A token at the start of the live timeline. -/
theorem withOldToken (hs : Unlinked getId s) (token : Option Token) :
    Unlinked getId (setOldToken s token) := by
  have hself : (setOldToken s token).timeline s.liveTimeline =
      (s.timeline s.liveTimeline).setPaginationToken token .backwards := Function.update_self ..
  have hother : ∀ t, t ≠ s.liveTimeline →
      (setOldToken s token).timeline t = s.timeline t := fun t ht =>
    Function.update_of_ne ht ..
  refine ⟨hs.filter, hs.indexed.of_sameEvents (setTimeline_sameEvents rfl) rfl, fun t d => ?_, ?_⟩
  · by_cases ht : t = s.liveTimeline
    · rw [ht, hself, ← hs.links s.liveTimeline d]
      cases d <;> rfl
    · rw [hother t ht, hs.links]
  · show ((setOldToken s token).timeline s.liveTimeline).endToken = none
    rw [hself]
    exact hs.live

end Unlinked

theorem liveEvents_setOldToken (token : Option Token) :
    liveEvents (setOldToken s token) = liveEvents s := by
  have hsame : SameEvents s (setOldToken s token) := setTimeline_sameEvents rfl
  exact hsame.events s.liveTimeline

theorem oldToken_setOldToken (token : Option Token) : oldToken (setOldToken s token) = token := by
  show ((Function.update s.timeline s.liveTimeline _) s.liveTimeline).getPaginationToken _ = token
  rw [Function.update_self]
  rfl

variable [DecidableEq EventId]

/-- An unknown event, added to an end of the live timeline. -/
theorem Unlinked.add (hs : Unlinked getId s) (hnew : known getId s x = false) (b : Bool) :
    Unlinked getId (s.addEventToTimeline getId x s.liveTimeline b) ∧
      OnlyLiveEvents s (s.addEventToTimeline getId x s.liveTimeline b) ∧
      liveEvents (s.addEventToTimeline getId x s.liveTimeline b) =
        ((s.timeline s.liveTimeline).addEvent x b).events := by
  have hself : (s.addEventToTimeline getId x s.liveTimeline b).timeline s.liveTimeline =
      (s.timeline s.liveTimeline).addEvent x b := Function.update_self ..
  have honly : OnlyLiveEvents s (s.addEventToTimeline getId x s.liveTimeline b) := by
    refine ⟨rfl, rfl, rfl, fun t ht => Function.update_of_ne ht .., fun d => ?_, fun d => ?_⟩
    · rw [hself]
      cases d <;> rfl
    · rw [hself]
      cases d <;> rfl
  have hindexed := hs.indexed.addEventToTimeline hs.indexed.live b
    (hs.indexed.get_eq_none.1 (known_eq_false.1 hnew))
  exact ⟨hs.onlyLive honly hindexed.1, honly, congrArg EventTimeline.events hself⟩

/-- **Live events** that are unknown are appended. -/
theorem Unlinked.foldl_addLiveEvent (hs : Unlinked getId s) {events : List Event}
    (hnodup : (events.map getId).Nodup) (hnew : ∀ e ∈ events, known getId s e = false) :
    Unlinked getId (events.foldl (fun s e => s.addLiveEvent getId e false) s) ∧
      OnlyLiveEvents s (events.foldl (fun s e => s.addLiveEvent getId e false) s) ∧
      liveEvents (events.foldl (fun s e => s.addLiveEvent getId e false) s) =
        liveEvents s ++ events := by
  induction events generalizing s with
  | nil => exact ⟨hs, .refl s, (List.append_nil _).symm⟩
  | cons x events ih =>
    rw [List.map_cons, List.nodup_cons] at hnodup
    have hx := hnew x List.mem_cons_self
    obtain ⟨hs₁, honly₁, hev₁⟩ := hs.add hx false
    rw [List.foldl_cons, addLiveEvent_unknown hs.filter hx]
    have hrest : ∀ e ∈ events,
        known getId (s.addEventToTimeline getId x s.liveTimeline false) e = false := by
      intro e he
      have hne : getId e ≠ getId x := fun hid => hnodup.1 (hid ▸ List.mem_map_of_mem he)
      rw [known_addEventToTimeline, hnew e (List.mem_cons_of_mem x he), decide_eq_false hne]
      rfl
    obtain ⟨hs', honly, hev⟩ := ih hs₁ hnodup.2 hrest
    refine ⟨hs', honly₁.trans honly, ?_⟩
    rw [hev, hev₁]
    show (liveEvents s ++ [x]) ++ events = liveEvents s ++ x :: events
    rw [List.append_assoc]
    rfl

/-- **Older events** that are unknown are put in front. -/
theorem Unlinked.foldlM_addNextEvent (hs : Unlinked getId s) {chunk : List Event}
    (hnodup : (chunk.map getId).Nodup) (hnew : ∀ e ∈ chunk, known getId s e = false)
    (didUpdate lastEventWasNew : Bool) :
    ∃ st, chunk.foldlM (EventTimelineSet.addNextEvent getId .backwards)
        ⟨s, s.liveTimeline, didUpdate, lastEventWasNew⟩ = .ok st ∧
      st.timeline = s.liveTimeline ∧ Unlinked getId st.set ∧ OnlyLiveEvents s st.set ∧
      liveEvents st.set = chunk.reverse ++ liveEvents s ∧
      ∀ e, known getId s e = true → known getId st.set e = true := by
  induction chunk generalizing s didUpdate lastEventWasNew with
  | nil => exact ⟨_, rfl, rfl, hs, .refl s, rfl, fun _ h => h⟩
  | cons x chunk ih =>
    rw [List.map_cons, List.nodup_cons] at hnodup
    have hx := hnew x List.mem_cons_self
    obtain ⟨hs₁, honly₁, hev₁⟩ := hs.add hx true
    have hrest : ∀ e ∈ chunk,
        known getId (s.addEventToTimeline getId x s.liveTimeline true) e = false := by
      intro e he
      have hne : getId e ≠ getId x := fun hid => hnodup.1 (hid ▸ List.mem_map_of_mem he)
      rw [known_addEventToTimeline, hnew e (List.mem_cons_of_mem x he), decide_eq_false hne]
      rfl
    obtain ⟨st, hok, hat, hs', honly, hev, hknown⟩ := ih hs₁ hnodup.2 hrest true true
    refine ⟨st, ?_, hat, hs', honly₁.trans honly, ?_, fun e he => hknown e ?_⟩
    · rw [List.foldlM_cons, addNextEvent_unknown .backwards (known_eq_false.1 hx)]
      exact hok
    · rw [hev, hev₁]
      show chunk.reverse ++ x :: liveEvents s = (x :: chunk).reverse ++ liveEvents s
      rw [List.reverse_cons, List.append_assoc]
      rfl
    · rw [known_addEventToTimeline, he, Bool.or_true]

/-! ## A response of `/sync` with unknown events -/

omit [DecidableEq EventId] in
/-- **A reset** of a set without links. -/
theorem Unlinked.resetLiveTimeline (hs : Unlinked getId s) (back forward : Option Token) :
    Unlinked getId (s.resetLiveTimeline back forward) ∧
      liveEvents (s.resetLiveTimeline back forward) = [] ∧
      oldToken (s.resetLiveTimeline back forward) = back := by
  have hlive : (s.resetLiveTimeline back forward).timeline s.created =
      ⟨[], 0, none, none, back, if (!s.timelineSupport || forward.isNone) = true then
        (s.timeline s.liveTimeline).endToken else none⟩ := Function.update_self ..
  refine ⟨⟨hs.filter, (hs.indexed.resetLiveTimeline back forward).1, fun t d => ?_, ?_⟩, ?_, ?_⟩
  · by_cases hnew : t = s.created
    · rw [hnew, hlive]
      cases d <;> rfl
    · have hkept : ((s.resetLiveTimeline back forward).timeline t).getNeighbouringTimeline d =
          (s.timeline t).getNeighbouringTimeline d := by
        unfold EventTimelineSet.resetLiveTimeline
        dsimp only
        rw [Function.update_of_ne hnew]
        by_cases hold : t = s.liveTimeline
        · rw [hold, Function.update_self]
          cases d <;> rfl
        · rw [Function.update_of_ne hold]
      rw [hkept, hs.links]
  · show ((s.resetLiveTimeline back forward).timeline s.created).endToken = none
    rw [hlive]
    show (if _ then _ else _) = none
    rw [hs.live, ite_self]
  · exact congrArg EventTimeline.events hlive
  · exact congrArg (fun t => t.getPaginationToken .backwards) hlive

/-- What is done before unknown events are added. -/
def prepared (s : EventTimelineSet Event EventId Token) (r : JoinedTimeline Event) :
    EventTimelineSet Event EventId Token :=
  if r.isBrandNewRoom then setOldToken s r.prevBatch
  else if r.limited then s.resetLiveTimeline r.prevBatch r.forwardToken
  else s

omit [DecidableEq EventId] in
theorem prepareTimeline_unknown {r : JoinedTimeline Event}
    (hnew : ∀ e ∈ r.events, known getId s e = false) :
    prepareTimeline getId s r = (prepared s r, r.events) := by
  unfold prepareTimeline prepared
  rw [fromLastKnown_eq_none.2 hnew]
  by_cases hbrand : r.isBrandNewRoom = true
  · rw [if_pos hbrand, if_pos hbrand]
    rfl
  · rw [if_neg hbrand, if_neg hbrand]
    by_cases hlimited : r.limited = true
    · rw [if_pos hlimited, if_pos hlimited]
    · rw [if_neg hlimited, if_neg hlimited]

omit [DecidableEq EventId] in
theorem Unlinked.prepare (hs : Unlinked getId s) (r : JoinedTimeline Event) :
    Unlinked getId (prepared s r) ∧
      ∀ e, known getId s e = false → known getId (prepared s r) e = false := by
  unfold prepared
  split
  · exact ⟨hs.withOldToken r.prevBatch, fun _ h => h⟩
  · split
    · refine ⟨(hs.resetLiveTimeline r.prevBatch r.forwardToken).1, fun e he => ?_⟩
      rw [known_eq_false] at he ⊢
      show (if _ then JsObject.empty else _).get _ = none
      split
      · rfl
      · exact he
    · exact ⟨hs, fun _ h => h⟩

/-- **A response with unknown events** adds them to the timeline that is live by then. -/
theorem Unlinked.synced (hs : Unlinked getId s) {r : JoinedTimeline Event}
    (hnodup : (r.events.map getId).Nodup) (hnew : ∀ e ∈ r.events, known getId s e = false) :
    Unlinked getId (processSyncResponse getId s r) ∧
      OnlyLiveEvents (prepared s r) (processSyncResponse getId s r) ∧
      liveEvents (processSyncResponse getId s r) = liveEvents (prepared s r) ++ r.events := by
  obtain ⟨hs₁, hkeeps⟩ := hs.prepare r
  have heq : processSyncResponse getId s r =
      r.events.foldl (fun s e => s.addLiveEvent getId e false) (prepared s r) := by
    unfold processSyncResponse addLiveEvents
    rw [prepareTimeline_unknown hnew]
    dsimp only
    rw [show ((prepared s r).timeline (prepared s r).liveTimeline).getPaginationToken
      .forwards = none from hs₁.live, hs₁.links]
    rfl
  rw [heq]
  exact hs₁.foldl_addLiveEvent hnodup fun e he => hkeeps e (hnew e he)

end Grow

/-! ## Older events that are known -/

section Walk

variable {Event EventId : Type} [DecidableEq EventId] {getId : Event → EventId} {L : List Event}
variable {st : EventTimelineSet.AddEventsState Event EventId Token} {x y : Event}

variable (getId L) in
/-- The loop has left the live timeline for older ones, and has come to the event `x` there. What
is linked to a newer timeline, the one it is at apart, is behind it. -/
structure Walks (st : EventTimelineSet.AddEventsState Event EventId Token) (x : Event) : Prop where
  indexed : Indexed getId st.set
  segments : ∀ t ∈ st.set.timelines, t ≠ st.set.liveTimeline →
    (st.set.timeline t).events <:+: L
  timeline : st.timeline ∈ st.set.timelines
  notLive : st.timeline ≠ st.set.liveTimeline
  mem : x ∈ (st.set.timeline st.timeline).events
  newer : ∀ u ∈ st.set.timelines, u ≠ st.timeline →
    u = st.set.liveTimeline ∨ (st.set.timeline u).nextTimeline ≠ none →
    ∀ e ∈ (st.set.timeline u).events, Before L x e

omit [DecidableEq EventId] in
/-- The next event, unknown to the timeline the loop is at, comes before all of that timeline. -/
theorem Walks.extends (hL : L.Nodup) (h : Walks getId L st x) (hxy : [x, y] <:+: L.reverse)
    (hy : y ∉ (st.set.timeline st.timeline).events) :
    y :: (st.set.timeline st.timeline).events <:+: L ∧
      ∀ e ∈ (st.set.timeline st.timeline).events, Before L y e := by
  have hseg := h.segments st.timeline h.timeline h.notLive
  have hext : (st.set.timeline st.timeline).events.reverse ++ [y] <:+: L.reverse := by
    refine (mem_or_extends (List.nodup_reverse.2 hL) (List.reverse_infix.2 hseg)
      (List.mem_reverse.2 h.mem) hxy).resolve_left ?_
    rw [List.mem_reverse]
    exact hy
  constructor
  · rw [← List.reverse_infix, List.reverse_cons]
    exact hext
  · intro e he
    rw [← before_reverse]
    exact before_of_extends hext (List.mem_reverse.2 he)

omit [DecidableEq EventId] in
/-- What is behind the event is behind the next one. -/
theorem Walks.behind (hL : L.Nodup) (h : Walks getId L st x) (hxy : [x, y] <:+: L.reverse) {u : ℕ}
    (hu : u ∈ st.set.timelines) (hne : u ≠ st.timeline)
    (hor : u = st.set.liveTimeline ∨ (st.set.timeline u).nextTimeline ≠ none) :
    ∀ e ∈ (st.set.timeline u).events, Before L y e := fun e he =>
  (before_reverse.1 hxy.sublist).trans hL (h.newer u hu hne hor e he)

/-- An unknown event is added where the loop is. -/
theorem Walks.next_unknown (hL : L.Nodup) (h : Walks getId L st x) (hxy : [x, y] <:+: L.reverse)
    (hget : st.set.eventIdToTimeline.get (getId y) = none) :
    ∃ st', EventTimelineSet.addNextEvent getId .backwards st y = .ok st' ∧ Walks getId L st' y ∧
      liveEvents st'.set = liveEvents st.set := by
  have hunknown := h.indexed.get_eq_none.1 hget
  have hy : y ∉ (st.set.timeline st.timeline).events := fun hy =>
    hunknown y (mem_allEvents.2 ⟨st.timeline, h.timeline, hy⟩) rfl
  have hself : (st.set.addEventToTimeline getId y st.timeline true).timeline st.timeline =
      (st.set.timeline st.timeline).addEvent y true := Function.update_self ..
  have hother : ∀ u, u ≠ st.timeline →
      (st.set.addEventToTimeline getId y st.timeline true).timeline u = st.set.timeline u :=
    fun u hu => Function.update_of_ne hu ..
  refine ⟨⟨st.set.addEventToTimeline getId y st.timeline true, st.timeline, true, true⟩, ?_,
    ⟨?_, fun t ht hlive => ?_, h.timeline, h.notLive, ?_, fun u hu hne hor => ?_⟩, ?_⟩
  · exact addNextEvent_unknown .backwards hget
  · exact (h.indexed.addEventToTimeline h.timeline true hunknown).1
  · by_cases hat : t = st.timeline
    · rw [hat, hself]
      exact (h.extends hL hxy hy).1
    · rw [hother t hat]
      exact h.segments t ht hlive
  · exact (mem_addEventToTimeline ..).2 (.inr ⟨rfl, rfl⟩)
  · rw [hother u hne] at hor ⊢
    exact h.behind hL hxy hu hne hor
  · exact congrArg EventTimeline.events (hother _ h.notLive.symm)

/-- A known event is in an older timeline than those the loop has been at, so that one has not been
joined to a newer one. -/
theorem Walks.next_known (hL : (L.map getId).Nodup) (h : Walks getId L st x)
    (hxy : [x, y] <:+: L.reverse) {existing : ℕ}
    (hget : st.set.eventIdToTimeline.get (getId y) = some existing) :
    ∃ st', EventTimelineSet.addNextEvent getId .backwards st y = .ok st' ∧ Walks getId L st' y ∧
      liveEvents st'.set = liveEvents st.set := by
  have hyx : Before L y x := before_reverse.1 hxy.sublist
  have hnot : ¬ Before L x y := fun hbefore =>
    Before.irrefl hL.of_map (hbefore.trans hL.of_map hyx)
  obtain ⟨hex, f, hf, hfid⟩ := (h.indexed.index _ existing).1 hget
  have hfL : f ∈ L := by
    by_cases hlive : existing = st.set.liveTimeline
    · rw [hlive] at hex hf
      exact (h.newer _ hex h.notLive.symm (.inl rfl) f hf).mem_right
    · exact (h.segments existing hex hlive).subset hf
  have hy : y ∈ (st.set.timeline existing).events := by
    rw [← List.inj_on_of_nodup_map hL hfL hyx.mem_left hfid]
    exact hf
  unfold EventTimelineSet.addNextEvent
  rw [hget]
  dsimp only
  by_cases hat : existing = st.timeline
  · rw [if_pos hat]
    refine ⟨_, rfl, ⟨h.indexed, h.segments, h.timeline, h.notLive, ?_, fun u hu hne hor => ?_⟩, rfl⟩
    · rw [← hat]
      exact hy
    · exact h.behind hL.of_map hxy hu hne hor
  -- the timeline is neither the live one nor linked to a newer one
  have hlive : existing ≠ st.set.liveTimeline := fun heq =>
    hnot (h.newer existing hex hat (.inl heq) y hy)
  have hfree : (st.set.timeline existing).nextTimeline = none := by
    by_contra hlinked
    exact hnot (h.newer existing hex hat (.inr hlinked) y hy)
  have hleft : ∀ e ∈ (st.set.timeline st.timeline).events, Before L y e := by
    refine (h.extends hL.of_map hxy fun hmem => hat ?_).2
    have hfound := (h.indexed.index (getId y) st.timeline).2 ⟨h.timeline, y, hmem, rfl⟩
    exact Option.some.inj (hget.symm.trans hfound)
  have hbehind : ∀ u ∈ st.set.timelines, u ≠ existing →
      u = st.set.liveTimeline ∨ (st.set.timeline u).nextTimeline ≠ none →
      ∀ e ∈ (st.set.timeline u).events, Before L y e := by
    intro u hu _ hor
    by_cases hut : u = st.timeline
    · rw [hut]
      exact hleft
    · exact h.behind hL.of_map hxy hu hut hor
  rw [if_neg hat]
  by_cases hprev : (st.set.timeline st.timeline).getNeighbouringTimeline .backwards = none
  · rw [if_neg (by rw [hprev]; exact Bool.false_ne_true),
      if_neg (fun hor => hor.elim (fun h => hlive h.2) fun h => absurd h.1 (by decide))]
    obtain ⟨s', hok, hsame, hcreated, hlinks⟩ :=
      joinTimelines_eq_ok (d := .backwards) hat hprev hfree
    rw [hok]
    refine ⟨_, rfl, ⟨h.indexed.of_sameEvents hsame hcreated, fun t ht htl => ?_, ?_, ?_, ?_,
      fun u hu hne hor => ?_⟩, ?_⟩
    · rw [hsame.timelines] at ht
      rw [hsame.liveTimeline] at htl
      rw [hsame.events]
      exact h.segments t ht htl
    · rw [hsame.timelines]
      exact hex
    · rw [hsame.liveTimeline]
      exact hlive
    · rw [hsame.events]
      exact hy
    · rw [hsame.timelines] at hu
      rw [hsame.liveTimeline] at hor
      rw [hsame.events]
      refine hbehind u hu hne (hor.imp_right fun hlinked => ?_)
      have hnext : (s'.timeline u).nextTimeline = (st.set.timeline u).nextTimeline := by
        refine (hlinks u .forwards).trans ?_
        rw [if_neg (fun h => absurd h.2 (by decide)), if_neg (fun h => hne h.1)]
        rfl
      rw [← hnext]
      exact hlinked
    · show (s'.timeline s'.liveTimeline).events = _
      rw [hsame.liveTimeline, hsame.events]
      rfl
  · rw [if_pos (Option.isSome_iff_ne_none.2 hprev)]
    exact ⟨_, rfl, ⟨h.indexed, h.segments, hex, hlive, hy, hbehind⟩, rfl⟩

/-- **Further back.** What the loop meets in older timelines does not make it throw, nor does it change
the live timeline. -/
theorem Walks.foldlM (hL : (L.map getId).Nodup) {rest : List Event} (h : Walks getId L st x)
    (hrun : x :: rest <:+: L.reverse) :
    ∃ st', rest.foldlM (EventTimelineSet.addNextEvent getId .backwards) st = .ok st' ∧
      liveEvents st'.set = liveEvents st.set := by
  induction rest generalizing st x with
  | nil => exact ⟨st, rfl, rfl⟩
  | cons y rest ih =>
    have hxy : [x, y] <:+: L.reverse := (List.prefix_append [x, y] rest).isInfix.trans hrun
    have hrun' : y :: rest <:+: L.reverse := (List.suffix_cons x _).isInfix.trans hrun
    obtain ⟨st₁, hok₁, h₁, hlive₁⟩ : ∃ st', EventTimelineSet.addNextEvent getId .backwards st y =
        .ok st' ∧ Walks getId L st' y ∧ liveEvents st'.set = liveEvents st.set := by
      cases hget : st.set.eventIdToTimeline.get (getId y) with
      | none => exact h.next_unknown hL.of_map hxy hget
      | some existing => exact h.next_known hL hxy hget
    obtain ⟨st', hok, hlive⟩ := ih h₁ hrun'
    refine ⟨st', ?_, hlive.trans hlive₁⟩
    rw [List.foldlM_cons, hok₁]
    exact hok

variable {s : EventTimelineSet Event EventId Token}

/-- **The first known event** takes the loop from the live timeline to an older one. -/
theorem Unlinked.leaves (hL : (L.map getId).Nodup) (hs : Unlinked getId s)
    (hsegments : ∀ t ∈ s.timelines, (s.timeline t).events <:+: L ∨ t = s.liveTimeline)
    (hx : x ∈ L) (hnewer : ∀ e ∈ liveEvents s, Before L x e) (hknown : known getId s x = true)
    (didUpdate lastEventWasNew : Bool) :
    ∃ st, EventTimelineSet.addNextEvent getId .backwards
        ⟨s, s.liveTimeline, didUpdate, lastEventWasNew⟩ x = .ok st ∧
      Walks getId L st x ∧ liveEvents st.set = liveEvents s := by
  obtain ⟨existing, hget⟩ := Option.isSome_iff_exists.1 hknown
  obtain ⟨hex, f, hf, hfid⟩ := (hs.indexed.index _ existing).1 hget
  have hlive : existing ≠ s.liveTimeline := by
    intro heq
    rw [heq] at hf
    have hxf := hnewer f hf
    rw [List.inj_on_of_nodup_map hL hxf.mem_right hx hfid] at hxf
    exact Before.irrefl hL.of_map hxf
  have hfL : f ∈ L := ((hsegments existing hex).resolve_right hlive).subset hf
  rw [List.inj_on_of_nodup_map hL hfL hx hfid] at hf
  obtain ⟨s', hok, hsame, hcreated, hlinks⟩ :=
    joinTimelines_eq_ok (d := .backwards) hlive (hs.links s.liveTimeline _) (hs.links existing _)
  refine ⟨⟨s', existing, true, false⟩, ?_, ⟨hs.indexed.of_sameEvents hsame hcreated,
    fun t ht htl => ?_, ?_, ?_, ?_, fun u hu hne hor => ?_⟩, ?_⟩
  · unfold EventTimelineSet.addNextEvent
    rw [hget]
    dsimp only
    rw [if_neg hlive, if_neg (by rw [hs.links]; exact Bool.false_ne_true),
      if_neg (fun hor => hor.elim (fun h => hlive h.2) fun h => absurd h.1 (by decide)), hok]
    rfl
  · rw [hsame.timelines] at ht
    rw [hsame.liveTimeline] at htl
    rw [hsame.events]
    exact (hsegments t ht).resolve_right htl
  · rw [hsame.timelines]
    exact hex
  · rw [hsame.liveTimeline]
    exact hlive
  · rw [hsame.events]
    exact hf
  · -- only the timeline the loop has gone to is linked to a newer one
    have hnext : (s'.timeline u).nextTimeline = none := by
      refine (hlinks u .forwards).trans ?_
      rw [if_neg (fun h => absurd h.2 (by decide)), if_neg (fun h => hne h.1), hs.links]
    have hul : u = s.liveTimeline := by
      rw [← hsame.liveTimeline]
      exact hor.resolve_right fun hlinked => hlinked hnext
    rw [hul, hsame.events]
    exact hnewer
  · show (s'.timeline s'.liveTimeline).events = _
    rw [hsame.liveTimeline, hsame.events]
    rfl

/-- **A chunk with a known event** puts the events before it in front, and no others. -/
theorem Unlinked.foldlM_known (hL : (L.map getId).Nodup) (hs : Unlinked getId s)
    (hsegments : ∀ t ∈ s.timelines, (s.timeline t).events <:+: L) {u v : List Event}
    (hrun : u ++ x :: v <:+: L.reverse) (hu : ∀ e ∈ u, known getId s e = false)
    (hknown : known getId s x = true) (hnewer : ∀ e ∈ liveEvents s, Before L x e) :
    ∃ st, (u ++ x :: v).foldlM (EventTimelineSet.addNextEvent getId .backwards)
        ⟨s, s.liveTimeline, false, false⟩ = .ok st ∧
      liveEvents st.set = u.reverse ++ liveEvents s ∧
      ∀ e ∈ u.reverse ++ liveEvents s, Before L x e := by
  have hnodup : (u.map getId).Nodup := by
    have hsub : u.Sublist L.reverse := (List.sublist_append_left u _).trans hrun.sublist
    have hids := hsub.map getId
    rw [List.map_reverse] at hids
    exact (List.nodup_reverse.2 hL).sublist hids
  have hbefore : ∀ e ∈ u.reverse ++ liveEvents s, Before L x e := by
    intro e he
    rcases List.mem_append.1 he with he | he
    · have hpair : ([e] ++ [x]).Sublist (u ++ x :: v) :=
        (List.singleton_sublist.2 (List.mem_reverse.1 he)).append
          (List.singleton_sublist.2 List.mem_cons_self)
      exact before_reverse.1 (hpair.trans hrun.sublist)
    · exact hnewer e he
  obtain ⟨st, hok, hat, hs₁, honly, hev, hknows⟩ := hs.foldlM_addNextEvent hnodup hu false false
  have hsegments₁ : ∀ t ∈ st.set.timelines,
      (st.set.timeline t).events <:+: L ∨ t = st.set.liveTimeline := by
    intro t ht
    rw [honly.timelines] at ht
    by_cases hlive : t = s.liveTimeline
    · right
      rw [hlive, honly.liveTimeline]
    · left
      rw [honly.others t hlive]
      exact hsegments t ht
  have hx : x ∈ L := List.mem_reverse.1 (hrun.subset (by simp))
  rw [← hev] at hbefore
  obtain ⟨st₁, hok₁, hwalks, hlive₁⟩ := hs₁.leaves hL hsegments₁ hx hbefore (hknows x hknown)
    st.didUpdate st.lastEventWasNew
  have hrun' : x :: v <:+: L.reverse := (List.suffix_append u _).isInfix.trans hrun
  obtain ⟨st', hok', hlive'⟩ := hwalks.foldlM hL hrun'
  rw [hev] at hbefore
  refine ⟨st', ?_, hlive'.trans (hlive₁.trans hev), hbefore⟩
  have hst : st = ⟨st.set, st.set.liveTimeline, st.didUpdate, st.lastEventWasNew⟩ := by
    rw [honly.liveTimeline, ← hat]
  have hrest : (x :: v).foldlM (EventTimelineSet.addNextEvent getId .backwards) st = .ok st' := by
    rw [hst, List.foldlM_cons, hok₁]
    exact hok'
  rw [List.foldlM_append, hok]
  exact hrest

end Walk

/-! ## The response to a request for older events -/

section Arrived

variable {Event EventId : Type} [DecidableEq Event] [DecidableEq EventId] {getId : Event → EventId}
variable {L : List Event} {s s' : EventTimelineSet Event EventId Token}

omit [DecidableEq Event] in
theorem Unlinked.messagesArrived_eq (hs : Unlinked getId s) (chunk : List Event)
    (endToken : Token) : messagesArrived getId s chunk endToken =
      (chunk.foldlM (EventTimelineSet.addNextEvent getId .backwards)
        ⟨s, s.liveTimeline, false, false⟩).map fun st =>
          setOldToken (st.updateToken .backwards none)
            (if chunk.isEmpty then none else some endToken) := by
  have hfilter : s.filterRoomTimeline chunk = chunk := filterRoomTimeline_of_none hs.filter chunk
  have hdirection : Direction.ofToStart true = .backwards := rfl
  unfold messagesArrived
  rw [addEventsToTimeline_eq (by simp) (by rw [hs.filter]; simp), hfilter, hdirection]
  cases chunk.foldlM (EventTimelineSet.addNextEvent getId .backwards)
      ⟨s, s.liveTimeline, false, false⟩ with
  | error thrown => rfl
  | ok st => rfl

/-- The timelines other than the live one are as they have been, or gone. -/
def OthersKept (s s' : EventTimelineSet Event EventId Token) : Prop :=
  ∀ t ∈ s'.timelines, t ≠ s'.liveTimeline →
    t ∈ s.timelines ∧ (s'.timeline t).events = (s.timeline t).events

omit [DecidableEq Event] in
/-- **Unknown events** end up in front of the live timeline. -/
theorem Unlinked.arrived_unknown (hs : Unlinked getId s) {chunk : List Event}
    (hnodup : (chunk.map getId).Nodup) (hnew : ∀ e ∈ chunk, known getId s e = false)
    (endToken : Token) :
    ∃ s', messagesArrived getId s chunk endToken = .ok s' ∧ Unlinked getId s' ∧ OthersKept s s' ∧
      liveEvents s' = chunk.reverse ++ liveEvents s ∧
      oldToken s' = if chunk.isEmpty then none else some endToken := by
  obtain ⟨st, hok, hat, hs₁, honly, hev, _⟩ := hs.foldlM_addNextEvent hnodup hnew false false
  have hsame : SameEvents st.set (st.updateToken .backwards none) :=
    (updateToken_sameEvents .backwards none st).1
  have hset : st.updateToken .backwards none = setOldToken st.set none ∨
      st.updateToken .backwards none = st.set := by
    unfold EventTimelineSet.AddEventsState.updateToken setOldToken
    rw [hat, honly.liveTimeline]
    split
    · exact .inl rfl
    · exact .inr rfl
  have hs₂ : Unlinked getId (st.updateToken .backwards none) := by
    rcases hset with heq | heq
    · rw [heq]
      exact hs₁.withOldToken none
    · rw [heq]
      exact hs₁
  refine ⟨_, by rw [hs.messagesArrived_eq, hok]; rfl, hs₂.withOldToken _, fun t ht hlive => ?_, ?_,
    oldToken_setOldToken _⟩
  · have hsame' : SameEvents st.set (setOldToken (st.updateToken .backwards none)
        (if chunk.isEmpty then none else some endToken)) :=
      hsame.trans (setTimeline_sameEvents rfl)
    rw [hsame'.timelines, honly.timelines] at ht
    rw [hsame'.liveTimeline, honly.liveTimeline] at hlive
    rw [hsame'.events, honly.others t hlive]
    exact ⟨ht, rfl⟩
  · rw [liveEvents_setOldToken]
    show ((st.updateToken .backwards none).timeline _).events = _
    rw [hsame.liveTimeline, hsame.events]
    exact hev

omit [DecidableEq Event] in
/-- **A known event** leaves the token of the whole chunk at the start of the live timeline, which has
got the events before the known one, and no others. -/
theorem Unlinked.arrived_known (hL : (L.map getId).Nodup) (hs : Unlinked getId s)
    (hsegments : ∀ t ∈ s.timelines, (s.timeline t).events <:+: L) {u v : List Event} {x : Event}
    (hrun : u ++ x :: v <:+: L.reverse) (hu : ∀ e ∈ u, known getId s e = false)
    (hknown : known getId s x = true) (hnewer : ∀ e ∈ liveEvents s, Before L x e)
    (endToken : Token) :
    ∃ s', messagesArrived getId s (u ++ x :: v) endToken = .ok s' ∧
      oldToken s' = some endToken ∧ ∀ e ∈ liveEvents s', Before L x e := by
  obtain ⟨st, hok, hev, hbefore⟩ := hs.foldlM_known hL hsegments hrun hu hknown hnewer
  have hsame : SameEvents st.set (st.updateToken .backwards none) :=
    (updateToken_sameEvents .backwards none st).1
  have hne : (u ++ x :: v).isEmpty = false := by
    rw [List.isEmpty_eq_false_iff]
    simp
  refine ⟨_, by rw [hs.messagesArrived_eq, hok]; rfl, ?_, fun e he => hbefore e ?_⟩
  · rw [oldToken_setOldToken, hne]
    rfl
  · rw [liveEvents_setOldToken] at he
    rw [← hev]
    show e ∈ (st.set.timeline st.set.liveTimeline).events
    rw [← hsame.events, ← hsame.liveTimeline]
    exact he

end Arrived

/-! ## When the live timeline is a segment -/

section Property

variable {Event EventId : Type} [DecidableEq Event] [DecidableEq EventId] {getId : Event → EventId}
variable {L : List Event} {position : Token → ℕ} {timelineSupport : Bool}
variable {s s' : ScrollbackRoom Event EventId}

variable (L position) in
/-- **The live timeline is a segment** of the order, and its token, if there is one, denotes where it
begins: if it is empty, where its first event will be. -/
structure LiveSegment (s : ScrollbackRoom Event EventId) : Prop where
  segment : liveEvents s.set <:+: L
  token : ∀ token ∈ oldToken s.set, liveEvents s.set <+: L.drop (position token) ∧
    (liveEvents s.set = [] → position token = s.synced)

variable (getId L position) in
/-- A response with older events finds the live timeline where the request was made from, and has
nothing that is known from another timeline. A response of `/sync` that continues finds the
live timeline where the last one has left it. -/
def Continues (s : ScrollbackRoom Event EventId) : ScrollbackStep Event → Prop
  | .synced _ r => r.isBrandNewRoom = false → r.limited = false → r.events ≠ [] →
      liveEvents s.set ≠ [] → (liveEvents s.set).getLast? = (L.take s.synced).getLast?
  | .arrived chunk _ => chunk ≠ [] → (∀ e ∈ chunk, known getId s.set e = false) ∧
      ∀ token, s.scrollback = .requested (some token) →
        liveEvents s.set <+: L.drop (position token)
  | _ => True

variable (getId L position) in
/-- What is known of the room while the live timeline is a segment. -/
structure ScrollbackInv (s : ScrollbackRoom Event EventId) : Prop where
  unlinked : Unlinked getId s.set
  segments : ∀ t ∈ s.set.timelines, (s.set.timeline t).events <:+: L
  received : ∀ t ∈ s.set.timelines, ∀ e ∈ (s.set.timeline t).events, e ∈ L.take s.synced
  synced : s.synced ≤ L.length
  token : ∀ token ∈ oldToken s.set, position token ≤ s.synced
  requested : ∀ token, s.scrollback = .requested (some token) → position token ≤ s.synced ∧
    ∀ e ∈ liveEvents s.set, e ∈ L.drop (position token)

section

omit [DecidableEq Event] [DecidableEq EventId]

/-- The room after its live timeline has changed. -/
theorem ScrollbackInv.change (h : ScrollbackInv getId L position s)
    (hunlinked : Unlinked getId s'.set) (hothers : OthersKept s.set s'.set)
    (hsegment : liveEvents s'.set <:+: L) (hreceived : ∀ e ∈ liveEvents s'.set, e ∈ L.take s'.synced)
    (hsynced : s.synced ≤ s'.synced) (hlength : s'.synced ≤ L.length)
    (htoken : ∀ token ∈ oldToken s'.set, position token ≤ s'.synced)
    (hrequested : ∀ token, s'.scrollback = .requested (some token) → position token ≤ s'.synced ∧
      ∀ e ∈ liveEvents s'.set, e ∈ L.drop (position token)) :
    ScrollbackInv getId L position s' where
  unlinked := hunlinked
  segments t ht := by
    by_cases hlive : t = s'.set.liveTimeline
    · rw [hlive]
      exact hsegment
    · obtain ⟨hold, hev⟩ := hothers t ht hlive
      rw [hev]
      exact h.segments t hold
  received t ht := by
    by_cases hlive : t = s'.set.liveTimeline
    · rw [hlive]
      exact hreceived
    · obtain ⟨hold, hev⟩ := hothers t ht hlive
      rw [hev]
      intro e he
      exact (List.take_prefix_take_left hsynced).subset (h.received t hold e he)
  synced := hlength
  token := htoken
  requested := hrequested

theorem ScrollbackInv.live (h : ScrollbackInv getId L position s) :
    liveEvents s.set <:+: L ∧ ∀ e ∈ liveEvents s.set, e ∈ L.take s.synced :=
  ⟨h.segments _ h.unlinked.indexed.live, h.received _ h.unlinked.indexed.live⟩

/-- What `/sync` has not come to is unknown. -/
theorem ScrollbackInv.unknown (hL : (L.map getId).Nodup) (h : ScrollbackInv getId L position s)
    {e : Event} (he : e ∈ L.drop s.synced) : known getId s.set e = false := by
  rw [known_eq_false, h.unlinked.indexed.get_eq_none]
  intro f hf hid
  obtain ⟨t, ht, hft⟩ := mem_allEvents.1 hf
  have hrec := h.received t ht f hft
  rw [List.inj_on_of_nodup_map hL (List.mem_of_mem_take hrec) (List.mem_of_mem_drop he) hid] at hrec
  exact not_mem_take_drop hL.of_map hrec he

theorem OthersKept.onlyLive {s s' s'' : EventTimelineSet Event EventId Token}
    (h : OthersKept s s') (h' : OnlyLiveEvents s' s'') : OthersKept s s'' := by
  intro t ht hlive
  rw [h'.timelines] at ht
  rw [h'.liveTimeline] at hlive
  rw [h'.others t hlive]
  exact h t ht hlive

theorem othersKept_prepared {s : EventTimelineSet Event EventId Token} (hs : Indexed getId s)
    (r : JoinedTimeline Event) : OthersKept s (prepared s r) := by
  intro t ht hlive
  unfold prepared at ht hlive ⊢
  by_cases hbrand : r.isBrandNewRoom = true
  · rw [if_pos hbrand] at ht ⊢
    have hsame : SameEvents s (setOldToken s r.prevBatch) := setTimeline_sameEvents rfl
    exact ⟨ht, hsame.events t⟩
  · rw [if_neg hbrand] at ht hlive ⊢
    by_cases hlimited : r.limited = true
    · rw [if_pos hlimited] at ht hlive ⊢
      have hold : t ∈ s.timelines := by
        have hmem : t ∈ if (!s.timelineSupport || r.forwardToken.isNone) = true then [s.created]
            else s.timelines ++ [s.created] := ht
        split at hmem
        · exact absurd (List.mem_singleton.1 hmem) hlive
        · rcases List.mem_append.1 hmem with hold | hnew
          · exact hold
          · exact absurd (List.mem_singleton.1 hnew) hlive
      exact ⟨hold, resetLiveTimeline_old s _ _ (hs.created t hold)⟩
    · rw [if_neg hlimited] at ht ⊢
      exact ⟨ht, rfl⟩

/-- A response starts with an empty live timeline, or goes on with the one there is. -/
theorem ScrollbackInv.prepared_cases (h : ScrollbackInv getId L position s)
    {r : JoinedTimeline Event} (hbrand : r.isBrandNewRoom = true → s.synced = 0) :
    ((r.isBrandNewRoom = true ∨ r.limited = true) ∧ liveEvents (prepared s.set r) = [] ∧
      oldToken (prepared s.set r) = r.prevBatch) ∨
    (r.isBrandNewRoom = false ∧ r.limited = false ∧ prepared s.set r = s.set) := by
  unfold prepared
  by_cases hnew : r.isBrandNewRoom = true
  · rw [if_pos hnew]
    refine .inl ⟨.inl hnew, ?_, oldToken_setOldToken _⟩
    rw [liveEvents_setOldToken, List.eq_nil_iff_forall_not_mem]
    intro e he
    have hrec := h.live.2 e he
    rw [hbrand hnew] at hrec
    exact absurd hrec List.not_mem_nil
  · rw [if_neg hnew]
    by_cases hlimited : r.limited = true
    · rw [if_pos hlimited]
      obtain ⟨_, hnil, htoken⟩ := h.unlinked.resetLiveTimeline r.prevBatch r.forwardToken
      exact .inl ⟨.inr hlimited, hnil, htoken⟩
    · rw [if_neg hlimited]
      exact .inr ⟨Bool.eq_false_iff.2 hnew, Bool.eq_false_iff.2 hlimited, rfl⟩

/-- **Going on with the live timeline**: it stays a segment if there is nothing to add, or if it is
empty or ends where the events start. -/
theorem LiveSegment.append_iff (hL : L.Nodup) (hP : LiveSegment L position s)
    (hreceived : ∀ e ∈ liveEvents s.set, e ∈ L.take s.synced) {events : List Event}
    (hstarts : events <+: L.drop s.synced) (hev : liveEvents s'.set = liveEvents s.set ++ events)
    (htoken : oldToken s'.set = oldToken s.set) (hsynced : s'.synced = s.synced + events.length) :
    LiveSegment L position s' ↔ (events ≠ [] → liveEvents s.set ≠ [] →
      (liveEvents s.set).getLast? = (L.take s.synced).getLast?) := by
  have hboth : L.take s.synced ++ events <:+: L := by
    rw [← take_of_prefix_drop hstarts]
    exact (List.take_prefix _ L).isInfix
  constructor
  · intro hP' hne hlive
    obtain ⟨z, hz⟩ := Option.ne_none_iff_exists'.1 fun hnone => hlive (List.getLast?_eq_none_iff.1 hnone)
    obtain ⟨q, hq⟩ := List.getLast?_eq_some_iff.1 hz
    obtain ⟨y, rest, hyrest⟩ := List.exists_cons_of_ne_nil hne
    have hseg := hP'.segment
    rw [hev, hq, hyrest] at hseg
    rw [hyrest] at hboth
    have hzy : [z, y] <:+: L := List.IsInfix.trans ⟨q, rest, by simp⟩ hseg
    have hext : L.take s.synced ++ [y] <:+: L := List.IsInfix.trans ⟨[], rest, by simp⟩ hboth
    have hmem : z ∈ L.take s.synced := hreceived z (List.mem_of_getLast? hz)
    rw [hz, getLast_of_extends hL (List.ne_nil_of_mem hmem) hext hzy]
  · intro hC
    by_cases hnil : events = []
    · rw [hnil, List.append_nil] at hev
      rw [hnil, List.length_nil, Nat.add_zero] at hsynced
      refine ⟨?_, fun token ht => ?_⟩
      · rw [hev]
        exact hP.segment
      · rw [htoken] at ht
        rw [hev, hsynced]
        exact hP.token token ht
    by_cases hlive : liveEvents s.set = []
    · rw [hlive, List.nil_append] at hev
      refine ⟨?_, fun token ht => ?_⟩
      · rw [hev]
        exact hstarts.isInfix.trans (List.drop_suffix _ L).isInfix
      · rw [htoken] at ht
        rw [hev, (hP.token token ht).2 hlive]
        exact ⟨hstarts, fun hempty => absurd hempty hnil⟩
    · obtain ⟨z, hz⟩ := Option.ne_none_iff_exists'.1 fun hnone =>
        hlive (List.getLast?_eq_none_iff.1 hnone)
      have hlast := hC hnil hlive
      rw [hz] at hlast
      obtain ⟨q, hq⟩ := List.getLast?_eq_some_iff.1 hlast.symm
      have hrun : z :: events <:+: L := by
        rw [hq] at hboth
        exact List.IsInfix.trans ⟨q, [], by simp⟩ hboth
      have hseg : liveEvents s.set ++ events <:+: L := append_of_run hL hP.segment hz hrun
      refine ⟨?_, fun token ht => ?_⟩
      · rw [hev]
        exact hseg
      · rw [htoken] at ht
        obtain ⟨x, rest, hx⟩ := List.exists_cons_of_ne_nil hlive
        have hhead : (liveEvents s.set).head? = some x := by
          rw [hx]
          rfl
        have hhead' : (liveEvents s.set ++ events).head? = some x := by
          rw [hx]
          rfl
        rw [hev]
        refine ⟨prefix_drop_of_head hL hseg hhead' ?_, fun hempty => ?_⟩
        · exact getElem?_of_prefix_drop (hP.token token ht).1 hhead
        · exact absurd (List.append_eq_nil_iff.1 hempty).1 hlive

end

omit [DecidableEq Event] in
/-- **A response of `/sync`.** -/
theorem synced_step (hL : (L.map getId).Nodup) (h : ScrollbackInv getId L position s)
    (hP : LiveSegment L position s) {start : ℕ} {r : JoinedTimeline Event}
    (hfrom : FromSync L position s start r)
    (hs' : s' = { s with
      set := processSyncResponse getId s.set r
      synced := start + r.events.length }) :
    (LiveSegment L position s' → ScrollbackInv getId L position s') ∧
      (LiveSegment L position s' ↔ Continues getId L position s (.synced start r)) := by
  obtain ⟨hle, hlength, hstarts, htoken, hbrand, hcont⟩ := hfrom
  have hdrop : ∀ e ∈ r.events, e ∈ L.drop start := fun e he => hstarts.subset he
  have hnodup : (r.events.map getId).Nodup :=
    hL.sublist ((hstarts.sublist.trans (List.drop_sublist start L)).map getId)
  have hnew : ∀ e ∈ r.events, known getId s.set e = false := fun e he =>
    h.unknown hL ((List.drop_sublist_drop_left L hle).subset (hdrop e he))
  obtain ⟨hunlinked, honly, hev⟩ := h.unlinked.synced hnodup hnew
  have hold := honly.oldToken_eq
  have hset : s'.set = processSyncResponse getId s.set r := by rw [hs']
  have hsynced : s'.synced = start + r.events.length := by rw [hs']
  have hscroll : s'.scrollback = s.scrollback := by rw [hs']
  rw [← hset] at hunlinked honly hev hold
  have htake : L.take s'.synced = L.take start ++ r.events := by
    rw [hsynced, take_of_prefix_drop hstarts]
  rcases h.prepared_cases hbrand with ⟨hfresh, hnil, hprev⟩ | ⟨hnotNew, hnotLimited, hsame⟩
  · -- the live timeline has just the events of the response
    rw [hnil, List.nil_append] at hev
    rw [hprev] at hold
    have hP' : LiveSegment L position s' := by
      refine ⟨?_, fun token ht => ?_⟩
      · rw [hev]
        exact hstarts.isInfix.trans (List.drop_suffix start L).isInfix
      · rw [hold] at ht
        rw [hev, htoken token ht]
        refine ⟨hstarts, fun hempty => ?_⟩
        rw [hsynced, hempty]
        rfl
    refine ⟨fun _ => h.change hunlinked ?_ hP'.segment ?_ ?_ ?_ ?_ ?_, iff_of_true hP' ?_⟩
    · exact (othersKept_prepared h.unlinked.indexed r).onlyLive honly
    · intro e he
      rw [hev] at he
      rw [htake]
      exact List.mem_append_right _ he
    · omega
    · have hend : r.events.length ≤ (L.drop start).length := hstarts.length_le
      rw [List.length_drop] at hend
      omega
    · intro token ht
      rw [hold] at ht
      rw [htoken token ht]
      omega
    · intro token ht
      rw [hscroll] at ht
      obtain ⟨hpos, _⟩ := h.requested token ht
      refine ⟨by omega, fun e he => ?_⟩
      rw [hev] at he
      exact (List.drop_sublist_drop_left L (hpos.trans hle)).subset (hdrop e he)
    · intro hnotNew hnotLimited
      rcases hfresh with hyes | hyes
      · rw [hyes] at hnotNew
        exact absurd hnotNew (by decide)
      · rw [hyes] at hnotLimited
        exact absurd hnotLimited (by decide)
  · -- the live timeline goes on
    have hstart : start = s.synced := hcont hnotNew hnotLimited
    rw [hsame] at hev hold honly
    rw [hstart] at hstarts hsynced htake hdrop
    have hmem : ∀ e ∈ liveEvents s'.set, e ∈ liveEvents s.set ∨ e ∈ r.events := by
      intro e he
      rw [hev] at he
      exact List.mem_append.1 he
    have hiff := hP.append_iff hL.of_map h.live.2 hstarts hev hold hsynced
    refine ⟨fun hP' => h.change hunlinked ?_ hP'.segment ?_ ?_ ?_ ?_ ?_, hiff.trans ?_⟩
    · exact OthersKept.onlyLive (fun t ht _ => ⟨ht, rfl⟩) honly
    · intro e he
      rw [htake]
      exact List.mem_append.2 ((hmem e he).imp_left (h.live.2 e))
    · omega
    · have hend : r.events.length ≤ (L.drop s.synced).length := hstarts.length_le
      have hlen := h.synced
      rw [List.length_drop] at hend
      omega
    · intro token ht
      rw [hold] at ht
      have hpos := h.token token ht
      omega
    · intro token ht
      rw [hscroll] at ht
      obtain ⟨hpos, hafter⟩ := h.requested token ht
      refine ⟨by omega, fun e he => ?_⟩
      rcases hmem e he with hlive | hnew
      · exact hafter e hlive
      · exact (List.drop_sublist_drop_left L hpos).subset (hdrop e hnew)
    · exact ⟨fun hC _ _ => hC, fun hC => hC hnotNew hnotLimited⟩

omit [DecidableEq Event] [DecidableEq EventId] in
/-- The events of a response, in the order. -/
theorem FromMessages.cut [DecidableEq Event] {token endToken : Token} {chunk : List Event}
    (h : FromMessages L position token chunk endToken) (hpos : position token ≤ L.length)
    (hne : chunk ≠ []) : position endToken < position token ∧
      L.drop (position endToken) = chunk.reverse ++ L.drop (position token) := by
  obtain ⟨⟨w, hw⟩, hend⟩ := h
  have hlength := hend hne
  have hpositive := List.length_pos_iff.2 hne
  have htake : L.take (position token) = w.reverse ++ chunk.reverse := by
    rw [← List.reverse_append, hw, List.reverse_reverse]
  have hwlength : w.reverse.length = position endToken := by
    have htotal := congrArg List.length htake
    rw [List.length_take, Nat.min_eq_left hpos, List.length_append, List.length_reverse,
      List.length_reverse] at htotal
    rw [List.length_reverse]
    omega
  refine ⟨by omega, ?_⟩
  have hL : L = w.reverse ++ (chunk.reverse ++ L.drop (position token)) := by
    rw [← List.append_assoc, ← htake, List.take_append_drop]
  rw [← hwlength]
  conv_lhs => rw [hL]
  rw [List.drop_left]

/-- **A response with older events.** -/
theorem arrived_step (hL : (L.map getId).Nodup) (h : ScrollbackInv getId L position s)
    (hP : LiveSegment L position s) {token endToken : Token} {chunk : List Event}
    (hreq : s.scrollback = .requested (some token))
    (hfrom : FromMessages L position token chunk endToken) :
    ∃ set, messagesArrived getId s.set chunk endToken = .ok set ∧
      (LiveSegment L position { s with set := set, scrollback := .idle } →
        ScrollbackInv getId L position { s with set := set, scrollback := .idle }) ∧
      (LiveSegment L position { s with set := set, scrollback := .idle } ↔
        Continues getId L position s (.arrived chunk endToken)) := by
  obtain ⟨hpos, hafter⟩ := h.requested token hreq
  have hlength : position token ≤ L.length := hpos.trans h.synced
  have hbefore : ∀ e ∈ chunk, e ∈ L.take (position token) := fun e he =>
    List.mem_reverse.1 (hfrom.1.subset he)
  have hrun : chunk <:+: L.reverse := by
    refine hfrom.1.isInfix.trans ?_
    rw [List.reverse_infix]
    exact (List.take_prefix _ L).isInfix
  by_cases hnew : ∀ e ∈ chunk, known getId s.set e = false
  · have hnodup : (chunk.map getId).Nodup := by
      have hids := hrun.sublist.map getId
      rw [List.map_reverse] at hids
      exact (List.nodup_reverse.2 hL).sublist hids
    obtain ⟨set, hok, hunlinked, hothers, hev, htoken⟩ :=
      h.unlinked.arrived_unknown hnodup hnew endToken
    refine ⟨set, hok, fun hP' => ?_, ?_⟩
    · refine h.change hunlinked hothers hP'.segment (fun e he => ?_) (le_refl _) h.synced ?_ ?_
      · rw [hev] at he
        rcases List.mem_append.1 he with he | he
        · exact (List.take_prefix_take_left hpos).subset (hbefore e (List.mem_reverse.1 he))
        · exact h.live.2 e he
      · intro token' ht
        rw [htoken] at ht
        split at ht
        · exact absurd ht (by simp)
        next hne =>
          rw [← Option.some.inj ht]
          rw [List.isEmpty_iff] at hne
          have hlt := (hfrom.cut hlength hne).1
          exact (hlt.le.trans hpos)
      · intro token' ht
        exact absurd ht (by simp)
    · by_cases hempty : chunk = []
      · -- the room has no older events
        rw [hempty] at hev htoken
        refine iff_of_true ⟨?_, fun token' ht => ?_⟩ fun hne => absurd hempty hne
        · rw [hev]
          exact hP.segment
        · rw [htoken] at ht
          exact absurd ht (by simp)
      · obtain ⟨_, hdrop⟩ := hfrom.cut hlength hempty
        rw [if_neg (by rw [List.isEmpty_iff]; exact hempty)] at htoken
        have hne : chunk.reverse ++ liveEvents s.set ≠ [] := by
          intro hnil
          exact hempty (List.reverse_eq_nil_iff.1 (List.append_eq_nil_iff.1 hnil).1)
        constructor
        · intro hP' _
          refine ⟨hnew, fun token' ht => ?_⟩
          rw [hreq, Scrollback.requested.injEq, Option.some.injEq] at ht
          have hpre := (hP'.token endToken htoken).1
          rw [hev, hdrop, List.prefix_append_right_inj] at hpre
          rw [← ht]
          exact hpre
        · intro hC
          have hpre := (hC hempty).2 token hreq
          have hpre' : chunk.reverse ++ liveEvents s.set <+: L.drop (position endToken) := by
            rw [hdrop, List.prefix_append_right_inj]
            exact hpre
          refine ⟨?_, fun token' ht => ?_⟩
          · rw [hev]
            exact hpre'.isInfix.trans (List.drop_suffix _ L).isInfix
          · rw [htoken] at ht
            rw [hev, ← Option.some.inj ht]
            exact ⟨hpre', fun hnil => absurd hnil hne⟩
  · -- an event is known from an older timeline
    obtain ⟨x, hfind⟩ : ∃ x, chunk.find? (known getId s.set) = some x := by
      rw [← Option.isSome_iff_exists, List.find?_isSome]
      push Not at hnew
      obtain ⟨e, he, hknown⟩ := hnew
      exact ⟨e, he, eq_true_of_ne_false hknown⟩
    obtain ⟨hknown, u, v, hchunk, hu⟩ := List.find?_eq_some_iff_append.1 hfind
    have hne : chunk ≠ [] := by
      rw [hchunk]
      simp
    obtain ⟨hlt, hdrop⟩ := hfrom.cut hlength hne
    have hx : x ∈ L.take (position token) := hbefore x (by rw [hchunk]; simp)
    rw [hchunk] at hrun
    obtain ⟨set, hok, htoken, hnewer⟩ := h.unlinked.arrived_known hL h.segments hrun
      (fun e he => Bool.eq_false_iff.2 fun hk => by simpa [hk] using hu e he) hknown
      (fun e he => before_of_take_drop hx (hafter e he)) endToken
    have hnot : ¬ LiveSegment L position { s with set := set, scrollback := .idle } := by
      intro hP'
      obtain ⟨hpre, hsynced⟩ := hP'.token endToken htoken
      cases hlive : liveEvents set with
      | nil =>
        have hend : position endToken = s.synced := hsynced hlive
        omega
      | cons z rest =>
        -- the first live event is the oldest of the chunk, but it comes after the known one
        have hzx : Before L x z := hnewer z (by rw [hlive]; exact List.mem_cons_self)
        obtain ⟨q, y, hqy⟩ : ∃ q y, x :: v = q ++ [y] :=
          ⟨_, _, (List.dropLast_append_getLast (List.cons_ne_nil x v)).symm⟩
        have hzy : z = y := by
          have hpre' : z :: rest <+: (u ++ x :: v).reverse ++ L.drop (position token) := by
            rw [← hchunk, ← hdrop, ← hlive]
            exact hpre
          rw [hqy, List.reverse_append, List.reverse_append] at hpre'
          exact (List.cons_prefix_cons.1 hpre').1
        have hy : y ∈ x :: v := by
          rw [hqy]
          exact List.mem_append_right q List.mem_cons_self
        rw [hzy] at hzx
        rcases List.mem_cons.1 hy with hyx | hyv
        · rw [hyx] at hzx
          exact Before.irrefl hL.of_map hzx
        · have hyx : Before L y x := before_reverse.1
            (before_of_run ((List.suffix_append u _).isInfix.trans hrun) hyv)
          exact Before.irrefl hL.of_map (hzx.trans hL.of_map hyx)
    refine ⟨set, by rw [hchunk]; exact hok, fun hP' => absurd hP' hnot,
      iff_of_false hnot fun hC => ?_⟩
    exact hnew (hC hne).1

omit [DecidableEq Event] [DecidableEq EventId] in
/-- The request goes its way, and the timelines are left alone. -/
theorem ScrollbackInv.scroll (h : ScrollbackInv getId L position s)
    (hP : LiveSegment L position s) (scrollback : Scrollback)
    (hrequested : ∀ token, scrollback = .requested (some token) →
      s.scrollback = scrollback ∨ token ∈ oldToken s.set) :
    ScrollbackInv getId L position { s with scrollback := scrollback } ∧
      LiveSegment L position { s with scrollback := scrollback } := by
  refine ⟨⟨h.unlinked, h.segments, h.received, h.synced, h.token, fun token ht => ?_⟩,
    ⟨hP.segment, hP.token⟩⟩
  rcases hrequested token ht with hsame | hold
  · exact h.requested token (hsame.trans ht)
  · exact ⟨h.token token hold, fun e he => (hP.token token hold).1.subset he⟩

/-- **One step.** -/
theorem liveSegment_step (hL : (L.map getId).Nodup) (h : ScrollbackInv getId L position s)
    (hP : LiveSegment L position s) {e : ScrollbackStep Event}
    (he : (scrollbackSystem getId L position timelineSupport).step s e = some s') :
    (LiveSegment L position s' → ScrollbackInv getId L position s') ∧
      (LiveSegment L position s' ↔ Continues getId L position s e) := by
  cases e with
  | synced start r =>
    obtain ⟨hfrom, he⟩ := Option.ite_none_right_eq_some.1 he
    exact synced_step hL h hP hfrom (Option.some.inj he).symm
  | scrollback =>
    rw [← Option.some.inj he]
    split
    · obtain ⟨h', hP'⟩ := h.scroll hP .delayed fun token ht => absurd ht (by simp)
      exact ⟨fun _ => h', iff_of_true hP' trivial⟩
    · exact ⟨fun _ => h, iff_of_true hP trivial⟩
  | request =>
    obtain ⟨_, he⟩ := Option.ite_none_right_eq_some.1 he
    rw [← Option.some.inj he]
    obtain ⟨h', hP'⟩ := h.scroll hP (.requested (oldToken s.set)) fun token ht => by
      rw [Scrollback.requested.injEq] at ht
      exact .inr ht
    exact ⟨fun _ => h', iff_of_true hP' trivial⟩
  | failed =>
    cases hreq : s.scrollback with
    | requested token =>
      simp only [scrollbackSystem, hreq] at he
      rw [← Option.some.inj he]
      obtain ⟨h', hP'⟩ := h.scroll hP .idle fun token ht => absurd ht (by simp)
      exact ⟨fun _ => h', iff_of_true hP' trivial⟩
    | _ => simp [scrollbackSystem, hreq] at he
  | arrived chunk endToken =>
    cases hreq : s.scrollback with
    | requested token? =>
      cases token? with
      | none => simp [scrollbackSystem, hreq] at he
      | some token =>
        simp only [scrollbackSystem, hreq] at he
        obtain ⟨hfrom, he⟩ := Option.ite_none_right_eq_some.1 he
        obtain ⟨set, hok, hstep⟩ := arrived_step hL h hP hreq hfrom
        rw [hok] at he
        rw [← Option.some.inj he]
        exact hstep
    | _ => simp [scrollbackSystem, hreq] at he

end Property

/-! ## Runs -/

section Examples

/-- A token is the number of events before it, written out. -/
def examplePosition (token : Token) : ℕ :=
  if token = "one" then 1 else if token = "two" then 2 else if token = "three" then 3
  else if token = "five" then 5 else if token = "six" then 6 else 0

abbrev exampleRoom (timelineSupport : Bool) :
    System (ScrollbackRoom ℕ ℕ) (ScrollbackStep ℕ) :=
  scrollbackSystem id [0, 1, 2, 3, 4, 5, 6] examplePosition timelineSupport

/-- Older events, a response that goes on, a reset, and the events before that. -/
def scrolledBack : List (ScrollbackStep ℕ) :=
  [.synced 2 ⟨true, false, [2, 3], some "two", none⟩, .scrollback, .request, .arrived [1] "one",
    .synced 4 ⟨false, false, [4], none, none⟩, .synced 6 ⟨false, true, [6], some "six", none⟩,
    .scrollback, .request, .arrived [5, 4, 3] "three"]

theorem scrolledBack_runs : ((exampleRoom false).run scrolledBack).isSome := by decide

/-- A limited response comes between a request and its response. -/
def resetWhileScrolling : List (ScrollbackStep ℕ) :=
  [.synced 2 ⟨true, false, [2, 3], some "two", none⟩, .scrollback, .request,
    .synced 5 ⟨false, true, [5, 6], some "five", none⟩, .arrived [1, 0] "zero"]

theorem resetWhileScrolling_runs : ((exampleRoom false).run resetWhileScrolling).isSome := by decide

/-- The events before a reset are still known. -/
def scrolledIntoOlder : List (ScrollbackStep ℕ) :=
  [.synced 0 ⟨true, false, [0, 1], some "zero", none⟩,
    .synced 3 ⟨false, true, [3, 4], some "three", some "before"⟩, .scrollback, .request,
    .arrived [2, 1, 0] "zero"]

theorem scrolledIntoOlder_runs : ((exampleRoom true).run scrolledIntoOlder).isSome := by decide

end Examples

end MatrixSdk.Sync
