/-
Where an event that is being sent is.

Each transaction id has one of three fates ([`Fate`]): nothing has been sent with it, the
event made for it waits for its echo, or the echo has come. While it waits the event is the
only one that has its ids, and is in the pending list or in the timelines but not in both.
Afterwards it has left the pending list, has its remote id and no status, and is where the
echo has put it until all timelines are discarded.

A step changes the fate of one transaction id. For the others it is enough that nothing of
theirs is touched ([`Fate.keep`]).
-/
import MatrixSdk.Models.IndexedTimelines
import MatrixSdk.Models.Room

set_option autoImplicit false

namespace MatrixSdk.Models

open MatrixSdk.Lib

section Pending

variable {TxnId : Type}

/-! ## The invariant -/

/-- The pending list, empty when there is none. -/
def Room.pending (room : Room TxnId) : List TxnId := room.pendingEventList.getD []

/-- The event is in a timeline of some timeline set. -/
def Room.InTimelines (room : Room TxnId) (e : RoomEvent TxnId) : Prop :=
  ∃ set ∈ room.timelineSets, e ∈ allEvents set

/-- The filter of the set lets the event made for the transaction id pass. -/
def Shows (set : RoomTimelineSet TxnId) (t : TxnId) : Prop :=
  set.filterRoomTimeline [.localEvent t] ≠ []

/-- **What becomes of an event** that is sent with the transaction id `t`. -/
inductive Fate (s : SendingRoom TxnId) (t : TxnId) : Prop
  | unsent (attempt : (s.sending t).attempt = .unsent) (accepted : (s.sending t).accepted = false)
      (answered : (s.sending t).answered = false) (echoed : (s.sending t).echoed = false)
      (pending : t ∉ s.room.pending) (timelines : ¬ s.room.InTimelines (.localEvent t))
      (echo : ¬ s.room.InTimelines (.remoteEcho t))
  | waiting (status : EventStatus) (attempt : (s.sending t).attempt ≠ .unsent)
      (echoed : (s.sending t).echoed = false) (txn : s.room.txnToEvent.get t = some t)
      (event : s.room.localEvents t =
        ⟨if status = .sent then .sent t else .localEcho t, some status⟩)
      (inFlight : (s.sending t).attempt = .inFlight → status = .sending)
      (pending : t ∈ s.room.pending → ¬ s.room.InTimelines (.localEvent t))
      (echo : ¬ s.room.InTimelines (.remoteEcho t))
  | echoed (attempt : (s.sending t).attempt ≠ .unsent) (echoed : (s.sending t).echoed = true)
      (txn : s.room.txnToEvent.get t = none) (event : s.room.localEvents t = ⟨.sent t, none⟩)
      (pending : t ∉ s.room.pending)
      (timelines : (s.sending t).unloaded = false → ∀ set ∈ s.room.timelineSets, Shows set t →
        .localEvent t ∈ allEvents set)

structure SendInv (s : SendingRoom TxnId) : Prop where
  indexed : ∀ set ∈ s.room.timelineSets, Indexed s.room.getId set
  filter : s.room.unfilteredTimelineSet.filter = none
  support : ∀ set ∈ s.room.timelineSets,
    set.timelineSupport = s.room.unfilteredTimelineSet.timelineSupport
  pending : s.room.pending.Nodup
  fate : ∀ t, Fate s t

/-! ## What a step leaves alone -/

/-- The options of a timeline set. -/
structure SameOptions (set set' : RoomTimelineSet TxnId) : Prop where
  filter : set'.filter = set.filter
  timelineSupport : set'.timelineSupport = set.timelineSupport

/-- Nothing is changed for the transaction id `u`; `f` is what is done to the timeline sets. -/
structure SameFor (u : TxnId) (f : RoomTimelineSet TxnId → RoomTimelineSet TxnId)
    (s s' : SendingRoom TxnId) : Prop where
  sending : s'.sending u = s.sending u
  event : s'.room.localEvents u = s.room.localEvents u
  txn : s'.room.txnToEvent.get u = s.room.txnToEvent.get u
  pending : u ∈ s'.room.pending → u ∈ s.room.pending
  timelines : ∀ set ∈ s.room.timelineSets, ∀ e, e = .localEvent u ∨ e = .remoteEcho u →
    (e ∈ allEvents (f set) ↔ e ∈ allEvents set)

variable {s s' : SendingRoom TxnId} {f : RoomTimelineSet TxnId → RoomTimelineSet TxnId}
  {set : RoomTimelineSet TxnId} {t : TxnId} {e : RoomEvent TxnId}

theorem SameOptions.shows {set' : RoomTimelineSet TxnId} (h : SameOptions set set') :
    Shows set' t ↔ Shows set t := by
  unfold Shows EventTimelineSet.filterRoomTimeline
  rw [h.filter]

theorem inTimelines_of_map {room room' : Room TxnId}
    (hsets : room'.timelineSets = room.timelineSets.map f)
    (h : ∀ set ∈ room.timelineSets, e ∈ allEvents (f set) → e ∈ allEvents set)
    (hin : room'.InTimelines e) : room.InTimelines e := by
  obtain ⟨set', hset', hmem⟩ := hin
  rw [hsets] at hset'
  obtain ⟨set, hset, rfl⟩ := List.mem_map.1 hset'
  exact ⟨set, hset, h set hset hmem⟩

/-- **The frame rule**: a fate nothing touches stays. -/
theorem Fate.keep {u : TxnId} (hsets : s'.room.timelineSets = s.room.timelineSets.map f)
    (hopt : ∀ set ∈ s.room.timelineSets, SameOptions set (f set)) (h : SameFor u f s s')
    (hf : Fate s u) : Fate s' u := by
  have hin : ∀ {e}, e = .localEvent u ∨ e = .remoteEcho u → ¬ s.room.InTimelines e →
      ¬ s'.room.InTimelines e := fun he hnot hin =>
    hnot (inTimelines_of_map hsets (fun set hset => (h.timelines set hset _ he).1) hin)
  cases hf with
  | unsent hat hac han hec hp ht hr =>
    refine .unsent ?_ ?_ ?_ ?_ (fun hp' => hp (h.pending hp')) (hin (.inl rfl) ht)
      (hin (.inr rfl) hr) <;> rw [h.sending] <;> assumption
  | waiting st hat hec htxn hev hfl hp hr =>
    refine .waiting st ?_ ?_ (h.txn.trans htxn) (h.event.trans hev) ?_
      (fun hp' => hin (.inl rfl) (hp (h.pending hp'))) (hin (.inr rfl) hr) <;>
      rw [h.sending] <;> assumption
  | echoed hat hec htxn hev hp ht =>
    refine .echoed ?_ ?_ (h.txn.trans htxn) (h.event.trans hev) (fun hp' => hp (h.pending hp'))
      (fun hun set' hset' hshow => ?_)
    · rw [h.sending]
      exact hat
    · rw [h.sending]
      exact hec
    · rw [h.sending] at hun
      rw [hsets] at hset'
      obtain ⟨set, hset, rfl⟩ := List.mem_map.1 hset'
      rw [h.timelines set hset _ (.inl rfl)]
      exact ht hun set hset ((hopt set hset).shows.1 hshow)

/-- What a step has to be shown to do: the sets stay indexed, the pending list stays without
duplicates, and every fate is settled. -/
theorem SendInv.of_map (h : SendInv s)
    (hsets : s'.room.timelineSets = s.room.timelineSets.map f)
    (hopt : ∀ set ∈ s.room.timelineSets, SameOptions set (f set))
    (hindexed : ∀ set ∈ s.room.timelineSets, Indexed s'.room.getId (f set))
    (hpending : s'.room.pending.Nodup) (hfate : ∀ u, Fate s' u) : SendInv s' := by
  have hunf : s'.room.unfilteredTimelineSet = f s.room.unfilteredTimelineSet :=
    (List.cons.inj hsets).1
  have hopt₀ := hopt s.room.unfilteredTimelineSet List.mem_cons_self
  refine ⟨fun set' hset' => ?_, ?_, fun set' hset' => ?_, hpending, hfate⟩
  · rw [hsets] at hset'
    obtain ⟨set, hset, rfl⟩ := List.mem_map.1 hset'
    exact hindexed set hset
  · rw [hunf, hopt₀.filter]
    exact h.filter
  · rw [hsets] at hset'
    obtain ⟨set, hset, rfl⟩ := List.mem_map.1 hset'
    rw [hunf, hopt₀.timelineSupport, (hopt set hset).timelineSupport]
    exact h.support set hset

/-- **One transaction id.** The fate of `t` is settled, and the others are left alone. -/
theorem SendInv.step_of (h : SendInv s) (t : TxnId)
    (hsets : s'.room.timelineSets = s.room.timelineSets.map f)
    (hopt : ∀ set ∈ s.room.timelineSets, SameOptions set (f set))
    (hindexed : ∀ set ∈ s.room.timelineSets, Indexed s'.room.getId (f set))
    (hpending : s'.room.pending.Nodup) (hfate : Fate s' t)
    (hsame : ∀ u, u ≠ t → SameFor u f s s') : SendInv s' := by
  refine h.of_map hsets hopt hindexed hpending fun u => ?_
  by_cases hut : u = t
  · rw [hut]
    exact hfate
  · exact (h.fate u).keep hsets hopt (hsame u hut)

/-! ## Ids -/

theorem Fate.eventId_cases (h : Fate s t)
    (hin : t ∈ s.room.pending ∨ s.room.InTimelines (.localEvent t)) :
    (s.room.localEvents t).eventId = .localEcho t ∨ (s.room.localEvents t).eventId = .sent t := by
  cases h with
  | unsent _ _ _ _ hp ht _ => exact absurd hin (not_or.2 ⟨hp, ht⟩)
  | waiting st _ _ _ hev _ _ _ =>
    rw [hev]
    by_cases hst : st = .sent
    · exact .inr (if_pos hst)
    · exact .inl (if_neg hst)
  | echoed _ _ _ hev _ _ =>
    rw [hev]
    exact .inr rfl

/-- **Whose id it is.** An event of the timelines with an id of the transaction `t` is the one
made for it, or its echo. -/
theorem SendInv.of_getId (h : SendInv s) (hset : set ∈ s.room.timelineSets) (he : e ∈ allEvents set)
    (hid : s.room.getId e = .localEcho t ∨ s.room.getId e = .sent t) :
    e = .localEvent t ∨ e = .remoteEcho t := by
  cases e with
  | localEvent u =>
    left
    have hu := (h.fate u).eventId_cases (.inr ⟨set, hset, he⟩)
    change (s.room.localEvents u).eventId = _ ∨ (s.room.localEvents u).eventId = _ at hid
    rcases hu with hu | hu <;> rw [hu] at hid <;> simpa using hid
  | remoteEcho u =>
    right
    simpa [Room.getId] using hid
  | other n => simp [Room.getId] at hid

/-- While an event waits for its echo, no other has an id of its. -/
theorem SendInv.of_getId_waiting (h : SendInv s) (hecho : ¬ s.room.InTimelines (.remoteEcho t))
    (hset : set ∈ s.room.timelineSets) (he : e ∈ allEvents set) (hne : e ≠ .localEvent t) :
    s.room.getId e ≠ .localEcho t ∧ s.room.getId e ≠ .sent t := by
  rw [← not_or]
  intro hid
  rcases h.of_getId hset he hid with rfl | rfl
  · exact hne rfl
  · exact hecho ⟨set, hset, he⟩

theorem SendInv.of_pending (h : SendInv s) {u : TxnId} (hu : u ∈ s.room.pending)
    (hid : (s.room.localEvents u).eventId = .localEcho t ∨
      (s.room.localEvents u).eventId = .sent t) : u = t := by
  have hcases := (h.fate u).eventId_cases (.inl hu)
  rcases hcases with hc | hc <;> rw [hc] at hid <;> simpa using hid

section Steps

variable [DecidableEq TxnId] {t : TxnId} {x : Sending} {room : Room TxnId} {status : EventStatus}
  {room' : Room TxnId} {old : EventStatus}

theorem getId_setLocalEvent_of_ne (room : Room TxnId) (ev : LocalEvent TxnId) {e : RoomEvent TxnId}
    (he : e ≠ .localEvent t) : (room.setLocalEvent t ev).getId e = room.getId e := by
  cases e with
  | localEvent u =>
    have hut : u ≠ t := fun h => he (by rw [h])
    exact congrArg LocalEvent.eventId (Function.update_of_ne hut ..)
  | remoteEcho u => rfl
  | other n => rfl

theorem localEvents_setLocalEvent (room : Room TxnId) (t : TxnId) (ev : LocalEvent TxnId) :
    (room.setLocalEvent t ev).localEvents t = ev := Function.update_self ..

theorem localEvents_setLocalEvent_of_ne (room : Room TxnId) {u : TxnId} (ev : LocalEvent TxnId)
    (h : u ≠ t) : (room.setLocalEvent t ev).localEvents u = room.localEvents u :=
  Function.update_of_ne h ..

theorem sending_setSending (s : SendingRoom TxnId) (t : TxnId) (x : Sending) :
    (s.setSending t x).sending t = x := Function.update_self ..

theorem sending_setSending_of_ne (s : SendingRoom TxnId) {u : TxnId} (x : Sending) (h : u ≠ t) :
    (s.setSending t x).sending u = s.sending u := Function.update_of_ne h ..

/-! ## The attempt -/

/-- The fate stays when only the attempt goes on. -/
theorem Fate.attempt (h : Fate s t) (hat : (s.sending t).attempt ≠ .unsent)
    (hx : x.attempt ≠ .unsent) (hecho : x.echoed = (s.sending t).echoed)
    (hun : x.unloaded = (s.sending t).unloaded)
    (hfl : x.attempt = .inFlight → (s.sending t).attempt = .inFlight ∨
      (s.room.localEvents t).status ∈ [some .sending, none]) : Fate (s.setSending t x) t := by
  have hs := sending_setSending s t x
  cases h with
  | unsent hunsent => exact absurd hunsent hat
  | waiting st _ hec htxn hev hinfl hp hr =>
    refine .waiting st ?_ ?_ htxn hev (fun hin => ?_) hp hr
    · rw [hs]
      exact hx
    · rw [hs, hecho]
      exact hec
    · rw [hs] at hin
      rcases hfl hin with h | h
      · exact hinfl h
      · rw [hev] at h
        simpa using h
  | echoed _ hec htxn hev hp ht =>
    refine .echoed ?_ ?_ htxn hev hp (fun hunl => ?_)
    · rw [hs]
      exact hx
    · rw [hs, hecho]
      exact hec
    · rw [hs, hun] at hunl
      exact ht hunl

/-- The attempt goes on, and the room stays as it is. -/
theorem SendInv.attempt (h : SendInv s) (hat : (s.sending t).attempt ≠ .unsent)
    (hx : x.attempt ≠ .unsent) (hecho : x.echoed = (s.sending t).echoed)
    (hun : x.unloaded = (s.sending t).unloaded)
    (hfl : x.attempt = .inFlight → (s.sending t).attempt = .inFlight ∨
      (s.room.localEvents t).status ∈ [some .sending, none]) : SendInv (s.setSending t x) := by
  refine h.step_of (f := id) t (List.map_id _).symm (fun set _ => ⟨rfl, rfl⟩) h.indexed h.pending
    ((h.fate t).attempt hat hx hecho hun hfl) fun u hut => ?_
  exact ⟨sending_setSending_of_ne s x hut, rfl, rfl, id, fun _ _ _ _ => Iff.rfl⟩

/-! ## The status -/

theorem updatePendingEvent_eq_ok {id : Option (EventId TxnId)} (hst : status ≠ .sent)
    (h : room.updatePendingEvent t status id = .ok room') :
    ∃ old, (room.localEvents t).status = some old ∧ status ∈ allowedTransitions old ∧
      room' = room.setPendingStatus t status id := by
  unfold Room.updatePendingEvent at h
  rw [if_neg (fun hc => hst hc.1), if_neg (fun hc => hst hc.1)] at h
  split at h
  · exact absurd h (by simp)
  next old hold =>
    split at h
    next hallowed => exact ⟨old, hold, hallowed, (Except.ok.inj h).symm⟩
    · exact absurd h (by simp)

theorem setPendingStatus_eq (room : Room TxnId) (t : TxnId) (hst : status ≠ .sent)
    (hst' : status ≠ .cancelled) (id : Option (EventId TxnId)) :
    room.setPendingStatus t status id =
      room.setLocalEvent t ⟨(room.localEvents t).eventId, some status⟩ := by
  cases status <;> first | rfl | exact absurd rfl hst | exact absurd rfl hst'

omit [DecidableEq TxnId] in
/-- An event whose status may change waits for its echo, with its local id. -/
theorem SendInv.waiting_of_status (h : SendInv s) (hat : (s.sending t).attempt ≠ .unsent)
    (hold : (s.room.localEvents t).status = some old) (hallowed : status ∈ allowedTransitions old) :
    (s.sending t).echoed = false ∧ s.room.txnToEvent.get t = some t ∧
      s.room.localEvents t = ⟨.localEcho t, some old⟩ ∧
      (t ∈ s.room.pending → ¬ s.room.InTimelines (.localEvent t)) ∧
      ¬ s.room.InTimelines (.remoteEcho t) := by
  cases h.fate t with
  | unsent hunsent => exact absurd hunsent hat
  | waiting st _ hec htxn hev _ hp hr =>
    obtain rfl : st = old := by
      rw [hev] at hold
      exact Option.some.inj hold
    refine ⟨hec, htxn, ?_, hp, hr⟩
    rw [hev, if_neg]
    rintro rfl
    exact absurd hallowed List.not_mem_nil
  | echoed _ _ _ hev _ _ =>
    rw [hev] at hold
    exact absurd hold (by simp)

/-- A waiting event with its local id gets another status. -/
theorem SendInv.setLocalStatus (h : SendInv s) (hat : (s.sending t).attempt ≠ .unsent)
    (hold : (s.room.localEvents t).status = some old) (hallowed : status ∈ allowedTransitions old)
    (hst : status ≠ .sent) (hx : x.attempt ≠ .unsent) (hecho : x.echoed = (s.sending t).echoed)
    (hfl : x.attempt ≠ .inFlight) :
    SendInv ({ s with room := s.room.setLocalEvent t ⟨.localEcho t, some status⟩ }.setSending t x) := by
  obtain ⟨hec, htxn, hev, hp, hr⟩ := h.waiting_of_status hat hold hallowed
  have hids : ∀ e, (s.room.setLocalEvent t ⟨.localEcho t, some status⟩).getId e =
      s.room.getId e := by
    intro e
    by_cases he : e = .localEvent t
    · rw [he, Room.getId, localEvents_setLocalEvent, Room.getId, hev]
    · exact getId_setLocalEvent_of_ne s.room _ he
  refine h.step_of (f := id) t (List.map_id _).symm (fun set _ => ⟨rfl, rfl⟩)
    (fun set hset => (h.indexed set hset).congr fun e _ => hids e) h.pending ?_ fun u hut => ?_
  · refine .waiting status ?_ ?_ htxn ?_ (fun hin => ?_) hp hr
    · rw [sending_setSending]
      exact hx
    · rw [sending_setSending, hecho]
      exact hec
    · rw [if_neg hst]
      exact localEvents_setLocalEvent ..
    · rw [sending_setSending] at hin
      exact absurd hin hfl
  · exact ⟨sending_setSending_of_ne _ x hut, localEvents_setLocalEvent_of_ne _ _ hut, rfl, id,
      fun _ _ _ _ => Iff.rfl⟩

/-- **A status** other than "sent" and "cancelled" is set, and the attempt goes on. -/
theorem SendInv.setStatus (h : SendInv s) (hat : (s.sending t).attempt ≠ .unsent)
    (hst : status ≠ .sent) (hst' : status ≠ .cancelled)
    (hok : s.room.updatePendingEvent t status none = .ok room) (hx : x.attempt ≠ .unsent)
    (hecho : x.echoed = (s.sending t).echoed) (hfl : x.attempt ≠ .inFlight) :
    SendInv ({ s with room := room }.setSending t x) := by
  obtain ⟨old, hold, hallowed, rfl⟩ := updatePendingEvent_eq_ok hst hok
  obtain ⟨_, _, hev, _, _⟩ := h.waiting_of_status hat hold hallowed
  rw [setPendingStatus_eq s.room t hst hst', hev]
  exact h.setLocalStatus hat hold hallowed hst hx hecho hfl

/-- The error handler. -/
theorem SendInv.failed (h : SendInv s) (hat : (s.sending t).attempt ≠ .unsent) :
    SendInv (s.failed t) := by
  unfold SendingRoom.failed
  dsimp only
  split
  next room hok =>
    refine h.setStatus (x := { s.sending t with attempt := .over }) hat
      (by decide) (by decide) hok ?_ rfl ?_
    · exact fun h => Attempt.noConfusion h
    · exact fun h => Attempt.noConfusion h
  · refine h.attempt hat ?_ rfl rfl fun hin => ?_
    · exact fun h => Attempt.noConfusion h
    · exact Attempt.noConfusion hin

/-! ## Sent -/

theorem sameOptions_replaceEventId (set : RoomTimelineSet TxnId) (a b : EventId TxnId) :
    SameOptions set (set.replaceEventId a b) := by
  unfold EventTimelineSet.replaceEventId
  split <;> exact ⟨rfl, rfl⟩

theorem sameOptions_removeEvent (set : RoomTimelineSet TxnId)
    (getId : RoomEvent TxnId → EventId TxnId) (a : EventId TxnId) :
    SameOptions set (set.removeEvent getId a) := by
  unfold EventTimelineSet.removeEvent
  split
  · exact ⟨rfl, rfl⟩
  · split <;> exact ⟨rfl, rfl⟩

theorem sameOptions_addLiveEvent (set : RoomTimelineSet TxnId)
    (getId : RoomEvent TxnId → EventId TxnId) (e : RoomEvent TxnId) :
    SameOptions set (set.addLiveEvent getId e false) := by
  unfold EventTimelineSet.addLiveEvent
  split
  · exact ⟨rfl, rfl⟩
  · split <;> exact ⟨rfl, rfl⟩

theorem sameOptions_handleRemoteEcho (set : RoomTimelineSet TxnId)
    (getId : RoomEvent TxnId → EventId TxnId) (e : RoomEvent TxnId) (a b : EventId TxnId) :
    SameOptions set (set.handleRemoteEcho getId e a b) := by
  unfold EventTimelineSet.handleRemoteEcho
  split
  · exact sameOptions_replaceEventId set a b
  · split <;> exact ⟨rfl, rfl⟩

/-- The response finds the event in the timelines already, or sets its status. -/
theorem updatePendingEvent_sent_eq_ok {id : EventId TxnId}
    (h : room.updatePendingEvent t .sent (some id) = .ok room') :
    room' = room ∨ ∃ old, (room.localEvents t).status = some old ∧
      .sent ∈ allowedTransitions old ∧ room' = room.setPendingStatus t .sent (some id) := by
  unfold Room.updatePendingEvent at h
  rw [if_neg (by simp)] at h
  split at h
  · exact .inl (Except.ok.inj h).symm
  · split at h
    · exact absurd h (by simp)
    next old hold =>
      split at h
      next hallowed => exact .inr ⟨old, hold, hallowed, (Except.ok.inj h).symm⟩
      · exact absurd h (by simp)

/-- **The response** gives a waiting event its remote id. -/
theorem SendInv.sent (h : SendInv s) (hat : (s.sending t).attempt ≠ .unsent)
    (hold : (s.room.localEvents t).status = some old)
    (hallowed : EventStatus.sent ∈ allowedTransitions old) (hx : x.attempt = .over)
    (hecho : x.echoed = (s.sending t).echoed) :
    SendInv ({ s with room := s.room.setPendingStatus t .sent (some (.sent t)) }.setSending t x) := by
  obtain ⟨hec, htxn, hev, hp, hr⟩ := h.waiting_of_status hat hold hallowed
  have hgetId : ∀ e ≠ RoomEvent.localEvent t,
      (s.room.setPendingStatus t .sent (some (.sent t))).getId e = s.room.getId e := by
    intro e he
    change ((s.room.setLocalEvent t _).setLocalEvent t ⟨.sent t, some .sent⟩).getId e = _
    rw [getId_setLocalEvent_of_ne _ _ he, getId_setLocalEvent_of_ne _ _ he]
  have hset : ∀ set ∈ s.room.timelineSets,
      Indexed (s.room.setPendingStatus t .sent (some (.sent t))).getId
        (set.replaceEventId (s.room.localEvents t).eventId (.sent t)) ∧
      allEvents (set.replaceEventId (s.room.localEvents t).eventId (.sent t)) = allEvents set := by
    intro set hset
    have hs := h.indexed set hset
    by_cases hmem : .localEvent t ∈ allEvents set
    · refine hs.replaceEventId hmem rfl ?_ fun e he hne => ⟨hgetId e hne, ?_⟩
      · exact congrArg LocalEvent.eventId (localEvents_setLocalEvent ..)
      · exact (h.of_getId_waiting hr hset he hne).2
    · have hne : ∀ e ∈ allEvents set, e ≠ .localEvent t := fun e he heq => hmem (heq ▸ he)
      rw [hs.replaceEventId_unknown _ fun e he hid => ?_]
      · exact ⟨hs.congr fun e he => hgetId e (hne e he), rfl⟩
      · rw [hev] at hid
        exact (h.of_getId_waiting hr hset he (hne e he)).1 hid
  refine h.step_of (f := fun set => set.replaceEventId (s.room.localEvents t).eventId (.sent t)) t
    rfl (fun set _ => sameOptions_replaceEventId set _ _) (fun set hs => (hset set hs).1) h.pending
    ?_ fun u hut => ?_
  · have hin : ∀ e, Room.InTimelines
        ({ s with room := s.room.setPendingStatus t .sent (some (.sent t)) }.setSending t x).room e →
        s.room.InTimelines e := by
      intro e
      refine inTimelines_of_map
        (f := fun set => set.replaceEventId (s.room.localEvents t).eventId (.sent t)) rfl ?_
      intro set hs hmem
      rw [(hset set hs).2] at hmem
      exact hmem
    refine .waiting .sent ?_ ?_ htxn ?_ (fun hfl => ?_) (fun hp' hin' => hp hp' (hin _ hin'))
      (fun hin' => hr (hin _ hin'))
    · rw [sending_setSending, hx]
      exact fun h => Attempt.noConfusion h
    · rw [sending_setSending, hecho]
      exact hec
    · exact localEvents_setLocalEvent ..
    · rw [sending_setSending, hx] at hfl
      exact Attempt.noConfusion hfl
  · refine ⟨sending_setSending_of_ne _ x hut, ?_, rfl, id, fun set hs e _ => ?_⟩
    · change ((s.room.setLocalEvent t _).setLocalEvent t _).localEvents u = _
      rw [localEvents_setLocalEvent_of_ne _ _ hut, localEvents_setLocalEvent_of_ne _ _ hut]
    · rw [(hset set hs).2]

/-! ## Cancelled -/

/-- The event with the id `t` is taken off the pending list, and no other is. -/
theorem SendInv.removePending (h : SendInv s) {id : EventId TxnId}
    (hid : id = .localEcho t ∨ id = .sent t) (hev : (s.room.localEvents t).eventId = id) :
    (s.room.removePending id).pending.Nodup ∧ t ∉ (s.room.removePending id).pending ∧
      ∀ u ∈ (s.room.removePending id).pending, u ∈ s.room.pending := by
  have heq : (s.room.removePending id).pending =
      s.room.pending.eraseP fun ev => (s.room.localEvents ev).eventId = id := by
    unfold Room.pending Room.removePending
    cases s.room.pendingEventList <;> rfl
  rw [heq]
  refine ⟨h.pending.sublist List.eraseP_sublist, fun ht => ?_, fun u hu =>
    List.mem_of_mem_eraseP hu⟩
  have hmem : t ∈ s.room.pending := List.mem_of_mem_eraseP ht
  obtain ⟨u, l₁, l₂, _, hu, hsplit, herase⟩ := List.exists_of_eraseP
    (p := fun ev => decide ((s.room.localEvents ev).eventId = id)) hmem (decide_eq_true hev)
  have hut : u = t := by
    have hup : u ∈ s.room.pending := by
      rw [hsplit]
      exact List.mem_append_right _ List.mem_cons_self
    refine h.of_pending hup ?_
    rw [of_decide_eq_true hu]
    exact hid
  -- it was there once
  have hnd := h.pending
  rw [hsplit, List.nodup_middle, List.nodup_cons] at hnd
  rw [herase, ← hut] at ht
  exact hnd.1 ht

/-- **A cancelled event** is in no list, until its echo comes. -/
theorem SendInv.cancelled (h : SendInv s) (hat : (s.sending t).attempt ≠ .unsent)
    (hok : s.room.cancelPendingEvent t = .ok room) (hx : x.attempt = .over)
    (hecho : x.echoed = (s.sending t).echoed) :
    SendInv ({ s with room := room }.setSending t x) := by
  have hup : s.room.updatePendingEvent t .cancelled none = .ok room := by
    unfold Room.cancelPendingEvent at hok
    split at hok
    · exact hok
    · exact hok
    · exact absurd hok (by simp)
  obtain ⟨old, hold, hallowed, rfl⟩ := updatePendingEvent_eq_ok (by decide) hup
  obtain ⟨_, _, hev, _, _⟩ := h.waiting_of_status hat hold hallowed
  have hover : x.attempt ≠ .unsent ∧ x.attempt ≠ .inFlight := by
    rw [hx]
    exact ⟨fun h => Attempt.noConfusion h, fun h => Attempt.noConfusion h⟩
  -- first the status, then the lists
  have h₁ := h.setLocalStatus hat hold hallowed (by decide) hover.1 hecho hover.2
  have heq : s.room.setPendingStatus t .cancelled none =
      ((s.room.setLocalEvent t ⟨.localEcho t, some .cancelled⟩).removePending
        (.localEcho t)).removeEvent (.localEcho t) := by
    unfold Room.setPendingStatus
    simp only [hev]
  rw [heq]
  obtain ⟨hnd, hout, hsub⟩ := h₁.removePending (.inl rfl)
    (congrArg LocalEvent.eventId (localEvents_setLocalEvent s.room t _))
  have hset := fun set hs => (h₁.indexed set hs).removeEvent (.localEcho t)
  refine h₁.step_of (f := fun set => set.removeEvent _ (.localEcho t)) t rfl
    (fun set _ => sameOptions_removeEvent set _ _) (fun set hs => (hset set hs).1) hnd ?_
    fun u hut => ?_
  · obtain ⟨hec, htxn, hev₁, _, hr⟩ := h.waiting_of_status hat hold hallowed
    refine .waiting .cancelled ?_ ?_ htxn ?_ (fun hfl => ?_) (fun hp' => absurd hp' hout)
      (fun hin => hr ?_)
    · rw [sending_setSending]
      exact hover.1
    · rw [sending_setSending, hecho]
      exact hec
    · exact localEvents_setLocalEvent ..
    · rw [sending_setSending] at hfl
      exact absurd hfl hover.2
    · exact inTimelines_of_map (f := fun set => set.removeEvent _ (.localEcho t)) rfl
        (fun set hs hmem => (((hset set hs).2 _).1 hmem).1) hin
  · refine ⟨rfl, rfl, rfl, hsub u, fun set hs e he => ?_⟩
    refine ((hset set hs).2 e).trans (and_iff_left_of_imp fun hmem hid => ?_)
    rcases h₁.of_getId hs hmem (.inl hid) with rfl | rfl <;> simp [hut.symm] at he

/-! ## The echo -/

/-- **The echo of a waiting event** takes it off the pending list and into the timelines. -/
theorem SendInv.echoed (h : SendInv s) (hat : (s.sending t).attempt ≠ .unsent)
    (hec : (s.sending t).echoed = false) (hx : x.attempt ≠ .unsent) (hecho : x.echoed = true) :
    SendInv ({ s with room := s.room.addLiveEvent (.remoteEcho t) (some t) }.setSending t x) := by
  obtain ⟨htxn, hr, hid⟩ : s.room.txnToEvent.get t = some t ∧
      ¬ s.room.InTimelines (.remoteEcho t) ∧
      ((s.room.localEvents t).eventId = .localEcho t ∨
        (s.room.localEvents t).eventId = .sent t) := by
    cases h.fate t with
    | unsent hunsent => exact absurd hunsent hat
    | waiting st _ _ htxn hev _ _ hr =>
      refine ⟨htxn, hr, ?_⟩
      rw [hev]
      by_cases hst : st = .sent
      · exact .inr (if_pos hst)
      · exact .inl (if_neg hst)
    | echoed _ hec' => exact absurd (hec.symm.trans hec') (by decide)
  have heq : s.room.addLiveEvent (.remoteEcho t) (some t) =
      s.room.handleRemoteEcho t (.sent t) t := by
    unfold Room.addLiveEvent
    simp only [htxn]
    rfl
  rw [heq]
  obtain ⟨hnd, hout, hsub⟩ := h.removePending hid rfl
  have hgetId : ∀ e ≠ RoomEvent.localEvent t,
      (s.room.handleRemoteEcho t (.sent t) t).getId e = s.room.getId e := by
    intro e he
    exact getId_setLocalEvent_of_ne (Room.removePending
      { s.room with txnToEvent := s.room.txnToEvent.delete t } _) ⟨.sent t, none⟩ he
  have hlocal : (s.room.handleRemoteEcho t (.sent t) t).localEvents t = ⟨.sent t, none⟩ :=
    localEvents_setLocalEvent (Room.removePending
      { s.room with txnToEvent := s.room.txnToEvent.delete t } _) t ⟨.sent t, none⟩
  have hset : ∀ set ∈ s.room.timelineSets,
      Indexed (s.room.handleRemoteEcho t (.sent t) t).getId
        (set.handleRemoteEcho (s.room.handleRemoteEcho t (.sent t) t).getId (.localEvent t)
          (s.room.localEvents t).eventId (.sent t)) ∧
      ∀ e, e ∈ allEvents
          (set.handleRemoteEcho (s.room.handleRemoteEcho t (.sent t) t).getId (.localEvent t)
            (s.room.localEvents t).eventId (.sent t)) ↔
        e ∈ allEvents set ∨ (e = .localEvent t ∧ Shows set t) := by
    intro set hs
    refine (h.indexed set hs).handleRemoteEcho rfl (congrArg LocalEvent.eventId hlocal)
      fun e he hne => ?_
    obtain ⟨hne₁, hne₂⟩ := h.of_getId_waiting hr hs he hne
    refine ⟨hgetId e hne, hne₂, fun hold => ?_⟩
    rcases hid with hid | hid
    · exact hne₁ (hold.trans hid)
    · exact hne₂ (hold.trans hid)
  refine h.step_of (f := fun set => set.handleRemoteEcho _ (.localEvent t) _ (.sent t)) t rfl
    (fun set _ => sameOptions_handleRemoteEcho set _ _ _ _) (fun set hs => (hset set hs).1) hnd ?_
    fun u hut => ?_
  · refine .echoed ?_ ?_ (JsObject.get_delete_self ..) hlocal hout fun _ set' hset' hshow => ?_
    · rw [sending_setSending]
      exact hx
    · rw [sending_setSending]
      exact hecho
    · obtain ⟨set, hs, rfl⟩ : ∃ set ∈ s.room.timelineSets,
          set.handleRemoteEcho _ (.localEvent t) _ (.sent t) = set' := List.mem_map.1 hset'
      refine ((hset set hs).2 _).2 (.inr ⟨rfl, ?_⟩)
      exact (sameOptions_handleRemoteEcho set _ _ _ _).shows.1 hshow
  · refine ⟨sending_setSending_of_ne _ x hut, ?_, JsObject.get_delete_ne hut, hsub u,
      fun set hs e he => ?_⟩
    · exact localEvents_setLocalEvent_of_ne (Room.removePending
        { s.room with txnToEvent := s.room.txnToEvent.delete t } _) _ hut
    · refine ((hset set hs).2 e).trans (or_iff_left ?_)
      rintro ⟨rfl, _⟩
      simp [hut.symm] at he

/-- **The echo again**: the event may have been discarded, and is one of `/sync` then. -/
theorem SendInv.echoed_again (h : SendInv s) (hat : (s.sending t).attempt ≠ .unsent)
    (hec : (s.sending t).echoed = true) (hx : x.attempt ≠ .unsent) (hecho : x.echoed = true)
    (hun : x.unloaded = (s.sending t).unloaded) :
    SendInv ({ s with room := s.room.addLiveEvent (.remoteEcho t) (some t) }.setSending t x) := by
  cases h.fate t with
  | unsent hunsent => exact absurd hunsent hat
  | waiting _ _ hec' => exact absurd (hec.symm.trans hec') (by decide)
  | echoed _ _ htxn hev hp ht =>
    have heq : s.room.addLiveEvent (.remoteEcho t) (some t) =
        s.room.mapTimelineSets fun set =>
          set.addLiveEvent s.room.getId (.remoteEcho t) false := by
      unfold Room.addLiveEvent
      simp only [htxn]
    rw [heq]
    have hset := fun set (hs : set ∈ s.room.timelineSets) =>
      (h.indexed set hs).addLiveEvent (x := .remoteEcho t)
    refine h.step_of (f := fun set => set.addLiveEvent s.room.getId (.remoteEcho t) false) t rfl
      (fun set _ => sameOptions_addLiveEvent set _ _) (fun set hs => (hset set hs).1) h.pending ?_
      fun u hut => ?_
    · refine .echoed ?_ ?_ htxn hev hp fun hunl set' hset' hshow => ?_
      · rw [sending_setSending]
        exact hx
      · rw [sending_setSending]
        exact hecho
      · rw [sending_setSending, hun] at hunl
        obtain ⟨set, hs, rfl⟩ : ∃ set ∈ s.room.timelineSets,
            set.addLiveEvent s.room.getId (.remoteEcho t) false = set' := List.mem_map.1 hset'
        have hshow' := (sameOptions_addLiveEvent set _ _).shows.1 hshow
        exact ((hset set hs).2 _).2 (.inl (ht hunl set hs hshow'))
    · refine ⟨sending_setSending_of_ne _ x hut, rfl, rfl, id, fun set hs e he => ?_⟩
      refine ((hset set hs).2 e).trans (or_iff_left ?_)
      rintro ⟨rfl, _⟩
      simp [hut.symm] at he

/-- An event of somebody else. -/
theorem SendInv.otherEvent (h : SendInv s) (n : ℕ) :
    SendInv { s with room := s.room.addLiveEvent (.other n) none } := by
  have hset := fun set (hs : set ∈ s.room.timelineSets) =>
    (h.indexed set hs).addLiveEvent (x := .other n)
  have hopt := fun set (_ : set ∈ s.room.timelineSets) =>
    sameOptions_addLiveEvent set s.room.getId (.other n)
  refine h.of_map (f := fun set => set.addLiveEvent s.room.getId (.other n) false) rfl hopt
    (fun set hs => (hset set hs).1) h.pending fun u => ?_
  refine (h.fate u).keep (f := fun set => set.addLiveEvent s.room.getId (.other n) false) rfl hopt
    ⟨rfl, rfl, rfl, id, fun set hs e he => ?_⟩
  refine ((hset set hs).2 e).trans (or_iff_left ?_)
  rintro ⟨rfl, _⟩
  simp at he

omit [DecidableEq TxnId] in
/-- **A reset** keeps the timelines, or discards them and unloads what was echoed. -/
theorem SendInv.reset (h : SendInv s) (back forward : Option String) :
    SendInv
      { room := s.room.resetLiveTimeline back forward
        sending := fun t =>
          { s.sending t with
            unloaded := (s.sending t).unloaded ||
              ((!s.room.unfilteredTimelineSet.timelineSupport || forward.isNone) &&
                (s.sending t).echoed) } } := by
  have hset : ∀ set ∈ s.room.timelineSets,
      Indexed s.room.getId (set.resetLiveTimeline back forward) ∧
      allEvents (set.resetLiveTimeline back forward) =
        if !s.room.unfilteredTimelineSet.timelineSupport || forward.isNone then []
        else allEvents set := by
    intro set hs
    rw [← h.support set hs]
    exact (h.indexed set hs).resetLiveTimeline back forward
  have hin : ∀ e, (s.room.resetLiveTimeline back forward).InTimelines e →
      s.room.InTimelines e := by
    intro e
    refine inTimelines_of_map (f := fun set => set.resetLiveTimeline back forward) rfl ?_
    intro set hs hmem
    rw [(hset set hs).2] at hmem
    split at hmem
    · exact absurd hmem List.not_mem_nil
    · exact hmem
  refine h.of_map (f := fun set => set.resetLiveTimeline back forward) rfl
    (fun set _ => ⟨rfl, rfl⟩) (fun set hs => (hset set hs).1) h.pending fun u => ?_
  cases h.fate u with
  | unsent hat hac han hec hp ht hr =>
    exact .unsent hat hac han hec hp (fun hin' => ht (hin _ hin')) fun hin' => hr (hin _ hin')
  | waiting st hat hec htxn hev hfl hp hr =>
    exact .waiting st hat hec htxn hev hfl (fun hp' hin' => hp hp' (hin _ hin'))
      fun hin' => hr (hin _ hin')
  | echoed hat hec htxn hev hp ht =>
    refine .echoed hat hec htxn hev hp fun hunl set' hset' hshow => ?_
    obtain ⟨set, hs, rfl⟩ : ∃ set ∈ s.room.timelineSets,
        set.resetLiveTimeline back forward = set' := List.mem_map.1 hset'
    obtain ⟨hunl₀, hkept⟩ := Bool.or_eq_false_iff.1 hunl
    rw [hec, Bool.and_true] at hkept
    rw [(hset set hs).2, hkept]
    exact ht hunl₀ set hs hshow

/-! ## A new event -/

/-- What `addPendingEvent` does in a chronological room to a timeline set. -/
def addPendingTo (getId : RoomEvent TxnId → EventId TxnId) (t : TxnId)
    (set : RoomTimelineSet TxnId) : RoomTimelineSet TxnId :=
  if set.filterRoomTimeline [.localEvent t] = [] then set
  else set.addEventToTimeline getId (.localEvent t) set.liveTimeline false

/-- **A pending event** is in the pending list, or in the timelines of the sets that show it. -/
theorem addPendingEvent_eq_ok [ToString TxnId] (h : room.addPendingEvent t = .ok room') :
    ∃ status, (status = .sending ∨ status = .notSent) ∧
      room'.localEvents t = ⟨(room.localEvents t).eventId, some status⟩ ∧
      (∀ u, u ≠ t → room'.localEvents u = room.localEvents u) ∧
      room'.txnToEvent = room.txnToEvent.set t t ∧
      ((room'.pending = room.pending ++ [t] ∧ room'.timelineSets = room.timelineSets) ∨
        (room'.pending = [] ∧
          room'.timelineSets = room.timelineSets.map (addPendingTo room'.getId t))) := by
  unfold Room.addPendingEvent at h
  dsimp only at h
  split at h
  · exact absurd h (by simp)
  next hstatus =>
    have hsending : room.localEvents t = ⟨(room.localEvents t).eventId, some .sending⟩ := by
      rw [not_not] at hstatus
      rw [← hstatus]
    split at h
    · exact absurd h (by simp)
    · split at h
      next pending hpending =>
        obtain rfl := Except.ok.inj h
        have hlist : room.pending = pending := by
          unfold Room.pending
          rw [hpending]
          rfl
        rw [hlist]
        split
        · exact ⟨.notSent, .inr rfl, Function.update_self .., fun u hu => Function.update_of_ne hu ..,
            rfl, .inl ⟨rfl, rfl⟩⟩
        · exact ⟨.sending, .inl rfl, hsending, fun _ _ => rfl, rfl, .inl ⟨rfl, rfl⟩⟩
      next hpending =>
        obtain rfl := Except.ok.inj h
        refine ⟨.sending, .inl rfl, hsending, fun _ _ => rfl, rfl, .inr ⟨?_, rfl⟩⟩
        unfold Room.pending Room.mapTimelineSets
        rw [hpending]
        rfl

/-- The event made for a new transaction id waits for its echo. -/
theorem SendInv.added (h : SendInv s) (hp : t ∉ s.room.pending)
    (ht : ¬ s.room.InTimelines (.localEvent t)) (hr : ¬ s.room.InTimelines (.remoteEcho t))
    (hst : status ≠ .sent) (hev : room.localEvents t = ⟨.localEcho t, some status⟩)
    (hevs : ∀ u, u ≠ t → room.localEvents u = s.room.localEvents u)
    (htxn : room.txnToEvent = s.room.txnToEvent.set t t)
    (hwhere : (room.pending = s.room.pending ++ [t] ∧ room.timelineSets = s.room.timelineSets) ∨
      (room.pending = [] ∧
        room.timelineSets = s.room.timelineSets.map (addPendingTo room.getId t)))
    (hx : x.attempt ≠ .unsent) (hfl : x.attempt ≠ .inFlight) (hec : x.echoed = false) :
    SendInv ({ s with room := room }.setSending t x) := by
  have hgetId : ∀ e ≠ RoomEvent.localEvent t, room.getId e = s.room.getId e := by
    intro e he
    cases e with
    | localEvent u =>
      have hut : u ≠ t := fun hut => he (by rw [hut])
      exact congrArg LocalEvent.eventId (hevs u hut)
    | remoteEcho u => rfl
    | other n => rfl
  have hout : ∀ set ∈ s.room.timelineSets, ∀ e ∈ allEvents set, e ≠ .localEvent t :=
    fun set hs e he heq => ht ⟨set, hs, heq ▸ he⟩
  have hindexed : ∀ set ∈ s.room.timelineSets, Indexed room.getId set := fun set hs =>
    (h.indexed set hs).congr fun e he => hgetId e (hout set hs e he)
  have hfate : (t ∈ room.pending → ¬ room.InTimelines (.localEvent t)) →
      ¬ room.InTimelines (.remoteEcho t) →
      Fate ({ s with room := room }.setSending t x) t := by
    intro hp' hr'
    refine .waiting status ?_ ?_ ?_ ?_ (fun hin => ?_) hp' hr'
    · rw [sending_setSending]
      exact hx
    · rw [sending_setSending]
      exact hec
    · change room.txnToEvent.get t = some t
      rw [htxn, JsObject.get_set_self]
    · rw [if_neg hst]
      exact hev
    · rw [sending_setSending] at hin
      exact absurd hin hfl
  have htxns : ∀ u, u ≠ t → room.txnToEvent.get u = s.room.txnToEvent.get u := by
    intro u hut
    rw [htxn, JsObject.get_set_ne hut]
  rcases hwhere with ⟨hpending, hsets⟩ | ⟨hpending, hsets⟩
  · -- detached
    have hsets' : room.timelineSets = s.room.timelineSets.map id :=
      hsets.trans (List.map_id _).symm
    have hin : ∀ e, room.InTimelines e → s.room.InTimelines e := fun e =>
      inTimelines_of_map hsets' fun _ _ hmem => hmem
    refine h.step_of (f := id) t hsets' (fun _ _ => ⟨rfl, rfl⟩) hindexed ?_
      (hfate (fun _ hin' => ht (hin _ hin')) fun hin' => hr (hin _ hin')) fun u hut => ?_
    · change room.pending.Nodup
      rw [hpending]
      exact h.pending.append (List.nodup_singleton t) (List.disjoint_singleton.2 hp)
    · refine ⟨sending_setSending_of_ne _ x hut, hevs u hut, htxns u hut, fun hu => ?_,
        fun _ _ _ _ => Iff.rfl⟩
      change u ∈ room.pending at hu
      rw [hpending] at hu
      exact (List.mem_append.1 hu).resolve_right fun h => hut (List.mem_singleton.1 h)
  · -- in chronological order
    have hnew : ∀ set ∈ s.room.timelineSets, ∀ e ∈ allEvents set,
        room.getId e ≠ room.getId (.localEvent t) := by
      intro set hs e he hid
      rw [hgetId e (hout set hs e he), Room.getId, hev] at hid
      rcases h.of_getId hs he (.inl hid) with rfl | rfl
      · exact ht ⟨set, hs, he⟩
      · exact hr ⟨set, hs, he⟩
    have hset : ∀ set ∈ s.room.timelineSets, SameOptions set (addPendingTo room.getId t set) ∧
        Indexed room.getId (addPendingTo room.getId t set) ∧
        ∀ e, e ≠ .localEvent t →
          (e ∈ allEvents (addPendingTo room.getId t set) ↔ e ∈ allEvents set) := by
      intro set hs
      unfold addPendingTo
      split
      · exact ⟨⟨rfl, rfl⟩, hindexed set hs, fun _ _ => Iff.rfl⟩
      · obtain ⟨hidx', hmem⟩ := (hindexed set hs).addEventToTimeline
          (hindexed set hs).live false (hnew set hs)
        exact ⟨⟨rfl, rfl⟩, hidx', fun e he => (hmem e).trans (or_iff_left he)⟩
    have hnil : t ∉ room.pending := by
      rw [hpending]
      exact List.not_mem_nil
    have hecho : ¬ room.InTimelines (.remoteEcho t) := fun hin => hr
      (inTimelines_of_map hsets
        (fun set hs => ((hset set hs).2.2 _ (by simp)).1) hin)
    refine h.step_of (f := addPendingTo room.getId t) t hsets (fun set hs => (hset set hs).1)
      (fun set hs => (hset set hs).2.1) ?_ (hfate (fun hp' => absurd hp' hnil) hecho)
      fun u hut => ?_
    · change room.pending.Nodup
      rw [hpending]
      exact List.nodup_nil
    · refine ⟨sending_setSending_of_ne _ x hut, hevs u hut, htxns u hut, fun hu => ?_,
        fun set hs e he => (hset set hs).2.2 e ?_⟩
      · change u ∈ room.pending at hu
        rw [hpending] at hu
        exact absurd hu List.not_mem_nil
      · rintro rfl
        simp [hut.symm] at he

/-- **A new event** is sent. -/
theorem SendInv.send [ToString TxnId] (h : SendInv s) (hat : (s.sending t).attempt = .unsent) :
    SendInv (s.send t) := by
  cases h.fate t with
  | waiting _ hat' => exact absurd hat hat'
  | echoed hat' => exact absurd hat hat'
  | unsent _ _ _ hec hp ht hr =>
    unfold SendingRoom.send
    dsimp only
    split
    · exact h
    next room hok =>
      obtain ⟨st, hst, hev, hevs, htxn, hwhere⟩ := addPendingEvent_eq_ok hok
      rw [localEvents_setLocalEvent] at hev
      have hst' : st ≠ .sent := by rcases hst with rfl | rfl <;> decide
      refine h.added hp ht hr hst' hev (fun u hut => ?_) htxn hwhere ?_ ?_ hec
      · rw [hevs u hut, localEvents_setLocalEvent_of_ne _ _ hut]
      · dsimp only
        split <;> decide
      · dsimp only
        split <;> decide

/-! ## Every run -/

variable [ToString TxnId] {timelineSupport detached : Bool} {filters : List (RoomEvent TxnId → Bool)}

omit [DecidableEq TxnId] [ToString TxnId] in
theorem SendInv.new : SendInv (SendingRoom.new timelineSupport detached filters : SendingRoom TxnId) := by
  have hsets : ∀ set ∈ (SendingRoom.new timelineSupport detached filters :
      SendingRoom TxnId).room.timelineSets, ∃ filter, set = .new timelineSupport filter := by
    intro set hset
    rcases List.mem_cons.1 hset with rfl | hset
    · exact ⟨none, rfl⟩
    · obtain ⟨filter, _, rfl⟩ := List.mem_map.1 hset
      exact ⟨some filter, rfl⟩
  have hpending : (SendingRoom.new timelineSupport detached filters :
      SendingRoom TxnId).room.pending = [] := by
    cases detached <;> rfl
  have hout : ∀ e, ¬ (SendingRoom.new timelineSupport detached filters :
      SendingRoom TxnId).room.InTimelines e := by
    rintro e ⟨set, hset, hmem⟩
    obtain ⟨filter, rfl⟩ := hsets set hset
    exact absurd hmem List.not_mem_nil
  refine ⟨fun set hset => ?_, rfl, fun set hset => ?_, ?_, fun t => ?_⟩
  · obtain ⟨filter, rfl⟩ := hsets set hset
    exact Indexed.new ..
  · obtain ⟨filter, rfl⟩ := hsets set hset
    rfl
  · rw [hpending]
    exact List.nodup_nil
  · refine .unsent rfl rfl rfl rfl ?_ (hout _) (hout _)
    rw [hpending]
    exact List.not_mem_nil

/-- An event that is being sent has been added. -/
theorem ne_unsent {a : Attempt} {l : List Attempt} (h : a ∈ l) (hl : .unsent ∉ l) :
    a ≠ .unsent := by
  rintro rfl
  exact hl h

/-- **One step** keeps every event where its fate says. -/
theorem SendInv.step (h : SendInv s) {e : SendEvent TxnId}
    (hstep : (sendSystem timelineSupport detached filters).step s e = some s') : SendInv s' := by
  cases e with
  | send t =>
    simp only [sendSystem, Option.ite_none_right_eq_some, Option.some.injEq] at hstep
    obtain ⟨hat, rfl⟩ := hstep
    exact h.send hat
  | progress t status =>
    simp only [sendSystem, Option.ite_none_right_eq_some] at hstep
    obtain ⟨⟨hat, hst⟩, hstep⟩ := hstep
    have hat' : (s.sending t).attempt ≠ .unsent := by
      rw [hat]
      decide
    split at hstep
    next room hok =>
      obtain rfl := Option.some.inj hstep
      have hst' : status ≠ .sent ∧ status ≠ .cancelled := by
        constructor <;> rintro rfl <;> exact absurd hst (by decide)
      have hinv := h.setStatus (x := s.sending t) hat' hst'.1 hst'.2 hok hat' rfl (by
        rw [hat]
        decide)
      have hsame : { s with room := room }.setSending t (s.sending t) = { s with room := room } := by
        unfold SendingRoom.setSending
        rw [Function.update_eq_self]
      rw [hsame] at hinv
      exact hinv
    · obtain rfl := Option.some.inj hstep
      exact h.failed hat'
  | request t =>
    simp only [sendSystem, Option.ite_none_right_eq_some, Option.some.injEq] at hstep
    obtain ⟨⟨hat, hst⟩, rfl⟩ := hstep
    refine h.attempt ?_ (by simp) rfl rfl fun _ => .inr hst
    rw [hat]
    decide
  | accept t =>
    simp only [sendSystem, Option.ite_none_right_eq_some, Option.some.injEq] at hstep
    obtain ⟨hat, rfl⟩ := hstep
    have hat' : (s.sending t).attempt ≠ .unsent := by
      rw [hat]
      decide
    exact h.attempt hat' hat' rfl rfl fun _ => .inl hat
  | respond t =>
    simp only [sendSystem, Option.ite_none_right_eq_some] at hstep
    obtain ⟨⟨hat, _⟩, hstep⟩ := hstep
    have hat' : (s.sending t).attempt ≠ .unsent := by
      rw [hat]
      decide
    split at hstep
    next room hok =>
      obtain rfl := Option.some.inj hstep
      rcases updatePendingEvent_sent_eq_ok hok with rfl | ⟨old, hold, hallowed, rfl⟩
      · exact h.attempt hat' (by simp) rfl rfl fun hin => Attempt.noConfusion hin
      · exact h.sent hat' hold hallowed rfl rfl
    · obtain rfl := Option.some.inj hstep
      exact h.attempt hat' (by simp) rfl rfl fun hin => Attempt.noConfusion hin
  | fail t =>
    simp only [sendSystem, Option.ite_none_right_eq_some, Option.some.injEq] at hstep
    obtain ⟨hat, rfl⟩ := hstep
    exact h.failed (ne_unsent hat (by decide))
  | retry t =>
    simp only [sendSystem, Option.ite_none_right_eq_some] at hstep
    obtain ⟨hat, hstep⟩ := hstep
    have hat' : (s.sending t).attempt ≠ .unsent := by
      rw [hat]
      decide
    split at hstep
    next room hok =>
      obtain rfl := Option.some.inj hstep
      exact h.setStatus hat' (by decide) (by decide) hok (by simp) rfl (by simp)
    · obtain rfl := Option.some.inj hstep
      exact h
  | cancel t =>
    simp only [sendSystem, Option.ite_none_left_eq_some] at hstep
    obtain ⟨hat, hstep⟩ := hstep
    split at hstep
    next room hok =>
      obtain rfl := Option.some.inj hstep
      exact h.cancelled hat hok rfl rfl
    · obtain rfl := Option.some.inj hstep
      exact h
  | echo t =>
    simp only [sendSystem, Option.ite_none_right_eq_some, Option.some.injEq] at hstep
    obtain ⟨hacc, rfl⟩ := hstep
    have hat : (s.sending t).attempt ≠ .unsent := by
      cases h.fate t with
      | unsent _ hacc' => exact absurd (hacc.symm.trans hacc') (by decide)
      | waiting _ hat => exact hat
      | echoed hat => exact hat
    cases hec : (s.sending t).echoed with
    | false => exact h.echoed hat hec hat rfl
    | true => exact h.echoed_again hat hec hat rfl rfl
  | otherEvent n =>
    obtain rfl := Option.some.inj hstep
    exact h.otherEvent n
  | reset back forward =>
    obtain rfl := Option.some.inj hstep
    exact h.reset back forward

theorem SendInv.of_reachable
    (h : (sendSystem timelineSupport detached filters).Reachable s) : SendInv s :=
  h.invariant (P := SendInv) SendInv.new fun _ _ _ hs hstep => hs.step hstep

end Steps

/-! ## At most once, and exactly once -/

section Occurrences

variable [DecidableEq TxnId] {set : RoomTimelineSet TxnId}

/-- How often the event sent with the transaction id `t`, or one with its remote id, occurs in
the pending list and the timelines of the set. -/
def Room.occurrences (room : Room TxnId) (set : RoomTimelineSet TxnId) (t : TxnId) : ℕ :=
  (room.pending.map RoomEvent.localEvent ++ allEvents set).countP fun e =>
    e = .localEvent t ∨ room.getId e = .sent t

/-- A list without duplicates has at most one element that passes a test only one can pass. -/
theorem countP_le_one {α : Type} {l : List α} (hnd : l.Nodup) {p : α → Bool}
    (h : ∀ a ∈ l, ∀ b ∈ l, p a → p b → a = b) : l.countP p ≤ 1 := by
  rw [List.countP_eq_length_filter]
  have hnd' : (l.filter p).Nodup := hnd.filter p
  match hl : l.filter p with
  | [] => exact Nat.zero_le 1
  | [_] => exact Nat.le_refl 1
  | a :: b :: rest =>
    have ha : a ∈ l.filter p := by simp [hl]
    have hb : b ∈ l.filter p := by simp [hl]
    rw [List.mem_filter] at ha hb
    rw [hl, h a ha.1 b hb.1 ha.2 hb.2] at hnd'
    simp at hnd'

omit [DecidableEq TxnId] in
/-- No event is in the pending list and in the timelines. -/
theorem SendInv.nodup (h : SendInv s) (hset : set ∈ s.room.timelineSets) :
    (s.room.pending.map RoomEvent.localEvent ++ allEvents set).Nodup := by
  have hmap : (s.room.pending.map RoomEvent.localEvent).Nodup :=
    h.pending.map fun t u htu => by simpa using htu
  refine hmap.append (h.indexed set hset).events ?_
  intro e he hes
  obtain ⟨t, ht, rfl⟩ := List.mem_map.1 he
  cases h.fate t with
  | unsent _ _ _ _ hp => exact hp ht
  | waiting _ _ _ _ _ _ hp => exact hp ht ⟨set, hset, hes⟩
  | echoed _ _ _ _ hp => exact hp ht

omit [DecidableEq TxnId] in
/-- Of the two events that may have the remote id, one is there. -/
theorem SendInv.eq_of_sent (h : SendInv s) (hset : set ∈ s.room.timelineSets) {t : TxnId}
    {e : RoomEvent TxnId} (he : e ∈ s.room.pending.map RoomEvent.localEvent ++ allEvents set)
    (hsent : e = .localEvent t ∨ s.room.getId e = .sent t) :
    e = .localEvent t ∨ (e = .remoteEcho t ∧
      .localEvent t ∉ s.room.pending.map RoomEvent.localEvent ++ allEvents set) := by
  rcases hsent with rfl | hid
  · exact .inl rfl
  rcases List.mem_append.1 he with hep | hes
  · obtain ⟨u, hu, rfl⟩ := List.mem_map.1 hep
    rw [h.of_pending hu (.inr hid)]
    exact .inl rfl
  rcases h.of_getId hset hes (.inr hid) with rfl | rfl
  · exact .inl rfl
  · refine .inr ⟨rfl, fun hmem => ?_⟩
    cases h.fate t with
    | unsent _ _ _ _ _ _ hr => exact hr ⟨set, hset, hes⟩
    | waiting _ _ _ _ _ _ _ hr => exact hr ⟨set, hset, hes⟩
    | echoed _ _ _ hev hp =>
      have hlocal : .localEvent t ∈ allEvents set := by
        refine (List.mem_append.1 hmem).resolve_left fun hp' => hp ?_
        obtain ⟨u, hu, hut⟩ := List.mem_map.1 hp'
        rw [← RoomEvent.localEvent.inj hut]
        exact hu
      have hid' : s.room.getId (.localEvent t) = s.room.getId (.remoteEcho t) :=
        congrArg LocalEvent.eventId hev
      have heq := (h.indexed set hset).ids _ hlocal _ hes hid'
      exact absurd heq (by simp)

/-- **At most once.** -/
theorem SendInv.occurrences_le_one (h : SendInv s) (hset : set ∈ s.room.timelineSets) (t : TxnId) :
    s.room.occurrences set t ≤ 1 := by
  refine countP_le_one (h.nodup hset) fun a ha b hb hpa hpb => ?_
  have hpa' := h.eq_of_sent hset ha (of_decide_eq_true hpa)
  have hpb' := h.eq_of_sent hset hb (of_decide_eq_true hpb)
  rcases hpa' with rfl | ⟨rfl, hout⟩ <;> rcases hpb' with rfl | ⟨rfl, hout'⟩
  · rfl
  · exact absurd ha hout'
  · exact absurd hb hout
  · rfl

/-- **Exactly once**, after the echo, as long as the timelines are not discarded. -/
theorem SendInv.occurrences_eq_one (h : SendInv s) {t : TxnId}
    (hec : (s.sending t).echoed = true) (hun : (s.sending t).unloaded = false) :
    s.room.localEvents t = ⟨.sent t, none⟩ ∧
      ∀ set ∈ s.room.timelineSets, Shows set t → s.room.occurrences set t = 1 := by
  cases h.fate t with
  | unsent _ _ _ hec' => exact absurd (hec.symm.trans hec') (by decide)
  | waiting _ _ hec' => exact absurd (hec.symm.trans hec') (by decide)
  | echoed _ _ _ hev _ ht =>
    refine ⟨hev, fun set hset hshow => ?_⟩
    have hpos : 0 < s.room.occurrences set t := by
      refine List.countP_pos_iff.2 ⟨.localEvent t, ?_, by simp⟩
      exact List.mem_append_right _ (ht hun set hset hshow)
    have hle := h.occurrences_le_one hset t
    omega

/-- **The response is taken** while the event is on its way or in the timelines. -/
theorem SendInv.respond_ok (h : SendInv s) {t : TxnId}
    (hat : (s.sending t).attempt = .inFlight)
    (hun : (s.sending t).echoed = true → (s.sending t).unloaded = false) :
    ∃ room, s.room.updatePendingEvent t .sent (some (.sent t)) = .ok room := by
  unfold Room.updatePendingEvent
  rw [if_neg (by simp)]
  split
  · exact ⟨_, rfl⟩
  next hnot =>
    cases h.fate t with
    | unsent hunsent => exact absurd (hat.symm.trans hunsent) (by decide)
    | waiting st _ _ _ hev hfl =>
      obtain rfl := hfl hat
      rw [hev]
      exact ⟨_, rfl⟩
    | echoed _ hec _ hev _ ht =>
      -- the unfiltered set has it under its remote id
      have hunf : s.room.unfilteredTimelineSet ∈ s.room.timelineSets := List.mem_cons_self
      have hshow : Shows s.room.unfilteredTimelineSet t := by
        unfold Shows EventTimelineSet.filterRoomTimeline
        rw [h.filter]
        exact List.cons_ne_nil _ _
      have hmem := ht (hun hec) _ hunf hshow
      refine absurd ⟨rfl, ?_⟩ hnot
      exact (h.indexed _ hunf).get_isSome.2 ⟨_, hmem, congrArg LocalEvent.eventId hev⟩

/-- **Sending an event.** In every run it occurs at most once; once the response and the echo
have been processed, and as long as the timelines have not been discarded since the
echo, it occurs exactly once, under its remote id and with no status; and the response is
taken unless they have been discarded between the echo and the response. -/
theorem sendSystem_occurrences [ToString TxnId] {timelineSupport detached : Bool}
    {filters : List (RoomEvent TxnId → Bool)}
    (h : (sendSystem timelineSupport detached filters).Reachable s) (t : TxnId) :
    (∀ set ∈ s.room.timelineSets, s.room.occurrences set t ≤ 1) ∧
      ((s.sending t).answered = true → (s.sending t).echoed = true →
        (s.sending t).unloaded = false → s.room.localEvents t = ⟨.sent t, none⟩ ∧
          ∀ set ∈ s.room.timelineSets, Shows set t → s.room.occurrences set t = 1) ∧
      ((s.sending t).attempt = .inFlight → (s.sending t).accepted = true →
        ((s.sending t).echoed = true → (s.sending t).unloaded = false) →
          ∃ room, s.room.updatePendingEvent t .sent (some (.sent t)) = .ok room) := by
  have hinv := SendInv.of_reachable h
  refine ⟨fun set hset => hinv.occurrences_le_one hset t, fun _ hec hun => ?_, fun hat _ hun => ?_⟩
  · exact hinv.occurrences_eq_one hec hun
  · exact hinv.respond_ok hat hun

end Occurrences

end Pending

/-! ## Runs -/

/-- The echo overtakes the response, and the timelines are kept. -/
def echoFirst : List (SendEvent ℕ) :=
  [.send 0, .request 0, .accept 0, .echo 0, .reset none (some "a"), .respond 0]

theorem echoFirst_runs : ((sendSystem true true []).run echoFirst).isSome := by decide

theorem sendSystem_occurrences_echoFirst :
    (((sendSystem true true []).run echoFirst).get echoFirst_runs).room.timelineSets.Forall
      fun set => Shows set 0 → (((sendSystem true true []).run echoFirst).get
        echoFirst_runs).room.occurrences set 0 = 1 :=
  List.forall_iff_forall_mem.2
    ((sendSystem_occurrences (System.reachable_get echoFirst_runs) 0).2.1 rfl rfl rfl).2

/-- The echo overtakes the response, and all timelines are discarded before it comes. -/
def discarded : List (SendEvent ℕ) :=
  [.send 0, .request 0, .accept 0, .echo 0, .reset none none]

theorem discarded_runs : ((sendSystem false true []).run discarded).isSome := by decide

theorem discarded_respond_runs :
    ((sendSystem false true []).run (discarded ++ [.respond 0])).isSome := by decide

/-- The event is gone with the timelines. The response does not find it, and takes it for one
that is no local echo; when it has come the event occurs nowhere. -/
theorem sendSystem_occurrences_fails :
    (¬ ∀ (timelineSupport detached : Bool) (s : SendingRoom ℕ),
      (sendSystem timelineSupport detached []).Reachable s → ∀ t,
        (s.sending t).answered = true → (s.sending t).echoed = true →
          s.room.localEvents t = ⟨.sent t, none⟩ ∧
            ∀ set ∈ s.room.timelineSets, s.room.occurrences set t = 1) ∧
      ¬ ∀ (timelineSupport detached : Bool) (s : SendingRoom ℕ),
        (sendSystem timelineSupport detached []).Reachable s → ∀ t,
          (s.sending t).attempt = .inFlight → (s.sending t).accepted = true →
            ∃ room, s.room.updatePendingEvent t .sent (some (.sent t)) = .ok room := by
  constructor
  · intro h
    have hone := (h false true _ (System.reachable_get discarded_respond_runs) 0 rfl rfl).2 _
      List.mem_cons_self
    have hnone : (((sendSystem false true []).run (discarded ++ [.respond 0])).get
        discarded_respond_runs).room.occurrences
        (((sendSystem false true []).run (discarded ++ [.respond 0])).get
          discarded_respond_runs).room.unfilteredTimelineSet 0 = 0 := rfl
    omega
  · intro h
    obtain ⟨room, hok⟩ := h false true _ (System.reachable_get discarded_runs) 0 rfl rfl
    have hthrows : ((((sendSystem false true []).run discarded).get
        discarded_runs).room.updatePendingEvent 0 .sent (some (.sent 0))).isOk = false := rfl
    rw [hok] at hthrows
    exact Bool.noConfusion hthrows

end MatrixSdk.Models
