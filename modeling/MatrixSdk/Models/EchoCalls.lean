/-
What each call does to a room with local echoes: to its lists of events, and to who is redacted.

The invariant ([`EchoInv`]) has that a pending event is being sent and not in the timeline, and what
is in the timeline has been sent. Each call has one lemma, which says that the invariant is kept and
what has become of the lists and of the redacted events.
-/
import MatrixSdk.Models.EchoInvariant

set_option autoImplicit false

namespace MatrixSdk.Models

open MatrixSdk.Lib RelationsState

namespace EchoRoom

def pending (room : EchoRoom) : List String := room.pendingEventList.getD []

/-- The event is in the timeline or in the list of pending events. -/
def Holds (room : EchoRoom) (e : String) : Prop := e ∈ room.set.timeline ∨ e ∈ room.pending

def Redacted (room : EchoRoom) (e : String) : Prop := (room.set.event e).isRedacted

end EchoRoom

/-- **The invariant** of a room whose pending events are detached. -/
structure EchoInv (event : String → MatrixEvent) (room : EchoRoom) : Prop where
  set : SetInv event room.Holds (· ∈ room.set.timeline) room.set
  contained : ∀ e, Contained room.Holds room.set e
  detached : room.pendingEventList = some room.pending
  nodup : room.pending.Nodup
  nodupTxn : room.txnToEvent.Nodup
  pending : ∀ e ∈ room.pending,
    e ∈ room.txnToEvent ∧ (room.set.event e).status ≠ some .cancelled
  txn : ∀ e ∈ room.txnToEvent, (room.set.event e).isSending ∧ e ∉ room.set.timeline
  timeline : ∀ e ∈ room.set.timeline, (room.set.event e).isSending = false

variable {event : String → MatrixEvent} {room room' : EchoRoom} {e : String}

theorem echoInv_init (event : String → MatrixEvent) : EchoInv event (echoSystem event).init := by
  have hempty : ∀ k r, (echoSystem event).init.set.relations k ≠ some r := fun _ _ h => nomatch h
  have hheld : ∀ e, ¬ (echoSystem event).init.Holds e := fun e h =>
    h.elim (fun h => nomatch h) fun h => nomatch h
  refine ⟨⟨⟨⟨fun k r h => absurd h (hempty k r), fun k r h => absurd h (hempty k r),
      fun k r h => absurd h (hempty k r), fun k r _ h => absurd h (hempty k r)⟩,
      fun _ k r h => absurd h (hempty k r)⟩,
      fun e => ⟨rfl, rfl, rfl, rfl, fun _ h => h, fun h => nomatch h⟩, fun e _ => ⟨rfl, rfl, rfl⟩,
      fun e k h => absurd h.choose_spec.1 (hempty k _)⟩,
    fun e h => absurd h (hheld e), rfl, List.nodup_nil, List.nodup_nil,
    fun _ h => (nomatch h), fun _ h => (nomatch h), fun _ h => (nomatch h)⟩

namespace EchoInv

theorem not_sending_status {ev : MatrixEvent} (h : ev.isSending = false) :
    ev.status ≠ some .cancelled := by
  intro hstatus
  rw [MatrixEvent.isSending, hstatus] at h
  cases h

variable {held received : String → Prop} {st : RelationsState} {st' set : RelationsState}

/-- A new event may be set not to be sent. -/
theorem notSent_set {notSent : Bool} (h : SetInv event held received st)
    (hc : ∀ x, x ≠ e → Contained held st x) (hsending : (st.event e).status = some .sending)
    (heq : (if notSent then (st.setStatus e (some .notSent)).toOption else some st) = some st') :
    SetInv event held received st' ∧ (∀ x, x ≠ e → Contained held st' x) ∧
      (st'.event e).isSending = true ∧ (st'.event e).status ≠ some .cancelled ∧
      st'.timeline = st.timeline ∧
      (∀ x, x ≠ e → (st'.event x).status = (st.event x).status) ∧
      ∀ x, (st'.event x).isRedacted = (st.event x).isRedacted := by
  have hsent : (st.event e).isSending = true := by
    rw [MatrixEvent.isSending, hsending]
    rfl
  split at heq
  next =>
    cases hok : st.setStatus e (some .notSent) with
    | error err =>
      rw [hok] at heq
      cases heq
    | ok st₁ =>
      rw [hok] at heq
      obtain rfl := Option.some.inj heq
      obtain ⟨hset, hothers, -, -, hevent, htimeline⟩ := setStatus_set h hsent hok
      obtain ⟨new, hnew⟩ := hevent.self (f := fun event => { event with
        status := some .notSent })
      have hof : ∀ x, x ≠ e → ∃ new, st₁.event x = { st.event x with replacingEvent := new } :=
        fun x hx => hevent.of_ne (f := fun event => { event with status := some .notSent }) hx
      refine ⟨hset, fun x hx => hothers x hx (hc x hx), by rw [hnew]; rfl,
        by rw [hnew]; rintro ⟨⟩, htimeline, fun x hx => ?_, fun x => ?_⟩
      · obtain ⟨new, hnew⟩ := hof x hx
        rw [hnew]
      · by_cases hx : x = e
        · rw [hx, hnew]
          rfl
        · obtain ⟨new, hnew⟩ := hof x hx
          rw [hnew]
          rfl
  next =>
    obtain rfl := Option.some.inj heq
    exact ⟨h, hc, hsent, by rw [hsending]; rintro ⟨⟩, rfl, fun _ _ => rfl, fun _ => rfl⟩

/-- A new event is aggregated if it is a relation. -/
theorem aggregateRelation_set (h : SetInv event held received st) (he : held e)
    (hc : ∀ x, x ≠ e → Contained held st x) (hcancelled : (st.event e).status ≠ some .cancelled)
    (heq : (if (st.event e).getRelation.isSome then (st.aggregateRelations e).toOption
      else some st) = some st') :
    SetInv event held received st' ∧ (∀ x, Contained held st' x) ∧
      OnlyReplaced st.event st'.event ∧ st'.timeline = st.timeline := by
  split at heq
  next =>
    cases hok : st.aggregateRelations e with
    | error err =>
      rw [hok] at heq
      exact nomatch heq
    | ok st₁ =>
      rw [hok] at heq
      obtain rfl := Option.some.inj heq
      obtain ⟨hset, hothers, hself, honly, htimeline⟩ :=
        aggregateRelations_set h he hcancelled hok
      refine ⟨hset, fun x => ?_, honly, htimeline⟩
      by_cases hx : x = e
      · exact hx ▸ hself
      · exact hothers x hx (hc x hx)
  next hrelation =>
    obtain rfl := Option.some.inj heq
    refine ⟨h, fun x => ?_, .refl _, rfl⟩
    by_cases hx : x = e
    · intro _ _ _ relation hrel
      rw [hx] at hrel
      exact absurd (by rw [hrel]; rfl) hrelation
    · exact hc x hx

/-- **An event that is made to be sent.** -/
theorem addPendingEvent (h : EchoInv event room) (heq : room.addPendingEvent e = some room') :
    EchoInv event room' ∧ e ∉ room.txnToEvent ∧ e ∉ room.set.timeline ∧
      room'.pending = room.pending ++ [e] ∧ room'.set.timeline = room.set.timeline ∧
      ∀ x, room'.Redacted x ↔
        room.Redacted x ∨ (redactsOf event e = some x ∧ room'.Holds x) := by
  unfold EchoRoom.addPendingEvent at heq
  split at heq
  next => exact nomatch heq
  next hguard =>
    rw [not_or, not_not] at hguard
    obtain ⟨hsending, htxn⟩ := hguard
    have hsent : (room.set.event e).isSending = true := by
      rw [MatrixEvent.isSending, hsending]
      rfl
    have hnot : e ∉ room.set.timeline := by
      intro hmem
      exact absurd (h.timeline e hmem) (by rw [hsent]; exact Bool.noConfusion)
    have hpending : e ∉ room.pending := fun hmem => htxn (h.pending e hmem).1
    rw [h.detached] at heq
    dsimp only at heq
    generalize hheld : (fun x => x ∈ room.set.timeline ∨ x ∈ room.pending ++ [e]) = held
    have hheldE : held e := by
      rw [← hheld]
      exact .inr (List.mem_append_right _ (List.mem_singleton.2 rfl))
    have hmono : ∀ x, room.Holds x → held x := by
      rw [← hheld]
      exact fun x hx => hx.imp_right fun hx => List.mem_append_left _ hx
    have hset := h.set.mono hmono fun _ hr => hr
    have hc : ∀ x, x ≠ e → Contained held room.set x := by
      intro x hx
      refine (h.contained x).mono fun hh => ?_
      rw [← hheld] at hh
      refine hh.imp_right fun hh => (List.mem_append.1 hh).resolve_right fun hh => ?_
      exact hx (List.mem_singleton.1 hh)
    -- it may be set not to be sent
    obtain ⟨set₃, hbind, rfl⟩ := Option.map_eq_some_iff.1 heq
    obtain ⟨set₂, hbind, hlocally⟩ := Option.bind_eq_some_iff.1 hbind
    obtain ⟨set₁, hstatus, haggregate⟩ := Option.bind_eq_some_iff.1 hbind
    obtain ⟨hset₁, hc₁, hsent₁, hcancelled₁, htimeline₁, hstatus₁, hredacted₁⟩ :=
      notSent_set hset hc hsending hstatus
    -- it may be aggregated
    obtain ⟨hset₂, hc₂, honly₂, htimeline₂⟩ :=
      aggregateRelation_set hset₁ hheldE hc₁ hcancelled₁ haggregate
    -- it may be a redaction
    obtain ⟨hset₃, hc₃, htimeline₃, hstatus₃, hredacted₃, -⟩ := redactLocally_spec hset₂ hlocally
    have htimeline : set₃.timeline = room.set.timeline :=
      htimeline₃.trans (htimeline₂.trans htimeline₁)
    have hstatus' : ∀ x, (set₃.event x).status = (set₁.event x).status := by
      intro x
      obtain ⟨new, hnew⟩ := honly₂ x
      rw [hstatus₃, hnew]
    have hsame : ∀ x, x ≠ e → (set₃.event x).status = (room.set.event x).status :=
      fun x hx => (hstatus' x).trans (hstatus₁ x hx)
    have hholds : (EchoRoom.mk set₃ (some (room.pending ++ [e]))
        (room.txnToEvent ++ [e])).Holds = held := by
      rw [← hheld]
      funext x
      exact congrArg (fun timeline => x ∈ timeline ∨ x ∈ room.pending ++ [e]) htimeline
    have hofE : ∀ x, x ∈ room.txnToEvent → x ≠ e := fun x hx heq => htxn (heq ▸ hx)
    refine ⟨⟨?_, ?_, rfl, ?_, ?_, fun x hx => ?_, fun x hx => ?_, fun x hx => ?_⟩, htxn, hnot, rfl,
      htimeline, fun x => ?_⟩
    · rw [hholds]
      exact hset₃.mono (fun _ hx => hx) fun r hr => htimeline ▸ hr
    · rw [hholds]
      exact fun x => hc₃ x (hc₂ x)
    · exact List.nodup_append.2 ⟨h.nodup, List.nodup_singleton e, fun a ha b hb hab =>
        hpending (List.mem_singleton.1 hb ▸ hab ▸ ha)⟩
    · exact List.nodup_append.2 ⟨h.nodupTxn, List.nodup_singleton e, fun a ha b hb hab =>
        htxn (List.mem_singleton.1 hb ▸ hab ▸ ha)⟩
    · rcases List.mem_append.1 hx with hx | hx
      · obtain ⟨hmem, hcancelled⟩ := h.pending x hx
        exact ⟨List.mem_append_left _ hmem, by rw [hsame x (hofE x hmem)]; exact hcancelled⟩
      · rw [List.mem_singleton.1 hx]
        exact ⟨List.mem_append_right _ (List.mem_singleton.2 rfl),
          by rw [hstatus']; exact hcancelled₁⟩
    · change (set₃.event x).status.isSome ∧ x ∉ set₃.timeline
      rw [htimeline]
      rcases List.mem_append.1 hx with hx | hx
      · obtain ⟨hsending, hnot⟩ := h.txn x hx
        exact ⟨by rw [hsame x (hofE x hx)]; exact hsending, hnot⟩
      · rw [List.mem_singleton.1 hx]
        exact ⟨by rw [hstatus']; exact hsent₁, hnot⟩
    · change (set₃.event x).status.isSome = false
      have hmem : x ∈ room.set.timeline := htimeline ▸ hx
      rw [hsame x fun heq => hnot (heq ▸ hmem)]
      exact h.timeline x hmem
    · have hof : redactsOf set₂.event e = redactsOf event e := by
        refine redactsOf_eq hset₂ (.inl ?_)
        rw [htimeline₂, htimeline₁]
        exact hnot
      obtain ⟨new, hnew⟩ := honly₂ x
      change (set₃.event x).isRedacted = true ↔ (room.set.event x).isRedacted = true ∨ _
      rw [hredacted₃, hof, hholds, ← hheld, htimeline₂, htimeline₁, hnew]
      change (set₁.event x).isRedacted = true ∨ _ ↔ _
      rw [hredacted₁, or_comm (a := x ∈ room.pending ++ [e])]

/-- What joins the timeline is held already, or is new to the room. -/
theorem of_added (h : EchoInv event room) (hset : SetInv event (fun x => room.Holds x ∨ x = e)
      (fun r => r ∈ room.set.timeline ∨ r = e) set)
    (hc : ∀ x, Contained (fun x => room.Holds x ∨ x = e) set x) (htxn : e ∉ room.txnToEvent)
    (hsent : (room.set.event e).isSending = false)
    (hstatus : ∀ x, (set.event x).status = (room.set.event x).status) (htimeline : set.timeline =
      if e ∈ room.set.timeline then room.set.timeline else room.set.timeline ++ [e]) :
    EchoInv event { room with set := set } := by
  have hmem : ∀ x, x ∈ set.timeline ↔ x ∈ room.set.timeline ∨ x = e := by
    intro x
    rw [htimeline]
    split
    next hmem => exact (or_iff_left_of_imp fun heq => heq ▸ hmem).symm
    next => rw [List.mem_append, List.mem_singleton]
  have hholds : ∀ x, (EchoRoom.mk set room.pendingEventList room.txnToEvent).Holds x ↔
      room.Holds x ∨ x = e := by
    intro x
    change x ∈ set.timeline ∨ x ∈ room.pending ↔ (x ∈ room.set.timeline ∨ x ∈ room.pending) ∨ _
    rw [hmem, or_right_comm]
  have hsending : ∀ x, (set.event x).isSending = (room.set.event x).isSending := by
    intro x
    rw [MatrixEvent.isSending, MatrixEvent.isSending, hstatus]
  refine ⟨hset.mono (fun x hx => (hholds x).2 hx) fun r hr => (hmem r).2 hr,
    fun x => (hc x).mono (hholds x).1, h.detached, h.nodup, h.nodupTxn, fun x hx => ?_,
    fun x hx => ?_, fun x hx => ?_⟩
  · obtain ⟨hin, hcancelled⟩ := h.pending x hx
    exact ⟨hin, by rw [hstatus]; exact hcancelled⟩
  · obtain ⟨hsend, hnot⟩ := h.txn x hx
    refine ⟨by rw [hsending]; exact hsend, fun hin => ?_⟩
    exact ((hmem x).1 hin).elim hnot fun heq => htxn (heq ▸ hx)
  · rw [hsending]
    exact ((hmem x).1 hx).elim (h.timeline x) fun heq => heq ▸ hsent

theorem holdsOrNew_mono (h : EchoInv event room) (e : String) :
    SetInv event (fun x => room.Holds x ∨ x = e) (fun r => r ∈ room.set.timeline ∨ r = e)
        room.set ∧
      ∀ y, y ≠ e ∨ e ∈ room.set.timeline →
        Contained (fun x => room.Holds x ∨ x = e) room.set y := by
  refine ⟨h.set.mono (fun _ hx => .inl hx) fun _ hr => .inl hr, fun y hy => ?_⟩
  refine (h.contained y).mono fun hh => hh.elim id fun heq => ?_
  exact hy.elim (absurd heq) fun hmem => .inl (heq ▸ hmem)

/-- **An event of a page** joins the timeline. -/
theorem addEventsToTimeline (h : EchoInv event room)
    (heq : room.addEventsToTimeline e = some room') :
    EchoInv event room' ∧ e ∉ room.pending ∧ room'.pending = room.pending ∧
      (∀ x, x ∈ room'.set.timeline ↔ x ∈ room.set.timeline ∨ x = e) ∧
      ∀ x, room'.Redacted x ↔ room.Redacted x := by
  unfold EchoRoom.addEventsToTimeline at heq
  split at heq
  next => exact nomatch heq
  next hguard =>
    rw [not_or, Bool.not_eq_true] at hguard
    obtain ⟨hsent, htxn⟩ := hguard
    obtain ⟨set, hadd, rfl⟩ := Option.map_eq_some_iff.1 heq
    obtain ⟨hset, hc⟩ := h.holdsOrNew_mono e
    obtain ⟨hset', hc', honly, htimeline⟩ := addOnce_set hset (.inr rfl) (fun y hy => hc y (.inl hy))
      (fun hmem => hc e (.inr hmem)) (not_sending_status hsent) hadd
    have hstatus : ∀ x, (set.event x).status = (room.set.event x).status := by
      intro x
      obtain ⟨new, hnew⟩ := honly x
      rw [hnew]
    refine ⟨h.of_added hset' hc' htxn hsent hstatus htimeline,
      fun hmem => htxn (h.pending e hmem).1, rfl, fun x => ?_, fun x => ?_⟩
    · rw [htimeline]
      split
      next hmem => exact (or_iff_left_of_imp fun heq => heq ▸ hmem).symm
      next => rw [List.mem_append, List.mem_singleton]
    · obtain ⟨new, hnew⟩ := honly x
      change (set.event x).isRedacted = true ↔ (room.set.event x).isRedacted = true
      rw [hnew]
      rfl

/-- **An event is received.** -/
theorem addLiveEvent (h : EchoInv event room) (heq : room.addLiveEvent e = some room') :
    EchoInv event room' ∧ e ∉ room.pending ∧ room'.pending = room.pending ∧
      (∀ x, x ∈ room'.set.timeline ↔ x ∈ room.set.timeline ∨ x = e) ∧
      ∀ x, room'.Redacted x ↔ room.Redacted x ∨
        (redactsOf room.set.event e = some x ∧ x ∈ room.set.timeline) := by
  unfold EchoRoom.addLiveEvent at heq
  split at heq
  next => exact nomatch heq
  next hguard =>
    rw [not_or, Bool.not_eq_true] at hguard
    obtain ⟨hsent, htxn⟩ := hguard
    obtain ⟨set, hbind, rfl⟩ := Option.map_eq_some_iff.1 heq
    obtain ⟨set₁, hreceived, hadd⟩ := Option.bind_eq_some_iff.1 hbind
    obtain ⟨hset, hc⟩ := h.holdsOrNew_mono e
    obtain ⟨hset₁, hc₁, htimeline₁, hstatus₁, hredacted₁, -⟩ :=
      redactReceived_spec hset (.inr rfl) hreceived
    obtain ⟨hset', hc', honly, htimeline⟩ := addOnce_set hset₁ (.inr rfl)
      (fun y hy => hc₁ y (hc y (.inl hy)))
      (fun hmem => hc₁ e (hc e (.inr (htimeline₁ ▸ hmem))))
      (by rw [hstatus₁]; exact not_sending_status hsent) hadd
    rw [htimeline₁] at htimeline
    have hstatus : ∀ x, (set.event x).status = (room.set.event x).status := by
      intro x
      obtain ⟨new, hnew⟩ := honly x
      rw [hnew]
      exact hstatus₁ x
    refine ⟨h.of_added hset' hc' htxn hsent hstatus htimeline,
      fun hmem => htxn (h.pending e hmem).1, rfl, fun x => ?_, fun x => ?_⟩
    · rw [htimeline]
      split
      next hmem => exact (or_iff_left_of_imp fun heq => heq ▸ hmem).symm
      next => rw [List.mem_append, List.mem_singleton]
    · obtain ⟨new, hnew⟩ := honly x
      change (set.event x).isRedacted = true ↔ (room.set.event x).isRedacted = true ∨ _
      rw [← hredacted₁, hnew]
      rfl

/-- A timestamp is changed. -/
theorem setTimestamp_set (h : SetInv event held received st) (ts : ℕ) :
    SetInv event held received (st.setEvent e { st.event e with originServerTs := ts }) ∧
      ∀ y, Contained held st y →
        Contained held (st.setEvent e { st.event e with originServerTs := ts }) y := by
  have honly : OnlyReplaced (Function.update st.event e { st.event e with originServerTs := ts })
      (st.setEvent e { st.event e with originServerTs := ts }).event := .refl _
  have hmade := h.made e
  refine ⟨h.change (f := fun event => { event with originServerTs := ts })
    (h.good.setEvent (.inr ⟨rfl, rfl, fun hr => hr, fun hs => hs, fun hs => ⟨hs, rfl⟩⟩)) honly
    (fun _ hx => hx) ⟨hmade.type, hmade.sender, hmade.isBeingDecrypted, hmade.serverReplaceTs,
      hmade.redacts, hmade.shows⟩
    (fun hnot => ⟨(h.data e hnot).content, (h.data e hnot).relatesTo, (h.data e hnot).redacts⟩)
    h.has, fun y hc => ?_⟩
  by_cases hy : y = e
  · rw [hy] at hc ⊢
    exact hc.change_self (f := fun event => { event with originServerTs := ts }) honly
      (fun hr => hr) rfl rfl rfl fun k hk => hk
  · exact hc.change (f := fun event => { event with originServerTs := ts }) honly hy fun k hk => hk

/-- **The remote echo of an event comes.** -/
theorem handleRemoteEcho {originServerTs : ℕ} (h : EchoInv event room)
    (heq : room.handleRemoteEcho e originServerTs = some room') :
    EchoInv event room' ∧ e ∉ room.set.timeline ∧ room'.pending = room.pending.erase e ∧
      (∀ x, x ∈ room'.set.timeline ↔ x ∈ room.set.timeline ∨ x = e) ∧
      ∀ x, room'.Redacted x ↔ room.Redacted x ∨
        (redactsOf event e = some x ∧ x ∈ room.set.timeline) := by
  unfold EchoRoom.handleRemoteEcho at heq
  split at heq
  next => cases heq
  next hguard =>
    rw [not_not] at hguard
    obtain ⟨hsent, hnot⟩ := h.txn e hguard
    obtain ⟨set, hbind, rfl⟩ := Option.map_eq_some_iff.1 heq
    obtain ⟨set₃, hbind, hadd⟩ := Option.bind_eq_some_iff.1 hbind
    obtain ⟨set₁, hreceived, hstatus⟩ := Option.bind_eq_some_iff.1 hbind
    obtain ⟨hset, hc⟩ := h.holdsOrNew_mono e
    obtain ⟨hset₁, hc₁, htimeline₁, hstatus₁, hredacted₁, -⟩ :=
      redactReceived_spec hset (.inr rfl) hreceived
    obtain ⟨hset₂, hc₂⟩ := setTimestamp_set (e := e) hset₁ originServerTs
    have hsent₂ : ((set₁.setEvent e { set₁.event e with originServerTs := originServerTs }).event
        e).isSending = true := by
      rw [RelationsState.setEvent]
      dsimp only
      rw [Function.update_self, MatrixEvent.isSending, hstatus₁]
      exact hsent
    cases hok : (set₁.setEvent e { set₁.event e with originServerTs := originServerTs }).setStatus
        e none with
    | error err =>
      rw [hok] at hstatus
      cases hstatus
    | ok st =>
      rw [hok] at hstatus
      obtain rfl := Option.some.inj hstatus
      obtain ⟨hset₃, hothers₃, -, -, hevent₃, htimeline₃⟩ := setStatus_set hset₂ hsent₂ hok
      have htimeline₃ : st.timeline = room.set.timeline := htimeline₃.trans htimeline₁
      have hself₃ : (st.event e).isSending = false ∧
          (st.event e).isRedacted = (set₁.event e).isRedacted := by
        obtain ⟨new, hnew⟩ := hevent₃.self (f := fun event => { event with status := none })
        rw [hnew]
        refine ⟨rfl, ?_⟩
        change ((set₁.setEvent e
          { set₁.event e with originServerTs := originServerTs }).event e).isRedacted = _
        rw [RelationsState.setEvent]
        dsimp only
        rw [Function.update_self]
        rfl
      have hof₃ : ∀ x, x ≠ e → ∃ new, st.event x =
          { set₁.event x with replacingEvent := new } := by
        intro x hx
        obtain ⟨new, hnew⟩ := hevent₃.of_ne (f := fun event => { event with status := none }) hx
        refine ⟨new, hnew.trans ?_⟩
        rw [RelationsState.setEvent]
        dsimp only
        rw [Function.update_of_ne hx]
      obtain ⟨hset', hc', honly, htimeline⟩ := addOnce_set hset₃ (.inr rfl)
        (fun y hy => hothers₃ y hy (hc₂ y (hc₁ y (hc y (.inl hy)))))
        (fun hmem => absurd (htimeline₃ ▸ hmem) hnot) (not_sending_status hself₃.1) hadd
      rw [htimeline₃, if_neg hnot] at htimeline
      have hmem : ∀ x, x ∈ set.timeline ↔ x ∈ room.set.timeline ∨ x = e := by
        intro x
        rw [htimeline, List.mem_append, List.mem_singleton]
      have hpending : (EchoRoom.mk set (room.pendingEventList.map fun pending => pending.erase e)
          (room.txnToEvent.erase e)).pending = room.pending.erase e := by
        rw [EchoRoom.pending]
        rw [h.detached]
        rfl
      have hholds : ∀ x, (EchoRoom.mk set
          (room.pendingEventList.map fun pending => pending.erase e)
          (room.txnToEvent.erase e)).Holds x ↔ room.Holds x ∨ x = e := by
        intro x
        unfold EchoRoom.Holds
        rw [hpending, hmem, h.nodup.mem_erase_iff]
        by_cases hx : x = e
        · exact iff_of_true (.inl (.inr hx)) (.inr hx)
        · rw [or_iff_left hx, or_iff_left hx, and_iff_right hx]
      have hsame : ∀ x, x ≠ e → (set.event x).status = (room.set.event x).status := by
        intro x hx
        obtain ⟨new, hnew⟩ := honly x
        obtain ⟨new', hnew'⟩ := hof₃ x hx
        rw [hnew, hnew', ← hstatus₁ x]
      have hself : (set.event e).isSending = false := by
        obtain ⟨new, hnew⟩ := honly e
        rw [hnew]
        exact hself₃.1
      refine ⟨⟨hset'.mono (fun x hx => (hholds x).2 hx) fun r hr => (hmem r).2 hr,
        fun x => (hc' x).mono (hholds x).1, ?_, ?_, h.nodupTxn.erase e, fun x hx => ?_,
        fun x hx => ?_, fun x hx => ?_⟩, hnot, hpending, hmem, fun x => ?_⟩
      · rw [hpending]
        rw [h.detached]
        rfl
      · rw [hpending]
        exact h.nodup.erase e
      · rw [hpending, h.nodup.mem_erase_iff] at hx
        obtain ⟨hin, hcancelled⟩ := h.pending x hx.2
        refine ⟨h.nodupTxn.mem_erase_iff.2 ⟨hx.1, hin⟩, ?_⟩
        change (set.event x).status ≠ _
        rw [hsame x hx.1]
        exact hcancelled
      · rw [h.nodupTxn.mem_erase_iff] at hx
        obtain ⟨hsend, hnot⟩ := h.txn x hx.2
        refine ⟨?_, fun hin => ((hmem x).1 hin).elim hnot hx.1⟩
        change (set.event x).status.isSome = true
        rw [hsame x hx.1]
        exact hsend
      · rcases (hmem x).1 hx with hin | heq
        · change (set.event x).status.isSome = false
          rw [hsame x fun heq => hnot (heq ▸ hin)]
          exact h.timeline x hin
        · rw [heq]
          exact hself
      · change (set.event x).isRedacted = true ↔ (room.set.event x).isRedacted = true ∨ _
        have hof := redactsOf_eq h.set (.inl hnot)
        rw [← hof, ← hredacted₁]
        obtain ⟨new, hnew⟩ := honly x
        rw [hnew]
        change (st.event x).isRedacted = true ↔ _
        by_cases hx : x = e
        · rw [hx, hself₃.2]
        · obtain ⟨new', hnew'⟩ := hof₃ x hx
          rw [hnew']
          rfl

/-- The status of an event that is being sent has been changed, but not to cancelled. -/
theorem of_status (h : EchoInv event room) {newStatus : EventStatus}
    (hsent : (room.set.event e).isSending) (hne : newStatus ≠ .cancelled)
    (hok : room.set.setStatus e (some newStatus) = .ok set) :
    EchoInv event { room with set := set } ∧ set.timeline = room.set.timeline ∧
      ∀ x, (set.event x).isRedacted = (room.set.event x).isRedacted := by
  have hne' : some newStatus ≠ some EventStatus.cancelled := fun heq => hne (Option.some.inj heq)
  obtain ⟨hset, hothers, hself, -, hevent, htimeline⟩ := setStatus_set h.set hsent hok
  obtain ⟨new, hnew⟩ := hevent.self (f := fun event => { event with status := some newStatus })
  have hof : ∀ x, x ≠ e → ∃ new, set.event x = { room.set.event x with replacingEvent := new } :=
    fun x hx => hevent.of_ne (f := fun event => { event with status := some newStatus }) hx
  have hholds : (EchoRoom.mk set room.pendingEventList room.txnToEvent).Holds = room.Holds := by
    funext x
    exact congrArg (fun timeline => x ∈ timeline ∨ x ∈ room.pending) htimeline
  have hnot : e ∉ room.set.timeline := by
    intro hmem
    exact absurd (h.timeline e hmem) (by rw [hsent]; exact Bool.noConfusion)
  refine ⟨⟨?_, fun x => ?_, h.detached, h.nodup, h.nodupTxn, fun x hx => ?_, fun x hx => ?_,
    fun x hx => ?_⟩, htimeline, fun x => ?_⟩
  · rw [hholds]
    exact hset.mono (fun _ hx => hx) fun r hr => htimeline ▸ hr
  · rw [hholds]
    by_cases hx : x = e
    · exact hx ▸ hself hne' (h.contained e)
    · exact hothers x hx (h.contained x)
  · obtain ⟨hin, hcancelled⟩ := h.pending x hx
    refine ⟨hin, ?_⟩
    change (set.event x).status ≠ _
    by_cases hxe : x = e
    · rw [hxe, hnew]
      exact hne'
    · obtain ⟨new, hnew⟩ := hof x hxe
      rw [hnew]
      exact hcancelled
  · obtain ⟨hsend, hnotx⟩ := h.txn x hx
    change (set.event x).status.isSome = true ∧ x ∉ set.timeline
    rw [htimeline]
    refine ⟨?_, hnotx⟩
    by_cases hxe : x = e
    · rw [hxe, hnew]
      rfl
    · obtain ⟨new, hnew⟩ := hof x hxe
      rw [hnew]
      exact hsend
  · change (set.event x).status.isSome = false
    have hmem : x ∈ room.set.timeline := htimeline ▸ hx
    obtain ⟨new, hnew⟩ := hof x fun heq => hnot (heq ▸ hmem)
    rw [hnew]
    exact h.timeline x hmem
  · by_cases hxe : x = e
    · rw [hxe, hnew]
      rfl
    · obtain ⟨new, hnew⟩ := hof x hxe
      rw [hnew]
      rfl

/-- A redaction that has been cancelled is taken back, if it was pending. -/
theorem revertPending_set {pending : List String} (h : SetInv event held received st)
    (hc : ∀ y, Contained held st y) (hheld : ∀ x ∈ st.timeline, held x)
    (hstatus : ∀ x ∈ st.timeline, (st.event x).status ≠ some .cancelled)
    (heq : (if e ∈ pending ∧ (st.event e).isRedaction then st.revertRedactionLocalEcho e
      else some st) = some st') :
    SetInv event held received st' ∧ (∀ y, Contained held st' y) ∧ st'.timeline = st.timeline ∧
      (∀ x, (st'.event x).status = (st.event x).status) ∧
      ∀ x, (st'.event x).isRedacted ↔ (st.event x).isRedacted ∧
        ¬(e ∈ pending ∧ redactsOf st.event e = some x ∧ x ∈ st.timeline) := by
  split at heq
  next hredaction =>
    obtain ⟨hset, hc', htimeline, hstatus', hredacted⟩ :=
      revertRedactionLocalEcho_spec h hc hheld hstatus heq
    refine ⟨hset, hc', htimeline, hstatus', fun x => ?_⟩
    rw [hredacted, redactsOf, if_pos hredaction.2, and_iff_right hredaction.1]
  next hnot =>
    obtain rfl := Option.some.inj heq
    refine ⟨h, hc, rfl, fun _ => rfl, fun x => (and_iff_left ?_).symm⟩
    rintro ⟨hmem, hredacts, -⟩
    have hredaction : ¬(st.event e).isRedaction = true := fun hr => hnot ⟨hmem, hr⟩
    rw [redactsOf, if_neg hredaction] at hredacts
    exact nomatch hredacts

/-- An event that was being sent has been cancelled. -/
theorem of_cancelled (h : EchoInv event room) {set' : RelationsState}
    (hsent : (room.set.event e).isSending) (hnot : e ∉ room.set.timeline)
    (hok : room.set.setStatus e (some .cancelled) = .ok set)
    (heq : (if e ∈ room.pending ∧ (set.event e).isRedaction then set.revertRedactionLocalEcho e
      else some set) = some set') : EchoInv event ⟨{ set' with timeline := set'.timeline.erase e },
        room.pendingEventList.map fun pending => pending.erase e, room.txnToEvent⟩ ∧
      set'.timeline.erase e = room.set.timeline ∧
      ∀ x, (set'.event x).isRedacted ↔ (room.set.event x).isRedacted ∧
        ¬(e ∈ room.pending ∧ redactsOf event e = some x ∧ x ∈ room.set.timeline) := by
  obtain ⟨hset, hothers, -, hnone, hevent, htimeline⟩ := setStatus_set h.set hsent hok
  obtain ⟨new, hnew⟩ := hevent.self (f := fun event => { event with status := some .cancelled })
  have hof : ∀ x, x ≠ e → ∃ new, set.event x = { room.set.event x with replacingEvent := new } :=
    fun x hx => hevent.of_ne (f := fun event => { event with status := some .cancelled }) hx
  have hne : ∀ x ∈ room.set.timeline, x ≠ e := fun x hx heq => hnot (heq ▸ hx)
  -- the event is not held any more
  have hset' : SetInv event (fun x => room.Holds x ∧ x ≠ e) (· ∈ room.set.timeline) set := by
    refine ⟨hset.good, hset.made, hset.data, fun x k hhas => ⟨hset.has x k hhas, fun heq => ?_⟩⟩
    obtain ⟨r, hr, hmem⟩ := hhas
    exact hnone rfl k r hr (heq ▸ hmem)
  have hc : ∀ x, Contained (fun x => room.Holds x ∧ x ≠ e) set x := fun x hh =>
    hothers x hh.2 (h.contained x) hh.1
  obtain ⟨hset₂, hc₂, htimeline₂, hstatus₂, hredacted₂⟩ := revertPending_set hset' hc
    (fun x hx => ⟨.inl (htimeline ▸ hx), hne x (htimeline ▸ hx)⟩)
    (fun x hx => by
      obtain ⟨new, hnew⟩ := hof x (hne x (htimeline ▸ hx))
      rw [hnew]
      exact not_sending_status (h.timeline x (htimeline ▸ hx))) heq
  have htimeline' : set'.timeline.erase e = room.set.timeline := by
    rw [htimeline₂, htimeline, List.erase_of_not_mem hnot]
  have hsame : ∀ x, x ≠ e → (set'.event x).status = (room.set.event x).status := by
    intro x hx
    obtain ⟨new, hnew⟩ := hof x hx
    rw [hstatus₂, hnew]
  have hself : (set'.event e).isSending = true := by
    rw [MatrixEvent.isSending, hstatus₂, hnew]
    rfl
  have hpending : (EchoRoom.mk { set' with timeline := set'.timeline.erase e }
      (room.pendingEventList.map fun pending => pending.erase e)
      room.txnToEvent).pending = room.pending.erase e := by
    rw [EchoRoom.pending]
    rw [h.detached]
    rfl
  have hholds : ∀ x, (EchoRoom.mk { set' with timeline := set'.timeline.erase e }
      (room.pendingEventList.map fun pending => pending.erase e) room.txnToEvent).Holds x ↔
      room.Holds x ∧ x ≠ e := by
    intro x
    unfold EchoRoom.Holds
    rw [hpending, h.nodup.mem_erase_iff]
    rw [htimeline']
    constructor
    · rintro (hx | ⟨hx, hmem⟩)
      · exact ⟨.inl hx, hne x hx⟩
      · exact ⟨.inr hmem, hx⟩
    · rintro ⟨hx | hmem, hx'⟩
      · exact .inl hx
      · exact .inr ⟨hx', hmem⟩
  refine ⟨⟨?_, fun x => ?_, ?_, ?_, h.nodupTxn, fun x hx => ?_, fun x hx => ?_, fun x hx => ?_⟩,
    htimeline', fun x => ?_⟩
  · have hshrunk : SetInv event (EchoRoom.mk { set' with timeline := set'.timeline.erase e }
        (room.pendingEventList.map fun pending => pending.erase e) room.txnToEvent).Holds
        (· ∈ set'.timeline.erase e) set' :=
      hset₂.mono (fun x hx => (hholds x).2 hx) fun r hr => htimeline' ▸ hr
    refine ⟨hshrunk.good.listeners rfl rfl rfl fun _ _ => rfl, hshrunk.made, fun x hx => ?_,
      hshrunk.has⟩
    refine hshrunk.data x (hx.imp_left fun hx hmem => hx ?_)
    change x ∈ set'.timeline.erase e
    rw [htimeline', ← htimeline, ← htimeline₂]
    exact hmem
  · exact (hc₂ x).mono (hholds x).1
  · rw [hpending]
    rw [h.detached]
    rfl
  · rw [hpending]
    exact h.nodup.erase e
  · rw [hpending, h.nodup.mem_erase_iff] at hx
    obtain ⟨hin, hcancelled⟩ := h.pending x hx.2
    refine ⟨hin, ?_⟩
    change (set'.event x).status ≠ _
    rw [hsame x hx.1]
    exact hcancelled
  · obtain ⟨hsend, hnotx⟩ := h.txn x hx
    change (set'.event x).isSending = true ∧ x ∉ set'.timeline.erase e
    rw [htimeline']
    refine ⟨?_, hnotx⟩
    by_cases hxe : x = e
    · rw [hxe]
      exact hself
    · rw [MatrixEvent.isSending, hsame x hxe]
      exact hsend
  · have hmem : x ∈ room.set.timeline := htimeline' ▸ hx
    change (set'.event x).isSending = false
    rw [MatrixEvent.isSending, hsame x (hne x hmem)]
    exact h.timeline x hmem
  · have hofE : redactsOf set.event e = redactsOf event e := by
      refine redactsOf_eq hset (.inl ?_)
      rw [htimeline]
      exact hnot
    rw [hredacted₂, hofE, htimeline]
    by_cases hxe : x = e
    · rw [hxe, hnew]
      rfl
    · obtain ⟨new, hnew⟩ := hof x hxe
      rw [hnew]
      rfl

/-- **The status of a pending event changes.** -/
theorem updatePendingEvent {newStatus : EventStatus} (h : EchoInv event room)
    (heq : room.updatePendingEvent e newStatus = some room') :
    EchoInv event room' ∧ room'.set.timeline = room.set.timeline ∧
      ((newStatus ≠ .cancelled ∧ room'.pending = room.pending ∧
          ∀ x, room'.Redacted x ↔ room.Redacted x) ∨
        (newStatus = .cancelled ∧ e ∉ room.set.timeline ∧ room'.pending = room.pending.erase e ∧
          ∀ x, room'.Redacted x ↔ room.Redacted x ∧
            ¬(e ∈ room.pending ∧ redactsOf event e = some x ∧ x ∈ room.set.timeline))) := by
  unfold EchoRoom.updatePendingEvent at heq
  split at heq
  next hguard =>
    obtain rfl := Option.some.inj heq
    refine ⟨h, rfl, .inl ⟨?_, rfl, fun _ => .rfl⟩⟩
    rw [hguard.1]
    rintro ⟨⟩
  next =>
    obtain ⟨oldStatus, hold, hallowed⟩ := Option.bind_eq_some_iff.1 heq
    have hsent : (room.set.event e).isSending = true := by
      rw [MatrixEvent.isSending, hold]
      rfl
    have hnot : e ∉ room.set.timeline := by
      intro hmem
      exact absurd (h.timeline e hmem) (by rw [hsent]; exact Bool.noConfusion)
    split at hallowed
    next => cases hallowed
    next =>
      obtain ⟨set, hok, hcall⟩ := Option.bind_eq_some_iff.1 hallowed
      cases hset : room.set.setStatus e (some newStatus) with
      | error err =>
        rw [hset] at hok
        cases hok
      | ok st =>
        rw [hset] at hok
        obtain rfl := Option.some.inj hok
        split at hcall
        next hne =>
          obtain rfl := Option.some.inj hcall
          obtain ⟨hinv, htimeline, hredacted⟩ := h.of_status hsent hne hset
          refine ⟨hinv, htimeline, .inl ⟨hne, rfl, fun x => ?_⟩⟩
          unfold EchoRoom.Redacted
          rw [hredacted]
        next hcancelled =>
          rw [not_not] at hcancelled
          subst hcancelled
          obtain ⟨set', hrevert, rfl⟩ := Option.map_eq_some_iff.1 hcall
          obtain ⟨hinv, htimeline, hredacted⟩ := h.of_cancelled hsent hnot hset hrevert
          refine ⟨hinv, htimeline, .inr ⟨rfl, hnot, ?_, hredacted⟩⟩
          rw [EchoRoom.pending]
          rw [h.detached]
          rfl

end EchoInv

end MatrixSdk.Models
