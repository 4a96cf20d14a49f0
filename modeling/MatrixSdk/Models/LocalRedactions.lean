/-
When an event shows as redacted.

It should be redacted exactly as long as a redaction of it is pending or one has been received
([`RedactedAsKnown`]). One slot of the event stands for all its pending redactions, and a cancelled
one is taken back from the timeline only, whatever else redacts the event. [`Tracks`] says when a
call goes well all the same.
-/
import MatrixSdk.Models.EchoCalls

set_option autoImplicit false

namespace MatrixSdk.Models

open MatrixSdk.Lib RelationsState

variable (event : String → MatrixEvent) (x : String)

/-- A redaction of the event is pending. -/
def RedactionPending (room : EchoRoom) : Prop := ∃ r ∈ room.pending, redactsOf event r = some x

/-- A redaction of the event has been received, or it has been received redacted. -/
def RedactionReceived (room : EchoRoom) : Prop :=
  (event x).isRedacted ∨ ∃ r ∈ room.set.timeline, redactsOf event r = some x

def RedactionKnown (room : EchoRoom) : Prop :=
  RedactionPending event x room ∨ RedactionReceived event x room

/-- **The event is redacted as long as a redaction of it is known.** -/
def RedactedAsKnown (room : EchoRoom) : Prop :=
  room.Holds x → (room.Redacted x ↔ RedactionKnown event x room)

/-- An event that is new to the room comes redacted if a redaction of it is known, or is one. -/
def JoinsAsKnown (room : EchoRoom) (e : String) : Prop :=
  e = x → ¬room.Holds x →
    (room.Redacted x ↔ RedactionKnown event x room ∨ redactsOf event x = some x)

/-- Another redaction of the event than `e` is known. -/
def OtherKnown (room : EchoRoom) (e : String) : Prop :=
  (∃ r ∈ room.pending, r ≠ e ∧ redactsOf event r = some x) ∨ RedactionReceived event x room

/-- **What a call must not meet with.**
- An event joins the room as it is known.
- A redaction that is received has its target in the timeline, or redacted; with a page it has it
  redacted.
- A redaction that is cancelled has its target in the timeline if it was the only one, and in the
  list of pending events if it was not. -/
def Tracks (room : EchoRoom) : EchoCall → Prop
  | .addPendingEvent e =>
    e = x → redactsOf event x ≠ some x → (room.Redacted x ↔ RedactionKnown event x room)
  | .addLiveEvent e => JoinsAsKnown event x room e ∧
    (redactsOf event e = some x → room.Holds x → x ∈ room.set.timeline ∨ room.Redacted x)
  | .addEventsToTimeline e => JoinsAsKnown event x room e ∧
    (redactsOf event e = some x → room.Holds x → room.Redacted x)
  | .handleRemoteEcho e _ => JoinsAsKnown event x room e ∧
    (redactsOf event e = some x → room.Holds x → x ∈ room.set.timeline ∨ room.Redacted x)
  | .updatePendingEvent e newStatus => newStatus = .cancelled → e ∈ room.pending → e ≠ x →
    redactsOf event e = some x → room.Holds x →
      (x ∈ room.set.timeline ↔ ¬ OtherKnown event x room e)

instance (room : EchoRoom) : Decidable (RedactionKnown event x room) :=
  inferInstanceAs (Decidable ((∃ r ∈ room.pending, redactsOf event r = some x) ∨
    (event x).isRedacted = true ∨ ∃ r ∈ room.set.timeline, redactsOf event r = some x))

instance (room : EchoRoom) (e : String) : Decidable (OtherKnown event x room e) :=
  inferInstanceAs (Decidable ((∃ r ∈ room.pending, r ≠ e ∧ redactsOf event r = some x) ∨
    (event x).isRedacted = true ∨ ∃ r ∈ room.set.timeline, redactsOf event r = some x))

instance (room : EchoRoom) (e : String) : Decidable (room.Holds e) :=
  inferInstanceAs (Decidable (_ ∨ _))

instance (room : EchoRoom) (e : String) : Decidable (room.Redacted e) :=
  inferInstanceAs (Decidable (_ = true))

instance (room : EchoRoom) : Decidable (RedactedAsKnown event x room) :=
  inferInstanceAs (Decidable (_ → _))

instance (room : EchoRoom) (e : String) : Decidable (JoinsAsKnown event x room e) :=
  inferInstanceAs (Decidable (_ → _))

instance (room : EchoRoom) : (call : EchoCall) → Decidable (Tracks event x room call)
  | .addPendingEvent _ => inferInstanceAs (Decidable (_ → _))
  | .addLiveEvent _ => inferInstanceAs (Decidable (_ ∧ _))
  | .addEventsToTimeline _ => inferInstanceAs (Decidable (_ ∧ _))
  | .handleRemoteEcho _ _ => inferInstanceAs (Decidable (_ ∧ _))
  | .updatePendingEvent _ _ => inferInstanceAs (Decidable (_ → _))

variable {event x} {room room' : EchoRoom} {e : String}

/-! ## One call -/

/-- A redaction is known when one was known, or `e` is one, if the lists have grown by `e`. -/
theorem redactionKnown_added
    (h : ∀ r, r ∈ room'.pending ∨ r ∈ room'.set.timeline ↔
      (r ∈ room.pending ∨ r ∈ room.set.timeline) ∨ r = e) :
    RedactionKnown event x room' ↔ RedactionKnown event x room ∨ redactsOf event e = some x := by
  have hof : ∀ room : EchoRoom, RedactionKnown event x room ↔ (event x).isRedacted ∨
      ∃ r, (r ∈ room.pending ∨ r ∈ room.set.timeline) ∧ redactsOf event r = some x := by
    intro room
    unfold RedactionKnown RedactionPending RedactionReceived
    constructor
    · rintro (⟨r, hr, hx⟩ | h | ⟨r, hr, hx⟩)
      · exact .inr ⟨r, .inl hr, hx⟩
      · exact .inl h
      · exact .inr ⟨r, .inr hr, hx⟩
    · rintro (h | ⟨r, hr | hr, hx⟩)
      · exact .inr (.inl h)
      · exact .inl ⟨r, hr, hx⟩
      · exact .inr (.inr ⟨r, hr, hx⟩)
  rw [hof, hof, or_assoc]
  refine or_congr_right ⟨?_, ?_⟩
  · rintro ⟨r, hr, hx⟩
    rcases (h r).1 hr with hr | rfl
    · exact .inl ⟨r, hr, hx⟩
    · exact .inr hx
  · rintro (⟨r, hr, hx⟩ | hx)
    · exact ⟨r, (h r).2 (.inl hr), hx⟩
    · exact ⟨e, (h e).2 (.inr rfl), hx⟩

/-- **An event is received, or its echo is**, and redacts its target if that is in the timeline. -/
theorem redactedAsKnown_received (hP : RedactedAsKnown event x room)
    (hholds : room'.Holds x ↔ room.Holds x ∨ x = e)
    (hknown : RedactionKnown event x room' ↔
      RedactionKnown event x room ∨ redactsOf event e = some x)
    (hredacted : room'.Redacted x ↔ room.Redacted x ∨
      (redactsOf event e = some x ∧ x ∈ room.set.timeline)) :
    RedactedAsKnown event x room' ↔ JoinsAsKnown event x room e ∧
      (redactsOf event e = some x → room.Holds x → x ∈ room.set.timeline ∨ room.Redacted x) := by
  unfold RedactedAsKnown JoinsAsKnown
  rw [hholds, hknown, hredacted]
  by_cases hheld : room.Holds x
  · have hsame := hP hheld
    rw [← hsame]
    constructor
    · intro h
      refine ⟨fun _ hnot => absurd hheld hnot, fun hx _ => ?_⟩
      rcases (h (.inl hheld)).2 (.inr hx) with hF | ⟨-, hT⟩
      · exact .inr hF
      · exact .inl hT
    · rintro ⟨-, h⟩ -
      constructor
      · exact fun hF => hF.imp_right And.left
      · rintro (hF | hx)
        · exact .inl hF
        · exact (h hx hheld).elim (fun hT => .inr ⟨hx, hT⟩) .inl
  · have hnot : x ∉ room.set.timeline := fun hT => hheld (.inl hT)
    have hnone : ¬(redactsOf event e = some x ∧ x ∈ room.set.timeline) := fun h => hnot h.2
    rw [or_iff_left hnone]
    constructor
    · intro h
      refine ⟨fun he _ => ?_, fun _ hh => absurd hh hheld⟩
      have hjoined := h (.inr he.symm)
      rw [he] at hjoined
      exact hjoined
    · rintro ⟨h, -⟩ (hh | rfl)
      · exact absurd hh hheld
      · exact h rfl hheld

/-- **A pending event is cancelled**, which may be a redaction of the event. -/
theorem redactedAsKnown_cancelled (hI : EchoInv event room) (hP : RedactedAsKnown event x room)
    (hnot : e ∉ room.set.timeline) (hpending : room'.pending = room.pending.erase e)
    (htimeline : room'.set.timeline = room.set.timeline)
    (hredacted : room'.Redacted x ↔ room.Redacted x ∧
      ¬(e ∈ room.pending ∧ redactsOf event e = some x ∧ x ∈ room.set.timeline)) :
    RedactedAsKnown event x room' ↔ Tracks event x room (.updatePendingEvent e .cancelled) := by
  have hknown' : RedactionKnown event x room' ↔ OtherKnown event x room e := by
    unfold RedactionKnown OtherKnown RedactionPending RedactionReceived
    rw [hpending, htimeline]
    refine or_congr_left ⟨?_, ?_⟩
    · rintro ⟨r, hr, hx⟩
      obtain ⟨hne, hmem⟩ := hI.nodup.mem_erase_iff.1 hr
      exact ⟨r, hmem, hne, hx⟩
    · rintro ⟨r, hmem, hne, hx⟩
      exact ⟨r, hI.nodup.mem_erase_iff.2 ⟨hne, hmem⟩, hx⟩
  have hholds' : room'.Holds x ↔ room.Holds x ∧ x ≠ e := by
    unfold EchoRoom.Holds
    rw [hpending, htimeline, hI.nodup.mem_erase_iff]
    constructor
    · rintro (hx | ⟨hne, hx⟩)
      · exact ⟨.inl hx, fun heq => hnot (heq ▸ hx)⟩
      · exact ⟨.inr hx, hne⟩
    · rintro ⟨hx | hx, hne⟩
      · exact .inl hx
      · exact .inr ⟨hne, hx⟩
  -- nothing else is known of the event unless `e` is a pending redaction of it
  have hother : ¬(e ∈ room.pending ∧ redactsOf event e = some x) →
      (OtherKnown event x room e ↔ RedactionKnown event x room) := by
    intro hunless
    refine or_congr_left ⟨?_, ?_⟩
    · rintro ⟨r, hmem, -, hx⟩
      exact ⟨r, hmem, hx⟩
    · rintro ⟨r, hmem, hx⟩
      exact ⟨r, hmem, fun heq => hunless ⟨heq ▸ hmem, heq ▸ hx⟩, hx⟩
  unfold RedactedAsKnown Tracks
  rw [hknown', hholds', hredacted]
  by_cases hunless : e ∈ room.pending ∧ redactsOf event e = some x
  · obtain ⟨hmem, hx⟩ := hunless
    constructor
    · intro h _ _ hne _ hheld
      have hsame := h ⟨hheld, hne.symm⟩
      have hF := (hP hheld).2 (.inl ⟨e, hmem, hx⟩)
      rw [and_iff_right hF, and_iff_right hmem, and_iff_right hx] at hsame
      exact ⟨fun hT hother => hsame.2 hother hT, fun hother => by_contra fun hT =>
        hother (hsame.1 hT)⟩
    · rintro h ⟨hheld, hne⟩
      have hsame := h rfl hmem hne.symm hx hheld
      have hF := (hP hheld).2 (.inl ⟨e, hmem, hx⟩)
      rw [and_iff_right hF, and_iff_right hmem, and_iff_right hx, hsame, not_not]
  · have hkept : ¬(e ∈ room.pending ∧ redactsOf event e = some x ∧ x ∈ room.set.timeline) :=
      fun h => hunless ⟨h.1, h.2.1⟩
    rw [hother hunless, and_iff_left hkept]
    exact iff_of_true (fun h => hP h.1) fun _ hmem _ hx _ => absurd ⟨hmem, hx⟩ hunless

/-- **One call** keeps the event redacted as known exactly if it tracks its redactions. -/
theorem redactedAsKnown_step {call : EchoCall} (hI : EchoInv event room)
    (hP : RedactedAsKnown event x room) (hstep : room.call call = some room') :
    RedactedAsKnown event x room' ↔ Tracks event x room call := by
  cases call with
  | addPendingEvent e =>
    obtain ⟨-, htxn, hnot, hpending, htimeline, hredacted⟩ := hI.addPendingEvent hstep
    have hknown : RedactionKnown event x room' ↔
        RedactionKnown event x room ∨ redactsOf event e = some x := by
      refine redactionKnown_added fun r => ?_
      rw [hpending, htimeline, List.mem_append, List.mem_singleton, or_right_comm]
    have hholds : room'.Holds x ↔ room.Holds x ∨ x = e := by
      unfold EchoRoom.Holds
      rw [hpending, htimeline, List.mem_append, List.mem_singleton, or_assoc]
    unfold RedactedAsKnown Tracks
    rw [hknown, hredacted, hholds]
    constructor
    · intro h he hx
      rw [he] at h
      have hsame := h (.inr rfl)
      rw [or_iff_left hx, or_iff_left fun hself => hx hself.1] at hsame
      exact hsame
    · intro h hh
      by_cases hx : redactsOf event e = some x
      · exact iff_of_true (.inr ⟨hx, hh⟩) (.inr hx)
      · rw [or_iff_left hx, or_iff_left fun hself => hx hself.1]
        rcases hh with hheld | rfl
        · exact hP hheld
        · exact h rfl hx
  | addLiveEvent e =>
    obtain ⟨-, hnot, hpending, htimeline, hredacted⟩ := hI.addLiveEvent hstep
    have hknown : RedactionKnown event x room' ↔
        RedactionKnown event x room ∨ redactsOf event e = some x := by
      refine redactionKnown_added fun r => ?_
      rw [hpending, htimeline, or_assoc]
    have hholds : room'.Holds x ↔ room.Holds x ∨ x = e := by
      unfold EchoRoom.Holds
      rw [hpending, htimeline, or_right_comm]
    refine redactedAsKnown_received hP hholds hknown ((hredacted x).trans ?_)
    -- a redaction that has been redacted has redacted its target before
    by_cases hmem : e ∈ room.set.timeline
    · constructor
      · exact fun h => h.imp_right fun h => ⟨redactsOf_le hI.set h.1, h.2⟩
      · rintro (hF | ⟨hx, hT⟩)
        · exact .inl hF
        · exact .inl ((hP (.inl hT)).2 (.inr (.inr ⟨e, hmem, hx⟩)))
    · rw [redactsOf_eq hI.set (.inl hmem)]
  | addEventsToTimeline e =>
    obtain ⟨-, hnot, hpending, htimeline, hredacted⟩ := hI.addEventsToTimeline hstep
    have hknown : RedactionKnown event x room' ↔
        RedactionKnown event x room ∨ redactsOf event e = some x := by
      refine redactionKnown_added fun r => ?_
      rw [hpending, htimeline, or_assoc]
    have hholds : room'.Holds x ↔ room.Holds x ∨ x = e := by
      unfold EchoRoom.Holds
      rw [hpending, htimeline, or_right_comm]
    unfold RedactedAsKnown Tracks JoinsAsKnown
    rw [hknown, hredacted, hholds]
    by_cases hheld : room.Holds x
    · rw [← hP hheld]
      constructor
      · intro h
        exact ⟨fun _ hnot => absurd hheld hnot, fun hx _ => (h (.inl hheld)).2 (.inr hx)⟩
      · rintro ⟨-, h⟩ -
        exact ⟨.inl, fun hF => hF.elim id fun hx => h hx hheld⟩
    · constructor
      · intro h
        refine ⟨fun he _ => ?_, fun _ hh => absurd hh hheld⟩
        have hjoined := h (.inr he.symm)
        rw [he] at hjoined
        exact hjoined
      · rintro ⟨h, -⟩ (hh | rfl)
        · exact absurd hh hheld
        · exact h rfl hheld
  | handleRemoteEcho e originServerTs =>
    obtain ⟨-, hnot, hpending, htimeline, hredacted⟩ := hI.handleRemoteEcho hstep
    have hlists : ∀ r, r ∈ room'.pending ∨ r ∈ room'.set.timeline ↔
        (r ∈ room.pending ∨ r ∈ room.set.timeline) ∨ r = e := by
      intro r
      rw [hpending, htimeline, hI.nodup.mem_erase_iff]
      by_cases hr : r = e
      · exact iff_of_true (.inr (.inr hr)) (.inr hr)
      · rw [or_iff_left hr, or_iff_left hr, and_iff_right hr]
    have hholds : room'.Holds x ↔ room.Holds x ∨ x = e := by
      unfold EchoRoom.Holds
      rw [or_comm, hlists, or_comm (a := x ∈ room.pending)]
    exact redactedAsKnown_received hP hholds (redactionKnown_added hlists) (hredacted x)
  | updatePendingEvent e newStatus =>
    obtain ⟨-, htimeline, ⟨hne, hpending, hredacted⟩ | ⟨rfl, hnot, hpending, hredacted⟩⟩ :=
      hI.updatePendingEvent hstep
    · have hknown : RedactionKnown event x room' ↔ RedactionKnown event x room := by
        unfold RedactionKnown RedactionPending RedactionReceived
        rw [hpending, htimeline]
      have hholds : room'.Holds x ↔ room.Holds x := by
        unfold EchoRoom.Holds
        rw [hpending, htimeline]
      unfold RedactedAsKnown
      rw [hknown, hholds, hredacted]
      exact iff_of_true hP fun heq => absurd heq hne
    · exact redactedAsKnown_cancelled hI hP hnot hpending htimeline (hredacted x)

/-! ## All runs -/

theorem echoInv_step {call : EchoCall} (hI : EchoInv event room)
    (hstep : room.call call = some room') : EchoInv event room' := by
  cases call with
  | addPendingEvent e => exact (hI.addPendingEvent hstep).1
  | addLiveEvent e => exact (hI.addLiveEvent hstep).1
  | addEventsToTimeline e => exact (hI.addEventsToTimeline hstep).1
  | handleRemoteEcho e originServerTs => exact (hI.handleRemoteEcho hstep).1
  | updatePendingEvent e newStatus => exact (hI.updatePendingEvent hstep).1

theorem echoInv_of_trace {tr : List (EchoRoom × EchoCall)}
    (h : (echoSystem event).Trace tr room) : EchoInv event room :=
  System.Reachable.invariant (echoInv_init event) (fun _ _ _ => echoInv_step) ⟨tr, h⟩

/-- What an event that no redaction is known of is as it was made: its content and its relation, by
which it is in its container. -/
structure AsMade (event : String → MatrixEvent) (x : String) (room : EchoRoom) : Prop where
  content : (room.set.event x).getOriginalContent = (event x).content
  relation : (room.set.event x).getRelation = (event x).getRelation
  contained : (event x).isBeingDecrypted = false → ∀ relation,
    (event x).getRelation = some relation →
      Has room.set ⟨relation.eventId, relation.relType, (event x).type⟩ x

theorem asMade (hI : EchoInv event room) (hP : RedactedAsKnown event x room) (hx : room.Holds x)
    (hnot : ¬RedactionKnown event x room) : AsMade event x room := by
  have hredacted : (room.set.event x).isRedacted = false := by
    rw [← Bool.not_eq_true]
    exact fun h => hnot ((hP hx).1 h)
  have hmade := hI.set.made x
  obtain ⟨hcontent, hrelatesTo, -⟩ := hI.set.data x
    (.inr fun r hr hredacts => hnot (.inr (.inr ⟨r, hr, hredacts⟩)))
  have hrelation : (room.set.event x).getRelation = (event x).getRelation := by
    rw [MatrixEvent.getRelation, MatrixEvent.getRelation, hrelatesTo]
  refine ⟨?_, hrelation, fun hdecrypted relation hrel => ?_⟩
  · have hlocal : ¬(room.set.event x).localRedactionEvent.isSome = true := by
      intro hlocal
      rw [hmade.shows hlocal] at hredacted
      exact nomatch hredacted
    rw [MatrixEvent.getOriginalContent, if_neg hlocal, hcontent]
  · rw [← hmade.type]
    exact hI.contained x hx hredacted (hmade.isBeingDecrypted.trans hdecrypted) relation
      (hrelation.trans hrel)

/-- **An event shows as redacted** as long as a redaction of it is known, all along a run, exactly if
every call of the run tracks its redactions. When none is known the event is as it was made. -/
theorem localRedactions (event : String → MatrixEvent) (x : String)
    {tr : List (EchoRoom × EchoCall)} (h : (echoSystem event).Trace tr room) :
    (System.HoldsAlong (RedactedAsKnown event x) tr room ↔ System.Meets (Tracks event x) tr) ∧
      (System.Meets (Tracks event x) tr → room.Holds x → ¬RedactionKnown event x room →
        AsMade event x room) := by
  have hexact : System.HoldsAlong (RedactedAsKnown event x) tr room ↔
      System.Meets (Tracks event x) tr := by
    refine h.holdsAlong_iff (echoInv_init event) (fun _ _ _ => echoInv_step) (fun hx => ?_)
      fun room call room' hI hP hstep => redactedAsKnown_step hI hP hstep
    exact hx.elim (fun hx => nomatch hx) fun hx => nomatch hx
  exact ⟨hexact, fun hmeets hx hnot =>
    asMade (echoInv_of_trace h) (hexact.2 hmeets).2 hx hnot⟩

/-- A message `$x`, and its redactions. -/
def exampleRedactions (e : String) : MatrixEvent :=
  if e = "$x" then
    ⟨"m.room.message", "@alice", 0, JsObject.empty.set "body" "hello", none, false, none, none, none,
      false, none, none, none⟩
  else
    ⟨"m.room.redaction", "@bob", 0, .empty, none, false, some "$x", none, some .sending, false, none,
      none, none⟩

/-- A redaction is made and cancelled. -/
theorem localRedactions_cancelled :
    let calls : List EchoCall := [.addLiveEvent "$x", .addPendingEvent "~one",
      .updatePendingEvent "~one" .notSent, .updatePendingEvent "~one" .cancelled]
    ∃ h : ((echoSystem exampleRedactions).run calls).isSome,
      AsMade exampleRedactions "$x" (((echoSystem exampleRedactions).run calls).get h) := by
  intro calls
  have h : ((echoSystem exampleRedactions).run calls).isSome := by decide +kernel
  have hmeets : System.Meets (Tracks exampleRedactions "$x")
      ((echoSystem exampleRedactions).steps calls) := by decide +kernel
  have hholds : (((echoSystem exampleRedactions).run calls).get h).Holds "$x" := by
    decide +kernel +revert
  have hnot : ¬RedactionKnown exampleRedactions "$x"
      (((echoSystem exampleRedactions).run calls).get h) := by
    decide +kernel +revert
  exact ⟨h, (localRedactions exampleRedactions "$x" (System.trace_get h)).2 hmeets hholds hnot⟩

/-- One of two redactions that are pending is cancelled. -/
theorem localRedactions_fails :
    ¬ ∀ tr room, (echoSystem exampleRedactions).Trace tr room →
      System.HoldsAlong (RedactedAsKnown exampleRedactions "$x") tr room := by
  intro hclaim
  have h : ((echoSystem exampleRedactions).run [.addLiveEvent "$x", .addPendingEvent "~one",
    .addPendingEvent "~two", .updatePendingEvent "~one" .notSent,
    .updatePendingEvent "~one" .cancelled]).isSome := by decide +kernel
  have hnot : ¬RedactedAsKnown exampleRedactions "$x" (((echoSystem exampleRedactions).run _).get h) := by
    decide +kernel +revert
  exact hnot (hclaim _ _ (System.trace_get h)).2

end MatrixSdk.Models
