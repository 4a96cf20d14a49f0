/-
Annotations over all runs.

Every call on an event and its timeline set keeps the containers as they should be: those of
annotations have grouped the relations they have, and no container has an event that is redacted or
cancelled ([`RelationsState.Good`]). A call that is about an annotation changes its tables and the
event itself, nothing else.
-/
import MatrixSdk.Lib.System
import MatrixSdk.Models.RelationsCalls

set_option autoImplicit false

namespace MatrixSdk.Models

open MatrixSdk.Lib

/-! ## The calls -/

/-- What is done with events and the timeline set they are in. -/
inductive RelationsCall
  | addEventToTimeline (e : String)
  | aggregateRelations (e : String)
  | setStatus (e : String) (status : Option EventStatus)
  | markLocallyRedacted (e redactionEvent : String)
  | unmarkLocallyRedacted (e : String)
  | makeRedacted (e redactionEvent : String)
  | attemptDecryption (e : String)
  | decrypted (e type : String) (content : JsObject String String)

namespace RelationsCall

/-- The event a call is about. -/
def about : RelationsCall → String
  | .addEventToTimeline e => e
  | .aggregateRelations e => e
  | .setStatus e _ => e
  | .markLocallyRedacted e _ => e
  | .unmarkLocallyRedacted e => e
  | .makeRedacted e _ => e
  | .attemptDecryption e => e
  | .decrypted e _ _ => e

/-- What a call makes of the event itself. -/
def own : RelationsCall → MatrixEvent → MatrixEvent
  | .addEventToTimeline _, event => event
  | .aggregateRelations _, event => event
  | .setStatus _ status, event => { event with status := status }
  | .markLocallyRedacted _ redactionEvent, event =>
    if event.localRedactionEvent.isSome then event
    else { event with
      localRedactionEvent := some redactionEvent, redactedBecause := some redactionEvent }
  | .unmarkLocallyRedacted _, event => event.unmarkLocallyRedacted
  | .makeRedacted _ redactionEvent, event =>
    { event with localRedactionEvent := none }.redactedBy redactionEvent
  | .attemptDecryption _, event => { event with isBeingDecrypted := true }
  | .decrypted _ type content, event =>
    { event with type := type, content := content, decrypted := true, isBeingDecrypted := false }

end RelationsCall

namespace RelationsState

def call (st : RelationsState) : RelationsCall → Except AggregationError RelationsState
  | .addEventToTimeline e => st.addEventToTimeline e
  | .aggregateRelations e => st.aggregateRelations e
  | .setStatus e status => st.setStatus e status
  | .markLocallyRedacted e redactionEvent => st.markLocallyRedacted e redactionEvent
  | .unmarkLocallyRedacted e => .ok (st.unmarkLocallyRedacted e)
  | .makeRedacted e redactionEvent => st.makeRedacted e redactionEvent
  | .attemptDecryption e => .ok (st.setEvent e { st.event e with isBeingDecrypted := true })
  | .decrypted e type content =>
    (st.setEvent e { st.event e with
      type := type, content := content, decrypted := true, isBeingDecrypted := false }).emitDecrypted e

/-- The call finds names that are not inherited, for an event that is aggregated, and a status only
an event has that is being sent. Only events that have been received are decrypted. -/
def Sound (st : RelationsState) : RelationsCall → Prop
  | .addEventToTimeline e => WellNamed (st.event e)
  | .aggregateRelations e => WellNamed (st.event e)
  | .setStatus e _ => (st.event e).isSending
  | .decrypted e type _ => (st.event e).isSending = false ∧ WellNamed { st.event e with type := type }
  | _ => True

instance (st : RelationsState) : (call : RelationsCall) → Decidable (st.Sound call)
  | .addEventToTimeline e => inferInstanceAs (Decidable (WellNamed (st.event e)))
  | .aggregateRelations e => inferInstanceAs (Decidable (WellNamed (st.event e)))
  | .setStatus e _ => inferInstanceAs (Decidable ((st.event e).isSending = true))
  | .decrypted e type _ => inferInstanceAs (Decidable
      ((st.event e).isSending = false ∧ WellNamed { st.event e with type := type }))
  | .markLocallyRedacted _ _ => inferInstanceAs (Decidable True)
  | .unmarkLocallyRedacted _ => inferInstanceAs (Decidable True)
  | .makeRedacted _ _ => inferInstanceAs (Decidable True)
  | .attemptDecryption _ => inferInstanceAs (Decidable True)

end RelationsState

/-- A timeline set over all calls that do not throw, for events as they are to begin with. -/
def relationsSystem (event : String → MatrixEvent) : System RelationsState RelationsCall where
  init := ⟨event, [], fun _ => none, fun _ => [], fun _ => [], fun _ => 0⟩
  step st call := (st.call call).toOption

namespace RelationsState

variable {st st' : RelationsState} {e : String}

/-! ## All calls -/

/-- The state once a call's event has joined the timeline, if it does. -/
def arrived (st : RelationsState) : RelationsCall → RelationsState
  | .addEventToTimeline e => { st with timeline := st.timeline ++ [e] }.setRelationsTarget e
  | _ => st

/-- **One call** goes well, and if it is about an annotation it changes tables and that event. -/
theorem Good.call (h : Good st) {call : RelationsCall} (hsound : st.Sound call) :
    ∃ st', st.call call = .ok st' ∧ Good st' ∧ (Annotates (st.event call.about) →
      ChangesTables ((st.arrived call).setEvent call.about
        (call.own ((st.arrived call).event call.about))) st') := by
  cases call with
  | addEventToTimeline e =>
    obtain ⟨hgood, honly, -, -⟩ := h.join e
    have hnamed : WellNamed (st.event e) := hsound
    obtain ⟨st', heq, haggregates⟩ :=
      aggregateRelations_spec hgood.inv (hnamed.of_onlyReplaced honly)
    have heffect := hgood.aggregates haggregates
    exact ⟨st', heq, heffect.good, fun ha => heffect.tables (ha.of_onlyReplaced honly)⟩
  | aggregateRelations e =>
    obtain ⟨st', heq, haggregates⟩ := aggregateRelations_spec h.inv hsound
    have heffect := h.aggregates haggregates
    exact ⟨st', heq, heffect.good, heffect.tables⟩
  | setStatus e status =>
    obtain ⟨st', heq, heffect, -⟩ := h.setStatus hsound status
    exact ⟨st', heq, heffect.good, heffect.tables⟩
  | markLocallyRedacted e redactionEvent =>
    obtain ⟨st', heq, ⟨hlocal, rfl⟩ | ⟨hlocal, heffect, -⟩⟩ :=
      h.markLocallyRedacted e redactionEvent
    · refine ⟨_, heq, h, fun _ => ?_⟩
      dsimp only [RelationsCall.own, RelationsCall.about, arrived]
      rw [if_pos hlocal, setEvent_self]
      exact .refl _
    · refine ⟨st', heq, heffect.good, fun ha => ?_⟩
      dsimp only [RelationsCall.own, RelationsCall.about, arrived]
      rw [if_neg (by rw [hlocal]; exact Bool.false_ne_true)]
      exact heffect.tables ha
  | unmarkLocallyRedacted e => exact ⟨_, rfl, h.unmarkLocallyRedacted e, fun _ => .refl _⟩
  | makeRedacted e redactionEvent =>
    obtain ⟨st', heq, heffect, -⟩ := h.makeRedacted e redactionEvent
    exact ⟨st', heq, heffect.good, heffect.tables⟩
  | attemptDecryption e =>
    exact ⟨_, rfl, h.setEvent (.inr ⟨rfl, rfl, fun hr => hr, fun hs => hs, fun hs => ⟨hs, rfl⟩⟩),
      fun _ => .refl _⟩
  | decrypted e type content =>
    obtain ⟨hreceived, hnamed⟩ := hsound
    unfold RelationsState.call RelationsState.emitDecrypted
    dsimp only [RelationsCall.own, RelationsCall.about, arrived]
    generalize hev : ({ st.event e with
      type := type, content := content, decrypted := true,
      isBeingDecrypted := false } : MatrixEvent) = ev
    have hself : (st.setEvent e ev).event e = ev := Function.update_self ..
    have hset : Good (st.setEvent e ev) := by
      refine h.setEvent (.inr ?_)
      rw [← hev]
      refine ⟨rfl, rfl, fun hr => hr, fun hs => hs, fun hs => ?_⟩
      exact absurd hs (by rw [Bool.not_eq_true]; exact hreceived)
    generalize hst₁ : ({ st.setEvent e ev with
      onDecrypted := Function.update (st.setEvent e ev).onDecrypted e 0 } : RelationsState) = st₁
    have hevent₁ : st₁.event = (st.setEvent e ev).event := by rw [← hst₁]
    have hgood₁ : Good st₁ := by
      rw [← hst₁]
      exact hset.listeners rfl rfl rfl fun _ _ => rfl
    have hnamed₁ : WellNamed (st₁.event e) := by
      rw [hevent₁, hself, ← hev]
      exact hnamed
    obtain ⟨st', heq, heffect⟩ := hgood₁.foldlM_aggregateRelations
      (List.range ((st.setEvent e ev).onDecrypted e)) hnamed₁
    refine ⟨st', heq, heffect.good, fun ha => ?_⟩
    have htables := heffect.tables (ha.of_eq (by rw [hevent₁, hself, ← hev]; rfl))
    rw [id, setEvent_self] at htables
    have hfirst : ChangesTables (st.setEvent e ev) st₁ := by
      rw [← hst₁]
      exact ⟨rfl, rfl, fun _ _ => rfl⟩
    exact hfirst.trans htables

end RelationsState

/-! ## All runs -/

open RelationsState

variable {event : String → MatrixEvent} {st : RelationsState}

theorem good_of_reachable (hst : (relationsSystem event).ReachableUnder Sound st) : st.Good := by
  refine hst.invariant ?_ fun st call st' h hsound hstep => ?_
  · have hempty : ∀ k r, (relationsSystem event).init.relations k ≠ some r := fun _ _ h => nomatch h
    exact ⟨⟨fun k r h => absurd h (hempty k r), fun k r h => absurd h (hempty k r),
      fun k r h => absurd h (hempty k r), fun k r _ h => absurd h (hempty k r)⟩,
      fun _ k r h => absurd h (hempty k r)⟩
  · obtain ⟨st₁, heq, hgood, -⟩ := h.call hsound
    have hstep : (st.call call).toOption = some st' := hstep
    rw [heq] at hstep
    exact Option.some.inj hstep ▸ hgood

/-- A reaction by `@alice` to an event. -/
def exampleReaction (eventId key : String) : MatrixEvent :=
  ⟨"m.reaction", "@alice", 0, .empty, some ⟨"m.annotation", eventId, key⟩, false, none, none, none,
    false, none, none, none⟩

end MatrixSdk.Models
