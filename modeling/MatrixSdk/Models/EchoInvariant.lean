/-
What holds of a room with local echoes between two calls, and what each call does to the lists of
events and to who is redacted.

A call is a row of changes of one event each ([`RelationsState.Effect`]). They all keep what is said
of the events one by one ([`SetInv`]); that a relation that is held and not redacted is in its
container ([`Contained`]) is kept for all events but the one that changes.
-/
import MatrixSdk.Models.LocalEchoes
import MatrixSdk.Models.RelationsCalls

set_option autoImplicit false

namespace MatrixSdk.Models

open MatrixSdk.Lib RelationsState

/-- The event that a redaction redacts, as it is made. -/
def redactsOf (event : String → MatrixEvent) (e : String) : Option String :=
  if (event e).isRedaction then (event e).redacts else none

/-! ## Events as they are made -/

/-- What no call changes, and that a local redaction shows. -/
structure MadeFrom (made event : MatrixEvent) : Prop where
  type : event.type = made.type
  sender : event.sender = made.sender
  isBeingDecrypted : event.isBeingDecrypted = made.isBeingDecrypted
  serverReplaceTs : event.serverReplaceTs = made.serverReplaceTs
  redacts : ∀ id, event.redacts = some id → made.redacts = some id
  shows : event.localRedactionEvent.isSome → event.isRedacted

/-- What redacting an event takes away. -/
structure Unredacted (made event : MatrixEvent) : Prop where
  content : event.content = made.content
  relatesTo : event.relatesTo = made.relatesTo
  redacts : event.redacts = made.redacts

variable {event : String → MatrixEvent} {held received : String → Prop} {st st' : RelationsState}
  {e y : String} {f : MatrixEvent → MatrixEvent}

/-- No redaction of the event has been received while it was in the timeline. -/
def Intact (event : String → MatrixEvent) (received : String → Prop) (st : RelationsState)
    (e : String) : Prop :=
  e ∉ st.timeline ∨ ∀ r, received r → redactsOf event r ≠ some e

/-- What is said of the events one by one, of those that are held and those that have been
received. -/
structure SetInv (event : String → MatrixEvent) (held received : String → Prop)
    (st : RelationsState) : Prop where
  good : Good st
  made : ∀ e, MadeFrom (event e) (st.event e)
  data : ∀ e, Intact event received st e → Unredacted (event e) (st.event e)
  has : ∀ e k, Has st k e → held e

/-- A relation that is held and not redacted is in its container. -/
def Contained (held : String → Prop) (st : RelationsState) (e : String) : Prop :=
  held e → (st.event e).isRedacted = false → (st.event e).isBeingDecrypted = false →
    ∀ relation, (st.event e).getRelation = some relation →
      Has st ⟨relation.eventId, relation.relType, (st.event e).type⟩ e

theorem SetInv.mono {held' received' : String → Prop} (h : SetInv event held received st)
    (hheld : ∀ e, held e → held' e) (hreceived : ∀ r, received r → received' r) :
    SetInv event held' received' st :=
  ⟨h.good, h.made,
    fun e hnot => h.data e (hnot.imp_right fun hnot r hr => hnot r (hreceived r hr)),
    fun e k hhas => hheld e (h.has e k hhas)⟩

theorem Contained.mono {held' : String → Prop} (h : Contained held st e)
    (hheld : held' e → held e) : Contained held' st e :=
  fun hh => h (hheld hh)

theorem MadeFrom.replaced {made ev : MatrixEvent} (h : MadeFrom made ev) (new : Option String) :
    MadeFrom made { ev with replacingEvent := new } :=
  ⟨h.type, h.sender, h.isBeingDecrypted, h.serverReplaceTs, h.redacts, h.shows⟩

theorem Unredacted.replaced {made ev : MatrixEvent} (h : Unredacted made ev)
    (new : Option String) : Unredacted made { ev with replacingEvent := new } :=
  ⟨h.content, h.relatesTo, h.redacts⟩

/-! ## One change -/

/-- An event that does not change differs in what replaces it. -/
theorem OnlyReplaced.of_ne
    (h : OnlyReplaced (Function.update st.event y (f (st.event y))) st'.event) (hne : e ≠ y) :
    ∃ new, st'.event e = { st.event e with replacingEvent := new } := by
  obtain ⟨new, hnew⟩ := h e
  rw [Function.update_of_ne hne] at hnew
  exact ⟨new, hnew⟩

theorem OnlyReplaced.self
    (h : OnlyReplaced (Function.update st.event y (f (st.event y))) st'.event) :
    ∃ new, st'.event y = { f (st.event y) with replacingEvent := new } := by
  obtain ⟨new, hnew⟩ := h y
  rw [Function.update_self] at hnew
  exact ⟨new, hnew⟩

/-- One event changes in a way that what is said of it is true of it still. -/
theorem SetInv.change (h : SetInv event held received st) (hgood : Good st')
    (hevent : OnlyReplaced (Function.update st.event y (f (st.event y))) st'.event)
    (htimeline : ∀ e ∈ st.timeline, e ∈ st'.timeline) (hmade : MadeFrom (event y) (f (st.event y)))
    (hdata : Intact event received st y → Unredacted (event y) (f (st.event y)))
    (hhas : ∀ e k, Has st' k e → held e) : SetInv event held received st' := by
  refine ⟨hgood, fun e => ?_, fun e hnot => ?_, hhas⟩
  · by_cases he : e = y
    · obtain ⟨new, hnew⟩ := hevent.self
      rw [he, hnew]
      exact hmade.replaced new
    · obtain ⟨new, hnew⟩ := hevent.of_ne he
      rw [hnew]
      exact (h.made e).replaced new
  · have hintact : Intact event received st e := hnot.imp_left fun hnot hmem => hnot (htimeline e hmem)
    by_cases he : e = y
    · obtain ⟨new, hnew⟩ := hevent.self
      rw [he] at hintact ⊢
      rw [hnew]
      exact (hdata hintact).replaced new
    · obtain ⟨new, hnew⟩ := hevent.of_ne he
      rw [hnew]
      exact (h.data e hintact).replaced new

/-- What is held and not redacted stays in its container if it does not change. -/
theorem Contained.change (hc : Contained held st e)
    (hevent : OnlyReplaced (Function.update st.event y (f (st.event y))) st'.event) (hne : e ≠ y)
    (hhas : ∀ k, Has st k e → Has st' k e) : Contained held st' e := by
  obtain ⟨new, hnew⟩ := hevent.of_ne hne
  intro hheld hredacted hdecrypted relation hrelation
  rw [hnew] at hredacted hdecrypted hrelation ⊢
  exact hhas _ (hc hheld hredacted hdecrypted relation hrelation)

/-- The event changes, but not in what it is contained by. -/
theorem Contained.change_self (hc : Contained held st y)
    (hevent : OnlyReplaced (Function.update st.event y (f (st.event y))) st'.event)
    (hredacted : (f (st.event y)).isRedacted = false → (st.event y).isRedacted = false)
    (hdecrypted : (f (st.event y)).isBeingDecrypted = (st.event y).isBeingDecrypted)
    (hrelation : (f (st.event y)).getRelation = (st.event y).getRelation)
    (htype : (f (st.event y)).type = (st.event y).type) (hhas : ∀ k, Has st k y → Has st' k y) :
    Contained held st' y := by
  obtain ⟨new, hnew⟩ := hevent.self
  intro hheld hredacted' hdecrypted' relation hrelation'
  rw [hnew] at hredacted' hdecrypted' hrelation' ⊢
  have hhas' := hc hheld (hredacted hredacted') (hdecrypted ▸ hdecrypted') relation
    (hrelation ▸ hrelation')
  rw [htype]
  exact hhas _ hhas'

/-! ## Looking up what is redacted -/

theorem find?_eq (l : List String) (id : String) :
    l.find? (· = id) = if id ∈ l then some id else none := by
  split
  next hmem =>
    cases hfind : l.find? (· = id) with
    | none => exact absurd (decide_eq_true rfl) (List.find?_eq_none.1 hfind id hmem)
    | some x =>
      have hx := List.find?_some hfind
      rw [of_decide_eq_true hx]
  next hnot =>
    refine List.find?_eq_none.2 fun x hx heq => hnot ?_
    rw [← of_decide_eq_true heq]
    exact hx

theorem redactsOf_eq (h : SetInv event held received st) (hnot : Intact event received st e) :
    redactsOf st.event e = redactsOf event e := by
  unfold redactsOf MatrixEvent.isRedaction
  rw [(h.made e).type, (h.data e hnot).redacts]

/-- A redaction that has been redacted redacts nothing any more. -/
theorem redactsOf_le (h : SetInv event held received st) (hx : redactsOf st.event e = some y) :
    redactsOf event e = some y := by
  unfold redactsOf MatrixEvent.isRedaction at hx ⊢
  rw [(h.made e).type] at hx
  split at hx
  next hredaction => rw [if_pos hredaction, (h.made e).redacts y hx]
  next => exact nomatch hx

/-- The statuses are as they were, and the events that are redacted are those that were, and `who`. -/
structure Redacts (st st' : RelationsState) (who : String → Prop) : Prop where
  timeline : st'.timeline = st.timeline
  status : ∀ x, (st'.event x).status = (st.event x).status
  redacted : ∀ x, (st'.event x).isRedacted ↔ (st.event x).isRedacted ∨ who x
  others : ∀ x, ¬ who x → ∃ new, st'.event x = { st.event x with replacingEvent := new }

theorem Redacts.none (st : RelationsState) {who : String → Prop} (hwho : ∀ x, ¬ who x) :
    Redacts st st who :=
  ⟨rfl, fun _ => rfl, fun x => (or_iff_left (hwho x)).symm, fun _ _ => ⟨_, rfl⟩⟩

/-- One event is redacted. -/
theorem redacts_one {who : String → Prop} (heffect : Effect y f st st') (hwho : ∀ x, who x ↔ x = y)
    (hstatus : (f (st.event y)).status = (st.event y).status)
    (hredacted : (f (st.event y)).isRedacted) : Redacts st st' who := by
  refine ⟨heffect.timeline, fun x => ?_, fun x => ?_, fun x hx => ?_⟩
  · by_cases hx : x = y
    · obtain ⟨new, hnew⟩ := heffect.event.self
      rw [hx, hnew]
      exact hstatus
    · obtain ⟨new, hnew⟩ := heffect.event.of_ne hx
      rw [hnew]
  · rw [hwho]
    by_cases hx : x = y
    · obtain ⟨new, hnew⟩ := heffect.event.self
      rw [hx, hnew]
      exact iff_of_true hredacted (.inr rfl)
    · obtain ⟨new, hnew⟩ := heffect.event.of_ne hx
      rw [hnew]
      exact (or_iff_left hx).symm
  · exact heffect.event.of_ne fun heq => hx ((hwho x).2 heq)

/-- One event is redacted, which no container has then. -/
theorem SetInv.redact (h : SetInv event held received st) (heffect : Effect y f st st')
    (hnone : InNone st' y) (hredacted : (f (st.event y)).isRedacted)
    (hmade : MadeFrom (event y) (f (st.event y)))
    (hdata : Intact event received st y → Unredacted (event y) (f (st.event y))) :
    SetInv event held received st' ∧ ∀ e, Contained held st e → Contained held st' e := by
  refine ⟨h.change heffect.good heffect.event (fun x hx => heffect.timeline.symm ▸ hx) hmade hdata
    fun e k hhas => ?_, fun e hc => ?_⟩
  · by_cases he : e = y
    · obtain ⟨r, hr, hmem⟩ := hhas
      exact absurd (he ▸ hmem) (hnone k r hr)
    · exact h.has e k ((heffect.others e k he).1 hhas)
  · by_cases he : e = y
    · obtain ⟨new, hnew⟩ := heffect.event.self
      intro _ hnot
      rw [he, hnew] at hnot
      exact absurd hredacted (by rw [Bool.not_eq_true]; exact hnot)
    · exact hc.change heffect.event he fun k => (heffect.others e k he).2

/-- **A pending redaction** is applied. -/
theorem redactLocally_spec {pending : List String} (h : SetInv event held received st)
    (heq : st.redactLocally pending e = some st') :
    SetInv event held received st' ∧ (∀ e, Contained held st e → Contained held st' e) ∧
      Redacts st st' fun x => redactsOf st.event e = some x ∧ (x ∈ pending ∨ x ∈ st.timeline) := by
  unfold RelationsState.redactLocally at heq
  by_cases hredaction : (st.event e).isRedaction
  · have hof : redactsOf st.event e = (st.event e).redacts := if_pos hredaction
    rw [if_pos hredaction, ← hof] at heq
    cases hredacts : redactsOf st.event e with
    | none =>
      rw [hredacts] at heq
      obtain rfl := Option.some.inj heq
      exact ⟨h, fun _ hc => hc, .none st fun x hx => nomatch hx.1⟩
    | some id =>
      rw [hredacts] at heq
      by_cases hthere : id ∈ pending ∨ id ∈ st.timeline
      · have hfind : (pending.find? (· = id)).or (st.findEventById id) = some id := by
          rw [findEventById, find?_eq, find?_eq]
          by_cases hmem : id ∈ pending
          · rw [if_pos hmem]
            rfl
          · rw [if_neg hmem, if_pos (hthere.resolve_left hmem)]
            rfl
        rw [Option.bind_some, hfind] at heq
        dsimp only at heq
        have hwho : ∀ x, (some id = some x ∧ (x ∈ pending ∨ x ∈ st.timeline)) ↔ x = id := by
          intro x
          constructor
          · exact fun hx => (Option.some.inj hx.1).symm
          · rintro rfl
            exact ⟨rfl, hthere⟩
        obtain ⟨st₁, hok, ⟨hlocal, rfl⟩ | ⟨hlocal, heffect, hnone⟩⟩ :=
          h.good.markLocallyRedacted id e
        · -- it is locally redacted already
          rw [hok] at heq
          obtain rfl := Option.some.inj heq
          refine ⟨h, fun _ hc => hc, rfl, fun _ => rfl, fun x => ?_, fun _ _ => ⟨_, rfl⟩⟩
          rw [hwho]
          refine (or_iff_left_of_imp fun hx => ?_).symm
          rw [hx]
          exact (h.made id).shows hlocal
        · rw [hok] at heq
          obtain rfl := Option.some.inj heq
          obtain ⟨hset, hcontained⟩ := h.redact heffect hnone rfl
            ⟨(h.made id).type, (h.made id).sender, (h.made id).isBeingDecrypted,
              (h.made id).serverReplaceTs, (h.made id).redacts, fun _ => rfl⟩
            fun hnot => ⟨(h.data id hnot).content, (h.data id hnot).relatesTo,
              (h.data id hnot).redacts⟩
          exact ⟨hset, hcontained, redacts_one heffect hwho rfl rfl⟩
      · have hfind : (pending.find? (· = id)).or (st.findEventById id) = none := by
          rw [not_or] at hthere
          rw [findEventById, find?_eq, find?_eq, if_neg hthere.1, if_neg hthere.2]
          rfl
        rw [Option.bind_some, hfind] at heq
        obtain rfl := Option.some.inj heq
        refine ⟨h, fun _ hc => hc, .none st fun x hx => hthere ?_⟩
        rw [Option.some.inj hx.1]
        exact hx.2
  · have hof : redactsOf st.event e = none := if_neg hredaction
    rw [if_neg hredaction] at heq
    obtain rfl := Option.some.inj heq
    refine ⟨h, fun _ hc => hc, .none st fun x hx => ?_⟩
    rw [hof] at hx
    exact nomatch hx.1

/-- **A redaction that is received** is applied. -/
theorem redactReceived_spec (h : SetInv event held received st) (he : received e)
    (heq : st.redactReceived e = some st') :
    SetInv event held received st' ∧ (∀ e, Contained held st e → Contained held st' e) ∧
      Redacts st st' fun x => redactsOf st.event e = some x ∧ x ∈ st.timeline := by
  unfold RelationsState.redactReceived at heq
  by_cases hredaction : (st.event e).isRedaction
  · have hof : redactsOf st.event e = (st.event e).redacts := if_pos hredaction
    rw [if_pos hredaction, ← hof] at heq
    cases hredacts : redactsOf st.event e with
    | none =>
      rw [hredacts] at heq
      obtain rfl := Option.some.inj heq
      exact ⟨h, fun _ hc => hc, .none st fun x hx => nomatch hx.1⟩
    | some id =>
      rw [hredacts, Option.bind_some, findEventById, find?_eq] at heq
      by_cases hthere : id ∈ st.timeline
      · rw [if_pos hthere] at heq
        dsimp only at heq
        have hwho : ∀ x, (some id = some x ∧ x ∈ st.timeline) ↔ x = id := by
          intro x
          constructor
          · exact fun hx => (Option.some.inj hx.1).symm
          · rintro rfl
            exact ⟨rfl, hthere⟩
        obtain ⟨st₁, hok, heffect, hnone⟩ := h.good.makeRedacted id e
        rw [hok] at heq
        obtain rfl := Option.some.inj heq
        obtain ⟨hset, hcontained⟩ := h.redact heffect hnone rfl
          ⟨(h.made id).type, (h.made id).sender, (h.made id).isBeingDecrypted,
            (h.made id).serverReplaceTs, fun _ hredacts => (nomatch hredacts), fun _ => rfl⟩
          fun hnot => hnot.elim (absurd hthere) fun hnot =>
            absurd (redactsOf_le h hredacts) (hnot e he)
        exact ⟨hset, hcontained, redacts_one heffect hwho rfl rfl⟩
      · rw [if_neg hthere] at heq
        obtain rfl := Option.some.inj heq
        refine ⟨h, fun _ hc => hc, .none st fun x hx => hthere ?_⟩
        rw [Option.some.inj hx.1]
        exact hx.2
  · have hof : redactsOf st.event e = none := if_neg hredaction
    rw [if_neg hredaction] at heq
    obtain rfl := Option.some.inj heq
    refine ⟨h, fun _ hc => hc, .none st fun x hx => ?_⟩
    rw [hof] at hx
    exact nomatch hx.1

/-! ## Aggregating, and joining the timeline -/

/-- **An event that is held is aggregated.** -/
theorem aggregateRelations_set (h : SetInv event held received st) (he : held e)
    (hstatus : (st.event e).status ≠ some .cancelled) (heq : st.aggregateRelations e = .ok st') :
    SetInv event held received st' ∧ (∀ y, y ≠ e → Contained held st y → Contained held st' y) ∧
      Contained held st' e ∧ OnlyReplaced st.event st'.event ∧ st'.timeline = st.timeline := by
  have haggregates := aggregates_of_ok h.good.inv heq
  have heffect := h.good.aggregates haggregates
  refine ⟨h.change heffect.good heffect.event (fun x hx => heffect.timeline.symm ▸ hx) (h.made e)
      (h.data e) fun y k hhas => ?_,
    fun y hy hc => hc.change heffect.event hy fun k => (heffect.others y k hy).2,
    fun _ hredacted hdecrypted relation hrelation => ?_, heffect.onlyReplaced, heffect.timeline⟩
  · by_cases hy : y = e
    · exact hy ▸ he
    · exact h.has y k ((heffect.others y k hy).1 hhas)
  · obtain ⟨new, hnew⟩ := heffect.onlyReplaced e
    rw [hnew] at hredacted hdecrypted hrelation ⊢
    exact haggregates.has hredacted hstatus hdecrypted hrelation

/-- An event joins the timeline. -/
theorem addEventToTimeline_set (h : SetInv event held received st) (he : held e)
    (hstatus : (st.event e).status ≠ some .cancelled) (heq : st.addEventToTimeline e = .ok st') :
    SetInv event held received st' ∧ (∀ y, y ≠ e → Contained held st y → Contained held st' y) ∧
      Contained held st' e ∧ OnlyReplaced st.event st'.event ∧
      st'.timeline = st.timeline ++ [e] := by
  obtain ⟨hgood, honly, htimeline, hhas⟩ := h.good.join e
  have heq' : ({ st with timeline := st.timeline ++ [e] }.setRelationsTarget e).aggregateRelations e =
      .ok st' := heq
  generalize { st with timeline := st.timeline ++ [e] }.setRelationsTarget e = st₁ at *
  have hsame : OnlyReplaced (Function.update st.event e (id (st.event e))) st₁.event := by
    rw [id, Function.update_eq_self]
    exact honly
  have hset : SetInv event held received st₁ := h.change hgood hsame
    (fun x hx => htimeline.symm ▸ List.mem_append_left _ hx) (h.made e) (h.data e)
    fun y k hy => h.has y k ((hhas y k).1 hy)
  have hstatus₁ : (st₁.event e).status ≠ some .cancelled := by
    obtain ⟨new, hnew⟩ := honly e
    rw [hnew]
    exact hstatus
  obtain ⟨hset', hothers, hself, honly', htimeline'⟩ :=
    aggregateRelations_set hset he hstatus₁ heq'
  refine ⟨hset', fun y hy hc => hothers y hy ?_, hself, honly.trans honly',
    htimeline'.trans htimeline⟩
  exact hc.change hsame hy fun k => (hhas y k).2

/-- An event is added to the timeline if it is not there. -/
theorem addOnce_set (h : SetInv event held received st) (he : held e)
    (hc : ∀ y, y ≠ e → Contained held st y) (hself : e ∈ st.timeline → Contained held st e)
    (hstatus : (st.event e).status ≠ some .cancelled) (heq : st.addOnce e = some st') :
    SetInv event held received st' ∧ (∀ y, Contained held st' y) ∧
      OnlyReplaced st.event st'.event ∧
      st'.timeline = if e ∈ st.timeline then st.timeline else st.timeline ++ [e] := by
  unfold RelationsState.addOnce at heq
  split at heq
  next hmem =>
    obtain rfl := Option.some.inj heq
    refine ⟨h, fun y => ?_, .refl _, (if_pos hmem).symm⟩
    by_cases hy : y = e
    · exact hy ▸ hself hmem
    · exact hc y hy
  next hnot =>
    cases hadd : st.addEventToTimeline e with
    | error err =>
      rw [hadd] at heq
      exact nomatch heq
    | ok st₁ =>
      rw [hadd] at heq
      obtain rfl := Option.some.inj heq
      obtain ⟨hset, hothers, hself, honly, htimeline⟩ := addEventToTimeline_set h he hstatus hadd
      refine ⟨hset, fun y => ?_, honly, htimeline.trans (if_neg hnot).symm⟩
      by_cases hy : y = e
      · exact hy ▸ hself
      · exact hothers y hy (hc y hy)

/-! ## The status -/

/-- The status of an event that is being sent changes. -/
theorem setStatus_set {status : Option EventStatus} (h : SetInv event held received st)
    (hsending : (st.event e).isSending) (heq : st.setStatus e status = .ok st') :
    SetInv event held received st' ∧ (∀ y, y ≠ e → Contained held st y → Contained held st' y) ∧
      (status ≠ some .cancelled → Contained held st e → Contained held st' e) ∧
      (status = some .cancelled → InNone st' e) ∧
      OnlyReplaced (Function.update st.event e { st.event e with status := status }) st'.event ∧
      st'.timeline = st.timeline := by
  obtain ⟨st₁, hok, heffect, hnone, hsame⟩ := h.good.setStatus hsending status
  obtain rfl : st₁ = st' := Except.ok.inj (hok.symm.trans heq)
  have hmade := h.made e
  refine ⟨h.change (f := fun event => { event with status := status }) heffect.good heffect.event
    (fun x hx => heffect.timeline.symm ▸ hx)
    ⟨hmade.type, hmade.sender, hmade.isBeingDecrypted, hmade.serverReplaceTs, hmade.redacts,
      hmade.shows⟩
    (fun hnot => ⟨(h.data e hnot).content, (h.data e hnot).relatesTo, (h.data e hnot).redacts⟩)
    fun y k hhas => ?_, fun y hy hc => hc.change (f := fun event => { event with status := status })
      heffect.event hy fun k => (heffect.others y k hy).2,
    fun hne hc => ?_, hnone, heffect.event, heffect.timeline⟩
  · by_cases hy : y = e
    · by_cases hcancelled : status = some .cancelled
      · obtain ⟨r, hr, hmem⟩ := hhas
        exact absurd (hy ▸ hmem) (hnone hcancelled k r hr)
      · refine h.has y k ?_
        obtain ⟨r, hr, hmem⟩ := hhas
        exact ⟨r, hsame hcancelled ▸ hr, hmem⟩
    · exact h.has y k ((heffect.others y k hy).1 hhas)
  · refine hc.change_self (f := fun event => { event with status := status }) heffect.event
      (fun hr => hr) rfl rfl rfl fun k hhas => ?_
    unfold Has
    rw [hsame hne]
    exact hhas

/-! ## Cancelling a redaction -/

/-- **A local redaction is cancelled.** Its target is looked up in the timeline. -/
theorem revertRedactionLocalEcho_spec (h : SetInv event held received st)
    (hc : ∀ y, Contained held st y) (hheld : ∀ x ∈ st.timeline, held x)
    (hstatus : ∀ x ∈ st.timeline, (st.event x).status ≠ some .cancelled)
    (heq : st.revertRedactionLocalEcho e = some st') :
    SetInv event held received st' ∧ (∀ y, Contained held st' y) ∧ st'.timeline = st.timeline ∧
      (∀ x, (st'.event x).status = (st.event x).status) ∧
      (∀ x, (st'.event x).isRedacted ↔ (st.event x).isRedacted ∧
        ¬((st.event e).redacts = some x ∧ x ∈ st.timeline)) := by
  have hnothing : (∀ x, ¬((st.event e).redacts = some x ∧ x ∈ st.timeline)) →
      SetInv event held received st ∧ (∀ y, Contained held st y) ∧ st.timeline = st.timeline ∧
        (∀ x, (st.event x).status = (st.event x).status) ∧
        (∀ x, (st.event x).isRedacted ↔ (st.event x).isRedacted ∧
          ¬((st.event e).redacts = some x ∧ x ∈ st.timeline)) :=
    fun hnone => ⟨h, hc, rfl, fun _ => rfl, fun x => (and_iff_left (hnone x)).symm⟩
  unfold RelationsState.revertRedactionLocalEcho at heq
  cases hredacts : (st.event e).redacts with
  | none =>
    rw [hredacts] at heq
    obtain rfl := Option.some.inj heq
    exact hredacts ▸ hnothing fun x hx => nomatch hredacts.symm.trans hx.1
  | some id =>
    rw [hredacts, Option.bind_some, findEventById, find?_eq] at heq
    by_cases hthere : id ∈ st.timeline
    · rw [if_pos hthere] at heq
      dsimp only at heq
      -- it is not redacted any more
      generalize hst₁ : st.unmarkLocallyRedacted id = st₁ at heq
      have hevent : st₁.event = Function.update st.event id (st.event id).unmarkLocallyRedacted := by
        rw [← hst₁]
        rfl
      have hself : st₁.event id = (st.event id).unmarkLocallyRedacted := by
        rw [hevent, Function.update_self]
      have honly : OnlyReplaced
          (Function.update st.event id (st.event id).unmarkLocallyRedacted) st₁.event :=
        hevent ▸ .refl _
      have hhas : ∀ y k, Has st₁ k y ↔ Has st k y := by
        intro y k
        rw [← hst₁]
        rfl
      have hset : SetInv event held received st₁ := by
        refine h.change (hst₁ ▸ h.good.unmarkLocallyRedacted id) honly
          (fun x hx => hst₁ ▸ hx)
          ⟨(h.made id).type, (h.made id).sender, (h.made id).isBeingDecrypted,
            (h.made id).serverReplaceTs, (h.made id).redacts, fun hlocal => nomatch hlocal⟩
          (fun hnot => ⟨(h.data id hnot).content, (h.data id hnot).relatesTo,
            (h.data id hnot).redacts⟩) fun y k hy => h.has y k ((hhas y k).1 hy)
      have hothers : ∀ y, y ≠ id → Contained held st₁ y :=
        fun y hy => (hc y).change (f := MatrixEvent.unmarkLocallyRedacted) honly hy
          fun k => (hhas y k).2
      have hcancelled : (st₁.event id).status ≠ some .cancelled := by
        rw [hself]
        exact hstatus id hthere
      have hwho : ∀ x, (some id = some x ∧ x ∈ st.timeline) ↔ x = id := by
        intro x
        constructor
        · exact fun hx => (Option.some.inj hx.1).symm
        · rintro rfl
          exact ⟨rfl, hthere⟩
      have hredacted : ∀ x, (st₁.event x).isRedacted ↔ (st.event x).isRedacted ∧
          ¬(some id = some x ∧ x ∈ st.timeline) := by
        intro x
        rw [hwho]
        by_cases hx : x = id
        · rw [hx, hself]
          exact iff_of_false (fun hr => nomatch hr) fun hr => hr.2 rfl
        · rw [hevent, Function.update_of_ne hx]
          exact (and_iff_left hx).symm
      have hsame : ∀ x, (st₁.event x).status = (st.event x).status := by
        intro x
        by_cases hx : x = id
        · rw [hx, hself]
          rfl
        · rw [hevent, Function.update_of_ne hx]
      have htimeline : st₁.timeline = st.timeline := by
        rw [← hst₁]
        rfl
      split at heq
      next hrelation =>
        -- a relation goes back into its container
        cases hadd : st₁.aggregateRelations id with
        | error err =>
          rw [hadd] at heq
          exact nomatch heq
        | ok st₂ =>
          rw [hadd] at heq
          obtain rfl := Option.some.inj heq
          obtain ⟨hset₂, hothers₂, hself₂, honly₂, htimeline₂⟩ :=
            aggregateRelations_set hset (hheld id hthere) hcancelled hadd
          refine ⟨hset₂, fun y => ?_, htimeline₂.trans htimeline, fun x => ?_, fun x => ?_⟩
          · by_cases hy : y = id
            · exact hy ▸ hself₂
            · exact hothers₂ y hy (hothers y hy)
          · obtain ⟨new, hnew⟩ := honly₂ x
            rw [hnew]
            exact hsame x
          · obtain ⟨new, hnew⟩ := honly₂ x
            rw [hnew]
            exact hredacted x
      next hrelation =>
        obtain rfl := Option.some.inj heq
        refine ⟨hset, fun y => ?_, htimeline, hsame, hredacted⟩
        by_cases hy : y = id
        · intro _ _ _ relation hrel
          rw [hy] at hrel
          exact absurd (by rw [hrel]; rfl) hrelation
        · exact hothers y hy
    · rw [if_neg hthere] at heq
      obtain rfl := Option.some.inj heq
      refine hredacts ▸ hnothing fun x hx => hthere ?_
      rw [Option.some.inj (hredacts.symm.trans hx.1)]
      exact hx.2

end MatrixSdk.Models
