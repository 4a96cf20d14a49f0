/-
What the calls on an event and its timeline set do ([`RelationsState.Effect`]).

They keep the containers as they should be: those of annotations have grouped the relations they
have, and no container has an event that is redacted or cancelled ([`RelationsState.Good`]).
-/
import MatrixSdk.Models.RelationsInvariant

set_option autoImplicit false

namespace MatrixSdk.Models

open MatrixSdk.Lib

namespace RelationsState

variable {st st' : RelationsState} {e : String}

/-! ## What a call about an annotation leaves alone -/

def Annotates (event : MatrixEvent) : Prop :=
  ∃ relation, event.getRelation = some relation ∧ relation.relType = "m.annotation"

/-- Nothing is changed but the containers of annotations, and who listens. -/
structure ChangesTables (st st' : RelationsState) : Prop where
  event : st'.event = st.event
  timeline : st'.timeline = st.timeline
  relations : ∀ k, k.relationType ≠ "m.annotation" → st'.relations k = st.relations k

theorem ChangesTables.refl (st : RelationsState) : ChangesTables st st :=
  ⟨rfl, rfl, fun _ _ => rfl⟩

theorem ChangesTables.trans {st st' st'' : RelationsState} (h : ChangesTables st st')
    (h' : ChangesTables st' st'') : ChangesTables st st'' :=
  ⟨h'.event.trans h.event, h'.timeline.trans h.timeline,
    fun k hk => (h'.relations k hk).trans (h.relations k hk)⟩

theorem changesTables_setRelations (st : RelationsState) {k : RelationsKey}
    (hk : k.relationType = "m.annotation") (r : Relations) :
    ChangesTables st (st.setRelations k r) :=
  ⟨rfl, rfl, fun _ hk' => Function.update_of_ne (fun heq => hk' (by rw [heq, hk])) ..⟩

theorem changesTables_update (st : RelationsState) {k : RelationsKey}
    (hk : k.relationType = "m.annotation") (r : Relations) : ChangesTables st (st.update k r) := by
  have hne : k.relationType ≠ "m.replace" := by
    rw [hk]
    decide
  rw [update, if_neg hne]
  exact changesTables_setRelations st hk r

/-- The event is changed afterwards as it would have been before. -/
theorem ChangesTables.modify (h : ChangesTables st st') (f : MatrixEvent → MatrixEvent) :
    ChangesTables (st.setEvent e (f (st.event e))) (st'.setEvent e (f (st'.event e))) := by
  refine ⟨?_, h.timeline, h.relations⟩
  unfold RelationsState.setEvent
  rw [h.event]

theorem setEvent_self (st : RelationsState) (e : String) : st.setEvent e (st.event e) = st := by
  unfold RelationsState.setEvent
  rw [Function.update_eq_self]

theorem setEvent_setEvent (st : RelationsState) (e : String) (ev ev' : MatrixEvent) :
    (st.setEvent e ev).setEvent e ev' = st.setEvent e ev' := by
  unfold RelationsState.setEvent
  rw [Function.update_idem]

/-! ## Good states -/

/-- **The containers are as they should be.** -/
structure Good (st : RelationsState) : Prop where
  inv : Inv st
  current : ∀ e, Current st e

theorem Annotates.of_eq {event event' : MatrixEvent} (h : Annotates event)
    (heq : event'.getRelation = event.getRelation) : Annotates event' := by
  obtain ⟨relation, hrelation, htype⟩ := h
  exact ⟨relation, heq.trans hrelation, htype⟩

/-- An event is changed, but what it is current by only if no container has it. -/
theorem Good.setEvent (h : Good st) {ev : MatrixEvent}
    (hev : InNone st e ∨ (ev.getRelation = (st.event e).getRelation ∧ ev.sender = (st.event e).sender ∧
      ((st.event e).isRedacted = false → ev.isRedacted = false) ∧
      ((st.event e).status ≠ some .cancelled → ev.status ≠ some .cancelled) ∧
      (ev.isSending → (st.event e).isSending ∧ ev.type = (st.event e).type))) :
    Good (st.setEvent e ev) := by
  have hof : ∀ e', e' ≠ e → (st.setEvent e ev).event e' = st.event e' :=
    fun e' he' => Function.update_of_ne he' ..
  have hself : (st.setEvent e ev).event e = ev := Function.update_self ..
  have hsame : ∀ k r, st.relations k = some r → ∀ e' ∈ r.relations,
      ((st.setEvent e ev).event e').getRelation = (st.event e').getRelation ∧
        ((st.setEvent e ev).event e').sender = (st.event e').sender := by
    intro k r hr e' he'
    by_cases heq : e' = e
    · rw [heq, hself]
      rcases hev with hnone | hev
      · exact absurd (heq ▸ he') (hnone k r hr)
      · exact ⟨hev.1, hev.2.1⟩
    · rw [hof e' heq]
      exact ⟨rfl, rfl⟩
  refine ⟨⟨h.inv.nodup, h.inv.listens, fun k r hr e' he' => ?_, fun k r hk hr => ?_⟩,
    fun e' k r hr he' => ?_⟩
  · rw [(hsame k r hr e' he').1]
    exact h.inv.relation k r hr e' he'
  · refine (h.inv.grouped k r hk hr).congr (fun e' he' => ?_) fun e' he' => (hsame k r hr e' he').2
    rw [annotationKey, annotationKey, (hsame k r hr e' he').1]
  · obtain ⟨hredacted, hstatus, hhears⟩ := h.current e' k r hr he'
    by_cases heq : e' = e
    · rw [heq, hself]
      rcases hev with hnone | ⟨-, -, hredacted', hstatus', hsending⟩
      · exact absurd (heq ▸ he') (hnone k r hr)
      · rw [heq] at hredacted hstatus hhears
        refine ⟨hredacted' hredacted, hstatus' hstatus, fun hs => ?_⟩
        obtain ⟨hs, htype⟩ := hsending hs
        rw [htype]
        exact hhears hs
    · rw [hof e' heq]
      exact ⟨hredacted, hstatus, hhears⟩

/-- Only who listens for what, or waits, changes. -/
theorem Good.listeners (h : Good st) (hevent : st'.event = st.event)
    (hrelations : st'.relations = st.relations)
    (hbefore : st'.onBeforeRedaction = st.onBeforeRedaction)
    (hstatus : ∀ e, (st.event e).isSending → st'.onStatus e = st.onStatus e) : Good st' := by
  refine ⟨h.inv.sameRelations hrelations (fun e k hk => by rw [hbefore]; exact hk)
    (hevent ▸ .refl _), fun e k r hr he => ?_⟩
  rw [hrelations] at hr
  rw [hevent]
  obtain ⟨hredacted, hcancelled, hhears⟩ := h.current e k r hr he
  refine ⟨hredacted, hcancelled, fun hsending => ?_⟩
  rw [hstatus e hsending]
  exact hhears hsending

/-- What a call about the event `e` does that makes `f` of it. -/
structure Effect (e : String) (f : MatrixEvent → MatrixEvent) (st st' : RelationsState) : Prop where
  good : Good st'
  event : OnlyReplaced (Function.update st.event e (f (st.event e))) st'.event
  timeline : st'.timeline = st.timeline
  others : ∀ e' k, e' ≠ e → (Has st' k e' ↔ Has st k e')
  tables : Annotates (st.event e) → ChangesTables (st.setEvent e (f (st.event e))) st'

theorem Effect.refl (h : Good st) (e : String) : Effect e id st st := by
  refine ⟨h, ?_, rfl, fun _ _ _ => .rfl, fun _ => ?_⟩
  · rw [id, Function.update_eq_self]
    exact .refl _
  · rw [id, setEvent_self]
    exact .refl st

/-- Nothing is made of the event itself. -/
theorem Effect.onlyReplaced (h : Effect e id st st') : OnlyReplaced st.event st'.event := by
  have hevent := h.event
  rwa [id, Function.update_eq_self] at hevent

/-- What is made of an event does not depend on what replaces it. -/
def IgnoresReplaced (f : MatrixEvent → MatrixEvent) : Prop :=
  ∀ event new, ∃ new', f { event with replacingEvent := new } =
    { f event with replacingEvent := new' }

/-- An event that no container has is changed at last. -/
theorem Effect.setEvent {f g : MatrixEvent → MatrixEvent} (h : Effect e f st st')
    (hnone : InNone st' e) (hg : IgnoresReplaced g) :
    Effect e (g ∘ f) st (st'.setEvent e (g (st'.event e))) := by
  refine ⟨h.good.setEvent (.inl hnone), fun e' => ?_, h.timeline, h.others, fun ha => ?_⟩
  · by_cases he : e' = e
    · obtain ⟨new, hnew⟩ := h.event e
      obtain ⟨new', hnew'⟩ := hg (f (st.event e)) new
      rw [Function.update_self] at hnew
      refine ⟨new', ?_⟩
      rw [he, RelationsState.setEvent]
      dsimp only
      rw [Function.update_self, Function.update_self, hnew, hnew']
      rfl
    · obtain ⟨new, hnew⟩ := h.event e'
      refine ⟨new, ?_⟩
      rw [RelationsState.setEvent]
      dsimp only
      rw [Function.update_of_ne he] at hnew ⊢
      rw [hnew, Function.update_of_ne he]
  · have htables := (h.tables ha).modify (e := e) g
    rw [setEvent_setEvent] at htables
    have hself : (st.setEvent e (f (st.event e))).event e = f (st.event e) :=
      Function.update_self ..
    rw [hself] at htables
    exact htables

/-! ### Aggregating -/

theorem withContainer_listeners (st : RelationsState) (k : RelationsKey) :
    (st.withContainer k).onStatus = st.onStatus ∧ (st.withContainer k).timeline = st.timeline := by
  unfold withContainer
  split <;> exact ⟨rfl, rfl⟩

theorem Good.withContainer (h : Good st) (k : RelationsKey) : Good (st.withContainer k) := by
  refine ⟨h.inv.withContainer, fun e k' r hr he => ?_⟩
  rw [withContainer_event, (withContainer_listeners st k).1]
  rcases withContainer_get hr with hr | ⟨-, -, rfl⟩
  · exact h.current e k' r hr he
  · exact absurd he List.not_mem_nil

theorem has_withContainer (st : RelationsState) (k k' : RelationsKey) (e : String) :
    Has (st.withContainer k) k' e ↔ Has st k' e := by
  constructor
  · rintro ⟨r, hr, he⟩
    rcases withContainer_get hr with hr | ⟨-, -, rfl⟩
    · exact ⟨r, hr, he⟩
    · exact absurd he List.not_mem_nil
  · rintro ⟨r, hr, he⟩
    refine ⟨r, ?_, he⟩
    unfold RelationsState.withContainer
    split
    · exact hr
    next hnone =>
      have hne : k' ≠ k := by
        rintro rfl
        rw [hr] at hnone
        exact hnone rfl
      exact (Function.update_of_ne hne ..).trans hr

theorem has_adds {st : RelationsState} {k k' : RelationsKey} {e e' : String} {r r' : Relations}
    (h : Adds st k e r r') :
    Has ((st.listen k e).update k r') k' e' ↔ (k' = k ∧ e' = e) ∨ Has st k' e' := by
  rw [has_update, h.relations, List.mem_append, List.mem_singleton]
  constructor
  · rintro (⟨rfl, hmem | rfl⟩ | ⟨-, hhas⟩)
    · exact .inr ⟨r, h.container, hmem⟩
    · exact .inl ⟨rfl, rfl⟩
    · exact .inr hhas
  · rintro (⟨rfl, rfl⟩ | hhas)
    · exact .inl ⟨rfl, .inr rfl⟩
    · by_cases hk : k' = k
      · obtain ⟨r'', hr'', he⟩ := hhas
        rw [hk, h.container] at hr''
        exact .inl ⟨hk, .inl (Option.some.inj hr'' ▸ he)⟩
      · exact .inr ⟨hk, hhas⟩

/-- **Aggregating.** -/
theorem Good.aggregates (h : Good st) (haggregates : Aggregates st e st') :
    Effect e id st st' := by
  cases haggregates with
  | kept => exact .refl h e
  | waits =>
    refine ⟨h.listeners rfl rfl rfl fun _ _ => rfl, ?_, rfl, fun _ _ _ => .rfl, fun _ => ?_⟩
    · rw [id, Function.update_eq_self]
      exact .refl _
    · rw [id, setEvent_self]
      exact ⟨rfl, rfl, fun _ _ => rfl⟩
  | adds relation r r' hredacted hstatus hrelation hadds =>
    generalize hk : (⟨relation.eventId, relation.relType, (st.event e).type⟩ : RelationsKey) = k
      at hadds ⊢
    have hevent := withContainer_event st k
    obtain ⟨-, htimeline⟩ := withContainer_listeners st k
    have hwith := h.withContainer k
    refine ⟨⟨hwith.inv.adds hadds, fun e' => ?_⟩, ?_, htimeline ▸ update_timeline,
      fun e' k' he' => ?_, ?_⟩
    · exact (hwith.current e').adds hadds (by rw [hevent]; exact hredacted)
        (by rw [hevent]; exact hstatus) (by rw [hevent, ← hk])
    · rw [id, Function.update_eq_self, ← hevent]
      exact onlyReplaced_update ((st.withContainer k).listen k e) k r'
    · rw [has_adds hadds, has_withContainer]
      exact or_iff_right fun heq => he' heq.2
    · rintro ⟨relation', hrelation', htype⟩
      obtain rfl : relation = relation' := Option.some.inj (hrelation.symm.trans hrelation')
      have hkType : k.relationType = "m.annotation" := by
        rw [← hk]
        exact htype
      have hcontainer : ChangesTables st (st.withContainer k) := by
        unfold RelationsState.withContainer
        split
        · exact .refl st
        · exact changesTables_setRelations st hkType _
      have hlisten : ChangesTables st ((st.withContainer k).listen k e) :=
        ⟨hcontainer.event, hcontainer.timeline, hcontainer.relations⟩
      rw [id, setEvent_self]
      exact hlisten.trans (changesTables_update _ hkType r')

/-- An event that is current, and not waited for, is in its container afterwards. -/
theorem Aggregates.has {relation : RelatesTo} (h : Aggregates st e st')
    (hredacted : (st.event e).isRedacted = false) (hstatus : (st.event e).status ≠ some .cancelled)
    (hwaits : (st.event e).isBeingDecrypted = false)
    (hrelation : (st.event e).getRelation = some relation) :
    Has st' ⟨relation.eventId, relation.relType, (st.event e).type⟩ e := by
  cases h with
  | kept h =>
    rcases h with h | h | h | ⟨relation', r, hrelation', hr, he⟩
    · exact absurd h (by rw [hredacted]; exact Bool.false_ne_true)
    · exact absurd h hstatus
    · exact nomatch h.symm.trans hrelation
    · obtain rfl : relation' = relation := Option.some.inj (hrelation'.symm.trans hrelation)
      exact ⟨r, hr, he⟩
  | waits h => exact absurd h (by rw [hwaits]; exact Bool.false_ne_true)
  | adds relation' r r' _ _ hrelation' hadds =>
    obtain rfl : relation' = relation := Option.some.inj (hrelation'.symm.trans hrelation)
    exact (has_adds hadds).2 (.inl ⟨rfl, rfl⟩)

theorem WellNamed.of_onlyReplaced (h : WellNamed (st.event e))
    (honly : OnlyReplaced st.event st'.event) : WellNamed (st'.event e) := by
  obtain ⟨new, hnew⟩ := honly e
  rw [hnew]
  exact h

theorem Annotates.of_onlyReplaced (h : Annotates (st.event e))
    (honly : OnlyReplaced st.event st'.event) : Annotates (st'.event e) :=
  h.of_eq (honly.sameRelations e).1

/-- One call on the event follows another one that makes nothing of it. -/
theorem Effect.trans {st'' : RelationsState} {f : MatrixEvent → MatrixEvent}
    (h : Effect e id st st') (h' : Effect e f st' st'') (hf : IgnoresReplaced f) :
    Effect e f st st'' := by
  have honly := h.onlyReplaced
  refine ⟨h'.good, fun e' => ?_, h'.timeline.trans h.timeline,
    fun e' k he' => (h'.others e' k he').trans (h.others e' k he'), fun ha => ?_⟩
  · obtain ⟨new, hnew⟩ := honly e'
    obtain ⟨new', hnew'⟩ := h'.event e'
    refine ⟨new', hnew'.trans ?_⟩
    by_cases he : e' = e
    · rw [he] at hnew ⊢
      obtain ⟨new'', hnew''⟩ := hf (st.event e) new
      rw [Function.update_self, Function.update_self, hnew, hnew'']
    · rw [Function.update_of_ne he, Function.update_of_ne he, hnew]
  · have htables := h.tables ha
    rw [id, setEvent_self] at htables
    have hevent := congrFun htables.event e
    exact (htables.modify f).trans (h'.tables (by rw [hevent]; exact ha))

theorem ignoresReplaced_id : IgnoresReplaced id := fun _ new => ⟨new, rfl⟩

/-- Those that wait for the event to be decrypted aggregate it one after the other. -/
theorem Good.foldlM_aggregateRelations (waiting : List ℕ) :
    ∀ {st : RelationsState}, Good st → WellNamed (st.event e) →
      ∃ st', waiting.foldlM (fun st _ => st.aggregateRelations e) st = .ok st' ∧
        Effect e id st st' := by
  induction waiting with
  | nil => exact fun h _ => ⟨_, rfl, .refl h e⟩
  | cons _ waiting ih =>
    intro st h hnamed
    obtain ⟨st₁, heq, haggregates⟩ := aggregateRelations_spec h.inv hnamed
    have heffect := h.aggregates haggregates
    obtain ⟨st₂, heq₂, heffect₂⟩ := ih heffect.good (hnamed.of_onlyReplaced heffect.onlyReplaced)
    refine ⟨st₂, ?_, heffect.trans heffect₂ ignoresReplaced_id⟩
    rw [List.foldlM_cons, heq]
    exact heq₂

/-! ### Redacting -/

/-- The containers tell who has been taken out. -/
theorem Removes.others (h : Removes e st st') (e' : String) (k : RelationsKey) (hne : e' ≠ e) :
    Has st' k e' ↔ Has st k e' :=
  ⟨h.has e' k, h.keeps e' k hne⟩

/-- What is taken out of the containers of an annotation is in a container of annotations. -/
theorem TakesOut.annotates {k : RelationsKey} {r r' : Relations} (hI : Inv st')
    (hremoves : Removes e st st') (htakes : TakesOut st' k e r r') (ha : Annotates (st.event e)) :
    k.relationType = "m.annotation" := by
  obtain ⟨relation, hrelation, htype⟩ := ha
  obtain ⟨relation', hrelation', htype'⟩ := hI.relation k r htakes.container e htakes.mem
  rw [(hremoves.event.sameRelations e).1, hrelation] at hrelation'
  rw [← htype', ← Option.some.inj hrelation', htype]

/-- **The event is about to be redacted.** -/
theorem Good.emitBeforeRedaction (h : Good st) (e : String) :
    ∃ st', st.emitBeforeRedaction e = .ok st' ∧ Effect e id st st' ∧ InNone st' e := by
  have hstep : ∀ {st₁ : RelationsState} {k : RelationsKey} {r r' : Relations}, Inv st₁ →
      (Removes e st st₁ ∧ (Annotates (st.event e) → ChangesTables st st₁)) →
      TakesOut st₁ k e r r' → Removes e st ((st₁.update k r').ignore k e) ∧
        (Annotates (st.event e) → ChangesTables st ((st₁.update k r').ignore k e)) := by
    rintro st₁ k r r' hI ⟨hremoves, htables⟩ htakes
    obtain ⟨hevent, htimeline, hhas, hkeeps, hon⟩ := hremoves.takesOut htakes
    refine ⟨⟨hevent, htimeline, hhas, hkeeps, hon⟩, fun ha => ?_⟩
    obtain ⟨hevent, htimeline, hother⟩ :=
      (htables ha).trans (changesTables_update st₁ (htakes.annotates hI hremoves ha) r')
    exact ⟨hevent, htimeline, hother⟩
  obtain ⟨st', heq, hI, ⟨hremoves, htables⟩, hnone⟩ :=
    emitBeforeRedaction_spec h.inv ⟨Removes.refl e st, fun _ => .refl st⟩ hstep
  refine ⟨st', heq, ⟨⟨hI, fun e' => ?_⟩, ?_, hremoves.timeline, hremoves.others, fun ha => ?_⟩, hnone⟩
  · by_cases he : e' = e
    · exact he ▸ hnone.current
    · exact (h.current e').removes he hremoves
  · rw [id, Function.update_eq_self]
    exact hremoves.event
  · rw [id, setEvent_self]
    exact htables ha

/-- What `markLocallyRedacted` makes of an event. -/
def markedBy (redactionEvent : String) (event : MatrixEvent) : MatrixEvent :=
  { event with localRedactionEvent := some redactionEvent, redactedBecause := some redactionEvent }

theorem Good.markLocallyRedacted (h : Good st) (e redactionEvent : String) :
    ∃ st', st.markLocallyRedacted e redactionEvent = .ok st' ∧
      ((st.event e).localRedactionEvent.isSome ∧ st' = st ∨
        (st.event e).localRedactionEvent = none ∧ Effect e (markedBy redactionEvent) st st' ∧
          InNone st' e) := by
  unfold RelationsState.markLocallyRedacted
  split
  next hlocal => exact ⟨st, rfl, .inl ⟨hlocal, rfl⟩⟩
  next hlocal =>
    obtain ⟨st', heq, heffect, hnone⟩ := h.emitBeforeRedaction e
    rw [heq]
    exact ⟨_, rfl, .inr ⟨Option.not_isSome_iff_eq_none.1 hlocal,
      heffect.setEvent (g := markedBy redactionEvent) hnone fun _ new => ⟨new, rfl⟩, hnone⟩⟩

theorem Good.unmarkLocallyRedacted (h : Good st) (e : String) :
    Good (st.unmarkLocallyRedacted e) :=
  h.setEvent (.inr ⟨rfl, rfl, fun _ => rfl, fun hs => hs, fun hs => ⟨hs, rfl⟩⟩)

/-- What `makeRedacted` makes of an event. -/
def redactedBy (redactionEvent : String) (event : MatrixEvent) : MatrixEvent :=
  { event with localRedactionEvent := none }.redactedBy redactionEvent

theorem Good.makeRedacted (h : Good st) (e redactionEvent : String) :
    ∃ st', st.makeRedacted e redactionEvent = .ok st' ∧
      Effect e (redactedBy redactionEvent) st st' ∧ InNone st' e := by
  have hset : Good (st.setEvent e { st.event e with localRedactionEvent := none }) :=
    h.setEvent (.inr ⟨rfl, rfl, fun hr => hr, fun hs => hs, fun hs => ⟨hs, rfl⟩⟩)
  have hself : (st.setEvent e { st.event e with localRedactionEvent := none }).event e =
      { st.event e with localRedactionEvent := none } := Function.update_self ..
  obtain ⟨st', heq, heffect, hnone⟩ := hset.emitBeforeRedaction e
  obtain ⟨hgood, hevent, htimeline, hothers, htables⟩ := heffect.setEvent
    (g := fun event => event.redactedBy redactionEvent) hnone fun _ _ => ⟨none, rfl⟩
  unfold RelationsState.makeRedacted
  rw [heq]
  refine ⟨_, rfl, ⟨hgood, ?_, htimeline, hothers, fun ha => ?_⟩, hnone⟩
  · rw [hself] at hevent
    change OnlyReplaced (Function.update (Function.update st.event e _) e _) _ at hevent
    rw [Function.update_idem] at hevent
    exact hevent
  · have htables := htables (ha.of_eq (by rw [hself]; rfl))
    rw [hself, setEvent_setEvent] at htables
    exact htables

/-! ### Changing the status -/

theorem foldl_offStatus (ks : List RelationsKey) :
    ∀ st : RelationsState, ∃ onStatus : String → List RelationsKey,
      (∀ e', e' ≠ e → onStatus e' = st.onStatus e') ∧
        ks.foldl (fun st k => st.offStatus k e) st = { st with onStatus := onStatus } := by
  induction ks with
  | nil => exact fun st => ⟨st.onStatus, fun _ _ => rfl, rfl⟩
  | cons k ks ih =>
    intro st
    obtain ⟨onStatus, hother, heq⟩ := ih (st.offStatus k e)
    exact ⟨onStatus, fun e' he' => (hother e' he').trans (Function.update_of_ne he' ..), heq⟩

/-- An event that is being sent is cancelled. -/
theorem Good.setStatus_cancelled (h : Good st) (hsending : (st.event e).isSending) :
    ∃ st', st.setStatus e (some .cancelled) = .ok st' ∧
      Effect e (fun event => { event with status := some .cancelled }) st st' ∧ InNone st' e := by
  unfold RelationsState.setStatus
  generalize hst₁ : st.setEvent e { st.event e with status := some .cancelled } = st₁
  have hself : (st₁.event e) = { st.event e with status := some .cancelled } := by
    rw [← hst₁]
    exact Function.update_self ..
  have hrelations : st₁.relations = st.relations := by rw [← hst₁]; rfl
  have hI : Inv st₁ := by
    rw [← hst₁]
    exact h.inv.setEvent rfl rfl
  have hother : ∀ e', e' ≠ e → Current st₁ e' := by
    intro e' he' k r hr hmem
    have hof : st₁.event e' = st.event e' := by
      rw [← hst₁]
      exact Function.update_of_ne he' ..
    rw [hrelations] at hr
    rw [hof, ← hst₁]
    exact h.current e' k r hr hmem
  have hstep : ∀ {st₂ : RelationsState} {k : RelationsKey} {r r' : Relations}, Inv st₂ →
      (Removes e st₁ st₂ ∧ (Annotates (st₁.event e) → ChangesTables st₁ st₂)) →
      TakesOut st₂ k e r r' → Removes e st₁ (st₂.update k r') ∧
        (Annotates (st₁.event e) → ChangesTables st₁ (st₂.update k r')) := by
    rintro st₂ k r r' hI₂ ⟨hremoves, htables⟩ htakes
    exact ⟨hremoves.takesOut htakes, fun ha =>
      (htables ha).trans (changesTables_update st₂ (htakes.annotates hI₂ hremoves ha) r')⟩
  -- the containers that have it listen for its status, and have it by its type
  have hlisten : ∀ k r, st₁.relations k = some r → e ∈ r.relations →
      k ∈ st.onStatus e ∧ k.eventType = (st₁.event e).type := by
    intro k r hr he
    rw [hrelations] at hr
    rw [hself]
    exact (h.current e k r hr he).2.2 hsending
  obtain ⟨st', heq, hI', ⟨hremoves, htables⟩, hnone⟩ :=
    foldlM_onEventStatus_cancelled (e := e)
      (P := fun st₂ => Removes e st₁ st₂ ∧ (Annotates (st₁.event e) → ChangesTables st₁ st₂))
      (fun h => ⟨h.1.offStatus, fun ha => (h.2 ha).trans ⟨rfl, rfl, fun _ _ => rfl⟩⟩)
      hstep (st.onStatus e) hI ⟨.refl e st₁, fun _ => .refl st₁⟩ (by rw [hself]) hlisten
  refine ⟨st', heq, ⟨⟨hI', fun e' => ?_⟩, ?_, ?_, fun e' k he' => ?_, fun ha => ?_⟩, hnone⟩
  · by_cases he : e' = e
    · exact he ▸ hnone.current
    · exact (hother e' he).removes he hremoves
  · rw [← hst₁] at hremoves
    exact hremoves.event
  · rw [hremoves.timeline, ← hst₁]
    rfl
  · rw [hremoves.others e' k he']
    unfold Has
    rw [hrelations]
  · rw [hst₁]
    exact htables (ha.of_eq (by rw [hself]; rfl))

/-- **The status of an event that is being sent changes.** -/
theorem Good.setStatus (h : Good st) (hsending : (st.event e).isSending)
    (status : Option EventStatus) :
    ∃ st', st.setStatus e status = .ok st' ∧
      Effect e (fun event => { event with status := status }) st st' ∧
      (status = some .cancelled → InNone st' e) ∧
      (status ≠ some .cancelled → st'.relations = st.relations) := by
  by_cases hcancelled : status = some .cancelled
  · obtain ⟨st', heq, heffect, hnone⟩ := h.setStatus_cancelled hsending
    rw [hcancelled]
    exact ⟨st', heq, heffect, fun _ => hnone, fun hne => absurd rfl hne⟩
  have hgood : Good (st.setEvent e { st.event e with status := status }) :=
    h.setEvent (.inr ⟨rfl, rfl, fun hr => hr, fun _ => hcancelled, fun _ => ⟨hsending, rfl⟩⟩)
  have hself : (st.setEvent e { st.event e with status := status }).event e =
      { st.event e with status := status } := Function.update_self ..
  unfold RelationsState.setStatus
  by_cases hsending' : ((st.setEvent e { st.event e with status := status }).event e).isSending
  · rw [foldlM_onEventStatus_sending hcancelled hsending']
    exact ⟨_, rfl, ⟨hgood, .refl _, rfl, fun _ _ _ => .rfl, fun _ => .refl _⟩,
      fun heq => absurd heq hcancelled, fun _ => rfl⟩
  · rw [foldlM_onEventStatus_sent status _ (Bool.eq_false_iff.2 hsending')]
    obtain ⟨onStatus, hother, heq⟩ := foldl_offStatus (e := e) (st.onStatus e)
      (st.setEvent e { st.event e with status := status })
    rw [heq]
    refine ⟨_, rfl, ⟨hgood.listeners rfl rfl rfl fun e' hs => ?_, .refl _, rfl,
      fun _ _ _ => .rfl, fun _ => ⟨rfl, rfl, fun _ _ => rfl⟩⟩,
      fun heq => absurd heq hcancelled, fun _ => rfl⟩
    exact hother e' fun he => hsending' (he ▸ hs)

/-! ### Joining the timeline -/

/-- The containers have what they have had, and what is different is a target or what replaces
an event. -/
structure Retargets (st st' : RelationsState) : Prop where
  good : Good st'
  event : OnlyReplaced st.event st'.event
  timeline : st'.timeline = st.timeline
  has : ∀ e k, Has st' k e ↔ Has st k e

theorem Retargets.refl (h : Good st) : Retargets st st :=
  ⟨h, .refl _, rfl, fun _ _ => .rfl⟩

/-- A container is given a target. -/
theorem Good.setTargetEvent (h : Good st) (k : RelationsKey) (target : String) :
    Retargets st (st.setTargetEvent k target) := by
  unfold RelationsState.setTargetEvent
  split
  · exact .refl h
  next r hr =>
    split
    · exact .refl h
    next =>
      have hhas : ∀ e k', Has (st.setRelations k { r with targetEvent := some target }) k' e ↔
          Has st k' e := by
        intro e k'
        unfold Has RelationsState.setRelations
        by_cases hk : k' = k
        · simp only [hk, Function.update_self, hr]
          constructor
          · rintro ⟨r', hr', he⟩
            exact ⟨r, rfl, by rw [← Option.some.inj hr'] at he; exact he⟩
          · rintro ⟨r', hr', he⟩
            exact ⟨_, rfl, Option.some.inj hr' ▸ he⟩
        · simp only [Function.update_of_ne hk]
      have hset : Good (st.setRelations k { r with targetEvent := some target }) := by
        have hget : ∀ k' r', (st.setRelations k { r with targetEvent := some target }).relations k' =
            some r' → ∃ r₀, st.relations k' = some r₀ ∧
              r' = { r₀ with targetEvent := r'.targetEvent } := by
          intro k' r' hr'
          simp only [RelationsState.setRelations] at hr'
          by_cases hk : k' = k
          · rw [hk, Function.update_self] at hr'
            obtain rfl := (Option.some.inj hr').symm
            exact ⟨r, hk ▸ hr, rfl⟩
          · rw [Function.update_of_ne hk] at hr'
            exact ⟨r', hr', rfl⟩
        refine ⟨⟨fun k' r' hr' => ?_, fun k' r' hr' => ?_, fun k' r' hr' => ?_,
          fun k' r' hk' hr' => ?_⟩, fun e k' r' hr' he => ?_⟩
        · obtain ⟨r₀, hr₀, heq⟩ := hget k' r' hr'
          exact heq ▸ h.inv.nodup k' r₀ hr₀
        · obtain ⟨r₀, hr₀, heq⟩ := hget k' r' hr'
          exact heq ▸ h.inv.listens k' r₀ hr₀
        · obtain ⟨r₀, hr₀, heq⟩ := hget k' r' hr'
          exact heq ▸ h.inv.relation k' r₀ hr₀
        · obtain ⟨r₀, hr₀, heq⟩ := hget k' r' hr'
          exact heq ▸ (h.inv.grouped k' r₀ hk' hr₀).setTarget _
        · obtain ⟨r₀, hr₀, heq⟩ := hget k' r' hr'
          rw [heq] at he
          exact h.current e k' r₀ hr₀ he
      dsimp only
      split
      · split
        · exact ⟨hset, .refl _, rfl, hhas⟩
        next replacement _ =>
          obtain ⟨new, hnew⟩ : ∃ new,
              ((st.setRelations k { r with targetEvent := some target }).event target).makeReplaced
                (some replacement) = { st.event target with replacingEvent := new } := by
            unfold MatrixEvent.makeReplaced
            split <;> exact ⟨_, rfl⟩
          refine ⟨hset.setEvent (.inr ?_), fun e => ?_, rfl, hhas⟩
          · rw [hnew]
            exact ⟨rfl, rfl, fun hr => hr, fun hs => hs, fun hs => ⟨hs, rfl⟩⟩
          · by_cases he : e = target
            · exact ⟨new, by rw [he]; exact (Function.update_self ..).trans hnew⟩
            · exact ⟨_, Function.update_of_ne he ..⟩
      · exact ⟨hset, .refl _, rfl, hhas⟩

/-- An event joins the timeline, and is the target of its replacements. -/
theorem Good.join (h : Good st) (e : String) :
    Good ({ st with timeline := st.timeline ++ [e] }.setRelationsTarget e) ∧
      OnlyReplaced st.event ({ st with timeline := st.timeline ++ [e] }.setRelationsTarget e).event ∧
      ({ st with timeline := st.timeline ++ [e] }.setRelationsTarget e).timeline =
        st.timeline ++ [e] ∧
      ∀ e' k, Has ({ st with timeline := st.timeline ++ [e] }.setRelationsTarget e) k e' ↔
        Has st k e' := by
  have hjoined : Good { st with timeline := st.timeline ++ [e] } :=
    h.listeners rfl rfl rfl fun _ _ => rfl
  obtain ⟨hgood, hevent, htimeline, hhas⟩ :=
    hjoined.setTargetEvent ⟨e, "m.replace", "m.room.message"⟩ e
  exact ⟨hgood, hevent, htimeline, hhas⟩

end RelationsState

end MatrixSdk.Models
