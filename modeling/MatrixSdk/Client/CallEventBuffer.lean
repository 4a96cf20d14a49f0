/-
The events of calls on their way to the handler: `setupCallEventHandler` of `client.js`, with the
decryption of `models/event.js`.

Events are put in a buffer, which is gone through when a sync is complete, so that an invite is
not rung for when the call has been answered or hung up in the same sync. An event that is being
decrypted holds the buffer up; one that could not be decrypted is handled by itself once it is.

The handler is a parameter here. Every event of a call is to reach it once, see [`HandledOnce`],
and [`Inv.step`] says when a step keeps that: an event that makes the handler throw stays in the
buffer with all others, and the listener that waits for an event to be decrypted is gone after the
first failure.
-/
import MatrixSdk.Lib.JsObject
import MatrixSdk.Lib.System
import Mathlib.Data.List.Infix
import Mathlib.Data.Nat.Notation

set_option autoImplicit false

namespace MatrixSdk.Calls

open MatrixSdk.Lib

/-! ## Events -/

def callPrefix : List Char := "m.call.".toList

/-- `type.indexOf("m.call.") === 0` -/
def isCallType (type : String) : Bool := callPrefix.isPrefixOf type.toList

/-- `type.indexOf("m.call.") !== -1` -/
def mentionsCall (type : String) : Bool := type.toList.tails.any callPrefix.isPrefixOf

/-- What an event says, when it was not encrypted or has been decrypted. -/
inductive Cleartext (κ : Type*)
  | known (type : String) (content : κ)
  | encrypted
  /-- The type is m.room.message then, and the msgtype m.bad.encrypted. -/
  | decryptionFailure

structure CallEvent (κ : Type*) where
  cleartext : Cleartext κ
  isBeingDecrypted : Bool

variable {κ σ : Type*}

namespace Cleartext

def getType : Cleartext κ → String
  | .known type _ => type
  | .encrypted => "m.room.encrypted"
  | .decryptionFailure => "m.room.message"

def isDecryptionFailure : Cleartext κ → Bool
  | .decryptionFailure => true
  | _ => false

def isKnown : Cleartext κ → Bool
  | .known _ _ => true
  | _ => false

end Cleartext

/-- The event is one of a call. -/
def CallEvent.IsCall (event : CallEvent κ) : Prop := isCallType event.cleartext.getType = true

/-- `callEventHandler`: what it makes of the calls, by the type and the content of an event, and
`error` when it throws. -/
structure CallEventHandler (κ σ : Type*) where
  /-- `content.call_id`, as the key of an object. -/
  callId : κ → String
  handle : σ → String → κ → Except σ σ

/-! ## The buffer -/

/-- The events that have been received, and the buffer. How often the handler got an event of a
call, which invites were left out for an answer or a hangup, and whether a run through the buffer
was broken off, is observed. -/
structure EventBuffer (κ σ : Type*) where
  events : ℕ → Option (CallEvent κ)
  /-- The events with a listener for `Event.decrypted`. -/
  listens : ℕ → Bool
  callEventBuffer : List ℕ
  syncing : Bool
  calls : σ
  handled : ℕ → ℕ
  suppressed : ℕ → Bool
  brokenOff : Bool

namespace EventBuffer

variable (h : CallEventHandler κ σ) (s : EventBuffer κ σ)

def new (calls : σ) : EventBuffer κ σ :=
  ⟨fun _ => none, fun _ => false, [], false, calls, fun _ => 0, fun _ => false, false⟩

/-- The call that an answer or a hangup is for. -/
def endedCall (i : ℕ) : Option String :=
  match s.events i with
  | some ⟨.known type content, _⟩ =>
    if type = "m.call.answer" ∨ type = "m.call.hangup" then some (h.callId content) else none
  | _ => none

/-- `ignoreCallIds` -/
def ignoreCallIds : List String := s.callEventBuffer.filterMap (s.endedCall h)

/-- The call that an invite is for. -/
def invitedCall (i : ℕ) : Option String :=
  match s.events i with
  | some ⟨.known type content, _⟩ =>
    if type = "m.call.invite" then some (h.callId content) else none
  | _ => none

/-- "This call has previously been answered or hung up". What every object has is found, too. -/
def isIgnored (ignoreCallIds : List String) (i : ℕ) : Bool :=
  (s.invitedCall h i).any fun callId =>
    ignoreCallIds.contains callId || JsObject.inheritedNames.contains callId

/-- The invite is left out. -/
def leaveOut (ignoreCallIds : List String) (i : ℕ) : EventBuffer κ σ :=
  if (s.invitedCall h i).any ignoreCallIds.contains then
    { s with suppressed := Function.update s.suppressed i true }
  else s

/-- `callEventHandler(event)`, and whether it returns. It does nothing with an event that could
not be decrypted. -/
def callEventHandler (i : ℕ) : EventBuffer κ σ × Bool :=
  match s.events i with
  | some ⟨.known type content, _⟩ =>
    let s' := if isCallType type then
        { s with handled := Function.update s.handled i (s.handled i + 1) }
      else s
    match h.handle s.calls type content with
    | .ok calls => ({ s' with calls := calls }, true)
    | .error calls => ({ s' with calls := calls }, false)
  | _ => (s, true)

/-- "now loop through the buffer chronologically and inject them" -/
def inject (ignoreCallIds : List String) : List ℕ → EventBuffer κ σ → EventBuffer κ σ × Bool
  | [], s => (s, true)
  | i :: is, s =>
    if s.isIgnored h ignoreCallIds i then inject ignoreCallIds is (s.leaveOut h ignoreCallIds i)
    else
      match s.callEventHandler h i with
      | (s, true) => inject ignoreCallIds is s
      | (s, false) => (s, false)

/-- "don't process any events until they are all decrypted" -/
def isHeldUp : Bool :=
  s.callEventBuffer.any fun i => (s.events i).any (·.isBeingDecrypted)

def evaluateEventBuffer : EventBuffer κ σ :=
  if ¬ s.syncing then s
  else if s.isHeldUp then s
  else
    match inject h (s.ignoreCallIds h) s.callEventBuffer s with
    | (s, true) => { s with callEventBuffer := [] }
    | (s, false) => { s with brokenOff := true }

/-- `onEvent` -/
def onEvent (i : ℕ) (event : CallEvent κ) : EventBuffer κ σ :=
  { s with
    events := Function.update s.events i (some event)
    callEventBuffer :=
      if isCallType event.cleartext.getType || event.isBeingDecrypted then
        s.callEventBuffer ++ [i]
      else s.callEventBuffer
    listens := Function.update s.listens i
      (event.isBeingDecrypted || event.cleartext.isDecryptionFailure) }

/-- An attempt to decrypt the event has come to an end. -/
def setCleartext (i : ℕ) (cleartext : Cleartext κ) : EventBuffer κ σ :=
  { s with events := Function.update s.events i (some ⟨cleartext, false⟩) }

/-- The listener of an event is called, and is gone. -/
def onDecrypted (i : ℕ) (type : String) : EventBuffer κ σ :=
  if ¬ s.listens i then s
  else
    let s := { s with listens := Function.update s.listens i false }
    if ¬ mentionsCall type then s
    else if i ∈ s.callEventBuffer then s.evaluateEventBuffer h
    else (s.callEventHandler h i).1

end EventBuffer

inductive BufferEvent (κ : Type*)
  /-- The client emits an event. -/
  | event (i : ℕ) (event : CallEvent κ)
  /-- The client emits `sync`, and is syncing or not. -/
  | sync (syncing : Bool)
  | decryptionBegins (i : ℕ)
  /-- `none` for a decryption error. -/
  | decryptionEnds (i : ℕ) (result : Option (String × κ))
  /-- An error that is no decryption error; nobody is told. -/
  | decryptionThrows (i : ℕ)

/-- The decryption of an event is over. -/
def cleartextOf : Option (String × κ) → Cleartext κ
  | some (type, content) => .known type content
  | none => .decryptionFailure

/-- One stretch of code. Each event is emitted once, and not decrypted when it is known. -/
def EventBuffer.step (h : CallEventHandler κ σ) (s : EventBuffer κ σ) :
    BufferEvent κ → Option (EventBuffer κ σ)
  | .event i event =>
    if (s.events i).isSome || event.cleartext.isKnown && event.isBeingDecrypted then none
    else some (s.onEvent i event)
  | .sync syncing => some ({ s with syncing := syncing }.evaluateEventBuffer h)
  | .decryptionBegins i =>
    match s.events i with
    | none => none
    | some event =>
      if event.cleartext.isKnown || event.isBeingDecrypted then none
      else some { s with events := Function.update s.events i (some ⟨event.cleartext, true⟩) }
  | .decryptionEnds i result =>
    match s.events i with
    | none => none
    | some event =>
      if ¬ event.isBeingDecrypted then none
      else
        let cleartext := cleartextOf result
        some ((s.setCleartext i cleartext).onDecrypted h i cleartext.getType)
  | .decryptionThrows i =>
    match s.events i with
    | none => none
    | some event =>
      if ¬ event.isBeingDecrypted then none else some (s.setCleartext i event.cleartext)

/-! ## What is to hold -/

/-- **Every event of a call is handled once**: it has been, or it is an invite that was left out for
an answer or a hangup in the same buffer, or it is in the buffer, through which no run is broken
off. -/
structure HandledOnce (s : EventBuffer κ σ) : Prop where
  atMostOnce : ∀ i, s.handled i ≤ 1
  leftOut : ∀ i, s.suppressed i = true → s.handled i = 0
  notLost : ∀ i event, s.events i = some event → event.IsCall →
    s.handled i = 1 ∨ s.suppressed i = true ∨ i ∈ s.callEventBuffer
  finished : s.brokenOff = false

namespace EventBuffer

variable (h : CallEventHandler κ σ) (s : EventBuffer κ σ)

/-- None of the events makes the handler throw when it comes to it. -/
def Returns (ignoreCallIds : List String) : List ℕ → σ → Prop
  | [], _ => True
  | i :: is, calls =>
    if s.isIgnored h ignoreCallIds i then Returns ignoreCallIds is calls
    else
      match s.events i with
      | some ⟨.known type content, _⟩ =>
        ∃ calls', h.handle calls type content = .ok calls' ∧ Returns ignoreCallIds is calls'
      | _ => Returns ignoreCallIds is calls

/-- **The buffer is gone through well**: no event in it makes the handler throw, and no invite is
for a call whose id is the name of what every object has, unless the call has been answered or
hung up. -/
def GoesThrough : Prop :=
  s.syncing = true → s.isHeldUp = false →
    s.Returns h (s.ignoreCallIds h) s.callEventBuffer s.calls ∧
    ∀ i ∈ s.callEventBuffer, ∀ callId, s.invitedCall h i = some callId →
      callId ∈ JsObject.inheritedNames → callId ∈ s.ignoreCallIds h

end EventBuffer

/-- **The step loses nothing.** An event that turns out to be one of a call is in the buffer or has
its listener, and where the buffer is gone through, that goes well. -/
def LosesNothing (h : CallEventHandler κ σ) (s : EventBuffer κ σ) : BufferEvent κ → Prop
  | .sync syncing => { s with syncing := syncing }.GoesThrough h
  | .decryptionEnds i result =>
    (isCallType (cleartextOf result).getType = true →
      i ∈ s.callEventBuffer ∨ s.listens i = true) ∧
    (s.listens i = true → mentionsCall (cleartextOf result).getType = true →
      i ∈ s.callEventBuffer → (s.setCleartext i (cleartextOf result)).GoesThrough h)
  | _ => True

/-! ## Going through the buffer -/

variable {h : CallEventHandler κ σ} {s s' : EventBuffer κ σ} {i : ℕ} {event : CallEvent κ}

/-- What is remembered of an event before it is handled. -/
def Unhandled (s : EventBuffer κ σ) (i : ℕ) : Prop := s.handled i = 0 ∧ s.suppressed i = false

/-- Only what is observed, and the calls, change; of other events than these, nothing. -/
structure Injects (s s' : EventBuffer κ σ) (is : List ℕ) : Prop where
  events : s'.events = s.events
  listens : s'.listens = s.listens
  buffer : s'.callEventBuffer = s.callEventBuffer
  syncing : s'.syncing = s.syncing
  brokenOff : s'.brokenOff = s.brokenOff
  other : ∀ i, i ∉ is → s'.handled i = s.handled i ∧ s'.suppressed i = s.suppressed i

theorem Injects.refl (s : EventBuffer κ σ) (is : List ℕ) : Injects s s is :=
  ⟨rfl, rfl, rfl, rfl, rfl, fun _ _ => ⟨rfl, rfl⟩⟩

theorem Injects.trans {s'' : EventBuffer κ σ} {is : List ℕ} (h₁ : Injects s s' [i])
    (h₂ : Injects s' s'' is) : Injects s s'' (i :: is) where
  events := h₂.events.trans h₁.events
  listens := h₂.listens.trans h₁.listens
  buffer := h₂.buffer.trans h₁.buffer
  syncing := h₂.syncing.trans h₁.syncing
  brokenOff := h₂.brokenOff.trans h₁.brokenOff
  other := by
    intro j hj
    rw [List.mem_cons, not_or] at hj
    obtain ⟨hhandled, hsuppressed⟩ := h₁.other j (by rw [List.mem_singleton]; exact hj.1)
    obtain ⟨hhandled', hsuppressed'⟩ := h₂.other j hj.2
    exact ⟨hhandled'.trans hhandled, hsuppressed'.trans hsuppressed⟩

/-! What is asked of an event depends on the events only. -/

theorem invitedCall_congr (hevents : s'.events = s.events) (i : ℕ) :
    s'.invitedCall h i = s.invitedCall h i := by
  rw [EventBuffer.invitedCall, EventBuffer.invitedCall, hevents]

theorem isIgnored_congr (hevents : s'.events = s.events) (ids : List String) (i : ℕ) :
    s'.isIgnored h ids i = s.isIgnored h ids i := by
  rw [EventBuffer.isIgnored, EventBuffer.isIgnored, invitedCall_congr hevents]

theorem returns_congr (hevents : s'.events = s.events) (ids : List String) (js : List ℕ) :
    ∀ calls, s'.Returns h ids js calls ↔ s.Returns h ids js calls := by
  induction js with
  | nil => exact fun _ => Iff.rfl
  | cons j js ih =>
    intro calls
    rw [EventBuffer.Returns, EventBuffer.Returns, isIgnored_congr hevents, hevents]
    split
    · exact ih calls
    · split
      · exact exists_congr fun calls' => and_congr_right fun _ => ih calls'
      · exact ih calls

/-- An invite that is left out. -/
theorem leaveOut_spec (ids : List String) (i : ℕ) :
    Injects s (s.leaveOut h ids i) [i] ∧ (s.leaveOut h ids i).calls = s.calls ∧
      (s.leaveOut h ids i).handled = s.handled ∧
      ((s.leaveOut h ids i).suppressed i = true ↔
        s.suppressed i = true ∨ ∃ callId ∈ ids, s.invitedCall h i = some callId) := by
  have hmem : (s.invitedCall h i).any ids.contains = true ↔
      ∃ callId ∈ ids, s.invitedCall h i = some callId := by
    cases s.invitedCall h i with
    | none => exact iff_of_false Bool.false_ne_true fun ⟨_, _, hcontra⟩ => nomatch hcontra
    | some callId =>
      rw [Option.any_some, List.contains_iff_mem]
      refine ⟨fun hid => ⟨callId, hid, rfl⟩, ?_⟩
      rintro ⟨callId', hid, heq⟩
      rw [Option.some.inj heq]
      exact hid
  rw [EventBuffer.leaveOut]
  by_cases hout : (s.invitedCall h i).any ids.contains = true
  · rw [if_pos hout]
    refine ⟨⟨rfl, rfl, rfl, rfl, rfl, fun j hj => ⟨rfl, ?_⟩⟩, rfl, rfl, ?_⟩
    · exact Function.update_of_ne (fun heq => hj (List.mem_singleton.2 heq)) _ _
    · show Function.update s.suppressed i true i = true ↔ _
      rw [Function.update_self]
      exact iff_of_true rfl (.inr (hmem.1 hout))
  · rw [if_neg hout, or_iff_left fun hcontra => hout (hmem.2 hcontra)]
    exact ⟨Injects.refl s [i], rfl, rfl, Iff.rfl⟩

theorem isCallType_unknown {cleartext : Cleartext κ}
    (hcall : isCallType cleartext.getType = true) : cleartext.isKnown = true := by
  cases cleartext with
  | known type content => rfl
  | encrypted =>
    exact absurd (show isCallType "m.room.encrypted" = true from hcall) (by decide +kernel)
  | decryptionFailure =>
    exact absurd (show isCallType "m.room.message" = true from hcall) (by decide +kernel)

/-- One more time for an event of a call. -/
def timesHandled (event : CallEvent κ) : ℕ :=
  if isCallType event.cleartext.getType then 1 else 0

/-- **An event that is handled.** -/
theorem callEventHandler_spec (hevent : s.events i = some event) :
    Injects s (s.callEventHandler h i).1 [i] ∧
      (s.callEventHandler h i).1.suppressed = s.suppressed ∧
      (s.callEventHandler h i).1.handled i = s.handled i + timesHandled event := by
  obtain ⟨cleartext, decrypting⟩ := event
  cases cleartext with
  | encrypted =>
    have hnot : ¬ isCallType (Cleartext.encrypted : Cleartext κ).getType = true :=
      fun hcall => nomatch isCallType_unknown hcall
    rw [EventBuffer.callEventHandler, hevent, timesHandled, if_neg hnot]
    exact ⟨Injects.refl s [i], rfl, rfl⟩
  | decryptionFailure =>
    have hnot : ¬ isCallType (Cleartext.decryptionFailure : Cleartext κ).getType = true :=
      fun hcall => nomatch isCallType_unknown hcall
    rw [EventBuffer.callEventHandler, hevent, timesHandled, if_neg hnot]
    exact ⟨Injects.refl s [i], rfl, rfl⟩
  | known type content =>
    have hother : ∀ j, j ∉ [i] →
        Function.update s.handled i (s.handled i + 1) j = s.handled j := fun j hj =>
      Function.update_of_ne (fun heq => hj (List.mem_singleton.2 heq)) _ _
    rw [EventBuffer.callEventHandler, hevent, timesHandled, Cleartext.getType]
    dsimp only
    by_cases hcall : isCallType type = true
    · rw [if_pos hcall, if_pos hcall]
      cases h.handle s.calls type content with
      | ok calls =>
        exact ⟨⟨rfl, rfl, rfl, rfl, rfl, fun j hj => ⟨hother j hj, rfl⟩⟩, rfl,
          Function.update_self _ _ _⟩
      | error calls =>
        exact ⟨⟨rfl, rfl, rfl, rfl, rfl, fun j hj => ⟨hother j hj, rfl⟩⟩, rfl,
          Function.update_self _ _ _⟩
    · rw [if_neg hcall, if_neg hcall]
      cases h.handle s.calls type content with
      | ok calls => exact ⟨⟨rfl, rfl, rfl, rfl, rfl, fun j _ => ⟨rfl, rfl⟩⟩, rfl, rfl⟩
      | error calls => exact ⟨⟨rfl, rfl, rfl, rfl, rfl, fun j _ => ⟨rfl, rfl⟩⟩, rfl, rfl⟩

/-- The handler returns for the rest of the buffer when it returns for the first event and then for
the others. -/
theorem returns_cons {ids : List String} (is : List ℕ) (hignored : ¬ s.isIgnored h ids i = true) :
    s.Returns h ids (i :: is) s.calls ↔
      (s.callEventHandler h i).2 = true ∧ s.Returns h ids is (s.callEventHandler h i).1.calls := by
  rw [EventBuffer.Returns, if_neg hignored, EventBuffer.callEventHandler]
  cases hevent : s.events i with
  | none => exact (and_iff_right rfl).symm
  | some event =>
    obtain ⟨cleartext, decrypting⟩ := event
    cases cleartext with
    | encrypted => exact (and_iff_right rfl).symm
    | decryptionFailure => exact (and_iff_right rfl).symm
    | known type content =>
      dsimp only
      cases hhandle : h.handle s.calls type content with
      | error calls =>
        refine iff_of_false ?_ fun hcontra => nomatch hcontra.1
        rintro ⟨calls', hcontra, -⟩
        exact nomatch hcontra
      | ok calls =>
        constructor
        · rintro ⟨calls', heq, hreturns⟩
          obtain rfl := Except.ok.inj heq
          exact ⟨rfl, hreturns⟩
        · exact fun hreturns => ⟨calls, rfl, hreturns.2⟩

/-- What has become of an event that was gone through. -/
structure Injected (h : CallEventHandler κ σ) (ids : List String) (s s' : EventBuffer κ σ) (i : ℕ) :
    Prop where
  ignored : s.isIgnored h ids i = true → s'.handled i = 0 ∧
    (s'.suppressed i = true ↔ ∃ callId ∈ ids, s.invitedCall h i = some callId)
  taken : s.isIgnored h ids i = false → s'.suppressed i = false ∧
    ∀ event, s.events i = some event → s'.handled i = timesHandled event

/-- **The buffer is gone through**: to its end when the handler does not throw, and then each event
has been handled or was left out. -/
theorem inject_spec (ids : List String) (is : List ℕ) : ∀ s : EventBuffer κ σ, is.Nodup →
    (∀ i ∈ is, Unhandled s i) → (∀ i ∈ is, (s.events i).isSome) →
    Injects s (EventBuffer.inject h ids is s).1 is ∧
      ((EventBuffer.inject h ids is s).2 = true ↔ s.Returns h ids is s.calls) ∧
      ((EventBuffer.inject h ids is s).2 = true →
        ∀ i ∈ is, Injected h ids s (EventBuffer.inject h ids is s).1 i) := by
  induction is with
  | nil =>
    intro s _ _ _
    exact ⟨Injects.refl s [], iff_of_true rfl trivial, fun _ i hi => absurd hi List.not_mem_nil⟩
  | cons i is ih =>
    intro s hnodup hunhandled hthere
    obtain ⟨hi, hnodup⟩ := List.nodup_cons.1 hnodup
    obtain ⟨event, hevent⟩ := Option.isSome_iff_exists.1 (hthere i List.mem_cons_self)
    obtain ⟨hzero, hunsuppressed⟩ := hunhandled i List.mem_cons_self
    -- from the state after the first event
    have hrest : ∀ s₁, Injects s s₁ [i] →
        Injects s (EventBuffer.inject h ids is s₁).1 (i :: is) ∧
          ((EventBuffer.inject h ids is s₁).2 = true ↔ s.Returns h ids is s₁.calls) ∧
          ((EventBuffer.inject h ids is s₁).2 = true → Injected h ids s s₁ i →
            ∀ j ∈ i :: is, Injected h ids s (EventBuffer.inject h ids is s₁).1 j) := by
      intro s₁ hfirst
      obtain ⟨hinjects, hreturns, hinjected⟩ := ih s₁ hnodup (by
        intro j hj
        obtain ⟨hhandled, hsuppressed⟩ := hfirst.other j (by
          rw [List.mem_singleton]
          rintro rfl
          exact hi hj)
        rw [Unhandled, hhandled, hsuppressed]
        exact hunhandled j (List.mem_cons_of_mem i hj)) (by
        intro j hj
        rw [hfirst.events]
        exact hthere j (List.mem_cons_of_mem i hj))
      refine ⟨hfirst.trans hinjects, hreturns.trans (returns_congr hfirst.events ids is _), ?_⟩
      intro hok hdone j hj
      rcases List.mem_cons.1 hj with rfl | hj
      · obtain ⟨hhandled, hsuppressed⟩ := hinjects.other j hi
        refine ⟨?_, ?_⟩
        · rw [hhandled, hsuppressed]
          exact hdone.ignored
        · rw [hhandled, hsuppressed]
          exact hdone.taken
      · obtain ⟨hignored, htaken⟩ := hinjected hok j hj
        rw [isIgnored_congr hfirst.events, invitedCall_congr hfirst.events] at hignored
        rw [isIgnored_congr hfirst.events, hfirst.events] at htaken
        exact ⟨hignored, htaken⟩
    rw [EventBuffer.inject]
    by_cases hignored : s.isIgnored h ids i = true
    · rw [EventBuffer.Returns, if_pos hignored, if_pos hignored]
      obtain ⟨hout, hcalls, hhandled, hsuppressed⟩ := leaveOut_spec (h := h) (s := s) ids i
      obtain ⟨hinjects, hreturns, hinjected⟩ := hrest _ hout
      rw [hcalls] at hreturns
      refine ⟨hinjects, hreturns, fun hok => hinjected hok ⟨fun _ => ⟨?_, ?_⟩, fun hcontra => ?_⟩⟩
      · rw [hhandled]
        exact hzero
      · rw [hsuppressed, hunsuppressed, or_iff_right Bool.false_ne_true]
      · exact nomatch hignored.symm.trans hcontra
    · rw [if_neg hignored, returns_cons is hignored]
      obtain ⟨hone, hsuppressed, hcount⟩ := callEventHandler_spec (h := h) hevent
      obtain ⟨hinjects, hreturns, hinjected⟩ := hrest _ hone
      generalize s.callEventHandler h i = made at *
      obtain ⟨s₁, returned⟩ := made
      cases returned with
      | false =>
        dsimp only at hone ⊢
        refine ⟨⟨hone.events, hone.listens, hone.buffer, hone.syncing, hone.brokenOff, ?_⟩,
          iff_of_false Bool.false_ne_true fun hcontra => (nomatch hcontra.1),
          fun hcontra => (nomatch hcontra)⟩
        intro j hj
        rw [List.mem_cons, not_or] at hj
        exact hone.other j (by rw [List.mem_singleton]; exact hj.1)
      | true =>
        refine ⟨hinjects, hreturns.trans (and_iff_right rfl).symm, fun hok => hinjected hok
          ⟨fun hcontra => absurd hcontra hignored, fun _ => ⟨?_, fun event' hevent' => ?_⟩⟩⟩
        · exact (congrFun hsuppressed i).trans hunsuppressed
        · obtain rfl := Option.some.inj (hevent.symm.trans hevent')
          rw [hcount, hzero, Nat.zero_add]

/-! ## The invariant -/

/-- What is remembered belongs to events that have been received, and an event in the buffer is
still to be handled. -/
structure Inv (s : EventBuffer κ σ) : Prop where
  nodup : s.callEventBuffer.Nodup
  waiting : ∀ i ∈ s.callEventBuffer, Unhandled s i
  there : ∀ i ∈ s.callEventBuffer, (s.events i).isSome
  fresh : ∀ i, s.events i = none → Unhandled s i
  unknown : ∀ i event, s.events i = some event → ¬ event.IsCall → Unhandled s i
  known : ∀ i event, s.events i = some event → event.cleartext.isKnown = true →
    event.isBeingDecrypted = false

theorem Inv.new (calls : σ) : Inv (EventBuffer.new calls : EventBuffer κ σ) where
  nodup := List.nodup_nil
  waiting := fun _ hi => absurd hi List.not_mem_nil
  there := fun _ hi => absurd hi List.not_mem_nil
  fresh := fun _ _ => ⟨rfl, rfl⟩
  unknown := fun _ _ hevent => nomatch hevent
  known := fun _ _ hevent => nomatch hevent

/-- An invite is an event of a call. -/
theorem isCall_of_invitedCall {callId : String} (hinvited : s.invitedCall h i = some callId)
    (hevent : s.events i = some event) : event.IsCall := by
  rw [EventBuffer.invitedCall, hevent] at hinvited
  obtain ⟨cleartext, decrypting⟩ := event
  cases cleartext with
  | known type content =>
    dsimp only at hinvited
    split at hinvited
    next htype =>
      show isCallType type = true
      rw [htype]
      decide +kernel
    next => exact nomatch hinvited
  | encrypted => exact nomatch hinvited
  | decryptionFailure => exact nomatch hinvited

theorem isIgnored_iff {ids : List String} : s.isIgnored h ids i = true ↔
    ∃ callId, s.invitedCall h i = some callId ∧
      (callId ∈ ids ∨ callId ∈ JsObject.inheritedNames) := by
  rw [EventBuffer.isIgnored]
  cases s.invitedCall h i with
  | none => exact iff_of_false Bool.false_ne_true fun ⟨_, hcontra, _⟩ => nomatch hcontra
  | some callId =>
    rw [Option.any_some, Bool.or_eq_true, List.contains_iff_mem, List.contains_iff_mem]
    refine ⟨fun hid => ⟨callId, rfl, hid⟩, ?_⟩
    rintro ⟨callId', heq, hid⟩
    rw [Option.some.inj heq]
    exact hid

/-- When the handler has returned for all of the buffer, nothing is lost unless an invite was taken
for one that is ignored. -/
theorem handledOnce_of_injected (hinv : Inv s) (hP : HandledOnce s)
    (hinjects : Injects s s' s.callEventBuffer)
    (hinjected : ∀ i ∈ s.callEventBuffer, Injected h (s.ignoreCallIds h) s s' i) :
    (HandledOnce { s' with callEventBuffer := [] } ↔
      ∀ i ∈ s.callEventBuffer, ∀ callId, s.invitedCall h i = some callId →
        callId ∈ JsObject.inheritedNames → callId ∈ s.ignoreCallIds h) ∧
      Inv { s' with callEventBuffer := [] } := by
  refine ⟨⟨fun hdone i hi callId hinvited hname => ?_, fun hnames => ?_⟩, ?_⟩
  · have hevent := hinv.there i hi
    obtain ⟨event, hevent⟩ := Option.isSome_iff_exists.1 hevent
    obtain ⟨hhandled, hsuppressed⟩ :=
      (hinjected i hi).ignored (isIgnored_iff.2 ⟨callId, hinvited, .inr hname⟩)
    rcases hdone.notLost i event (by rw [← hevent]; exact congrFun hinjects.events i)
      (isCall_of_invitedCall hinvited hevent) with hone | hout | hmem
    · exact absurd (hhandled.symm.trans hone) Nat.zero_ne_one
    · obtain ⟨callId', hid, heq⟩ := hsuppressed.1 hout
      rw [hinvited] at heq
      rw [Option.some.inj heq]
      exact hid
    · exact absurd hmem List.not_mem_nil
  · refine ⟨fun i => ?_, fun i hout => ?_, fun i event hevent hcall => ?_, ?_⟩
    · show s'.handled i ≤ 1
      by_cases hi : i ∈ s.callEventBuffer
      · cases hignored : s.isIgnored h (s.ignoreCallIds h) i with
        | true =>
          rw [((hinjected i hi).ignored hignored).1]
          exact Nat.zero_le 1
        | false =>
          obtain ⟨event, hevent⟩ := Option.isSome_iff_exists.1 (hinv.there i hi)
          rw [((hinjected i hi).taken hignored).2 event hevent, timesHandled]
          split
          · exact Nat.le_refl 1
          · exact Nat.zero_le 1
      · rw [(hinjects.other i hi).1]
        exact hP.atMostOnce i
    · have hsuppressed : s'.suppressed i = true := hout
      show s'.handled i = 0
      by_cases hi : i ∈ s.callEventBuffer
      · cases hignored : s.isIgnored h (s.ignoreCallIds h) i with
        | true => exact ((hinjected i hi).ignored hignored).1
        | false => exact nomatch hsuppressed.symm.trans ((hinjected i hi).taken hignored).1
      · rw [(hinjects.other i hi).2] at hsuppressed
        rw [(hinjects.other i hi).1]
        exact hP.leftOut i hsuppressed
    · have hevent' : s.events i = some event := (congrFun hinjects.events i).symm.trans hevent
      show s'.handled i = 1 ∨ s'.suppressed i = true ∨ i ∈ []
      by_cases hi : i ∈ s.callEventBuffer
      · cases hignored : s.isIgnored h (s.ignoreCallIds h) i with
        | true =>
          obtain ⟨callId, hinvited, hid⟩ := isIgnored_iff.1 hignored
          refine .inr (.inl (((hinjected i hi).ignored hignored).2.2 ⟨callId, ?_, hinvited⟩))
          exact hid.elim id (hnames i hi callId hinvited)
        | false =>
          left
          rw [((hinjected i hi).taken hignored).2 event hevent', timesHandled]
          exact if_pos hcall
      · rw [(hinjects.other i hi).1, (hinjects.other i hi).2]
        rcases hP.notLost i event hevent' hcall with hone | hout | hmem
        · exact .inl hone
        · exact .inr (.inl hout)
        · exact absurd hmem hi
    · exact hinjects.brokenOff.trans hP.finished
  · refine ⟨List.nodup_nil, fun i hi => absurd hi List.not_mem_nil,
      fun i hi => absurd hi List.not_mem_nil, fun i hnone => ?_, fun i event hevent hcall => ?_,
      fun i event hevent => ?_⟩
    · have hnone' : s.events i = none := (congrFun hinjects.events i).symm.trans hnone
      have hi : i ∉ s.callEventBuffer := by
        intro hi
        exact nomatch (hnone' ▸ hinv.there i hi : (none : Option (CallEvent κ)).isSome = true)
      show s'.handled i = 0 ∧ s'.suppressed i = false
      rw [(hinjects.other i hi).1, (hinjects.other i hi).2]
      exact hinv.fresh i hnone'
    · have hevent' : s.events i = some event := (congrFun hinjects.events i).symm.trans hevent
      show s'.handled i = 0 ∧ s'.suppressed i = false
      by_cases hi : i ∈ s.callEventBuffer
      · cases hignored : s.isIgnored h (s.ignoreCallIds h) i with
        | true =>
          obtain ⟨callId, hinvited, -⟩ := isIgnored_iff.1 hignored
          exact absurd (isCall_of_invitedCall hinvited hevent') hcall
        | false =>
          obtain ⟨hsuppressed, hhandled⟩ := (hinjected i hi).taken hignored
          refine ⟨(hhandled event hevent').trans (if_neg hcall), hsuppressed⟩
      · rw [(hinjects.other i hi).1, (hinjects.other i hi).2]
        exact hinv.unknown i event hevent' hcall
    · exact hinv.known i event ((congrFun hinjects.events i).symm.trans hevent)

/-- **The evaluation of the buffer**: nothing is lost exactly when it goes through, and then all
of it is done. -/
theorem Inv.evaluateEventBuffer (hinv : Inv s) (hP : HandledOnce s) :
    (HandledOnce (s.evaluateEventBuffer h) ↔ s.GoesThrough h) ∧
      (s.GoesThrough h → Inv (s.evaluateEventBuffer h)) := by
  rw [EventBuffer.evaluateEventBuffer]
  by_cases hsyncing : s.syncing = true
  · rw [if_neg (not_not.2 hsyncing)]
    by_cases hheld : s.isHeldUp = true
    · rw [if_pos hheld]
      have hgoes : s.GoesThrough h := fun _ hcontra => nomatch hheld.symm.trans hcontra
      exact ⟨iff_of_true hP hgoes, fun _ => hinv⟩
    · rw [if_neg hheld]
      have hgoes : s.GoesThrough h ↔
          s.Returns h (s.ignoreCallIds h) s.callEventBuffer s.calls ∧
            ∀ i ∈ s.callEventBuffer, ∀ callId, s.invitedCall h i = some callId →
              callId ∈ JsObject.inheritedNames → callId ∈ s.ignoreCallIds h := by
        rw [Bool.not_eq_true] at hheld
        exact ⟨fun hgoes => hgoes hsyncing hheld, fun hgoes _ _ => hgoes⟩
      obtain ⟨hinjects, hreturns, hinjected⟩ := inject_spec (h := h) (s.ignoreCallIds h)
        s.callEventBuffer s hinv.nodup hinv.waiting hinv.there
      rw [hgoes, ← hreturns]
      generalize EventBuffer.inject h (s.ignoreCallIds h) s.callEventBuffer s = made at *
      obtain ⟨s', returned⟩ := made
      cases returned with
      | false =>
        exact ⟨iff_of_false (fun hcontra => nomatch hcontra.finished)
          fun hcontra => (nomatch hcontra.1), fun hcontra => (nomatch hcontra.1)⟩
      | true =>
        obtain ⟨hdone, hinv'⟩ := handledOnce_of_injected hinv hP hinjects (hinjected rfl)
        exact ⟨hdone.trans (and_iff_right rfl).symm, fun _ => hinv'⟩
  · rw [if_pos hsyncing]
    have hgoes : s.GoesThrough h := fun hcontra => absurd hcontra hsyncing
    exact ⟨iff_of_true hP hgoes, fun _ => hinv⟩

/-! ## Steps -/

/-- Something has been learnt of an event that has not been handled. -/
theorem Inv.learn (hinv : Inv s) (hunhandled : Unhandled s i)
    (hknown : event.cleartext.isKnown = true → event.isBeingDecrypted = false) :
    Inv { s with events := Function.update s.events i (some event) } where
  nodup := hinv.nodup
  waiting := hinv.waiting
  there := by
    intro j hj
    show (Function.update s.events i (some event) j).isSome
    by_cases hji : j = i
    · rw [hji, Function.update_self]
      rfl
    · rw [Function.update_of_ne hji]
      exact hinv.there j hj
  fresh := by
    intro j hj
    have hnone : Function.update s.events i (some event) j = none := hj
    by_cases hji : j = i
    · rw [hji, Function.update_self] at hnone
      exact nomatch hnone
    · rw [Function.update_of_ne hji] at hnone
      exact hinv.fresh j hnone
  unknown := by
    intro j event' hj hcall
    have hj : Function.update s.events i (some event) j = some event' := hj
    by_cases hji : j = i
    · rw [hji]
      exact hunhandled
    · rw [Function.update_of_ne hji] at hj
      exact hinv.unknown j event' hj hcall
  known := by
    intro j event' hj
    have hj : Function.update s.events i (some event) j = some event' := hj
    by_cases hji : j = i
    · rw [hji, Function.update_self] at hj
      rw [← Option.some.inj hj]
      exact hknown
    · rw [Function.update_of_ne hji] at hj
      exact hinv.known j event' hj

/-- Nothing is lost then, when the event is not of a call or is in the buffer. -/
theorem HandledOnce.learn_iff (hP : HandledOnce s) (hunhandled : Unhandled s i) :
    HandledOnce { s with events := Function.update s.events i (some event) } ↔
      (event.IsCall → i ∈ s.callEventBuffer) := by
  constructor
  · intro hlearnt hcall
    rcases hlearnt.notLost i event (Function.update_self _ _ _) hcall with hone | hout | hmem
    · exact absurd (hunhandled.1.symm.trans hone) Nat.zero_ne_one
    · exact nomatch hunhandled.2.symm.trans hout
    · exact hmem
  · intro hbuffer
    refine ⟨hP.atMostOnce, hP.leftOut, fun j event' hj hcall => ?_, hP.finished⟩
    have hj : Function.update s.events i (some event) j = some event' := hj
    by_cases hji : j = i
    · rw [hji, Function.update_self] at hj
      obtain rfl := Option.some.inj hj
      exact .inr (.inr (hji ▸ hbuffer hcall))
    · rw [Function.update_of_ne hji] at hj
      exact hP.notLost j event' hj hcall

/-- Nobody listens for the event any more. -/
theorem Inv.listens (hinv : Inv s) (listens : ℕ → Bool) : Inv { s with listens := listens } :=
  ⟨hinv.nodup, hinv.waiting, hinv.there, hinv.fresh, hinv.unknown, hinv.known⟩

theorem HandledOnce.listens (hP : HandledOnce s) (listens : ℕ → Bool) :
    HandledOnce { s with listens := listens } :=
  ⟨hP.atMostOnce, hP.leftOut, hP.notLost, hP.finished⟩

/-- What else happens to the calls has nothing to do with it. -/
theorem Inv.calls (hinv : Inv s) (calls : σ) : Inv { s with calls := calls } :=
  ⟨hinv.nodup, hinv.waiting, hinv.there, hinv.fresh, hinv.unknown, hinv.known⟩

theorem HandledOnce.calls (hP : HandledOnce s) (calls : σ) :
    HandledOnce { s with calls := calls } :=
  ⟨hP.atMostOnce, hP.leftOut, hP.notLost, hP.finished⟩

theorem goesThrough_listens (listens : ℕ → Bool) :
    ({ s with listens := listens } : EventBuffer κ σ).GoesThrough h ↔ s.GoesThrough h := by
  have hevents : ({ s with listens := listens } : EventBuffer κ σ).events = s.events := rfl
  have hreturns : ({ s with listens := listens } : EventBuffer κ σ).Returns h (s.ignoreCallIds h)
      s.callEventBuffer s.calls ↔ s.Returns h (s.ignoreCallIds h) s.callEventBuffer s.calls :=
    returns_congr hevents _ _ _
  exact forall_congr' fun _ => forall_congr' fun _ => and_congr_left fun _ => hreturns

/-- **An event is emitted.** -/
theorem Inv.onEvent (hinv : Inv s) (hP : HandledOnce s) (hnew : s.events i = none)
    (hknown : event.cleartext.isKnown = true → event.isBeingDecrypted = false) :
    HandledOnce (s.onEvent i event) ∧ Inv (s.onEvent i event) := by
  have hunhandled := hinv.fresh i hnew
  have hnotMem : i ∉ s.callEventBuffer := by
    intro hi
    have hthere := hinv.there i hi
    rw [hnew] at hthere
    exact nomatch hthere
  have hlearnt := hinv.learn hunhandled hknown
  have hbuffer : ∀ j, j ∈ (s.onEvent i event).callEventBuffer → j = i ∨ j ∈ s.callEventBuffer := by
    intro j hj
    rw [EventBuffer.onEvent] at hj
    dsimp only at hj
    split at hj
    · rcases List.mem_append.1 hj with hj | hj
      · exact .inr hj
      · exact .inl (List.mem_singleton.1 hj)
    · exact .inr hj
  refine ⟨⟨hP.atMostOnce, hP.leftOut, fun j event' hj hcall => ?_, hP.finished⟩, ?_, fun j hj => ?_,
    fun j hj => ?_, hlearnt.fresh, hlearnt.unknown, hlearnt.known⟩
  · have hj : Function.update s.events i (some event) j = some event' := hj
    have hkept : j ∈ s.callEventBuffer → j ∈ (s.onEvent i event).callEventBuffer := by
      intro hmem
      rw [EventBuffer.onEvent]
      split
      · exact List.mem_append_left _ hmem
      · exact hmem
    by_cases hji : j = i
    · rw [hji, Function.update_self] at hj
      obtain rfl := Option.some.inj hj
      refine .inr (.inr ?_)
      have hcall : isCallType event.cleartext.getType = true := hcall
      rw [hji, EventBuffer.onEvent, hcall]
      exact List.mem_append_right _ (List.mem_singleton_self i)
    · rw [Function.update_of_ne hji] at hj
      rcases hP.notLost j event' hj hcall with hone | hout | hmem
      · exact .inl hone
      · exact .inr (.inl hout)
      · exact .inr (.inr (hkept hmem))
  · rw [EventBuffer.onEvent]
    split
    · rw [List.nodup_append']
      refine ⟨hinv.nodup, List.nodup_singleton i, fun j hj hj' => ?_⟩
      exact hnotMem (List.mem_singleton.1 hj' ▸ hj)
    · exact hinv.nodup
  · rcases hbuffer j hj with rfl | hmem
    · exact hunhandled
    · exact hinv.waiting j hmem
  · rcases hbuffer j hj with rfl | hmem
    · show (Function.update s.events j (some event) j).isSome
      rw [Function.update_self]
      rfl
    · exact hlearnt.there j hmem

/-- A type that begins so mentions it. -/
theorem mentionsCall_of_isCallType {type : String} (hcall : isCallType type = true) :
    mentionsCall type = true :=
  List.any_eq_true.2 ⟨type.toList, (List.mem_tails _ _).2 (List.suffix_refl _), hcall⟩

/-- The handler gets an event that was not in the buffer. -/
theorem handle_alone (hinv : Inv s) (hP : HandledOnce s) (hunhandled : Unhandled s i)
    (hbuffer : i ∉ s.callEventBuffer)
    (hknown : event.cleartext.isKnown = true → event.isBeingDecrypted = false) :
    HandledOnce ({ s with
      events := Function.update s.events i (some event) }.callEventHandler h i).1 ∧
      Inv ({ s with
        events := Function.update s.events i (some event) }.callEventHandler h i).1 := by
  have hlearnt := hinv.learn hunhandled hknown
  obtain ⟨hinjects, hsuppressed, hhandled⟩ := callEventHandler_spec (h := h)
    (s := { s with events := Function.update s.events i (some event) }) (i := i)
    (Function.update_self _ _ _)
  generalize EventBuffer.callEventHandler h { s with
    events := Function.update s.events i (some event) } i = made at *
  obtain ⟨s', returned⟩ := made
  dsimp only at hinjects hsuppressed hhandled ⊢
  rw [hunhandled.1, Nat.zero_add] at hhandled
  have hother : ∀ j, j ≠ i → s'.handled j = s.handled j ∧ s'.suppressed j = s.suppressed j :=
    fun j hj => hinjects.other j (by rw [List.mem_singleton]; exact hj)
  have hevents : ∀ j event', s'.events j = some event' →
      Function.update s.events i (some event) j = some event' :=
    fun j event' hj => (congrFun hinjects.events j).symm.trans hj
  refine ⟨⟨fun j => ?_, fun j hout => ?_, fun j event' hj hcall => ?_, ?_⟩, ?_, fun j hj => ?_,
    fun j hj => ?_, fun j hj => ?_, fun j event' hj hcall => ?_, fun j event' hj => ?_⟩
  · by_cases hji : j = i
    · rw [hji, hhandled, timesHandled]
      split
      · exact Nat.le_refl 1
      · exact Nat.zero_le 1
    · rw [(hother j hji).1]
      exact hP.atMostOnce j
  · rw [hsuppressed] at hout
    have hji : j ≠ i := by
      rintro rfl
      exact nomatch hunhandled.2.symm.trans hout
    rw [(hother j hji).1]
    exact hP.leftOut j hout
  · have hj := hevents j event' hj
    by_cases hji : j = i
    · rw [hji, Function.update_self] at hj
      obtain rfl := Option.some.inj hj
      left
      rw [hji, hhandled, timesHandled]
      exact if_pos hcall
    · rw [Function.update_of_ne hji] at hj
      rw [(hother j hji).1, (hother j hji).2, hinjects.buffer]
      exact hP.notLost j event' hj hcall
  · exact hinjects.brokenOff.trans hP.finished
  · rw [hinjects.buffer]
    exact hinv.nodup
  · rw [hinjects.buffer] at hj
    have hji : j ≠ i := fun heq => hbuffer (heq ▸ hj)
    rw [Unhandled, (hother j hji).1, (hother j hji).2]
    exact hinv.waiting j hj
  · rw [hinjects.buffer] at hj
    rw [hinjects.events]
    exact hlearnt.there j hj
  · have hnone : Function.update s.events i (some event) j = none :=
      (congrFun hinjects.events j).symm.trans hj
    have hji : j ≠ i := by
      rintro rfl
      rw [Function.update_self] at hnone
      exact nomatch hnone
    rw [Unhandled, (hother j hji).1, (hother j hji).2]
    exact hlearnt.fresh j hnone
  · have hj := hevents j event' hj
    by_cases hji : j = i
    · rw [hji, Function.update_self] at hj
      obtain rfl := Option.some.inj hj
      rw [hji, Unhandled, hhandled, hsuppressed, timesHandled]
      exact ⟨if_neg hcall, hunhandled.2⟩
    · rw [Unhandled, (hother j hji).1, (hother j hji).2]
      exact hlearnt.unknown j event' hj hcall
  · exact hlearnt.known j event' (hevents j event' hj)

/-- **An event is decrypted**, or could not be. -/
theorem Inv.decryptionEnds (hinv : Inv s) (hP : HandledOnce s) (hevent : s.events i = some event)
    (hdecrypting : event.isBeingDecrypted = true) (result : Option (String × κ)) :
    (HandledOnce ((s.setCleartext i (cleartextOf result)).onDecrypted h i
        (cleartextOf result).getType) ↔ LosesNothing h s (.decryptionEnds i result)) ∧
      (LosesNothing h s (.decryptionEnds i result) →
        Inv ((s.setCleartext i (cleartextOf result)).onDecrypted h i
          (cleartextOf result).getType)) := by
  have hnotCall : ¬ event.IsCall := by
    intro hcall
    exact nomatch hdecrypting.symm.trans (hinv.known i event hevent (isCallType_unknown hcall))
  have hunhandled := hinv.unknown i event hevent hnotCall
  rw [LosesNothing]
  generalize cleartextOf result = cleartext
  have hlearn : Inv (s.setCleartext i cleartext) := hinv.learn hunhandled fun _ => rfl
  have hlearnt : HandledOnce (s.setCleartext i cleartext) ↔
      (isCallType cleartext.getType = true → i ∈ s.callEventBuffer) := hP.learn_iff hunhandled
  rw [EventBuffer.onDecrypted]
  by_cases hlistens : s.listens i = true
  · rw [if_neg (not_not.2 (show (s.setCleartext i cleartext).listens i = true from hlistens))]
    by_cases hmentions : mentionsCall cleartext.getType = true
    · rw [if_neg (not_not.2 hmentions)]
      by_cases hbuffer : i ∈ s.callEventBuffer
      · rw [if_pos (show i ∈ (s.setCleartext i cleartext).callEventBuffer from hbuffer)]
        have hgoes : ((isCallType cleartext.getType = true →
            i ∈ s.callEventBuffer ∨ s.listens i = true) ∧ (s.listens i = true →
              mentionsCall cleartext.getType = true → i ∈ s.callEventBuffer →
                (s.setCleartext i cleartext).GoesThrough h)) ↔
            (s.setCleartext i cleartext).GoesThrough h :=
          ⟨fun hloses => hloses.2 hlistens hmentions hbuffer,
            fun hgoes => ⟨fun _ => .inl hbuffer, fun _ _ _ => hgoes⟩⟩
        rw [hgoes, ← goesThrough_listens (Function.update s.listens i false)]
        exact (hlearn.listens _).evaluateEventBuffer ((hlearnt.2 fun _ => hbuffer).listens _)
      · rw [if_neg (show ¬ i ∈ (s.setCleartext i cleartext).callEventBuffer from hbuffer)]
        have hknown : (⟨cleartext, false⟩ : CallEvent κ).cleartext.isKnown = true →
            (⟨cleartext, false⟩ : CallEvent κ).isBeingDecrypted = false := fun _ => rfl
        obtain ⟨hhandled, hinv'⟩ := handle_alone (h := h)
          (hinv.listens (Function.update s.listens i false))
          (hP.listens (Function.update s.listens i false)) hunhandled hbuffer hknown
        exact ⟨iff_of_true hhandled ⟨fun _ => .inr hlistens, fun _ _ hcontra =>
          absurd hcontra hbuffer⟩, fun _ => hinv'⟩
    · rw [if_pos hmentions]
      have hnot : ¬ isCallType cleartext.getType = true :=
        fun hcall => hmentions (mentionsCall_of_isCallType hcall)
      exact ⟨iff_of_true ((hlearnt.2 fun hcall => absurd hcall hnot).listens _)
        ⟨fun hcall => absurd hcall hnot, fun _ hcontra => absurd hcontra hmentions⟩,
        fun _ => hlearn.listens _⟩
  · rw [if_pos (show ¬ (s.setCleartext i cleartext).listens i = true from hlistens)]
    refine ⟨hlearnt.trans ⟨fun hmem => ⟨fun hcall => .inl (hmem hcall), fun hcontra =>
      absurd hcontra hlistens⟩, fun hloses hcall => ?_⟩, fun _ => hlearn⟩
    exact (hloses.1 hcall).resolve_right hlistens

/-- **One step** loses nothing exactly when it is one that does not. -/
theorem Inv.step (hinv : Inv s) (hP : HandledOnce s) {e : BufferEvent κ}
    (hstep : EventBuffer.step h s e = some s') :
    (HandledOnce s' ↔ LosesNothing h s e) ∧ (LosesNothing h s e → Inv s') := by
  cases e with
  | event i event =>
    rw [EventBuffer.step] at hstep
    split at hstep
    · exact nomatch hstep
    next hnew =>
      obtain rfl := Option.some.inj hstep
      rw [Bool.or_eq_true, Bool.and_eq_true, not_or, not_and, Bool.not_eq_true,
        Option.isSome_eq_false_iff, Option.isNone_iff_eq_none, Bool.not_eq_true] at hnew
      obtain ⟨horderly, hinv'⟩ := hinv.onEvent hP hnew.1 hnew.2
      exact ⟨iff_of_true horderly trivial, fun _ => hinv'⟩
  | sync syncing =>
    obtain rfl := Option.some.inj hstep
    have hinv₁ : Inv { s with syncing := syncing } :=
      ⟨hinv.nodup, hinv.waiting, hinv.there, hinv.fresh, hinv.unknown, hinv.known⟩
    have hP₁ : HandledOnce { s with syncing := syncing } :=
      ⟨hP.atMostOnce, hP.leftOut, hP.notLost, hP.finished⟩
    exact hinv₁.evaluateEventBuffer hP₁
  | decryptionBegins i =>
    rw [EventBuffer.step] at hstep
    split at hstep
    · exact nomatch hstep
    next event hevent =>
      split at hstep
      · exact nomatch hstep
      next hunknown =>
        obtain rfl := Option.some.inj hstep
        rw [Bool.or_eq_true, not_or] at hunknown
        have hnot : ¬ isCallType event.cleartext.getType = true :=
          fun hcall => hunknown.1 (isCallType_unknown hcall)
        have hunhandled := hinv.unknown i event hevent hnot
        exact ⟨iff_of_true ((hP.learn_iff hunhandled).2 fun hcall => absurd hcall hnot) trivial,
          fun _ => hinv.learn hunhandled fun hcontra => absurd hcontra hunknown.1⟩
  | decryptionEnds i result =>
    rw [EventBuffer.step] at hstep
    split at hstep
    · exact nomatch hstep
    next event hevent =>
      split at hstep
      · exact nomatch hstep
      next hdecrypting =>
        obtain rfl := Option.some.inj hstep
        exact hinv.decryptionEnds hP hevent (not_not.1 hdecrypting) result
  | decryptionThrows i =>
    rw [EventBuffer.step] at hstep
    split at hstep
    · exact nomatch hstep
    next event hevent =>
      split at hstep
      · exact nomatch hstep
      next hdecrypting =>
        obtain rfl := Option.some.inj hstep
        have hnot : ¬ event.IsCall := by
          intro hcall
          exact nomatch (not_not.1 hdecrypting).symm.trans
            (hinv.known i event hevent (isCallType_unknown hcall))
        have hunhandled := hinv.unknown i event hevent hnot
        exact ⟨iff_of_true ((hP.learn_iff hunhandled).2 fun hcall => absurd hcall hnot) trivial,
          fun _ => hinv.learn hunhandled fun _ => rfl⟩

end MatrixSdk.Calls
