/-
`Relations` of `src/models/relations.js`, and what keeps it up to date: the events it listens to
(`src/models/event.js`) and the `EventTimelineSet` that hands it events
(`src/models/event-timeline-set.js`).

An event object is named by its id. Event objects and containers know each other: a container
listens for the status and the redaction of its events, and tells its target which event replaces
it. So all operations are on the events and the containers together ([`RelationsState`]).
-/
import Mathlib.Data.List.Sort
import MatrixSdk.Lib.Grouping
import MatrixSdk.Models.Room

set_option autoImplicit false

namespace MatrixSdk.Models

open MatrixSdk.Lib

/-! ## Events -/

/-- `content["m.relates_to"]`; the empty string stands for what is not there. -/
structure RelatesTo where
  relType : String
  eventId : String
  key : String
  deriving DecidableEq

/-- A `MatrixEvent`. `content` is what `getOriginalContent` returns unless there is a local
redaction, and `relatesTo` is of the content as it is sent: once `decrypted` these are not of one
object. `serverReplaceTs` is `unsigned["m.relations"]["m.replace"].origin_server_ts`. -/
structure MatrixEvent where
  type : String
  sender : String
  originServerTs : ℕ
  content : JsObject String String
  relatesTo : Option RelatesTo
  decrypted : Bool
  redacts : Option String
  serverReplaceTs : Option ℕ
  status : Option EventStatus
  isBeingDecrypted : Bool
  redactedBecause : Option String
  localRedactionEvent : Option String
  replacingEvent : Option String

namespace MatrixEvent

variable (e : MatrixEvent)

/-- `getRelation`; `isRelation` asks for a type and an id. -/
def getRelation : Option RelatesTo :=
  e.relatesTo.filter fun relation => relation.relType ≠ "" ∧ relation.eventId ≠ ""

def isRedacted : Bool := e.redactedBecause.isSome

def isSending : Bool := e.status.isSome

def isRedaction : Bool := e.type = "m.room.redaction"

def getOriginalContent : JsObject String String :=
  if e.localRedactionEvent.isSome then .empty else e.content

def makeReplaced (newEvent : Option String) : MatrixEvent :=
  if e.isRedacted && newEvent.isSome then e else { e with replacingEvent := newEvent }

def unmarkLocallyRedacted : MatrixEvent :=
  { e with localRedactionEvent := none, redactedBecause := none }

/-- `_REDACT_KEEP_CONTENT_MAP`. -/
def redactKeepContent (type : String) : List String :=
  if type = "m.room.member" then ["membership"]
  else if type = "m.room.create" then ["creator"]
  else if type = "m.room.join_rules" then ["join_rule"]
  else if type = "m.room.power_levels" then
    ["ban", "events", "events_default", "kick", "redact", "state_default", "users", "users_default"]
  else if type = "m.room.aliases" then ["aliases"]
  else []

/-- What `makeRedacted` does after the event has been emitted. `m.relates_to` is among what it
deletes of the content, which is the decrypted one if there is one; `redacts` is not a key that is
kept. -/
def redactedBy (redactionEvent : String) : MatrixEvent :=
  { e with
    replacingEvent := none
    redactedBecause := some redactionEvent
    content := e.content.filter fun key => key ∈ redactKeepContent e.type
    relatesTo := if e.decrypted then e.relatesTo else none
    redacts := none }

end MatrixEvent

/-! ## Containers -/

/-- A `Relations`, but for the names it is made with. An element of `_sortedAnnotationsByKey` has
the very set that is in `_annotationsByKey`, so that only its key is here. -/
structure Relations where
  relations : List String
  annotationsByKey : JsObject String (List String)
  annotationsBySender : JsObject String (List String)
  sortedAnnotationsByKey : List String
  targetEvent : Option String

/-- The relations of a relation type and an event type to an event. -/
structure RelationsKey where
  eventId : String
  relationType : String
  eventType : String
  deriving DecidableEq

/-- How aggregating goes wrong: something inherited is used as a set, or it is taken for a table and
given a property. -/
inductive AggregationError
  | typeError
  | changesForeignObject
  deriving DecidableEq

namespace Relations

def new : Relations := ⟨[], .empty, .empty, [], none⟩

/-- `size` of the set of a key. -/
def keySize (r : Relations) (key : String) : ℕ := ((r.annotationsByKey.get key).getD []).length

/-- The keys are sorted by the sizes of their sets, largest first; keys of one size stay in order. -/
def sortByKeySize (r : Relations) : Relations :=
  { r with
    sortedAnnotationsByKey :=
      r.sortedAnnotationsByKey.insertionSort fun a b => r.keySize b ≤ r.keySize a }

/-- `_addAnnotationToAggregation` of an event with the key and the sender. -/
def addAnnotationToAggregation (r : Relations) (event key sender : String) :
    Except AggregationError Relations :=
  if key = "" then .ok r
  else
    let forKey : Except AggregationError Relations :=
      match r.annotationsByKey.lookup key with
      | .inherited => .error .typeError
      | .own eventsForKey => .ok { r with
          annotationsByKey := r.annotationsByKey.set key (setAdd eventsForKey event) }
      | .missing => .ok { r with
          annotationsByKey := r.annotationsByKey.set key [event]
          sortedAnnotationsByKey := r.sortedAnnotationsByKey ++ [key] }
    forKey.bind fun r =>
      let r := r.sortByKeySize
      match r.annotationsBySender.lookup sender with
      | .inherited => .error .typeError
      | .own eventsFromSender => .ok { r with
          annotationsBySender := r.annotationsBySender.set sender (setAdd eventsFromSender event) }
      | .missing => .ok { r with
          annotationsBySender := r.annotationsBySender.set sender [event] }

/-- `_removeAnnotationFromAggregation`. -/
def removeAnnotationFromAggregation (r : Relations) (event key sender : String) :
    Except AggregationError Relations :=
  if key = "" then .ok r
  else
    let forKey : Except AggregationError Relations :=
      match r.annotationsByKey.lookup key with
      | .inherited => .error .typeError
      | .own eventsForKey =>
        .ok { r with
          annotationsByKey := r.annotationsByKey.set key (eventsForKey.erase event) }.sortByKeySize
      | .missing => .ok r
    forKey.bind fun r =>
      match r.annotationsBySender.lookup sender with
      | .inherited => .error .typeError
      | .own eventsFromSender => .ok { r with
          annotationsBySender := r.annotationsBySender.set sender (eventsFromSender.erase event) }
      | .missing => .ok r

/-- The last one of some events, by the loop of `getLastReplacement`; an event counts if it is by
the sender and not older than `minTs`. -/
def lastReplacement (event : String → MatrixEvent) (sender : String) (minTs : Option ℕ)
    (events : List String) : Option String :=
  events.foldl (fun last e =>
    if (event e).sender ≠ sender then last
    else if minTs.any fun minTs => minTs > (event e).originServerTs then last
    else if last.any fun last => (event last).originServerTs > (event e).originServerTs then last
    else some e) none

/-- `getLastReplacement`. -/
def getLastReplacement (r : Relations) (event : String → MatrixEvent) : Option String :=
  r.targetEvent.bind fun target =>
    lastReplacement event (event target).sender (event target).serverReplaceTs r.relations

end Relations

/-! ## Events and containers -/

/-- Events, the containers of a timeline set (`_relations`), which events are in its timelines, who
listens to an event, and how often `aggregateRelations` waits for it to be decrypted. -/
structure RelationsState where
  event : String → MatrixEvent
  timeline : List String
  relations : RelationsKey → Option Relations
  onStatus : String → List RelationsKey
  onBeforeRedaction : String → List RelationsKey
  onDecrypted : String → ℕ

namespace RelationsState

variable (st : RelationsState)

def setEvent (id : String) (event : MatrixEvent) : RelationsState :=
  { st with event := Function.update st.event id event }

def setRelations (k : RelationsKey) (r : Relations) : RelationsState :=
  { st with relations := Function.update st.relations k (some r) }

def findEventById (id : String) : Option String := st.timeline.find? (· = id)

/-! ### Containers -/

/-- What replaces the target of a container is worked out anew. -/
def replaceTarget (r : Relations) : RelationsState :=
  match r.targetEvent with
  | none => st
  | some target =>
    st.setEvent target ((st.event target).makeReplaced (r.getLastReplacement st.event))

/-- `addEvent` of the container. -/
def addEvent (k : RelationsKey) (e : String) : Except AggregationError RelationsState :=
  match st.relations k with
  | none => .ok st
  | some r =>
    if e ∈ r.relations then .ok st
    else
      match (st.event e).getRelation with
      | none => .ok st
      | some relation =>
        if k.relationType ≠ relation.relType ∨ k.eventType ≠ (st.event e).type then .ok st
        else
          let st :=
            if (st.event e).isSending then
              { st with onStatus := Function.update st.onStatus e (st.onStatus e ++ [k]) }
            else st
          let r := { r with relations := r.relations ++ [e] }
          let added : Except AggregationError RelationsState :=
            if k.relationType = "m.annotation" then
              (r.addAnnotationToAggregation e relation.key (st.event e).sender).map
                (st.setRelations k)
            else if k.relationType = "m.replace" then .ok ((st.setRelations k r).replaceTarget r)
            else .ok (st.setRelations k r)
          added.map fun st =>
            { st with onBeforeRedaction :=
                Function.update st.onBeforeRedaction e (st.onBeforeRedaction e ++ [k]) }

/-- The event is taken out of the container, as `_removeEvent` and `_onBeforeRedaction` do it. -/
def takeOut (k : RelationsKey) (r : Relations) (e : String) :
    Except AggregationError RelationsState :=
  let r := { r with relations := r.relations.erase e }
  if k.relationType = "m.annotation" then
    match (st.event e).getRelation with
    | none => .error .typeError
    | some relation =>
      (r.removeAnnotationFromAggregation e relation.key (st.event e).sender).map (st.setRelations k)
  else if k.relationType = "m.replace" then .ok ((st.setRelations k r).replaceTarget r)
  else .ok (st.setRelations k r)

/-- `_removeEvent`. -/
def removeEvent (k : RelationsKey) (e : String) : Except AggregationError RelationsState :=
  match st.relations k with
  | none => .ok st
  | some r =>
    if e ∉ r.relations then .ok st
    else
      match (st.event e).getRelation with
      | none => .ok st
      | some relation =>
        if k.relationType ≠ relation.relType ∨ k.eventType ≠ (st.event e).type then .ok st
        else st.takeOut k r e

/-- A container does not listen any more. -/
def offStatus (k : RelationsKey) (e : String) : RelationsState :=
  { st with onStatus := Function.update st.onStatus e ((st.onStatus e).erase k) }

/-- `_onEventStatus`. -/
def onEventStatus (e : String) (k : RelationsKey) (status : Option EventStatus) :
    Except AggregationError RelationsState :=
  if !(st.event e).isSending then .ok (st.offStatus k e)
  else if status ≠ some .cancelled then .ok st
  else (st.offStatus k e).removeEvent k e

/-- `_onBeforeRedaction`. -/
def onBeforeRedactionOf (e : String) (k : RelationsKey) : Except AggregationError RelationsState :=
  match st.relations k with
  | none => .ok st
  | some r =>
    if e ∉ r.relations then .ok st
    else (st.takeOut k r e).map fun st =>
      { st with onBeforeRedaction :=
          Function.update st.onBeforeRedaction e ((st.onBeforeRedaction e).erase k) }

/-- `setTargetEvent`. -/
def setTargetEvent (k : RelationsKey) (target : String) : RelationsState :=
  match st.relations k with
  | none => st
  | some r =>
    if r.targetEvent.isSome then st
    else
      let r := { r with targetEvent := some target }
      let st := st.setRelations k r
      if k.relationType = "m.replace" then
        match r.getLastReplacement st.event with
        | none => st
        | some replacement =>
          st.setEvent target ((st.event target).makeReplaced (some replacement))
      else st

/-! ### Events -/

/-- `setStatus`. -/
def setStatus (e : String) (status : Option EventStatus) :
    Except AggregationError RelationsState :=
  (st.onStatus e).foldlM (fun st k => st.onEventStatus e k status)
    (st.setEvent e { st.event e with status := status })

/-- "Event.beforeRedaction" is emitted. -/
def emitBeforeRedaction (e : String) : Except AggregationError RelationsState :=
  (st.onBeforeRedaction e).foldlM (fun st k => st.onBeforeRedactionOf e k) st

/-- `markLocallyRedacted`. -/
def markLocallyRedacted (e redactionEvent : String) : Except AggregationError RelationsState :=
  if (st.event e).localRedactionEvent.isSome then .ok st
  else (st.emitBeforeRedaction e).map fun st =>
    st.setEvent e { st.event e with
      localRedactionEvent := some redactionEvent
      redactedBecause := some redactionEvent }

def unmarkLocallyRedacted (e : String) : RelationsState :=
  st.setEvent e (st.event e).unmarkLocallyRedacted

/-- `makeRedacted`. -/
def makeRedacted (e redactionEvent : String) : Except AggregationError RelationsState :=
  ((st.setEvent e { st.event e with localRedactionEvent := none }).emitBeforeRedaction e).map
    fun st => st.setEvent e ((st.event e).redactedBy redactionEvent)

/-! ### The timeline set -/

/-- `setRelationsTarget`. -/
def setRelationsTarget (e : String) : RelationsState :=
  st.setTargetEvent ⟨e, "m.replace", "m.room.message"⟩ e

/-- `aggregateRelations`. -/
def aggregateRelations (e : String) : Except AggregationError RelationsState :=
  if (st.event e).isRedacted ∨ (st.event e).status = some .cancelled then .ok st
  else if (st.event e).isBeingDecrypted then
    .ok { st with onDecrypted := Function.update st.onDecrypted e (st.onDecrypted e + 1) }
  else
    match (st.event e).getRelation with
    | none => .ok st
    | some relation =>
      if relation.eventId ∈ JsObject.inheritedNames ∨ relation.relType ∈ JsObject.inheritedNames then
        .error .changesForeignObject
      else if (st.event e).type ∈ JsObject.inheritedNames then .error .typeError
      else
        let k : RelationsKey := ⟨relation.eventId, relation.relType, (st.event e).type⟩
        let st :=
          if (st.relations k).isSome then st
          else
            let st := st.setRelations k .new
            match st.findEventById relation.eventId with
            | none => st
            | some target => st.setTargetEvent k target
        st.addEvent k e

/-- "Event.decrypted" is emitted, which those who wait for it hear once. -/
def emitDecrypted (e : String) : Except AggregationError RelationsState :=
  (List.range (st.onDecrypted e)).foldlM (fun st _ => st.aggregateRelations e)
    { st with onDecrypted := Function.update st.onDecrypted e 0 }

/-- `addEventToTimeline`; it comes after a check that the set does not know the event. -/
def addEventToTimeline (e : String) : Except AggregationError RelationsState :=
  ({ st with timeline := st.timeline ++ [e] }.setRelationsTarget e).aggregateRelations e

end RelationsState

end MatrixSdk.Models
