/-
`DeviceListUpdateSerialiser` (`src/crypto/DeviceList.js`): at most one
`/keys/query` request at a time, and one shared deferred for everything that
asks for an update meanwhile.

The model has the object's own fields and, next to them, the part of the heap
its methods reach: which deferreds exist and how they settled, and the closure
variables of the request in flight. A request is numbered by the order it was
sent in, so that later files can say *sent after* without a clock.

What is proved is when the queue can stall. The success branch of a request
starts whatever is queued behind it; the failure branch does not. So a queued
deferred is left with nothing that would ever settle it exactly by a failure
that finds the queue non-empty, and by nothing else
([`noStall_along_iff`]).
-/
import MatrixSdk.Lib.System
import MatrixSdk.Lib.JsObject
import Mathlib.Tactic.Common

set_option autoImplicit false

namespace MatrixSdk.Crypto

open MatrixSdk.Lib

/-! ## The object and the heap it reaches -/

/-- How a deferred was settled. -/
inductive Settlement
  | resolved
  | rejected
  deriving DecidableEq, Repr

/-- A `/keys/query` request in flight: what the callbacks of `_doQueuedQueries`
close over. `query` numbers the requests in the order they were sent. -/
structure Download (User Token : Type) where
  query : ℕ
  downloadUsers : List User
  token : Option Token
  deferred : ℕ

/-- The serialiser's fields; the deferreds created so far and how they settled;
the requests whose callbacks are still to run. -/
structure DeviceListUpdateSerialiser (User Token : Type) where
  downloadInProgress : Bool
  keyDownloadsQueuedByUser : JsObject User Bool
  queuedQueryDeferred : Option ℕ
  syncToken : Option Token
  nextDeferred : ℕ
  settled : ℕ → Option Settlement
  queriesSent : ℕ
  downloads : List (Download User Token)

namespace DeviceListUpdateSerialiser

variable {User Token : Type}

/-- The constructor. -/
def new : DeviceListUpdateSerialiser User Token where
  downloadInProgress := false
  keyDownloadsQueuedByUser := .empty
  queuedQueryDeferred := none
  syncToken := none
  nextDeferred := 0
  settled _ := none
  queriesSent := 0
  downloads := []

/-- `deferred.resolve()` / `deferred.reject(e)`. Settling twice has no effect. -/
def settle (s : DeviceListUpdateSerialiser User Token) (d : ℕ) (r : Settlement) :
    DeviceListUpdateSerialiser User Token :=
  { s with settled := fun d' => if d' = d then (s.settled d).or (some r) else s.settled d' }

/-- `_doQueuedQueries`: send one request for everyone queued. `none` where the
method throws: a request is active, or there is no deferred to return. -/
def doQueuedQueries (s : DeviceListUpdateSerialiser User Token) :
    Option (DeviceListUpdateSerialiser User Token × ℕ) :=
  if s.downloadInProgress then none
  else
    match s.queuedQueryDeferred with
    | none => none
    | some deferred =>
      some ({ s with
        keyDownloadsQueuedByUser := .empty
        queuedQueryDeferred := none
        downloadInProgress := true
        queriesSent := s.queriesSent + 1
        downloads := s.downloads ++
          [{ query := s.queriesSent
             downloadUsers := s.keyDownloadsQueuedByUser.keys
             token := s.syncToken
             deferred := deferred }] }, deferred)

/-- `if (!this._queuedQueryDeferred) this._queuedQueryDeferred = defer()`. -/
def ensureDeferred (s : DeviceListUpdateSerialiser User Token) :
    DeviceListUpdateSerialiser User Token × ℕ :=
  match s.queuedQueryDeferred with
  | some d => (s, d)
  | none => ({ s with
      queuedQueryDeferred := some s.nextDeferred
      nextDeferred := s.nextDeferred + 1 }, s.nextDeferred)

variable [DecidableEq User]

/-- `updateDevicesForUsers`: queue the users and return the promise that stands
for them, starting the request at once if none is active. -/
def updateDevicesForUsers (s : DeviceListUpdateSerialiser User Token) (users : List User)
    (syncToken : Option Token) : Option (DeviceListUpdateSerialiser User Token × ℕ) :=
  let q := { s with
    keyDownloadsQueuedByUser := s.keyDownloadsQueuedByUser.setAll users true }
  let (q, d) := q.ensureDeferred
  let q := { q with syncToken := syncToken }
  if q.downloadInProgress then some (q, d) else q.doQueuedQueries

omit [DecidableEq User] in
/-- What the two callbacks of a request have in common:
`this._downloadInProgress = false` and the settling of the deferred. -/
def close (s : DeviceListUpdateSerialiser User Token) (dl : Download User Token)
    (r : Settlement) : DeviceListUpdateSerialiser User Token :=
  { s with
    downloads := s.downloads.filter (fun x => x.query ≠ dl.query)
    downloadInProgress := false }.settle dl.deferred r

omit [DecidableEq User] in
/-- The success callback, after the response has been processed: settle the
deferred and fire off another request if users are queued. -/
def onSuccess (s : DeviceListUpdateSerialiser User Token) (dl : Download User Token) :
    Option (DeviceListUpdateSerialiser User Token) :=
  let s := s.close dl .resolved
  if s.queuedQueryDeferred.isSome then s.doQueuedQueries.map Prod.fst else some s

omit [DecidableEq User] in
/-- The failure callback: settle the deferred. The queue is left as it is. -/
def onFailure (s : DeviceListUpdateSerialiser User Token) (dl : Download User Token) :
    DeviceListUpdateSerialiser User Token :=
  s.close dl .rejected

/-! ## What each method does -/

omit [DecidableEq User] in
/-- `_doQueuedQueries` returns exactly when no request is active and something is
queued; it then moves the queue into a new request. -/
theorem doQueuedQueries_eq_some {s s' : DeviceListUpdateSerialiser User Token} {d : ℕ} :
    s.doQueuedQueries = some (s', d) ↔
      s.downloadInProgress = false ∧ s.queuedQueryDeferred = some d ∧
      s' = { s with
        keyDownloadsQueuedByUser := .empty
        queuedQueryDeferred := none
        downloadInProgress := true
        queriesSent := s.queriesSent + 1
        downloads := s.downloads ++
          [⟨s.queriesSent, s.keyDownloadsQueuedByUser.keys, s.syncToken, d⟩] } := by
  unfold doQueuedQueries
  cases hp : s.downloadInProgress with
  | true => simp
  | false =>
    cases hq : s.queuedQueryDeferred with
    | none => simp
    | some d' =>
      simp only [Bool.false_eq_true, if_false, Option.some.injEq, Prod.mk.injEq, true_and]
      constructor
      · rintro ⟨rfl, rfl⟩; exact ⟨rfl, rfl⟩
      · rintro ⟨rfl, rfl⟩; exact ⟨rfl, rfl⟩

/-- The state `updateDevicesForUsers` is in when it decides whether to start a
request: the users are queued and there is a deferred for them. -/
def queue (s : DeviceListUpdateSerialiser User Token) (users : List User)
    (syncToken : Option Token) : DeviceListUpdateSerialiser User Token :=
  { s with
    keyDownloadsQueuedByUser := s.keyDownloadsQueuedByUser.setAll users true
    queuedQueryDeferred := some (s.queuedQueryDeferred.getD s.nextDeferred)
    nextDeferred := if s.queuedQueryDeferred.isSome then s.nextDeferred else s.nextDeferred + 1
    syncToken := syncToken }

/-- `updateDevicesForUsers` never throws: it queues, and either leaves it at that
because a request is active, or sends the queue as a request of its own. -/
theorem updateDevicesForUsers_eq (s : DeviceListUpdateSerialiser User Token)
    (users : List User) (syncToken : Option Token) :
    s.updateDevicesForUsers users syncToken =
      if s.downloadInProgress then
        some (s.queue users syncToken, s.queuedQueryDeferred.getD s.nextDeferred)
      else (s.queue users syncToken).doQueuedQueries := by
  unfold updateDevicesForUsers ensureDeferred queue
  cases s.queuedQueryDeferred <;> rfl

section Close

variable (s : DeviceListUpdateSerialiser User Token) (dl : Download User Token) (r : Settlement)

section

omit [DecidableEq User]

@[simp] theorem close_queuedQueryDeferred :
    (s.close dl r).queuedQueryDeferred = s.queuedQueryDeferred := rfl

@[simp] theorem close_downloadInProgress : (s.close dl r).downloadInProgress = false := rfl

@[simp] theorem close_downloads :
    (s.close dl r).downloads = s.downloads.filter (fun x => x.query ≠ dl.query) := rfl

/-- Closing a request settles its deferred and unsettles none. -/
theorem close_settled_isSome (d : ℕ) :
    ((s.close dl r).settled d).isSome ↔ d = dl.deferred ∨ (s.settled d).isSome := by
  unfold close settle
  by_cases h : d = dl.deferred
  · subst h
    cases s.settled dl.deferred <;> simp
  · simp [h]

theorem onSuccess_eq :
    s.onSuccess dl = if s.queuedQueryDeferred.isSome
      then (s.close dl .resolved).doQueuedQueries.map Prod.fst
      else some (s.close dl .resolved) := rfl

end

end Close

/-! ## Well-formed serialisers -/

/-- The flag `_downloadInProgress` says whether there is a request in flight and
there is never a second one; the deferred of that request and the queued one
are different, still unsettled, and no deferred is settled before it exists. -/
structure WF (s : DeviceListUpdateSerialiser User Token) : Prop where
  downloads : s.downloads = [] ∧ s.downloadInProgress = false ∨
    ∃ dl, s.downloads = [dl] ∧ s.downloadInProgress = true
  inFlight : ∀ dl ∈ s.downloads, dl.query < s.queriesSent ∧ dl.deferred < s.nextDeferred ∧
    s.settled dl.deferred = none ∧ s.queuedQueryDeferred ≠ some dl.deferred
  queued : ∀ d, s.queuedQueryDeferred = some d → d < s.nextDeferred ∧ s.settled d = none
  fresh : ∀ d, s.nextDeferred ≤ d → s.settled d = none

namespace WF

omit [DecidableEq User] in
theorem new : (new : DeviceListUpdateSerialiser User Token).WF where
  downloads := .inl ⟨rfl, rfl⟩
  inFlight _ h := absurd h List.not_mem_nil
  queued _ h := absurd h (by simp [DeviceListUpdateSerialiser.new])
  fresh _ _ := rfl

variable {s s' : DeviceListUpdateSerialiser User Token} {dl : Download User Token} {d : ℕ}

omit [DecidableEq User] in
theorem downloads_eq_nil (h : s.WF) (hp : s.downloadInProgress = false) : s.downloads = [] := by
  rcases h.downloads with ⟨h0, _⟩ | ⟨_, _, h1⟩
  · exact h0
  · rw [hp] at h1
    exact absurd h1 Bool.false_ne_true

omit [DecidableEq User] in
theorem downloads_eq_singleton (h : s.WF) (hdl : dl ∈ s.downloads) :
    s.downloads = [dl] ∧ s.downloadInProgress = true := by
  rcases h.downloads with ⟨h0, _⟩ | ⟨dl', h1, hp⟩
  · rw [h0] at hdl
    exact absurd hdl List.not_mem_nil
  · rw [h1, List.mem_singleton] at hdl
    exact hdl ▸ ⟨h1, hp⟩

theorem queue (h : s.WF) (users : List User) (syncToken : Option Token) :
    (s.queue users syncToken).WF := by
  refine ⟨h.downloads, fun dl hdl => ?_, fun d hd => ?_, fun d hd => ?_⟩
  · obtain ⟨h1, h2, h3, h4⟩ := h.inFlight dl hdl
    simp only [DeviceListUpdateSerialiser.queue]
    refine ⟨h1, by split <;> omega, h3, ?_⟩
    -- a fresh deferred is not the one in flight, an old one was not before
    cases hq : s.queuedQueryDeferred with
    | none =>
      simp only [Option.getD_none, ne_eq, Option.some.injEq]
      omega
    | some d' => simpa [hq] using h4
  · simp only [DeviceListUpdateSerialiser.queue, Option.some.injEq] at hd ⊢
    cases hq : s.queuedQueryDeferred with
    | none =>
      obtain rfl : s.nextDeferred = d := by simpa [hq] using hd
      exact ⟨by simp, h.fresh _ (Nat.le_refl _)⟩
    | some d' =>
      obtain rfl : d' = d := by simpa [hq] using hd
      simpa using h.queued d' hq
  · simp only [DeviceListUpdateSerialiser.queue] at hd ⊢
    exact h.fresh d (by split at hd <;> omega)

section

omit [DecidableEq User]

theorem doQueuedQueries (h : s.WF) (hs : s.doQueuedQueries = some (s', d)) : s'.WF := by
  obtain ⟨hp, hq, rfl⟩ := doQueuedQueries_eq_some.1 hs
  have hnil := h.downloads_eq_nil hp
  refine ⟨.inr ⟨_, by rw [hnil]; rfl, rfl⟩, fun dl hdl => ?_, fun _ h' => ?_, h.fresh⟩
  · rw [hnil, List.nil_append, List.mem_singleton] at hdl
    subst hdl
    obtain ⟨hlt, hset⟩ := h.queued d hq
    exact ⟨Nat.lt_succ_self _, hlt, hset, by simp⟩
  · exact absurd h' (by simp)

theorem close_downloads (h : s.WF) (hdl : dl ∈ s.downloads) (r : Settlement) :
    (s.close dl r).downloads = [] := by
  obtain ⟨h1, _⟩ := h.downloads_eq_singleton hdl
  simp [h1]

theorem close (h : s.WF) (hdl : dl ∈ s.downloads) (r : Settlement) : (s.close dl r).WF := by
  have hnil := h.close_downloads hdl r
  obtain ⟨_, hlt, _, hne⟩ := h.inFlight dl hdl
  refine ⟨.inl ⟨hnil, rfl⟩, fun dl' hdl' => ?_, fun d hd => ?_, fun d hd => ?_⟩
  · rw [hnil] at hdl'
    exact absurd hdl' List.not_mem_nil
  · obtain ⟨hd1, hd2⟩ := h.queued d hd
    have hdne : d ≠ dl.deferred := by
      rintro rfl
      exact hne hd
    exact ⟨hd1, by simpa [DeviceListUpdateSerialiser.close, settle, hdne] using hd2⟩
  · have hd' : s.nextDeferred ≤ d := hd
    have hdne : d ≠ dl.deferred := by omega
    simpa [DeviceListUpdateSerialiser.close, settle, hdne] using h.fresh d hd'

end

end WF

end DeviceListUpdateSerialiser

/-! ## Runs -/

/-- A serialiser together with the promises `updateDevicesForUsers` has returned. -/
structure SerialiserState (User Token : Type) where
  serialiser : DeviceListUpdateSerialiser User Token
  handedOut : List ℕ

/-- A call, or the end of the request with the given number. -/
inductive SerialiserEvent (User Token : Type)
  | updateDevicesForUsers (users : List User) (syncToken : Option Token)
  | downloadSucceeds (query : ℕ)
  | downloadFails (query : ℕ)

variable {User Token : Type} [DecidableEq User] {s s' : SerialiserState User Token}
  {e : SerialiserEvent User Token}

/-- One synchronous stretch of code: a whole call, or a whole callback. -/
def serialiserStep (s : SerialiserState User Token) :
    SerialiserEvent User Token → Option (SerialiserState User Token)
  | .updateDevicesForUsers users syncToken =>
    (s.serialiser.updateDevicesForUsers users syncToken).map fun r =>
      { serialiser := r.1, handedOut := s.handedOut ++ [r.2] }
  | .downloadSucceeds query =>
    (s.serialiser.downloads.find? (fun dl => dl.query = query)).bind fun dl =>
      (s.serialiser.onSuccess dl).map fun r => { s with serialiser := r }
  | .downloadFails query =>
    (s.serialiser.downloads.find? (fun dl => dl.query = query)).map fun dl =>
      { s with serialiser := s.serialiser.onFailure dl }

/-- All runs of a fresh serialiser. -/
def serialiserSystem (User Token : Type) [DecidableEq User] :
    System (SerialiserState User Token) (SerialiserEvent User Token) where
  init := { serialiser := .new, handedOut := [] }
  step := serialiserStep

/-- Every promise handed out is settled, queued, or the promise of the request in
flight. -/
structure SerialiserState.Inv (s : SerialiserState User Token) : Prop where
  wf : s.serialiser.WF
  handedOut : ∀ d ∈ s.handedOut, (s.serialiser.settled d).isSome ∨
    s.serialiser.queuedQueryDeferred = some d ∨
    ∃ dl ∈ s.serialiser.downloads, dl.deferred = d

/-- A queue implies a request in flight, so that no promise handed out is left
unsettled once there is none. -/
def SerialiserState.NoStall (s : SerialiserState User Token) : Prop :=
  (s.serialiser.queuedQueryDeferred.isSome → s.serialiser.downloadInProgress = true) ∧
  (s.serialiser.downloadInProgress = false → ∀ d ∈ s.handedOut, (s.serialiser.settled d).isSome)

/-- What a step can do, guards included. -/
inductive SerialiserStep (s : SerialiserState User Token) :
    SerialiserEvent User Token → SerialiserState User Token → Prop
  | queued {users tok} :
      s.serialiser.downloadInProgress = true →
      SerialiserStep s (.updateDevicesForUsers users tok)
        ⟨s.serialiser.queue users tok,
          s.handedOut ++ [s.serialiser.queuedQueryDeferred.getD s.serialiser.nextDeferred]⟩
  | started {users tok r} :
      s.serialiser.downloadInProgress = false →
      (s.serialiser.queue users tok).doQueuedQueries = some r →
      SerialiserStep s (.updateDevicesForUsers users tok) ⟨r.1, s.handedOut ++ [r.2]⟩
  | ended {dl} :
      dl ∈ s.serialiser.downloads → s.serialiser.queuedQueryDeferred = none →
      SerialiserStep s (.downloadSucceeds dl.query)
        ⟨s.serialiser.close dl .resolved, s.handedOut⟩
  | endedAndNext {dl r} :
      dl ∈ s.serialiser.downloads → s.serialiser.queuedQueryDeferred.isSome →
      (s.serialiser.close dl .resolved).doQueuedQueries = some r →
      SerialiserStep s (.downloadSucceeds dl.query) ⟨r.1, s.handedOut⟩
  | failed {dl} :
      dl ∈ s.serialiser.downloads →
      SerialiserStep s (.downloadFails dl.query) ⟨s.serialiser.close dl .rejected, s.handedOut⟩

theorem serialiserStep_cases (h : serialiserStep s e = some s') : SerialiserStep s e s' := by
  cases e with
  | updateDevicesForUsers users tok =>
    simp only [serialiserStep, DeviceListUpdateSerialiser.updateDevicesForUsers_eq] at h
    cases hp : s.serialiser.downloadInProgress with
    | true =>
      rw [hp, if_pos rfl, Option.map_some, Option.some.injEq] at h
      exact h ▸ .queued hp
    | false =>
      rw [hp, if_neg Bool.false_ne_true, Option.map_eq_some_iff] at h
      obtain ⟨r, hr, rfl⟩ := h
      exact .started hp hr
  | downloadSucceeds query =>
    obtain ⟨dl, hfind, hdl⟩ := Option.bind_eq_some_iff.1 h
    have hmem : dl ∈ s.serialiser.downloads := List.mem_of_find?_eq_some hfind
    obtain rfl : dl.query = query := by simpa using List.find?_some hfind
    obtain ⟨ser, hser, rfl⟩ := Option.map_eq_some_iff.1 hdl
    rw [DeviceListUpdateSerialiser.onSuccess_eq] at hser
    cases hq : s.serialiser.queuedQueryDeferred with
    | none =>
      rw [hq, Option.isSome_none, if_neg Bool.false_ne_true, Option.some.injEq] at hser
      exact hser ▸ .ended hmem hq
    | some d =>
      rw [hq, Option.isSome_some, if_pos rfl, Option.map_eq_some_iff] at hser
      obtain ⟨r, hr, rfl⟩ := hser
      exact .endedAndNext hmem (by rw [hq]; rfl) hr
  | downloadFails query =>
    obtain ⟨dl, hfind, rfl⟩ := Option.map_eq_some_iff.1 h
    have hmem : dl ∈ s.serialiser.downloads := List.mem_of_find?_eq_some hfind
    obtain rfl : dl.query = query := by simpa using List.find?_some hfind
    exact .failed hmem

/-- The step is not a failure that finds users queued behind the request. -/
def FailsWithEmptyQueue (s : SerialiserState User Token) : SerialiserEvent User Token → Prop
  | .downloadFails _ => s.serialiser.queuedQueryDeferred = none
  | _ => True

instance (s : SerialiserState User Token) :
    (e : SerialiserEvent User Token) → Decidable (FailsWithEmptyQueue s e)
  | .downloadFails _ => inferInstanceAs (Decidable (_ = none))
  | .downloadSucceeds _ => .isTrue trivial
  | .updateDevicesForUsers _ _ => .isTrue trivial

/-! ## The invariant of all runs -/

omit [DecidableEq User] in
/-- A request that starts takes over the deferred that was queued. -/
theorem SerialiserState.Inv.sent {s : DeviceListUpdateSerialiser User Token} (hwf : s.WF)
    {handedOut : List ℕ} {r : DeviceListUpdateSerialiser User Token × ℕ}
    (hr : s.doQueuedQueries = some r)
    (hout : ∀ d ∈ handedOut, (s.settled d).isSome ∨ s.queuedQueryDeferred = some d) :
    SerialiserState.Inv ⟨r.1, handedOut⟩ := by
  obtain ⟨hp, hq, hr1⟩ := DeviceListUpdateSerialiser.doQueuedQueries_eq_some.1 hr
  refine ⟨hwf.doQueuedQueries hr, fun d hd => ?_⟩
  rcases hout d hd with h | h
  · exact .inl (by rw [hr1]; exact h)
  · rw [hq, Option.some.injEq] at h
    exact .inr (.inr ⟨_, by rw [hr1]; exact List.mem_append_right _ (List.mem_singleton_self _), h⟩)

omit [DecidableEq User] in
/-- Closing the request in flight settles the promises that were waiting for it. -/
theorem SerialiserState.Inv.close (hI : s.Inv) {dl : Download User Token}
    (hdl : dl ∈ s.serialiser.downloads) (r : Settlement) :
    ∀ d ∈ s.handedOut, ((s.serialiser.close dl r).settled d).isSome ∨
      (s.serialiser.close dl r).queuedQueryDeferred = some d := by
  intro d hd
  rw [DeviceListUpdateSerialiser.close_settled_isSome]
  rcases hI.handedOut d hd with h | h | ⟨dl', hdl', h⟩
  · exact .inl (.inr h)
  · exact .inr h
  · rw [(hI.wf.downloads_eq_singleton hdl).1, List.mem_singleton] at hdl'
    exact .inl (.inl (by rw [← h, hdl']))

theorem SerialiserState.Inv.step (hI : s.Inv) (h : serialiserStep s e = some s') : s'.Inv := by
  cases serialiserStep_cases h with
  | queued hp =>
    refine ⟨hI.wf.queue _ _, fun d hd => ?_⟩
    rcases List.mem_append.1 hd with hd | hd
    · rcases hI.handedOut d hd with h | h | h
      · exact .inl h
      · exact .inr (.inl (by simp [DeviceListUpdateSerialiser.queue, h]))
      · exact .inr (.inr h)
    · rw [List.mem_singleton] at hd
      exact .inr (.inl (by rw [hd]; rfl))
  | started hp hr =>
    refine .sent (hI.wf.queue _ _) hr fun d hd => ?_
    rcases List.mem_append.1 hd with hd | hd
    · rcases hI.handedOut d hd with h | h | ⟨dl, hmem, _⟩
      · exact .inl h
      · exact .inr (by simp [DeviceListUpdateSerialiser.queue, h])
      · rw [hI.wf.downloads_eq_nil hp] at hmem
        exact absurd hmem List.not_mem_nil
    · obtain ⟨_, hq, _⟩ := DeviceListUpdateSerialiser.doQueuedQueries_eq_some.1 hr
      rw [List.mem_singleton] at hd
      exact .inr (hd ▸ hq)
  | ended hdl hq =>
    exact ⟨hI.wf.close hdl _, fun d hd => (hI.close hdl _ d hd).imp_right .inl⟩
  | endedAndNext hdl hq hr =>
    exact .sent (hI.wf.close hdl _) hr (hI.close hdl _)
  | failed hdl =>
    exact ⟨hI.wf.close hdl _, fun d hd => (hI.close hdl _ d hd).imp_right .inl⟩

/-! ## When the queue stalls -/

omit [DecidableEq User] in
/-- With the invariant, only the first half of `NoStall` has content. -/
theorem SerialiserState.Inv.noStall_iff (hI : s.Inv) :
    s.NoStall ↔
      (s.serialiser.queuedQueryDeferred.isSome → s.serialiser.downloadInProgress = true) := by
  refine ⟨And.left, fun hq => ⟨hq, fun hp d hd => ?_⟩⟩
  rcases hI.handedOut d hd with h | h | ⟨dl, hdl, _⟩
  · exact h
  · rw [hq (by rw [h]; rfl)] at hp
    exact absurd hp Bool.noConfusion
  · rw [hI.wf.downloads_eq_nil hp] at hdl
    exact absurd hdl List.not_mem_nil

/-- **A step keeps the queue moving exactly when it is not a failure with users
queued.** Every other step that leaves no request in flight leaves no queue. -/
theorem SerialiserState.noStall_step_iff (hI : s.Inv) (h : serialiserStep s e = some s') :
    s'.NoStall ↔ FailsWithEmptyQueue s e := by
  rw [(hI.step h).noStall_iff]
  cases serialiserStep_cases h with
  | queued hp => exact iff_of_true (fun _ => hp) trivial
  | started hp hr =>
    obtain ⟨_, _, hr1⟩ := DeviceListUpdateSerialiser.doQueuedQueries_eq_some.1 hr
    exact iff_of_true (fun _ => by rw [hr1]) trivial
  | ended hdl hq => exact iff_of_true (fun hq' => by simp [hq] at hq') trivial
  | endedAndNext hdl hq hr =>
    obtain ⟨_, _, hr1⟩ := DeviceListUpdateSerialiser.doQueuedQueries_eq_some.1 hr
    exact iff_of_true (fun _ => by rw [hr1]) trivial
  | failed hdl =>
    simp [FailsWithEmptyQueue, Option.isSome_iff_ne_none]

/-- **No queue ever stalls in a run, exactly when no request of the run fails with
users queued behind it.** -/
theorem noStall_along_iff {tr : List (SerialiserState User Token × SerialiserEvent User Token)}
    {s : SerialiserState User Token} (h : (serialiserSystem User Token).Trace tr s) :
    System.HoldsAlong SerialiserState.NoStall tr s ↔ System.Meets FailsWithEmptyQueue tr := by
  refine h.holdsAlong_iff (I := SerialiserState.Inv) ?_ (fun _ _ _ hI hs => hI.step hs) ?_
    (fun _ _ _ hI _ hs => SerialiserState.noStall_step_iff hI hs)
  · exact ⟨.new, fun d hd => absurd hd List.not_mem_nil⟩
  · exact ⟨fun hq => absurd hq Bool.false_ne_true, fun _ d hd => absurd hd List.not_mem_nil⟩

/-- Two calls whose requests both succeed, the second one queued behind the first. -/
def twoCallsSucceed : List (SerialiserEvent ℕ ℕ) :=
  [.updateDevicesForUsers [0] none, .updateDevicesForUsers [1] none, .downloadSucceeds 0,
    .downloadSucceeds 1]

theorem twoCallsSucceed_runs : ((serialiserSystem ℕ ℕ).run twoCallsSucceed).isSome := by decide

theorem noStall_along_two_calls :
    System.HoldsAlong SerialiserState.NoStall ((serialiserSystem ℕ ℕ).steps twoCallsSucceed)
      (((serialiserSystem ℕ ℕ).run twoCallsSucceed).get twoCallsSucceed_runs) :=
  (noStall_along_iff (System.trace_get twoCallsSucceed_runs)).2 (by decide)

/-- A second call is queued behind the first one's request, and the request fails. -/
def queuedBehindFailure : List (SerialiserEvent ℕ ℕ) :=
  [.updateDevicesForUsers [0] none, .updateDevicesForUsers [1] none, .downloadFails 0]

theorem queuedBehindFailure_runs :
    ((serialiserSystem ℕ ℕ).run queuedBehindFailure).isSome := by decide

/-- Nothing starts the query queued behind a request that fails. -/
theorem noStall_fails :
    ¬ ∀ s, (serialiserSystem ℕ ℕ).Reachable s → s.NoStall := by
  intro h
  have hs := h _ (System.reachable_get queuedBehindFailure_runs)
  -- `_queuedQueryDeferred` is set and no download is in progress
  exact absurd (hs.1 (by decide)) (by decide)

end MatrixSdk.Crypto
