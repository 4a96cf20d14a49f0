/-
`saveIfDirty` of `src/crypto/DeviceList.js`: the delayed writes of the device
data, over any interleaving of changes, calls, timers and ends of writes.

The changes come in two kinds. Most set `_dirty`; the ones that the processing of
a query response makes (`_setRawStoredDevicesForUser`,
`setRawStoredCrossSigningForUser`) and the start of a download leave it to the end
of the download.

`targetTime` is `Date.now + delay` in the source, with `Date.now` not called, so it
is the text of a function followed by the digits of the delay, and times are
compared as strings. Delays are those that `setTimeout` takes as they are, below
2 ^ 31.

The fields `changes` and those after it are ghosts: they count the changes and
remember the calls. [`saves_exact_iff`] says which runs do what `saveIfDirty`
promises.
-/
import MatrixSdk.Lib.System
import Mathlib.Data.Nat.Notation

set_option autoImplicit false

namespace MatrixSdk.Crypto

open MatrixSdk.Lib

/-! ## State and events -/

/-- The pending timer: when it is due, and the promise its callback will resolve. -/
structure SaveTimer where
  due : ℕ
  resolves : ℕ
  deriving DecidableEq, Repr

/-- A write in flight, with the number of changes that its data has. -/
structure SaveWrite (D : Type) where
  data : D
  syncToken : Option String
  resolves : ℕ
  changes : ℕ

/-- The fields of a `DeviceList` that saving has to do with, the clock and the store. `D` is what
`_devices`, `_crossSigningInfo` and `_deviceTrackingStatus` hold. -/
structure DeviceListSaves (D : Type) where
  data : D
  syncToken : Option String
  dirty : Bool
  savePromise : Option ℕ
  savePromiseTime : Option String
  saveTimer : Option SaveTimer
  /-- The writes in flight, in the order they were started. -/
  writes : List (SaveWrite D)
  stored : D
  storedSyncToken : Option String
  now : ℕ
  nextPromise : ℕ
  /-- How many changes there have been. -/
  changes : ℕ
  /-- How many of the changes, the oldest ones, have been in a write that ended well. -/
  persisted : ℕ
  /-- The calls of `saveIfDirty`, each with the number of changes before it and the promise
  it returned; `none` is one resolved with `false`. -/
  calls : List (Option ℕ × ℕ)
  resolved : List ℕ
  /-- The times by which a save has been asked for since the last one was started. -/
  requested : List ℕ

inductive SaveEvent (D : Type)
  /-- A change that sets `_dirty`. -/
  | change (data : D)
  /-- A change that does not. -/
  | setRaw (data : D)
  | setSyncToken (st : Option String)
  | saveIfDirty (delay : Option ℕ)
  | timePasses (ms : ℕ)
  | timerFires
  /-- The `i`-th write ends. -/
  | writeEnds (i : ℕ)
  | writeFails (i : ℕ)

/-- `Date.now + delay`. -/
def targetTime (delay : ℕ) : String := "function now() { [native code] }" ++ toString delay

namespace DeviceListSaves

variable {D : Type}

/-- After `load`. -/
def load (stored : D) (syncToken : Option String) : DeviceListSaves D where
  data := stored
  syncToken := syncToken
  dirty := false
  savePromise := none
  savePromiseTime := none
  saveTimer := none
  writes := []
  stored := stored
  storedSyncToken := syncToken
  now := 0
  nextPromise := 0
  changes := 0
  persisted := 0
  calls := []
  resolved := []
  requested := []

/-- "There's a save scheduled but for after we would like". -/
def reschedules (s : DeviceListSaves D) (delay : ℕ) : Bool :=
  s.savePromiseTime.any fun time => targetTime delay < time

/-- The first `if` of `saveIfDirty` that is about times: "cancel it & schedule one for the time we
want". -/
def cancelTimer (s : DeviceListSaves D) (delay : ℕ) : DeviceListSaves D :=
  if s.reschedules delay then { s with saveTimer := none, savePromiseTime := none } else s

/-- The promise that is returned, a new one if there is none. -/
def ensurePromise (s : DeviceListSaves D) : DeviceListSaves D × ℕ :=
  match s.savePromise with
  | some promise => (s, promise)
  | none =>
    ({ s with savePromise := some s.nextPromise, nextPromise := s.nextPromise + 1 }, s.nextPromise)

/-- The last `if` of `saveIfDirty`. -/
def ensureTimer (s : DeviceListSaves D) (delay promise : ℕ) : DeviceListSaves D :=
  match s.saveTimer with
  | some _ => s
  | none =>
    { s with
      savePromiseTime := some (targetTime delay)
      saveTimer := some ⟨s.now + delay, promise⟩ }

/-- `saveIfDirty`. -/
def saveIfDirty (s : DeviceListSaves D) (delay : Option ℕ) : DeviceListSaves D :=
  if !s.dirty then { s with calls := (none, s.changes) :: s.calls }
  else
    let delay := delay.getD 500
    let (s, promise) := (s.cancelTimer delay).ensurePromise
    { s.ensureTimer delay promise with
      calls := (some promise, s.changes) :: s.calls
      requested := (s.now + delay) :: s.requested }

/-- The callback of the timer: the write is started. -/
def timerFires (s : DeviceListSaves D) (timer : SaveTimer) : DeviceListSaves D :=
  { s with
    savePromiseTime := none
    saveTimer := none
    savePromise := none
    writes := s.writes ++ [⟨s.data, s.syncToken, timer.resolves, s.changes⟩]
    requested := [] }

/-- The write ends: "the device list is considered dirty until the write completes". -/
def writeEnds (s : DeviceListSaves D) (i : ℕ) (write : SaveWrite D) : DeviceListSaves D :=
  { s with
    writes := s.writes.eraseIdx i
    stored := write.data
    storedSyncToken := write.syncToken
    dirty := false
    persisted := max s.persisted write.changes
    resolved := write.resolves :: s.resolved }

def step (s : DeviceListSaves D) : SaveEvent D → Option (DeviceListSaves D)
  | .change data => some { s with data := data, dirty := true, changes := s.changes + 1 }
  | .setRaw data => some { s with data := data, changes := s.changes + 1 }
  | .setSyncToken st => some { s with syncToken := st }
  | .saveIfDirty delay => some (s.saveIfDirty delay)
  | .timePasses ms => some { s with now := s.now + ms }
  | .timerFires => s.saveTimer.bind fun timer =>
    if timer.due ≤ s.now then some (s.timerFires timer) else none
  | .writeEnds i => s.writes[i]?.map (s.writeEnds i)
  | .writeFails i => s.writes[i]?.map fun _ => { s with writes := s.writes.eraseIdx i }

/-- The life of a device list that was loaded with `stored`. -/
def system (stored : D) (syncToken : Option String) : System (DeviceListSaves D) (SaveEvent D) where
  init := load stored syncToken
  step := step

/-! ## What `saveIfDirty` promises -/

/-- What the store has is what is in memory, unless there is more to come. -/
def StoredWhenClean (s : DeviceListSaves D) : Prop :=
  s.saveTimer = none → s.writes = [] → s.dirty = false → s.stored = s.data

/-- The changes made before a call have been persisted once its promise is resolved. -/
def ResolvedWhenPersisted (s : DeviceListSaves D) : Prop :=
  ∀ promise changes, (promise, changes) ∈ s.calls → (∀ id, promise = some id → id ∈ s.resolved) →
    changes ≤ s.persisted

/-- A save is due by each of the times it has been asked for. -/
def SavedInTime (s : DeviceListSaves D) : Prop :=
  ∀ time ∈ s.requested, ∃ timer, s.saveTimer = some timer ∧ timer.due ≤ time

/-- All three. -/
structure SavesExact (s : DeviceListSaves D) : Prop where
  clean : s.StoredWhenClean
  resolved : s.ResolvedWhenPersisted
  inTime : s.SavedInTime

/-- Once the `i`-th write is over, nothing more is to come. -/
def LastToCome (s : DeviceListSaves D) (i : ℕ) : Prop :=
  s.saveTimer = none ∧ s.writes.eraseIdx i = []

/-- The condition on an event. -/
def EventSaves (s : DeviceListSaves D) : SaveEvent D → Prop
  | .change _ | .setSyncToken _ | .timePasses _ | .timerFires => True
  -- a change that does not set the flag is to be saved by something that is under way
  | .setRaw data => s.saveTimer = none → s.writes = [] → s.dirty = false → s.stored = data
  | .saveIfDirty delay =>
    if s.dirty then
      ∀ timer, s.saveTimer = some timer →
        -- the strings compare like the times
        if s.reschedules (delay.getD 500) then s.now + delay.getD 500 ≤ timer.due
        else timer.due ≤ s.now + delay.getD 500
    else s.changes ≤ s.persisted
  -- a write that ends has the changes made meanwhile, or something more is to come
  | .writeEnds i => s.LastToCome i → ∀ write, s.writes[i]? = some write → write.data = s.data
  -- the flag has not been reset by a write that was started before the one that fails
  | .writeFails i => s.LastToCome i → s.dirty = false → s.stored = s.data

/-! ## What a call does -/

variable {s s' : DeviceListSaves D}

/-- The timer there is after a call on a dirty list. -/
def timerAfter (s : DeviceListSaves D) (delay : ℕ) : SaveTimer :=
  match s.saveTimer with
  | none => ⟨s.now + delay, s.nextPromise⟩
  | some timer =>
    ⟨if s.reschedules delay then s.now + delay else timer.due, timer.resolves⟩

/-- What holds of every state. -/
structure Coherent (s : DeviceListSaves D) : Prop where
  promise : s.savePromise = s.saveTimer.map SaveTimer.resolves
  /-- A timer is due when someone wanted it. -/
  asked : ∀ timer, s.saveTimer = some timer → timer.due ∈ s.requested
  /-- The promise of a pending timer is nobody else's. -/
  pending : ∀ timer, s.saveTimer = some timer → timer.resolves < s.nextPromise ∧
    timer.resolves ∉ s.resolved ∧ ∀ write ∈ s.writes, write.resolves ≠ timer.resolves
  /-- A write has the changes made before the calls whose promise it will resolve. -/
  written : ∀ write ∈ s.writes, write.resolves < s.nextPromise ∧
    ∀ changes, (some write.resolves, changes) ∈ s.calls → changes ≤ write.changes
  resolved_lt : ∀ id ∈ s.resolved, id < s.nextPromise
  calls_le : ∀ promise changes, (promise, changes) ∈ s.calls →
    changes ≤ s.changes ∧ ∀ id, promise = some id → id < s.nextPromise

theorem saveIfDirty_clean (delay : Option ℕ) (hdirty : s.dirty = false) :
    s.saveIfDirty delay = { s with calls := (none, s.changes) :: s.calls } := by
  unfold saveIfDirty
  rw [hdirty]
  rfl

/-- A call on a dirty list returns the promise of a timer that is pending afterwards. -/
theorem saveIfDirty_dirty (delay : Option ℕ) (hs : s.Coherent) (hdirty : s.dirty = true) :
    ∃ time nextPromise, s.nextPromise ≤ nextPromise ∧
      (s.timerAfter (delay.getD 500)).resolves < nextPromise ∧
      s.saveIfDirty delay = { s with
        savePromise := some (s.timerAfter (delay.getD 500)).resolves
        savePromiseTime := time
        saveTimer := some (s.timerAfter (delay.getD 500))
        nextPromise := nextPromise
        calls := (some (s.timerAfter (delay.getD 500)).resolves, s.changes) :: s.calls
        requested := (s.now + delay.getD 500) :: s.requested } := by
  obtain ⟨hpromise, -, hpending, -, -, -⟩ := hs
  unfold saveIfDirty timerAfter
  generalize delay.getD 500 = delay
  rcases s with ⟨data, syncToken, dirty, savePromise, savePromiseTime, saveTimer⟩
  dsimp only at hdirty hpromise hpending ⊢
  subst hdirty hpromise
  generalize hsoon : reschedules _ delay = soon
  simp only [Bool.not_true, Bool.false_eq_true, if_false, cancelTimer, hsoon]
  cases saveTimer with
  | none =>
    refine ⟨some (targetTime delay), _, Nat.le_succ _, Nat.lt_succ_self _, ?_⟩
    cases soon <;> rfl
  | some timer =>
    refine ⟨if soon then some (targetTime delay) else savePromiseTime, _, Nat.le_refl _,
      (hpending timer rfl).1, ?_⟩
    cases soon <;> rfl

/-! ## The invariant -/

theorem coherent_load (stored : D) (syncToken : Option String) :
    (load stored syncToken).Coherent where
  promise := rfl
  asked _ h := nomatch h
  pending _ h := nomatch h
  written _ h := absurd h List.not_mem_nil
  resolved_lt _ h := absurd h List.not_mem_nil
  calls_le _ _ h := absurd h List.not_mem_nil

theorem Coherent.saveIfDirty (hs : s.Coherent) (delay : Option ℕ) :
    (s.saveIfDirty delay).Coherent := by
  cases hdirty : s.dirty with
  | false =>
    rw [saveIfDirty_clean delay hdirty]
    refine { hs with written := fun write hwrite => ?_, calls_le := fun promise changes hcall => ?_ }
    · refine ⟨(hs.written write hwrite).1, fun changes hcall => ?_⟩
      rcases List.mem_cons.1 hcall with heq | hcall
      · exact nomatch (Prod.mk.inj heq).1
      · exact (hs.written write hwrite).2 changes hcall
    · rcases List.mem_cons.1 hcall with heq | hcall
      · obtain ⟨rfl, rfl⟩ := Prod.mk.inj heq
        exact ⟨Nat.le_refl _, fun _ h => nomatch h⟩
      · exact hs.calls_le promise changes hcall
  | true =>
    obtain ⟨time, nextPromise, hle, hlt, heq⟩ := saveIfDirty_dirty delay hs hdirty
    rw [heq]
    -- the promise that is returned belongs to no write and is not resolved
    have hfresh : (s.timerAfter (delay.getD 500)).resolves ∉ s.resolved ∧
        ∀ write ∈ s.writes, write.resolves ≠ (s.timerAfter (delay.getD 500)).resolves := by
      cases htimer : s.saveTimer with
      | none =>
        have hnext : (s.timerAfter (delay.getD 500)).resolves = s.nextPromise := by
          rw [timerAfter, htimer]
        rw [hnext]
        refine ⟨fun hmem => ?_, fun write hwrite hid => ?_⟩
        · exact absurd (hs.resolved_lt _ hmem) (Nat.lt_irrefl _)
        · exact absurd (hid ▸ (hs.written write hwrite).1) (Nat.lt_irrefl _)
      | some timer =>
        have hsame : (s.timerAfter (delay.getD 500)).resolves = timer.resolves := by
          rw [timerAfter, htimer]
        rw [hsame]
        exact (hs.pending timer htimer).2
    constructor
    · rfl
    · rintro _ ⟨⟩
      show (s.timerAfter (delay.getD 500)).due ∈ _ :: _
      cases htimer : s.saveTimer with
      | none =>
        rw [timerAfter, htimer]
        exact List.mem_cons_self
      | some timer =>
        rw [timerAfter, htimer]
        dsimp only
        split
        · exact List.mem_cons_self
        · exact List.mem_cons_of_mem _ (hs.asked timer htimer)
    · rintro _ ⟨⟩
      exact ⟨hlt, hfresh⟩
    · intro write hwrite
      refine ⟨Nat.lt_of_lt_of_le (hs.written write hwrite).1 hle, fun changes hcall => ?_⟩
      rcases List.mem_cons.1 hcall with heq | hcall
      · exact absurd (Option.some.inj (Prod.mk.inj heq).1) (hfresh.2 write hwrite)
      · exact (hs.written write hwrite).2 changes hcall
    · exact fun id hid => Nat.lt_of_lt_of_le (hs.resolved_lt id hid) hle
    · intro promise changes hcall
      rcases List.mem_cons.1 hcall with heq | hcall
      · obtain ⟨rfl, rfl⟩ := Prod.mk.inj heq
        refine ⟨Nat.le_refl _, ?_⟩
        rintro _ ⟨⟩
        exact hlt
      · obtain ⟨hchanges, hids⟩ := hs.calls_le promise changes hcall
        exact ⟨hchanges, fun id hid => Nat.lt_of_lt_of_le (hids id hid) hle⟩

theorem Coherent.timerFires (hs : s.Coherent) {timer : SaveTimer}
    (htimer : s.saveTimer = some timer) : (s.timerFires timer).Coherent where
  promise := rfl
  asked _ h := nomatch h
  pending _ h := nomatch h
  written write hwrite := by
    rcases List.mem_append.1 hwrite with hwrite | hwrite
    · exact hs.written write hwrite
    · obtain rfl := List.mem_singleton.1 hwrite
      -- the data of the write has every change there has been
      exact ⟨(hs.pending timer htimer).1, fun changes hcall => (hs.calls_le _ changes hcall).1⟩
  resolved_lt := hs.resolved_lt
  calls_le := hs.calls_le

/-- A write that is over, however it ended, is one write less. -/
theorem Coherent.eraseWrite (hs : s.Coherent) (i : ℕ) :
    Coherent { s with writes := s.writes.eraseIdx i } :=
  { hs with
    pending := fun timer htimer =>
      ⟨(hs.pending timer htimer).1, (hs.pending timer htimer).2.1, fun write hwrite =>
        (hs.pending timer htimer).2.2 write (List.mem_of_mem_eraseIdx hwrite)⟩
    written := fun write hwrite => hs.written write (List.mem_of_mem_eraseIdx hwrite) }

theorem Coherent.writeEnds (hs : s.Coherent) {i : ℕ} {write : SaveWrite D}
    (hwrite : s.writes[i]? = some write) : (s.writeEnds i write).Coherent := by
  have hmem := List.mem_of_getElem? hwrite
  have herase := hs.eraseWrite i
  refine { herase with pending := fun timer htimer => ?_, resolved_lt := fun id hid => ?_ }
  · obtain ⟨hlt, hnot, hothers⟩ := herase.pending timer htimer
    refine ⟨hlt, fun hid => ?_, hothers⟩
    rcases List.mem_cons.1 hid with heq | hid
    · exact (hs.pending timer htimer).2.2 write hmem heq.symm
    · exact hnot hid
  · rcases List.mem_cons.1 hid with rfl | hid
    · exact (hs.written write hmem).1
    · exact hs.resolved_lt id hid

/-- **The invariant is kept** by every event. -/
theorem Coherent.step (hs : s.Coherent) {e : SaveEvent D} (h : s.step e = some s') :
    s'.Coherent := by
  cases e with
  | change data | setRaw data =>
    obtain rfl := Option.some.inj h
    refine { hs with calls_le := fun promise changes hcall => ?_ }
    exact ⟨Nat.le_succ_of_le (hs.calls_le promise changes hcall).1,
      (hs.calls_le promise changes hcall).2⟩
  | setSyncToken st | timePasses ms =>
    obtain rfl := Option.some.inj h
    exact { hs with }
  | saveIfDirty delay =>
    obtain rfl := Option.some.inj h
    exact hs.saveIfDirty delay
  | timerFires =>
    obtain ⟨timer, htimer, h⟩ := Option.bind_eq_some_iff.1 h
    split at h
    · obtain rfl := Option.some.inj h
      exact hs.timerFires htimer
    · exact nomatch h
  | writeEnds i =>
    obtain ⟨write, hwrite, rfl⟩ := Option.map_eq_some_iff.1 h
    exact hs.writeEnds hwrite
  | writeFails i =>
    obtain ⟨write, hwrite, rfl⟩ := Option.map_eq_some_iff.1 h
    exact hs.eraseWrite i

/-! ## Which events keep the promises -/

/-- A call on a clean list promises that there is nothing to save. -/
theorem savesExact_clean_iff (delay : Option ℕ) (hexact : s.SavesExact) (hdirty : s.dirty = false) :
    (s.saveIfDirty delay).SavesExact ↔ s.changes ≤ s.persisted := by
  rw [saveIfDirty_clean delay hdirty]
  constructor
  · intro h
    exact h.resolved none s.changes List.mem_cons_self fun _ h => nomatch h
  · intro hpersisted
    refine ⟨hexact.clean, fun promise changes hcall hresolved => ?_, hexact.inTime⟩
    rcases List.mem_cons.1 hcall with heq | hcall
    · obtain ⟨-, rfl⟩ := Prod.mk.inj heq
      exact hpersisted
    · exact hexact.resolved promise changes hcall hresolved

/-- A call on a dirty list is late only where the strings do not compare like the times. -/
theorem savesExact_dirty_iff (delay : Option ℕ) (hs : s.Coherent) (hexact : s.SavesExact)
    (hdirty : s.dirty = true) :
    (s.saveIfDirty delay).SavesExact ↔ ∀ timer, s.saveTimer = some timer →
      if s.reschedules (delay.getD 500) then s.now + delay.getD 500 ≤ timer.due
      else timer.due ≤ s.now + delay.getD 500 := by
  obtain ⟨time, nextPromise, -, -, heq⟩ := saveIfDirty_dirty delay hs hdirty
  have hcoherent := hs.saveIfDirty delay
  have hinv := hexact.inTime
  rw [heq] at hcoherent ⊢
  generalize delay.getD 500 = delay at *
  have hiff : SavedInTime { s with
      savePromise := some (s.timerAfter delay).resolves
      savePromiseTime := time
      saveTimer := some (s.timerAfter delay)
      nextPromise := nextPromise
      calls := (some (s.timerAfter delay).resolves, s.changes) :: s.calls
      requested := (s.now + delay) :: s.requested } ↔
      ∀ time ∈ (s.now + delay) :: s.requested, (s.timerAfter delay).due ≤ time := by
    constructor
    · intro h time htime
      obtain ⟨timer, htimer, hdue⟩ := h time htime
      obtain rfl := Option.some.inj htimer
      exact hdue
    · exact fun h time htime => ⟨_, rfl, h time htime⟩
  have hdue : (∀ time ∈ (s.now + delay) :: s.requested, (s.timerAfter delay).due ≤ time) ↔
      ∀ timer, s.saveTimer = some timer →
        if s.reschedules delay then s.now + delay ≤ timer.due
        else timer.due ≤ s.now + delay := by
    rw [timerAfter]
    cases htimer : s.saveTimer with
    | none =>
      refine ⟨fun _ _ h => (nomatch h), fun _ time htime => ?_⟩
      rcases List.mem_cons.1 htime with rfl | htime
      · exact Nat.le_refl _
      · obtain ⟨timer, hsome, -⟩ := hinv time htime
        rw [htimer] at hsome
        exact nomatch hsome
    | some timer =>
      have hall : ∀ time ∈ s.requested, timer.due ≤ time := by
        intro time htime
        obtain ⟨timer', hsome, hle⟩ := hinv time htime
        obtain rfl := Option.some.inj (htimer.symm.trans hsome)
        exact hle
      simp only [Option.some.injEq, forall_eq', List.mem_cons, forall_eq_or_imp]
      split
      · -- the new time has to be no later than the one the timer had
        refine ⟨fun h => h.2 _ (hs.asked timer htimer), fun h => ⟨Nat.le_refl _, ?_⟩⟩
        exact fun time htime => Nat.le_trans h (hall time htime)
      · exact ⟨fun h => h.1, fun h => ⟨h, hall⟩⟩
  rw [← hdue, ← hiff]
  constructor
  · exact fun h => h.inTime
  · intro hintime
    refine ⟨fun hnone => (nomatch hnone), fun promise changes hcall hresolved => ?_, hintime⟩
    rcases List.mem_cons.1 hcall with heq | hcall
    · obtain ⟨rfl, -⟩ := Prod.mk.inj heq
      exact absurd (hresolved _ rfl) (hcoherent.pending _ rfl).2.1
    · exact hexact.resolved promise changes hcall hresolved

theorem savesExact_writeEnds_iff (hs : s.Coherent) (hexact : s.SavesExact) {i : ℕ}
    {write : SaveWrite D} (hwrite : s.writes[i]? = some write) :
    (s.writeEnds i write).SavesExact ↔ (s.LastToCome i → write.data = s.data) := by
  constructor
  · exact fun h hlast => h.clean hlast.1 hlast.2 rfl
  · intro hlast
    refine ⟨fun htimer hwrites _ => hlast ⟨htimer, hwrites⟩, ?_, hexact.inTime⟩
    intro promise changes hcall hresolved
    show changes ≤ max s.persisted write.changes
    by_cases hown : promise = some write.resolves
    · have hle := (hs.written write (List.mem_of_getElem? hwrite)).2 changes (hown ▸ hcall)
      omega
    · have hle := hexact.resolved promise changes hcall fun id hid => by
        rcases List.mem_cons.1 (hresolved id hid) with rfl | hmem
        · exact absurd hid hown
        · exact hmem
      omega

theorem savesExact_step_iff (hs : s.Coherent) (hexact : s.SavesExact) {e : SaveEvent D}
    (h : s.step e = some s') : s'.SavesExact ↔ s.EventSaves e := by
  cases e with
  | change data =>
    obtain rfl := Option.some.inj h
    exact ⟨fun _ => trivial, fun _ => ⟨fun _ _ hd => (nomatch hd), hexact.resolved, hexact.inTime⟩⟩
  | setRaw data =>
    obtain rfl := Option.some.inj h
    exact ⟨fun h => h.clean, fun h => ⟨h, hexact.resolved, hexact.inTime⟩⟩
  | setSyncToken st | timePasses ms =>
    obtain rfl := Option.some.inj h
    exact ⟨fun _ => trivial, fun _ => ⟨hexact.clean, hexact.resolved, hexact.inTime⟩⟩
  | saveIfDirty delay =>
    obtain rfl := Option.some.inj h
    show _ ↔ if s.dirty then _ else _
    cases hdirty : s.dirty with
    | false => exact savesExact_clean_iff delay hexact hdirty
    | true => exact savesExact_dirty_iff delay hs hexact hdirty
  | timerFires =>
    obtain ⟨timer, htimer, h⟩ := Option.bind_eq_some_iff.1 h
    split at h
    · obtain rfl := Option.some.inj h
      refine ⟨fun _ => trivial, fun _ => ⟨fun _ hwrites => ?_, hexact.resolved, ?_⟩⟩
      · exact absurd hwrites (List.append_ne_nil_of_right_ne_nil _ (List.cons_ne_nil _ _))
      · exact fun _ hmem => absurd hmem List.not_mem_nil
    · exact nomatch h
  | writeEnds i =>
    obtain ⟨write, hwrite, rfl⟩ := Option.map_eq_some_iff.1 h
    rw [savesExact_writeEnds_iff hs hexact hwrite]
    show _ ↔ (s.LastToCome i → ∀ write, s.writes[i]? = some write → write.data = s.data)
    rw [hwrite]
    simp only [Option.some.injEq, forall_eq']
  | writeFails i =>
    obtain ⟨write, hwrite, rfl⟩ := Option.map_eq_some_iff.1 h
    constructor
    · exact fun h hlast hdirty => h.clean hlast.1 hlast.2 hdirty
    · exact fun h => ⟨fun htimer hwrites => h ⟨htimer, hwrites⟩, hexact.resolved, hexact.inTime⟩

theorem savesExact_load (stored : D) (syncToken : Option String) :
    (load stored syncToken).SavesExact where
  clean _ _ _ := rfl
  resolved _ _ h := absurd h List.not_mem_nil
  inTime _ h := absurd h List.not_mem_nil

/-- **Which runs keep the promises of `saveIfDirty`**, in every state: those in which no write
ends for the last time with changes made since it was started, no call finds the flag reset
although there is something to save, and no two delays compare differently as strings. -/
theorem saves_exact_iff {stored : D} {syncToken : Option String}
    {tr : List (DeviceListSaves D × SaveEvent D)}
    (h : (system stored syncToken).Trace tr s) :
    System.HoldsAlong SavesExact tr s ↔ System.Meets EventSaves tr :=
  h.holdsAlong_iff (I := Coherent) (P := SavesExact) (coherent_load stored syncToken)
    (fun _ _ _ hs hstep => hs.step hstep) (savesExact_load stored syncToken)
    fun _ _ _ hs hexact hstep => savesExact_step_iff hs hexact hstep

/-! ## A change while the data is written, and two delays -/

/-- The second change comes between the start of the write and its end. -/
def changedWhileWriting : List (SaveEvent ℕ) :=
  [.change 1, .saveIfDirty none, .timePasses 500, .timerFires, .change 2, .writeEnds 0]

/-- A save is due in 500 ms when one in 1000 ms is asked for: `"1000" < "500"`. -/
def postponed : List (SaveEvent ℕ) :=
  [.change 1, .saveIfDirty (some 500), .saveIfDirty (some 1000)]

/-- The change is in memory only and nothing will save it; the save is late by 500 ms. -/
theorem saves_exact_fails :
    (∃ s, (system 0 none).run changedWhileWriting = some s ∧ ¬ s.StoredWhenClean) ∧
      ∃ s, (system 0 none).run postponed = some s ∧ ¬ s.SavedInTime := by
  constructor
  · refine ⟨_, rfl, fun h => ?_⟩
    exact absurd (h rfl rfl rfl) (by decide)
  · have hrun : ((system 0 none).run postponed).map (fun s => (s.saveTimer, s.requested)) =
        some (some ⟨1000, 0⟩, [1000, 500]) := by decide +kernel
    obtain ⟨s, hs, heq⟩ := Option.map_eq_some_iff.1 hrun
    obtain ⟨htimer, hrequested⟩ := Prod.mk.inj heq
    refine ⟨s, hs, fun h => ?_⟩
    obtain ⟨timer, hsome, hdue⟩ := h 500 (by rw [hrequested]; decide)
    obtain rfl := Option.some.inj (htimer.symm.trans hsome)
    exact absurd hdue (by decide)

/-- A run in which nothing changes while the data is written. -/
theorem saves_exact_iff_saved : ∃ s, (system 0 none).run [.change 1, .saveIfDirty (some 1),
    .timePasses 1, .timerFires, .writeEnds 0, .saveIfDirty none] = some s ∧ s.stored = 1 ∧
      s.SavesExact := by
  refine ⟨_, rfl, rfl, ?_⟩
  have hrun : (system 0 none).Trace _ _ := (((((System.Trace.start.snoc (e := .change 1) rfl).snoc
    (e := .saveIfDirty (some 1)) rfl).snoc (e := .timePasses 1) rfl).snoc (e := .timerFires) rfl).snoc
    (e := .writeEnds 0) rfl).snoc (e := .saveIfDirty none) rfl
  refine ((saves_exact_iff hrun).2 ?_).2
  simp only [System.meets_snoc]
  refine ⟨⟨⟨⟨⟨⟨fun p hp => absurd hp List.not_mem_nil, trivial⟩, ?_⟩, trivial⟩, trivial⟩, ?_⟩, ?_⟩
  · exact fun _ h => nomatch h
  · rintro - _ ⟨⟩
    rfl
  · exact Nat.le_refl 1

end DeviceListSaves

end MatrixSdk.Crypto
