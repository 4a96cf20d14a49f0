/-
The stored devices of one user while `/keys/query` responses are processed
(`_processQueryResponseForUser` of `src/crypto/DeviceList.js`) and the user calls
`setDeviceVerification` in between.

Processing copies the stored list, goes through the response one device at a time
with an `await` for each, and replaces the stored list by the copy. The calls
change the stored list at once. The serialiser has one request in flight, so one
response is processed at a time.

Two fields are ghosts: `decided d` is the last status a call gave to the device
`d`, as long as the device stays in the list, and `firstKey d` is the ed25519 key
under which `d` came into the list.

A status that is set while a response is processed is lost when the copy is
stored. [`preserved_along_iff`] says that this is the only way to lose one.
-/
import MatrixSdk.Crypto.DeviceInfo
import MatrixSdk.Lib.System

set_option autoImplicit false

namespace MatrixSdk.Crypto

open MatrixSdk.Lib

/-! ## State and events -/

/-- A response being processed: `userStore` is the copy that is worked on, `copied` the
list it was copied from, `remaining` are the devices still to come. -/
structure ResponseProcessing where
  copied : JsObject String DeviceInfo
  userStore : JsObject String DeviceInfo
  response : JsObject String DeviceKeys
  remaining : List String

/-- What is stored for one user. An undefined device list and an empty one are told
apart nowhere. -/
structure UserDevices where
  devices : JsObject String DeviceInfo
  crossSigningId : Option String
  processing : Option ResponseProcessing
  decided : String → Option DeviceStatus
  firstKey : String → Option String

inductive UserDevicesEvent
  /-- A response arrives; `none` if it does not have the user. -/
  | processQueryResponse (dkResponse : Option (JsObject String DeviceKeys))
  /-- The loop takes its next device, whose signature has been checked. -/
  | nextDevice
  /-- The loop is done and the copy is stored. -/
  | storeDevices
  /-- Processing throws, which the caller logs. -/
  | processingThrows
  | setDeviceVerification (deviceId : String) (verified blocked known : Option Bool)
  /-- Anything that changes the stored cross-signing keys of the user. -/
  | crossSigningUpdated (crossSigningId : Option String)

namespace UserDevices

/-- The list that is found in the store at the beginning. -/
def load (stored : JsObject String DeviceInfo) : UserDevices where
  devices := stored
  crossSigningId := none
  processing := none
  decided _ := none
  firstKey d := (stored.get d).bind fun dev => dev.getFingerprint d

/-- The beginning of `_processQueryResponseForUser`, and of
`_updateStoredDeviceKeysForUser` up to the loop. -/
def processQueryResponse (s : UserDevices) (dkResponse : Option (JsObject String DeviceKeys)) :
    Option UserDevices :=
  if s.processing.isSome then none
  else
    let userResult := dkResponse.getD .empty
    -- devices that are not in the response have been removed
    let userStore := s.devices.filter fun d => (userResult.get d).isSome
    some { s with processing := some ⟨s.devices, userStore, userResult, userResult.keys⟩ }

/-- The body of the loop of `_updateStoredDeviceKeysForUser`. -/
def updateStoredDevice (olmVerify : String → DeviceKeys → String → Bool) (userId : String)
    (userStore : JsObject String DeviceInfo) (deviceId : String) (deviceResult : DeviceKeys) :
    JsObject String DeviceInfo :=
  if deviceResult.userId ≠ userId then userStore
  else if deviceResult.deviceId ≠ deviceId then userStore
  else storeDeviceKeys olmVerify userStore deviceResult

/-- One turn of the loop over the devices of the response. -/
def nextDevice (olmVerify : String → DeviceKeys → String → Bool) (userId : String)
    (s : UserDevices) : Option UserDevices :=
  s.processing.bind fun p =>
    match p.remaining with
    | [] => none
    | deviceId :: rest => (p.response.get deviceId).map fun deviceResult =>
      { s with processing := some { p with
        userStore := updateStoredDevice olmVerify userId p.userStore deviceId deviceResult
        remaining := rest } }

/-- `_setRawStoredDevicesForUser`. -/
def storeDevices (s : UserDevices) : Option UserDevices :=
  s.processing.bind fun p =>
    if p.remaining ≠ [] then none
    else some
      { s with
        devices := p.userStore
        processing := none
        decided := fun d =>
          if (s.devices.get d).isSome ∧ (p.userStore.get d).isSome then s.decided d else none
        firstKey := fun d =>
          if (s.devices.get d).isSome then s.firstKey d
          else (p.userStore.get d).bind fun dev => dev.getFingerprint d }

/-- `setDeviceVerification`; where it throws, it has changed nothing. -/
def setVerification (userId : String) (s : UserDevices) (deviceId : String)
    (verified blocked known : Option Bool) : UserDevices :=
  match setDeviceVerification s.crossSigningId s.devices userId deviceId verified blocked known with
  | .ok (.device dev) =>
    { s with
      devices := s.devices.set deviceId dev
      decided := Function.update s.decided deviceId (some dev.status) }
  | _ => s

end UserDevices

section Run

variable (olmVerify : String → DeviceKeys → String → Bool) (userId : String)

/-- One synchronous stretch of code. -/
def userDevicesStep (s : UserDevices) : UserDevicesEvent → Option UserDevices
  | .processQueryResponse r => s.processQueryResponse r
  | .nextDevice => s.nextDevice olmVerify userId
  | .storeDevices => s.storeDevices
  | .processingThrows => some { s with processing := none }
  | .setDeviceVerification d verified blocked known =>
    some (s.setVerification userId d verified blocked known)
  | .crossSigningUpdated id => some { s with crossSigningId := id }

/-- All runs that begin with the list `stored`. -/
def userDevicesSystem (stored : JsObject String DeviceInfo) :
    System UserDevices UserDevicesEvent where
  init := .load stored
  step := userDevicesStep olmVerify userId

end Run

/-! ## The invariant -/

namespace UserDevices

section UpdateStoredDevice

variable (olmVerify : String → DeviceKeys → String → Bool) (userId : String)

/-- A turn of the loop keeps the status and the fingerprint of every device. -/
theorem updateStoredDevice_stored {userStore : JsObject String DeviceInfo} (deviceId : String)
    (deviceResult : DeviceKeys) {d : String} {dev : DeviceInfo} (h : userStore.get d = some dev) :
    ∃ dev', (updateStoredDevice olmVerify userId userStore deviceId deviceResult).get d = some dev' ∧
      dev'.status = dev.status ∧ dev'.getFingerprint d = dev.getFingerprint d := by
  unfold updateStoredDevice
  split
  · exact ⟨dev, h, rfl, rfl⟩
  · split
    · exact ⟨dev, h, rfl, rfl⟩
    · exact storeDeviceKeys_stored olmVerify deviceResult h

/-- A turn of the loop adds no other device than the one it is about. -/
theorem updateStoredDevice_ne (userStore : JsObject String DeviceInfo) {deviceId : String}
    (deviceResult : DeviceKeys) {d : String} (hd : d ≠ deviceId) :
    (updateStoredDevice olmVerify userId userStore deviceId deviceResult).get d =
      userStore.get d := by
  unfold updateStoredDevice
  split
  · rfl
  · split
    · rfl
    next hid =>
      rw [ne_eq, not_not] at hid
      exact storeDeviceKeys_ne olmVerify userStore (by rw [hid]; exact hd)

end UpdateStoredDevice

/-- No decision of the user is lost, and no fingerprint changes. -/
structure Preserved (s : UserDevices) : Prop where
  status : ∀ d dev c, s.devices.get d = some dev → s.decided d = some c → dev.status = c
  fingerprint : ∀ d dev, s.devices.get d = some dev → dev.getFingerprint d = s.firstKey d

/-- How the copy that is worked on compares with the list it was copied from, and that
list with the stored one. -/
structure ProcessingInv (s : UserDevices) (p : ResponseProcessing) : Prop where
  /-- Only statuses change in the stored list meanwhile, and only by a decision. -/
  stored : ∀ d dev, s.devices.get d = some dev → ∃ c, p.copied.get d = some c ∧
    dev.getFingerprint d = c.getFingerprint d ∧
    (dev.status = c.status ∨ (s.decided d).isSome)
  /-- The copy keeps those devices that are in the response, as they are. -/
  kept : ∀ d c, p.copied.get d = some c → (p.response.get d).isSome →
    ∃ n, p.userStore.get d = some n ∧ n.status = c.status ∧
      n.getFingerprint d = c.getFingerprint d
  inResponse : ∀ d, (p.userStore.get d).isSome → (p.response.get d).isSome

/-- What holds in every run. -/
structure Inv (s : UserDevices) : Prop where
  fingerprint : ∀ d dev, s.devices.get d = some dev → dev.getFingerprint d = s.firstKey d
  processing : ∀ p, s.processing = some p → s.ProcessingInv p

namespace Inv

variable {s s' : UserDevices} {olmVerify : String → DeviceKeys → String → Bool} {userId : String}

theorem load (stored : JsObject String DeviceInfo) : (UserDevices.load stored).Inv := by
  refine ⟨fun d dev hdev => ?_, fun p hp => absurd hp (by simp [UserDevices.load])⟩
  change stored.get d = some dev at hdev
  simp [UserDevices.load, hdev]

theorem processQueryResponse (hI : s.Inv) {r : Option (JsObject String DeviceKeys)}
    (h : s.processQueryResponse r = some s') : s'.Inv := by
  unfold UserDevices.processQueryResponse at h
  split at h
  · exact absurd h (by simp)
  · obtain rfl := Option.some.inj h
    refine ⟨hI.fingerprint, fun p hp => ?_⟩
    obtain rfl := Option.some.inj hp
    refine ⟨fun d dev hdev => ⟨dev, hdev, rfl, .inl rfl⟩, fun d c hc hr => ?_, fun d hd => ?_⟩
    · refine ⟨c, ?_, rfl, rfl⟩
      simp only [JsObject.get_filter]
      rw [if_pos hr]
      exact hc
    · by_contra hr
      simp only [JsObject.get_filter] at hd
      rw [if_neg hr] at hd
      exact absurd hd (by simp)

theorem nextDevice (hI : s.Inv) (h : s.nextDevice olmVerify userId = some s') : s'.Inv := by
  obtain ⟨p, hp, h⟩ := Option.bind_eq_some_iff.1 h
  split at h
  · exact absurd h (by simp)
  next deviceId rest _ =>
    obtain ⟨deviceResult, hres, rfl⟩ := Option.map_eq_some_iff.1 h
    obtain ⟨hstored, hkept, hin⟩ := hI.processing p hp
    refine ⟨hI.fingerprint, fun p' hp' => ?_⟩
    obtain rfl := Option.some.inj hp'
    refine ⟨hstored, fun d c hc hr => ?_, fun d hd => ?_⟩
    · obtain ⟨n, hn, hst, hfp⟩ := hkept d c hc hr
      obtain ⟨n', hn', hst', hfp'⟩ :=
        updateStoredDevice_stored olmVerify userId deviceId deviceResult hn
      exact ⟨n', hn', hst'.trans hst, hfp'.trans hfp⟩
    · by_cases hd' : d = deviceId
      · rw [hd']
        simp [hres]
      · dsimp only at hd
        rw [updateStoredDevice_ne olmVerify userId p.userStore deviceResult hd'] at hd
        exact hin d hd

theorem storeDevices (hI : s.Inv) (h : s.storeDevices = some s') : s'.Inv := by
  obtain ⟨p, hp, h⟩ := Option.bind_eq_some_iff.1 h
  split at h
  · exact absurd h (by simp)
  · obtain rfl := Option.some.inj h
    obtain ⟨hstored, hkept, hin⟩ := hI.processing p hp
    refine ⟨fun d n hn => ?_, fun p hp' => absurd hp' (by simp)⟩
    dsimp only at hn ⊢
    split
    next hd =>
      -- a device that stays has the fingerprint it was copied with
      obtain ⟨dev, hdev⟩ := Option.isSome_iff_exists.1 hd
      obtain ⟨c, hc, hfp, _⟩ := hstored d dev hdev
      obtain ⟨n', hn', _, hfp'⟩ := hkept d c hc (hin d (by simp [hn]))
      obtain rfl : n = n' := by simpa [hn] using hn'
      rw [hfp', ← hfp]
      exact hI.fingerprint d dev hdev
    · rw [hn]
      rfl

theorem setVerification (hI : s.Inv) (d : String) (verified blocked known : Option Bool) :
    (s.setVerification userId d verified blocked known).Inv := by
  unfold UserDevices.setVerification
  split
  next dev heq =>
    obtain ⟨dev₀, hdev₀, hkeys, _⟩ := setDeviceVerification_device heq
    have hfp : dev.getFingerprint d = dev₀.getFingerprint d := by
      rw [DeviceInfo.getFingerprint, hkeys, DeviceInfo.getFingerprint]
    refine ⟨fun d' dev' hdev' => ?_, fun p hp => ?_⟩
    · dsimp only at hdev'
      by_cases hd : d' = d
      · subst hd
        rw [JsObject.get_set_self, Option.some.injEq] at hdev'
        rw [← hdev', hfp]
        exact hI.fingerprint d' dev₀ hdev₀
      · rw [JsObject.get_set_ne hd] at hdev'
        exact hI.fingerprint d' dev' hdev'
    · obtain ⟨hstored, hkept, hin⟩ := hI.processing p hp
      refine ⟨fun d' dev' hdev' => ?_, hkept, hin⟩
      dsimp only at hdev' ⊢
      by_cases hd : d' = d
      · subst hd
        rw [JsObject.get_set_self, Option.some.injEq] at hdev'
        obtain ⟨c, hc, hfp', _⟩ := hstored d' dev₀ hdev₀
        refine ⟨c, hc, ?_, .inr (by rw [Function.update_self]; rfl)⟩
        rw [← hdev', hfp, hfp']
      · rw [JsObject.get_set_ne hd] at hdev'
        rw [Function.update_of_ne hd]
        exact hstored d' dev' hdev'
  · exact hI

theorem step (hI : s.Inv) {e : UserDevicesEvent}
    (h : userDevicesStep olmVerify userId s e = some s') : s'.Inv := by
  cases e with
  | processQueryResponse r => exact hI.processQueryResponse h
  | nextDevice => exact hI.nextDevice h
  | storeDevices => exact hI.storeDevices h
  | processingThrows =>
    obtain rfl := Option.some.inj h
    exact ⟨hI.fingerprint, fun p hp => absurd hp (by simp)⟩
  | setDeviceVerification d verified blocked known =>
    exact Option.some.inj h ▸ hI.setVerification d verified blocked known
  | crossSigningUpdated id =>
    obtain rfl := Option.some.inj h
    exact ⟨hI.fingerprint, fun p hp => ⟨(hI.processing p hp).stored, (hI.processing p hp).kept,
      (hI.processing p hp).inResponse⟩⟩

end Inv

/-! ## When a decision is lost -/

/-- When the copy is stored, every device that the response keeps still has the status
in the stored list that it had when the list was copied: no call of
`setDeviceVerification` has changed it meanwhile. -/
def StatusesAsCopied (s : UserDevices) (e : UserDevicesEvent) : Prop :=
  e = .storeDevices → ∀ p ∈ s.processing, ∀ d dev c, s.devices.get d = some dev →
    p.copied.get d = some c → (p.response.get d).isSome → dev.status = c.status

/-- At the replacement: the copy has the statuses of the list it was copied from, so
decisions survive exactly when the stored list still has them too. -/
theorem preserved_storeDevices_iff {s s' : UserDevices} (hI : s.Inv) (hP : s.Preserved)
    (h : s.storeDevices = some s') : s'.Preserved ↔ s.StatusesAsCopied .storeDevices := by
  have hI' := hI.storeDevices h
  obtain ⟨p, hp, h⟩ := Option.bind_eq_some_iff.1 h
  split at h
  · exact absurd h (by simp)
  · obtain rfl := Option.some.inj h
    obtain ⟨hstored, hkept, hin⟩ := hI.processing p hp
    constructor
    · intro hP' _ p' hp' d dev c hdev hc hr
      obtain rfl : p' = p := by simpa [hp] using hp'.symm
      obtain ⟨n, hn, hst, _⟩ := hkept d c hc hr
      obtain ⟨c', hc', _, hor⟩ := hstored d dev hdev
      obtain rfl : c = c' := by simpa [hc] using hc'
      rcases hor with heq | hdec
      · exact heq
      · -- a status changed by a call is a decision, which the new list has to agree with
        obtain ⟨x, hx⟩ := Option.isSome_iff_exists.1 hdec
        have hnew : n.status = x := hP'.status d n x hn (by simp [hdev, hn, hx])
        rw [hP.status d dev x hdev hx, ← hnew, hst]
    · intro hC
      refine ⟨fun d n x hn hx => ?_, hI'.fingerprint⟩
      dsimp only at hn hx
      split at hx
      next hboth =>
        obtain ⟨dev, hdev⟩ := Option.isSome_iff_exists.1 hboth.1
        obtain ⟨c, hc, _, _⟩ := hstored d dev hdev
        have hr := hin d hboth.2
        obtain ⟨n', hn', hst, _⟩ := hkept d c hc hr
        obtain rfl : n = n' := by simpa [hn] using hn'
        rw [hst, ← hC rfl p hp d dev c hdev hc hr]
        exact hP.status d dev x hdev hx
      · exact absurd hx (by simp)

/-- A call of `setDeviceVerification` changes a status and the decision together. -/
theorem status_setVerification {s : UserDevices} (hP : s.Preserved) (userId d : String)
    (verified blocked known : Option Bool) {d' : String} {dev : DeviceInfo} {c : DeviceStatus}
    (hdev : (s.setVerification userId d verified blocked known).devices.get d' = some dev)
    (hc : (s.setVerification userId d verified blocked known).decided d' = some c) :
    dev.status = c := by
  unfold setVerification at hdev hc
  split at hdev
  next dev₁ heq =>
    simp only [heq] at hc
    by_cases hd : d' = d
    · subst hd
      rw [JsObject.get_set_self, Option.some.injEq] at hdev
      rw [Function.update_self, Option.some.injEq] at hc
      rw [← hdev, hc]
    · rw [JsObject.get_set_ne hd] at hdev
      rw [Function.update_of_ne hd] at hc
      exact hP.status d' dev c hdev hc
  next hne =>
    split at hc
    next heq => exact absurd heq (hne _)
    · exact hP.status d' dev c hdev hc

theorem preserved_step_iff {s s' : UserDevices} {e : UserDevicesEvent}
    {olmVerify : String → DeviceKeys → String → Bool} {userId : String} (hI : s.Inv)
    (hP : s.Preserved) (h : userDevicesStep olmVerify userId s e = some s') :
    s'.Preserved ↔ s.StatusesAsCopied e := by
  have hI' := hI.step h
  -- away from the replacement nothing is asked and nothing is lost
  have hother : e ≠ .storeDevices →
      (∀ d dev c, s'.devices.get d = some dev → s'.decided d = some c → dev.status = c) →
      (s'.Preserved ↔ s.StatusesAsCopied e) := by
    intro hne hst
    exact ⟨fun _ he => absurd he hne, fun _ => ⟨hst, hI'.fingerprint⟩⟩
  cases e with
  | processQueryResponse r =>
    refine hother (by simp) ?_
    simp only [userDevicesStep, processQueryResponse] at h
    split at h
    · exact absurd h (by simp)
    · obtain rfl := Option.some.inj h
      exact hP.status
  | nextDevice =>
    refine hother (by simp) ?_
    obtain ⟨p, _, h⟩ := Option.bind_eq_some_iff.1 h
    split at h
    · exact absurd h (by simp)
    · obtain ⟨_, _, rfl⟩ := Option.map_eq_some_iff.1 h
      exact hP.status
  | storeDevices => exact preserved_storeDevices_iff hI hP h
  | processingThrows =>
    obtain rfl := Option.some.inj h
    exact hother (by simp) hP.status
  | setDeviceVerification d verified blocked known =>
    obtain rfl := Option.some.inj h
    refine hother (by simp) ?_
    intro d' dev c hdev hc
    exact status_setVerification hP userId d verified blocked known hdev hc
  | crossSigningUpdated id =>
    obtain rfl := Option.some.inj h
    exact hother (by simp) hP.status

end UserDevices

section Run

variable (olmVerify : String → DeviceKeys → String → Bool) (userId : String)
variable (stored : JsObject String DeviceInfo)

/-- **Exactly when no decision is lost**: the devices that stay in the list keep the
last status that `setDeviceVerification` gave them, and their ed25519 keys, all along a run,
if and only if whenever a processed response is stored no call has changed, since
the list was copied, the status of a device that the response keeps. -/
theorem preserved_along_iff {tr : List (UserDevices × UserDevicesEvent)} {s : UserDevices}
    (h : (userDevicesSystem olmVerify userId stored).Trace tr s) :
    System.HoldsAlong UserDevices.Preserved tr s ↔
      System.Meets UserDevices.StatusesAsCopied tr := by
  refine h.holdsAlong_iff (I := UserDevices.Inv) (.load stored) ?_ ?_ ?_
  · intro s e s' hI hs
    exact hI.step hs
  · exact ⟨fun d dev c _ hc => absurd hc (by simp [userDevicesSystem, UserDevices.load]),
      (UserDevices.Inv.load stored).fingerprint⟩
  · intro s e s' hI hP hs
    exact UserDevices.preserved_step_iff hI hP hs

/-- In every run the ed25519 key of a device is the one it came into the list with. -/
theorem fingerprint_unchanged {s : UserDevices}
    (h : (userDevicesSystem olmVerify userId stored).Reachable s) {d : String} {dev : DeviceInfo}
    (hdev : s.devices.get d = some dev) : dev.getFingerprint d = s.firstKey d := by
  have hI : s.Inv := by
    refine System.Reachable.invariant (P := UserDevices.Inv) (.load stored) ?_ h
    intro s e s' hI hs
    exact hI.step hs
  exact hI.fingerprint d dev hdev

end Run

/-! ## A decision that is lost, and one that is not -/

/-- An unverified device with the id `D`. -/
def deviceD : DeviceInfo :=
  { DeviceInfo.new with keys := JsObject.empty.set "ed25519:D" "key" }

/-- The same device in a response. -/
def deviceKeysD : DeviceKeys where
  userId := "@alice:example.com"
  deviceId := "D"
  algorithms := none
  keys := some (JsObject.empty.set "ed25519:D" "key")
  unsigned := none
  signatures := some (JsObject.empty.set "@alice:example.com"
    (JsObject.empty.set "ed25519:D" "signature"))

/-- The runs of a user with one stored device, with signatures that all check out. -/
abbrev aliceSystem : System UserDevices UserDevicesEvent :=
  userDevicesSystem (fun _ _ _ => true) "@alice:example.com" (JsObject.empty.set "D" deviceD)

/-- The device is verified, and then a response with it is processed. -/
def verifyThenProcess : List UserDevicesEvent :=
  [.setDeviceVerification "D" (some true) none none,
    .processQueryResponse (some (JsObject.empty.set "D" deviceKeysD)), .nextDevice, .storeDevices]

theorem verifyThenProcess_runs : (aliceSystem.run verifyThenProcess).isSome := by decide

/-- The list is the copied one as long as a response is processed. -/
theorem verifyThenProcess_devices : ∀ q ∈ aliceSystem.steps verifyThenProcess,
    ∀ p ∈ q.1.processing, q.1.devices = p.copied := by
  change ∀ q ∈ [_, _, _, _], _
  simp only [List.forall_mem_cons]
  refine ⟨fun p hp => ?_, fun p hp => ?_, fun p hp => ?_, fun p hp => ?_, by simp⟩
  · exact absurd hp (by change none ≠ _; simp)
  · exact absurd hp (by change none ≠ _; simp)
  · cases hp
    rfl
  · cases hp
    rfl

theorem preserved_along_verifyThenProcess :
    System.HoldsAlong UserDevices.Preserved (aliceSystem.steps verifyThenProcess)
      ((aliceSystem.run verifyThenProcess).get verifyThenProcess_runs) := by
  refine (preserved_along_iff _ _ _ (System.trace_get verifyThenProcess_runs)).2 ?_
  intro q hq _ p hp d dev c hdev hc _
  rw [verifyThenProcess_devices q hq p hp, hc, Option.some.injEq] at hdev
  rw [hdev]

/-- The device is verified while the response is processed. -/
def verifyWhileProcessing : List UserDevicesEvent :=
  [.processQueryResponse (some (JsObject.empty.set "D" deviceKeysD)), .nextDevice,
    .setDeviceVerification "D" (some true) none none, .storeDevices]

theorem verifyWhileProcessing_runs : (aliceSystem.run verifyWhileProcessing).isSome := by decide

/-- A device that is verified while a response is processed is unverified afterwards. -/
theorem preserved_fails : ¬ ∀ s, aliceSystem.Reachable s → s.Preserved := by
  intro h
  have hP := h _ (System.reachable_get verifyWhileProcessing_runs)
  have hst := hP.status "D" _ ⟨.verified, false⟩ (Option.some_get (by decide)).symm (by decide)
  exact absurd hst (by decide)

end MatrixSdk.Crypto
