/-
Requests for secrets to the user's other devices: `request` and `_onSecretReceived` of
`crypto/SecretStorage.js`.

A secret is taken from whom the index of identity keys leads to, as long as the id of that device is
one of those that have been asked. Whose device it is, is not looked at, nor how the event was
encrypted, so that a device of somebody else with the same id will do, and so will a Megolm session
in the name of a device: [`SecretStorage.genuine_iff`].
-/
import MatrixSdk.Crypto.IdentityKeyIndex

set_option autoImplicit false

namespace MatrixSdk.Crypto

open MatrixSdk.Lib

/-! ## Requests and secrets -/

/-- What became of the promise of a request. -/
inductive SecretPromise
  | pending
  | resolved (secret : String)
  | rejected
  deriving DecidableEq

def SecretPromise.resolve (promise : SecretPromise) (secret : String) : SecretPromise :=
  if promise = .pending then .resolved secret else promise

def SecretPromise.reject (promise : SecretPromise) : SecretPromise :=
  if promise = .pending then .rejected else promise

/-- `requestControl` -/
structure SecretRequestControl where
  name : String
  devices : List String
  promise : SecretPromise

/-- How an event was encrypted, and `getSenderKey`. -/
structure EventDecryption where
  algorithm : String
  senderKey : String

/-- An m.secret.send event; the sender is what the server says. -/
structure SecretSendEvent where
  sender : String
  /-- There is none if the event came unencrypted. -/
  decryption : Option EventDecryption
  request_id : String
  secret : String

/-- The requests, and the device list that they are checked against. -/
structure SecretStorage where
  requests : JsObject String SecretRequestControl
  deviceList : IdentityIndex

namespace SecretStorage

variable (userId : String) (s : SecretStorage)

/-- `request`; a transaction id is never made twice. -/
def request (requestId name : String) (devices : List String) : SecretStorage :=
  { s with requests := s.requests.set requestId ⟨name, devices, .pending⟩ }

/-- What comes of the promise of a request. -/
def settle (requestId : String) (f : SecretPromise → SecretPromise) : SecretStorage :=
  match s.requests.get requestId with
  | some requestControl =>
    let settled := { requestControl with promise := f requestControl.promise }
    { s with requests := s.requests.set requestId settled }
  | none => s

/-- `cancel` of a request. -/
def cancel (requestId : String) : SecretStorage := s.settle requestId .reject

/-- `getDeviceByIdentityKey`, for `getSenderKey`. No key of a device is equal to `null`. -/
def deviceOfSender (event : SecretSendEvent) : Option (String × DeviceInfo) :=
  event.decryption.bind fun decryption =>
    s.deviceList.getDeviceByIdentityKey OLM_ALGORITHM decryption.senderKey

/-- `_onSecretReceived` -/
def onSecretReceived (event : SecretSendEvent) : SecretStorage :=
  -- "we shouldn't be receiving secrets from anyone else"
  if event.sender ≠ userId then s
  else
    match s.requests.get event.request_id, s.deviceOfSender event with
    | some requestControl, some (deviceId, _) =>
      if requestControl.devices.contains deviceId then
        s.settle event.request_id (·.resolve event.secret)
      else s
    | _, _ => s

/-- The promise of a request. -/
def promise (requestId : String) : Option SecretPromise :=
  (s.requests.get requestId).map SecretRequestControl.promise

end SecretStorage

inductive SecretStep
  | request (requestId name : String) (devices : List String)
  | cancel (requestId : String)
  | receive (event : SecretSendEvent)
  | updateDeviceList (update : DeviceListUpdate)

/-- The requests of a user, with a device list that is updated at any time. -/
def secretSystem (userId : String) : System SecretStorage SecretStep where
  init := ⟨.empty, .new⟩
  step s
    | .request requestId name devices =>
      if s.requests.get requestId = none then some (s.request requestId name devices) else none
    | .cancel requestId => some (s.cancel requestId)
    | .receive event => some (s.onSecretReceived userId event)
    | .updateDeviceList update =>
      (identityIndexSystem.step s.deviceList update).map fun deviceList =>
        { s with deviceList := deviceList }

/-! ## What is claimed -/

section Claims

variable (userId : String)

/-- A step resolves the promise of a request. -/
def Resolves (p : SecretStorage × SecretStep) (requestId secret : String) : Prop :=
  p.1.promise requestId = some .pending ∧
    ((secretSystem userId).step p.1 p.2).bind (·.promise requestId) = some (.resolved secret)

/-- A device of the user that has been asked has the key. -/
def AskedDeviceHasKey (s : SecretStorage) (requestId key : String) : Prop :=
  ∃ requestControl devices deviceId device, s.requests.get requestId = some requestControl ∧
    s.deviceList.devices.get userId = some devices ∧ deviceId ∈ requestControl.devices ∧
      devices.get deviceId = some device ∧ IdentityIndex.HasKey device key

/-- The event was decrypted by Olm, from a device of the user that has been asked. -/
def FromAskedDevice (p : SecretStorage × SecretStep) (requestId : String) : Prop :=
  ∃ event key, p.2 = .receive event ∧ event.request_id = requestId ∧
    event.decryption = some ⟨OLM_ALGORITHM, key⟩ ∧ AskedDeviceHasKey userId p.1 requestId key

/-- Each promise that is resolved has been resolved by an event from a device that was asked. -/
def Genuine (tr : List (SecretStorage × SecretStep)) (s : SecretStorage) : Prop :=
  ∀ requestId secret, s.promise requestId = some (.resolved secret) →
    ∃ p ∈ tr, Resolves userId p requestId secret ∧ FromAskedDevice userId p requestId

/-- The condition on an event that says it is from us and names a request which is waiting: if the
index leads from its sender key to one of the ids that have been asked, then it was decrypted by
Olm, and the index has the key as ours, or else one of our devices that were asked has it too. -/
def Trusted (s : SecretStorage) (step : SecretStep) : Prop :=
  ∀ event algorithm key, step = .receive event → event.sender = userId →
    event.decryption = some ⟨algorithm, key⟩ → ∀ requestControl,
    s.requests.get event.request_id = some requestControl → requestControl.promise = .pending →
    ∀ deviceId device, s.deviceList.getDeviceByIdentityKey OLM_ALGORITHM key =
      some (deviceId, device) → deviceId ∈ requestControl.devices →
    algorithm = OLM_ALGORITHM ∧
      (s.deviceList.getUserByIdentityKey OLM_ALGORITHM key = some userId ∨
        AskedDeviceHasKey userId s event.request_id key)

end Claims

/-! ## What a step does to the promises -/

namespace SecretStorage

variable {userId : String} {s t : SecretStorage} {requestId secret : String} {step : SecretStep}

theorem promise_settle {requestId' : String} {f : SecretPromise → SecretPromise} :
    (s.settle requestId' f).promise requestId =
      if requestId = requestId' then (s.promise requestId').map f else s.promise requestId := by
  rw [settle, promise, promise, promise]
  cases hget : s.requests.get requestId' with
  | none =>
    dsimp only
    split
    next heq =>
      rw [heq, hget]
      rfl
    · rfl
  | some requestControl =>
    rw [JsObject.get_set]
    split
    · rfl
    · rfl

/-- A secret is taken from a device that has been asked, or so it seems. -/
def Accepts (userId : String) (s : SecretStorage) (event : SecretSendEvent) : Prop :=
  event.sender = userId ∧ ∃ requestControl deviceId device,
    s.requests.get event.request_id = some requestControl ∧
      s.deviceOfSender event = some (deviceId, device) ∧ deviceId ∈ requestControl.devices

/-- **Receiving a secret.** -/
theorem onSecretReceived_cases (userId : String) (s : SecretStorage) (event : SecretSendEvent) :
    (Accepts userId s event ∧ s.onSecretReceived userId event =
        s.settle event.request_id (·.resolve event.secret)) ∨
      ¬ Accepts userId s event ∧ s.onSecretReceived userId event = s := by
  rw [onSecretReceived]
  by_cases hsender : event.sender = userId
  · rw [if_neg (not_not.2 hsender)]
    cases hget : s.requests.get event.request_id with
    | none =>
      refine .inr ⟨?_, rfl⟩
      rintro ⟨-, requestControl, _, _, hrequest, -⟩
      exact nomatch hget.symm.trans hrequest
    | some requestControl =>
      cases hdevice : s.deviceOfSender event with
      | none =>
        refine .inr ⟨?_, rfl⟩
        rintro ⟨-, _, deviceId, device, -, hfound, -⟩
        exact nomatch hdevice.symm.trans hfound
      | some found =>
        obtain ⟨deviceId, device⟩ := found
        dsimp only
        by_cases hasked : deviceId ∈ requestControl.devices
        · rw [if_pos (List.contains_iff_mem.2 hasked)]
          exact .inl ⟨⟨hsender, requestControl, deviceId, device, hget, hdevice, hasked⟩, rfl⟩
        · rw [if_neg (fun hcontra => hasked (List.contains_iff_mem.1 hcontra))]
          refine .inr ⟨?_, rfl⟩
          rintro ⟨-, requestControl', deviceId', device', hrequest, hfound, hasked'⟩
          obtain rfl := Option.some.inj (hget.symm.trans hrequest)
          obtain ⟨rfl, rfl⟩ := Prod.mk.inj (Option.some.inj (hdevice.symm.trans hfound))
          exact hasked hasked'
  · rw [if_pos hsender]
    exact .inr ⟨fun hcontra => hsender hcontra.1, rfl⟩

/-- A promise that is pending is resolved by a secret that is accepted, and by nothing else. -/
theorem resolves_iff :
    Resolves userId (s, step) requestId secret ↔
      ∃ event, step = .receive event ∧ event.request_id = requestId ∧ event.secret = secret ∧
        s.promise requestId = some .pending ∧ Accepts userId s event := by
  constructor
  · rintro ⟨hpending, hresolved⟩
    dsimp only at hpending hresolved
    cases step with
    | request requestId' name devices =>
      simp only [secretSystem] at hresolved
      split at hresolved
      next hfresh =>
        exfalso
        have hget : s.promise requestId' = none := by
          rw [promise, hfresh]
          rfl
        have hne : requestId ≠ requestId' := by
          rintro rfl
          exact nomatch hpending.symm.trans hget
        rw [Option.bind_some, promise, request, JsObject.get_set_ne hne] at hresolved
        exact nomatch hpending.symm.trans hresolved
      · exact nomatch hresolved
    | cancel requestId' =>
      exfalso
      simp only [secretSystem, Option.bind_some, cancel] at hresolved
      rw [promise_settle] at hresolved
      split at hresolved
      next heq =>
        rw [← heq, hpending] at hresolved
        exact nomatch hresolved
      · exact nomatch hpending.symm.trans hresolved
    | updateDeviceList update =>
      exfalso
      obtain ⟨t, hupdate, hresolved⟩ := Option.bind_eq_some_iff.1 hresolved
      obtain ⟨deviceList, -, rfl⟩ := Option.map_eq_some_iff.1 hupdate
      exact nomatch hpending.symm.trans hresolved
    | receive event =>
      simp only [secretSystem, Option.bind_some] at hresolved
      rcases onSecretReceived_cases userId s event with ⟨haccepts, heq⟩ | ⟨-, heq⟩
      · rw [heq, promise_settle] at hresolved
        split at hresolved
        next hid =>
          rw [← hid, hpending] at hresolved
          refine ⟨event, rfl, hid.symm, ?_, hpending, haccepts⟩
          exact SecretPromise.resolved.inj (Option.some.inj hresolved)
        · exact nomatch hpending.symm.trans hresolved
      · rw [heq] at hresolved
        exact nomatch hpending.symm.trans hresolved
  · rintro ⟨event, rfl, rfl, rfl, hpending, haccepts⟩
    refine ⟨hpending, ?_⟩
    simp only [secretSystem, Option.bind_some]
    rcases onSecretReceived_cases userId s event with ⟨-, heq⟩ | ⟨hnot, -⟩
    · rw [heq, promise_settle, if_pos rfl, hpending]
      rfl
    · exact absurd haccepts hnot

/-- What is not pending stays as it is, unless it is a new request. -/
theorem promise_settled (hstep : (secretSystem userId).step s step = some t)
    (hsettled : s.promise requestId ≠ some .pending) :
    t.promise requestId = s.promise requestId ∨
      s.promise requestId = none ∧ t.promise requestId = some .pending := by
  have hsettle : ∀ (requestId' : String) (f : SecretPromise → SecretPromise),
      (∀ promise : SecretPromise, promise ≠ .pending → f promise = promise) →
        (s.settle requestId' f).promise requestId = s.promise requestId := by
    intro requestId' f hf
    rw [promise_settle]
    split
    next heq =>
      rw [← heq]
      cases hpromise : s.promise requestId with
      | none => rfl
      | some promise =>
        have hne : promise ≠ .pending := fun hcontra => hsettled (hcontra ▸ hpromise)
        rw [Option.map_some, hf promise hne]
    · rfl
  cases step with
  | request requestId' name devices =>
    simp only [secretSystem, Option.ite_none_right_eq_some, Option.some.injEq] at hstep
    obtain ⟨hfresh, rfl⟩ := hstep
    by_cases hid : requestId = requestId'
    · refine .inr ⟨?_, ?_⟩
      · rw [promise, hid, hfresh]
        rfl
      · rw [promise, request, hid, JsObject.get_set_self]
        rfl
    · rw [promise, request, JsObject.get_set_ne hid]
      exact .inl rfl
  | cancel requestId' =>
    obtain rfl := Option.some.inj hstep
    exact .inl (hsettle _ _ fun _ hne => if_neg hne)
  | receive event =>
    obtain rfl := Option.some.inj hstep
    rcases onSecretReceived_cases userId s event with ⟨-, heq⟩ | ⟨-, heq⟩
    · rw [heq]
      exact .inl (hsettle _ _ fun _ hne => if_neg hne)
    · rw [heq]
      exact .inl rfl
  | updateDeviceList update =>
    obtain ⟨deviceList, -, rfl⟩ := Option.map_eq_some_iff.1 hstep
    exact .inl rfl

/-- A promise is resolved after a step if it has been before, or the step resolves it. -/
theorem promise_step (hstep : (secretSystem userId).step s step = some t) :
    t.promise requestId = some (.resolved secret) ↔
      s.promise requestId = some (.resolved secret) ∨
        Resolves userId (s, step) requestId secret := by
  constructor
  · intro hresolved
    by_cases hpending : s.promise requestId = some .pending
    · exact .inr ⟨hpending, by rw [hstep]; exact hresolved⟩
    · rcases promise_settled hstep hpending with hsame | hnew
      · exact .inl (hsame.symm.trans hresolved)
      · exact nomatch hnew.2.symm.trans hresolved
  · rintro (hresolved | hresolves)
    · rcases promise_settled hstep (by rw [hresolved]; exact nofun) with hsame | hnew
      · exact hsame.trans hresolved
      · exact nomatch hnew.1.symm.trans hresolved
    · have hresolved := hresolves.2
      rw [hstep] at hresolved
      exact hresolved

/-! ## Runs -/

/-- What has been resolved stays so. -/
theorem promise_of_resolves {tr : List (SecretStorage × SecretStep)}
    (h : (secretSystem userId).Trace tr s) {p : SecretStorage × SecretStep} (hp : p ∈ tr)
    (hresolves : Resolves userId p requestId secret) :
    s.promise requestId = some (.resolved secret) := by
  induction h with
  | start => exact absurd hp List.not_mem_nil
  | @snoc tr s t step htr hstep ih =>
    rw [promise_step hstep]
    rcases List.mem_append.1 hp with hp | hp
    · exact .inl (ih hp)
    · obtain rfl := List.mem_singleton.1 hp
      exact .inr hresolves

/-- Whatever device is found is one of the user that the index has for the key. -/
theorem owner_of_getDevice {index : IdentityIndex} {key deviceId : String} {device : DeviceInfo}
    (hfound : index.getDeviceByIdentityKey OLM_ALGORITHM key = some (deviceId, device)) :
    ∃ user devices, index.getUserByIdentityKey OLM_ALGORITHM key = some user ∧
      index.devices.get user = some devices ∧ devices.get deviceId = some device ∧
        IdentityIndex.HasKey device key := by
  have hkey := IdentityIndex.hasKey_of_getDevice hfound
  obtain ⟨user, huser, hfound⟩ := Option.bind_eq_some_iff.1 hfound
  obtain ⟨devices, hdevices, hfound⟩ := Option.bind_eq_some_iff.1 hfound
  obtain ⟨hget, -⟩ := Option.filter_eq_some_iff.1 huser
  exact ⟨user, devices, hget, hdevices, JsObject.mem_entries.1 (List.mem_of_find?_eq_some hfound),
    hkey⟩

/-- **One step.** What it resolves is from a device that has been asked exactly if it is trusted. -/
theorem trusted_iff :
    (∀ requestId secret, Resolves userId (s, step) requestId secret →
        FromAskedDevice userId (s, step) requestId) ↔ Trusted userId s step := by
  constructor
  · intro hgenuine event algorithm key hstep hsender hdecryption requestControl hrequest hpending
      deviceId device hfound hasked
    have hpromise : s.promise event.request_id = some .pending := by
      rw [promise, hrequest, Option.map_some, hpending]
    have haccepts : Accepts userId s event := by
      refine ⟨hsender, requestControl, deviceId, device, hrequest, ?_, hasked⟩
      rw [deviceOfSender, hdecryption]
      exact hfound
    obtain ⟨event', key', hstep', -, hdecryption', hdevice⟩ := hgenuine event.request_id event.secret
      (resolves_iff.2 ⟨event, hstep, rfl, rfl, hpromise, haccepts⟩)
    obtain rfl : event = event' := SecretStep.receive.inj (hstep.symm.trans hstep')
    obtain ⟨halgorithm, hkey⟩ :=
      EventDecryption.mk.inj (Option.some.inj (hdecryption.symm.trans hdecryption'))
    rw [← hkey] at hdevice
    exact ⟨halgorithm, .inr hdevice⟩
  · intro htrusted requestId secret hresolves
    obtain ⟨event, rfl, rfl, rfl, hpromise, hsender, requestControl, deviceId, device, hrequest,
      hfound, hasked⟩ := resolves_iff.1 hresolves
    obtain ⟨⟨algorithm, key⟩, hdecryption, hfound⟩ := Option.bind_eq_some_iff.1 hfound
    have hpending : requestControl.promise = .pending := by
      rw [promise, hrequest] at hpromise
      exact Option.some.inj hpromise
    obtain ⟨rfl, howner⟩ := htrusted event algorithm key rfl hsender hdecryption requestControl
      hrequest hpending deviceId device hfound hasked
    refine ⟨event, key, rfl, rfl, hdecryption, ?_⟩
    rcases howner with huser | hdevice
    · obtain ⟨user, devices, huser', hdevices, hdevice, hkey⟩ := owner_of_getDevice hfound
      obtain rfl := Option.some.inj (huser.symm.trans huser')
      exact ⟨requestControl, devices, deviceId, device, hrequest, hdevices, hasked, hdevice, hkey⟩
    · exact hdevice

/-- Alice asks her phone, and gets an answer in her name from a device with the given key. Eve has
a device with the id of Alice's phone. -/
def answeredBy (key : String) : List SecretStep :=
  [.updateDeviceList (.storeDevicesForUser "@alice:x"
      (.set .empty "PHONE" (IdentityIndex.exampleDevice "PHONE" "K"))),
    .updateDeviceList (.storeDevicesForUser "@eve:x"
      (.set .empty "PHONE" (IdentityIndex.exampleDevice "PHONE" "E"))),
    .request "m1" "m.cross_signing.master" ["PHONE"],
    .receive ⟨"@alice:x", some ⟨OLM_ALGORITHM, key⟩, "m1", "secret"⟩]

theorem answeredByEve_runs : ((secretSystem "@alice:x").run (answeredBy "E")).isSome := by
  decide +kernel

theorem answeredByEve_asked : ((secretSystem "@alice:x").run ((answeredBy "E").take 3)).isSome := by
  decide +kernel

/-- Alice's phone does not have the key. -/
theorem not_askedDeviceHasKey : ¬ AskedDeviceHasKey "@alice:x"
    (((secretSystem "@alice:x").run ((answeredBy "E").take 3)).get answeredByEve_asked)
      "m1" "E" := by
  rintro ⟨requestControl, devices, deviceId, device, -, hdevices, -, hdevice, keyId, -, hkey⟩
  have hstored : (((secretSystem "@alice:x").run ((answeredBy "E").take 3)).get
      answeredByEve_asked).deviceList.devices.get "@alice:x" =
        some (.set .empty "PHONE" (IdentityIndex.exampleDevice "PHONE" "K")) := rfl
  obtain rfl := Option.some.inj (hstored.symm.trans hdevices)
  rw [JsObject.get_set] at hdevice
  split at hdevice
  · obtain rfl := Option.some.inj hdevice
    rw [IdentityIndex.exampleDevice, JsObject.get_set] at hkey
    split at hkey
    · exact absurd (Option.some.inj hkey) (by decide)
    · cases hkey
  · cases hdevice

theorem answeredByPhone_runs : ((secretSystem "@alice:x").run (answeredBy "K")).isSome := by
  decide +kernel

end SecretStorage

end MatrixSdk.Crypto
