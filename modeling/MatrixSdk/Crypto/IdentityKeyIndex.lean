/-
The index from identity keys to users of `src/crypto/DeviceList.js`: `load`,
`storeDevicesForUser` and its copy `_setRawStoredDevicesForUser` keep it,
`getDeviceByIdentityKey` looks a device up through it.

An update of a user takes the keys of his old devices out of the index and puts
those of the new ones in. The index has one user per key, so where two users
publish the same key the one who gives it up takes the other's entry with him.
[`lookups_exact_iff`] says exactly which updates leave every stored device to be
found.

A processed query response ends in `_setRawStoredDevicesForUser` with a list it
has computed from the stored one; which list that is plays no part here, so the
updates are about any list.
-/
import MatrixSdk.Crypto.DeviceInfo
import MatrixSdk.Lib.System
import Mathlib.Data.List.Induction

set_option autoImplicit false

namespace MatrixSdk.Crypto

open MatrixSdk.Lib JsObject

/-! ## The index -/

/-- `dev.keys['curve25519:'+deviceId]`. -/
def DeviceInfo.getIdentityKey (dev : DeviceInfo) (deviceId : String) : Option String :=
  dev.keys.get ("curve25519:" ++ deviceId)

/-- The devices of one user. -/
abbrev Devices := JsObject String DeviceInfo

/-- The property names that the identity keys of a list become; a missing one is `undefined`. -/
def identityNames (devs : Devices) : List String :=
  devs.entries.map fun (deviceId, dev) => (dev.getIdentityKey deviceId).getD "undefined"

/-- The identity keys of a list. -/
def identityKeys (devs : Devices) : List String :=
  devs.entries.filterMap fun (deviceId, dev) => dev.getIdentityKey deviceId

/-- The names that can be assigned: a string assigned to `__proto__` is dropped. -/
def assignable (names : List String) : List String := names.filter (· ≠ "__proto__")

/-- The stored devices, and the index. -/
structure IdentityIndex where
  /-- `_devices`. -/
  devices : JsObject String Devices
  /-- `_userByIdentityKey`. -/
  userByIdentityKey : JsObject String String

namespace IdentityIndex

/-- The constructor. -/
def new : IdentityIndex := ⟨.empty, .empty⟩

/-- `load`, from what is stored. -/
def load (stored : JsObject String Devices) : IdentityIndex where
  devices := stored
  userByIdentityKey :=
    stored.entries.foldl (fun index (user, userDevices) =>
      index.setAll (assignable (identityKeys userDevices)) user) .empty

/-- `storeDevicesForUser`. -/
def storeDevicesForUser (s : IdentityIndex) (u : String) (devs : Devices) : IdentityIndex where
  devices := s.devices.set u devs
  userByIdentityKey :=
    -- "remove previous devices from _userByIdentityKey", then "add new ones"
    (s.userByIdentityKey.deleteAll ((s.devices.get u).elim [] identityNames)).setAll
      (assignable (identityNames devs)) u

/-- `_setRawStoredDevicesForUser`, a copy that does not set `_dirty`. -/
def setRawStoredDevicesForUser (s : IdentityIndex) (userId : String) (devices : Devices) :
    IdentityIndex :=
  s.storeDevicesForUser userId devices

/-- `getUserByIdentityKey`. What `Object.prototype` has under the name is no user id. -/
def getUserByIdentityKey (s : IdentityIndex) (algorithm senderKey : String) : Option String :=
  -- "we only deal in olm keys"
  if algorithm ≠ OLM_ALGORITHM ∧ algorithm ≠ MEGOLM_ALGORITHM then none
  else s.userByIdentityKey.get senderKey

/-- The test in the loop over the keys of a device. -/
def hasCurve25519Key (device : DeviceInfo) (senderKey : String) : Bool :=
  device.keys.entries.any fun (keyId, deviceKey) =>
    "curve25519:".toList.isPrefixOf keyId.toList && deviceKey = senderKey

/-- `getDeviceByIdentityKey`, as the id of the device and the device. -/
def getDeviceByIdentityKey (s : IdentityIndex) (algorithm senderKey : String) :
    Option (String × DeviceInfo) :=
  (truthy (s.getUserByIdentityKey algorithm senderKey)).bind fun userId =>
    (s.devices.get userId).bind fun devices =>
      devices.entries.find? fun (_, device) => hasCurve25519Key device senderKey

end IdentityIndex

inductive DeviceListUpdate
  | load (stored : JsObject String Devices)
  | storeDevicesForUser (u : String) (devs : Devices)
  | setRawStoredDevicesForUser (userId : String) (devices : Devices)

/-- The updates of a device list. -/
def identityIndexSystem : System IdentityIndex DeviceListUpdate where
  init := .new
  step s
    | .load stored => some (.load stored)
    | .storeDevicesForUser u devs => some (s.storeDevicesForUser u devs)
    | .setRawStoredDevicesForUser userId devices =>
      some (s.setRawStoredDevicesForUser userId devices)

namespace IdentityIndex

/-! ## What is claimed of the lookups -/

/-- A device with a curve25519 key, under whatever id. -/
def HasKey (device : DeviceInfo) (key : String) : Prop :=
  ∃ keyId, "curve25519:".toList <+: keyId.toList ∧ device.keys.get keyId = some key

/-- A list with a device that has the key. -/
def ListHasKey (devs : Devices) (key : String) : Prop :=
  ∃ deviceId device, devs.get deviceId = some device ∧ HasKey device key

/-- A stored device of the user has the key. -/
def UserHasKey (devices : JsObject String Devices) (user key : String) : Prop :=
  ∃ devs, devices.get user = some devs ∧ ListHasKey devs key

/-- The lookups find a device exactly for the keys of the stored devices, and one with the key. -/
def LookupsExact (s : IdentityIndex) : Prop :=
  ∀ algorithm, algorithm = OLM_ALGORITHM ∨ algorithm = MEGOLM_ALGORITHM → ∀ key,
    ((s.getDeviceByIdentityKey algorithm key).isSome ↔ ∃ user, UserHasKey s.devices user key) ∧
      ∀ deviceId device, s.getDeviceByIdentityKey algorithm key = some (deviceId, device) →
        HasKey device key

/-- Each key that is stored once `user` has got the list `devs` is an identity key of that list, or
else is one that another user has and that was not an identity key in the old list of `user`. -/
def KeepsKeys (s : IdentityIndex) (user : String) (devs : Devices) : Prop :=
  ∀ key, (∃ u, UserHasKey (s.devices.set user devs) u key) →
    (key ∈ assignable (identityNames devs) ∧ user ≠ "" ∧ ListHasKey devs key) ∨
      (key ∉ assignable (identityNames devs) ∧
        key ∉ (s.devices.get user).elim [] identityNames ∧
        ∃ u ≠ user, UserHasKey s.devices u key)

/-- Each key that is stored is an identity key of some user, and the last of them has an id. -/
def LoadsKeys (stored : JsObject String Devices) : Prop :=
  ∀ key, (∃ u, UserHasKey stored u key) →
    ∃ entry, stored.entries.reverse.find? (fun (_, devs) =>
      key ∈ assignable (identityKeys devs)) = some entry ∧ entry.1 ≠ ""

/-- The condition on an update. -/
def UpdateKeepsKeys (s : IdentityIndex) : DeviceListUpdate → Prop
  | .load stored => LoadsKeys stored
  | .storeDevicesForUser user devs | .setRawStoredDevicesForUser user devs => s.KeepsKeys user devs

/-! ## What the lookups find -/

theorem mem_assignable {names : List String} {name : String} :
    name ∈ assignable names ↔ name ∈ names ∧ name ≠ "__proto__" := by
  rw [assignable, List.mem_filter, decide_eq_true_eq]

/-- An identity key is a curve25519 key, and the name it becomes. -/
theorem mem_identityKeys {devs : Devices} {key : String} (h : key ∈ identityKeys devs) :
    ListHasKey devs key ∧ key ∈ identityNames devs := by
  obtain ⟨⟨deviceId, device⟩, hmem, hkey⟩ := List.mem_filterMap.1 h
  constructor
  · refine ⟨deviceId, device, mem_entries.1 hmem, "curve25519:" ++ deviceId, ?_, hkey⟩
    rw [String.toList_append]
    exact List.prefix_append _ _
  · refine List.mem_map.2 ⟨_, hmem, ?_⟩
    show (device.getIdentityKey deviceId).getD "undefined" = key
    rw [show device.getIdentityKey deviceId = some key from hkey, Option.getD_some]

theorem hasCurve25519Key_iff {device : DeviceInfo} {key : String} :
    hasCurve25519Key device key ↔ HasKey device key := by
  unfold hasCurve25519Key HasKey
  rw [List.any_eq_true]
  constructor
  · rintro ⟨⟨keyId, deviceKey⟩, hmem, htest⟩
    rw [Bool.and_eq_true, List.isPrefixOf_iff_prefix, decide_eq_true_eq] at htest
    obtain ⟨hstart, rfl⟩ := htest
    exact ⟨keyId, hstart, mem_entries.1 hmem⟩
  · rintro ⟨keyId, hstart, hget⟩
    refine ⟨(keyId, key), mem_entries.2 hget, ?_⟩
    rw [Bool.and_eq_true, List.isPrefixOf_iff_prefix, decide_eq_true_eq]
    exact ⟨hstart, rfl⟩

section Lookups

variable {s : IdentityIndex} {algorithm key : String}

/-- For the algorithms it deals in, the lookup finds a device if the index has a user for the key
and a device of that user has it. -/
theorem getDevice_isSome_iff (halg : algorithm = OLM_ALGORITHM ∨ algorithm = MEGOLM_ALGORITHM) :
    (s.getDeviceByIdentityKey algorithm key).isSome ↔
      ∃ user, s.userByIdentityKey.get key = some user ∧ user ≠ "" ∧
        UserHasKey s.devices user key := by
  have huser : s.getUserByIdentityKey algorithm key = s.userByIdentityKey.get key := by
    unfold getUserByIdentityKey
    rw [if_neg]
    rintro ⟨holm, hmegolm⟩
    rcases halg with rfl | rfl
    · exact holm rfl
    · exact hmegolm rfl
  unfold getDeviceByIdentityKey truthy
  rw [huser, Option.isSome_iff_exists]
  constructor
  · rintro ⟨found, hfound⟩
    obtain ⟨user, huser, hfound⟩ := Option.bind_eq_some_iff.1 hfound
    obtain ⟨devs, hdevs, hfound⟩ := Option.bind_eq_some_iff.1 hfound
    obtain ⟨hget, hne⟩ := Option.filter_eq_some_iff.1 huser
    refine ⟨user, hget, of_decide_eq_true hne, devs, hdevs, found.1, found.2, ?_, ?_⟩
    · exact mem_entries.1 (List.mem_of_find?_eq_some hfound)
    · have htest := List.find?_some hfound
      exact hasCurve25519Key_iff.1 htest
  · rintro ⟨user, hget, hne, devs, hdevs, deviceId, device, hdevice, hkey⟩
    rw [hget, Option.filter_some, if_pos (decide_eq_true hne), Option.bind_some, hdevs,
      Option.bind_some, ← Option.isSome_iff_exists, List.find?_isSome]
    exact ⟨(deviceId, device), mem_entries.2 hdevice, hasCurve25519Key_iff.2 hkey⟩

/-- Whatever device is found has the key. -/
theorem hasKey_of_getDevice {deviceId : String} {device : DeviceInfo}
    (h : s.getDeviceByIdentityKey algorithm key = some (deviceId, device)) : HasKey device key := by
  obtain ⟨user, -, h⟩ := Option.bind_eq_some_iff.1 h
  obtain ⟨devs, -, h⟩ := Option.bind_eq_some_iff.1 h
  have htest := List.find?_some h
  exact hasCurve25519Key_iff.1 htest

/-- What the claim says, of the index: each key that is stored leads to a user who has it. -/
theorem lookupsExact_iff : s.LookupsExact ↔
    ∀ key, (∃ user, UserHasKey s.devices user key) →
      ∃ user, s.userByIdentityKey.get key = some user ∧ user ≠ "" ∧
        UserHasKey s.devices user key := by
  constructor
  · intro hexact key hstored
    have holm := ((hexact OLM_ALGORITHM (.inl rfl) key).1).2 hstored
    exact (getDevice_isSome_iff (.inl rfl)).1 holm
  · intro hall algorithm halg key
    refine ⟨?_, fun _ _ h => hasKey_of_getDevice h⟩
    rw [getDevice_isSome_iff halg]
    constructor
    · rintro ⟨user, -, -, hstored⟩
      exact ⟨user, hstored⟩
    · exact hall key

end Lookups

/-! ## What an update does to the index -/

section Updates

variable {s : IdentityIndex} {user key : String} {devs : Devices}

theorem userByIdentityKey_store :
    (s.storeDevicesForUser user devs).userByIdentityKey.get key =
      if key ∈ assignable (identityNames devs) then some user
      else if key ∈ (s.devices.get user).elim [] identityNames then none
      else s.userByIdentityKey.get key := by
  rw [storeDevicesForUser, get_setAll, get_deleteAll]

/-- After `load`, a key leads to the last user who has it. -/
theorem userByIdentityKey_load {stored : JsObject String Devices} :
    (load stored).userByIdentityKey.get key =
      (stored.entries.reverse.find? fun (_, devs) =>
        key ∈ assignable (identityKeys devs)).map Prod.fst := by
  unfold load
  simp only
  induction stored.entries using List.reverseRecOn with
  | nil => rfl
  | append_singleton entries entry ih =>
    rw [List.foldl_append, List.foldl_cons, List.foldl_nil, get_setAll,
      List.reverse_append, List.reverse_singleton, List.singleton_append, List.find?_cons]
    by_cases hkey : key ∈ assignable (identityKeys entry.2)
    · rw [if_pos hkey, decide_eq_true hkey, Option.map_some]
    · rw [if_neg hkey, decide_eq_false hkey, ih]

/-- Each entry of the index comes from a device of the user it names. -/
def Indexed (s : IdentityIndex) : Prop :=
  ∀ key user, s.userByIdentityKey.get key = some user →
    ∃ devs, s.devices.get user = some devs ∧ key ∈ identityNames devs

theorem Indexed.store (hs : s.Indexed) : (s.storeDevicesForUser user devs).Indexed := by
  intro key u hget
  rw [userByIdentityKey_store] at hget
  show ∃ devs', (s.devices.set user devs).get u = some devs' ∧ key ∈ identityNames devs'
  split at hget
  next hnew =>
    obtain rfl := Option.some.inj hget
    exact ⟨devs, get_set_self .., (mem_assignable.1 hnew).1⟩
  · split at hget
    · exact nomatch hget
    next hold =>
      obtain ⟨devs', hdevs', hkey⟩ := hs key u hget
      -- an entry of the updated user would have been taken out
      have hne : u ≠ user := by
        rintro rfl
        rw [hdevs'] at hold
        exact hold hkey
      exact ⟨devs', by rw [get_set_ne hne, hdevs'], hkey⟩

theorem Indexed.load (stored : JsObject String Devices) : (load stored).Indexed := by
  intro key u hget
  rw [userByIdentityKey_load] at hget
  obtain ⟨entry, hfind, rfl⟩ := Option.map_eq_some_iff.1 hget
  have hkey := List.find?_some hfind
  have hkey := (mem_assignable.1 (of_decide_eq_true hkey)).1
  have hmem := List.mem_reverse.1 (List.mem_of_find?_eq_some hfind)
  exact ⟨entry.2, mem_entries.1 hmem, (mem_identityKeys hkey).2⟩

/-- Who has a key, once the list of `user` is another one. -/
theorem userHasKey_set {devices : JsObject String Devices} {u : String} :
    UserHasKey (devices.set user devs) u key ↔
      (u = user ∧ ListHasKey devs key) ∨ (u ≠ user ∧ UserHasKey devices u key) := by
  unfold UserHasKey
  by_cases hu : u = user
  · subst hu
    constructor
    · rintro ⟨devs', hget, hkey⟩
      rw [get_set_self] at hget
      obtain rfl := Option.some.inj hget
      exact .inl ⟨rfl, hkey⟩
    · rintro (⟨-, hkey⟩ | ⟨hne, -⟩)
      · exact ⟨devs, get_set_self .., hkey⟩
      · exact absurd rfl hne
  · rw [get_set_ne hu]
    constructor
    · exact fun h => .inr ⟨hu, h⟩
    · rintro (⟨heq, -⟩ | ⟨-, h⟩)
      · exact absurd heq hu
      · exact h

/-- **An update of a user**, from a state in which every stored device is found. -/
theorem lookupsExact_store_iff (hs : s.Indexed) (hexact : s.LookupsExact) :
    (s.storeDevicesForUser user devs).LookupsExact ↔ s.KeepsKeys user devs := by
  rw [lookupsExact_iff] at hexact ⊢
  refine forall_congr' fun key => imp_congr_right fun hstored => ?_
  show (∃ u, _ = some u ∧ u ≠ "" ∧ UserHasKey (s.devices.set user devs) u key) ↔ _
  rw [userByIdentityKey_store]
  by_cases hnew : key ∈ assignable (identityNames devs)
  · rw [if_pos hnew]
    constructor
    · rintro ⟨u, heq, hne, hkey⟩
      obtain rfl := Option.some.inj heq
      rcases userHasKey_set.1 hkey with ⟨-, hkey⟩ | ⟨hne', -⟩
      · exact .inl ⟨hnew, hne, hkey⟩
      · exact absurd rfl hne'
    · rintro (⟨-, hne, hkey⟩ | ⟨hnot, -, -⟩)
      · exact ⟨user, rfl, hne, userHasKey_set.2 (.inl ⟨rfl, hkey⟩)⟩
      · exact absurd hnew hnot
  · rw [if_neg hnew]
    by_cases hold : key ∈ (s.devices.get user).elim [] identityNames
    · rw [if_pos hold]
      constructor
      · rintro ⟨u, heq, -, -⟩
        exact nomatch heq
      · rintro (⟨hmem, -, -⟩ | ⟨-, hnot, -⟩)
        · exact absurd hmem hnew
        · exact absurd hold hnot
    · rw [if_neg hold]
      constructor
      · rintro ⟨u, hget, hne, hkey⟩
        -- the index has no entry of the updated user for the key, so it is another's
        have hother : u ≠ user := by
          rintro rfl
          obtain ⟨devs', hdevs', hmem⟩ := hs key u hget
          rw [hdevs'] at hold
          exact hold hmem
        rcases userHasKey_set.1 hkey with ⟨heq, -⟩ | ⟨-, hkey⟩
        · exact absurd heq hother
        · exact .inr ⟨hnew, hold, u, hother, hkey⟩
      · rintro (⟨hmem, -, -⟩ | ⟨-, -, u, -, hkey⟩)
        · exact absurd hmem hnew
        · obtain ⟨v, hget, hne, hkey⟩ := hexact key ⟨u, hkey⟩
          have hother : v ≠ user := by
            rintro rfl
            obtain ⟨devs', hdevs', hmem⟩ := hs key v hget
            rw [hdevs'] at hold
            exact hold hmem
          exact ⟨v, hget, hne, userHasKey_set.2 (.inr ⟨hother, hkey⟩)⟩

/-- **`load`.** -/
theorem lookupsExact_load_iff {stored : JsObject String Devices} :
    (load stored).LookupsExact ↔ LoadsKeys stored := by
  rw [lookupsExact_iff]
  refine forall_congr' fun key => imp_congr_right fun hstored => ?_
  rw [userByIdentityKey_load]
  constructor
  · rintro ⟨u, hget, hne, -⟩
    obtain ⟨entry, hfind, rfl⟩ := Option.map_eq_some_iff.1 hget
    exact ⟨entry, hfind, hne⟩
  · rintro ⟨entry, hfind, hne⟩
    have hkey := List.find?_some hfind
    have hkey := (mem_assignable.1 (of_decide_eq_true hkey)).1
    have hmem := List.mem_reverse.1 (List.mem_of_find?_eq_some hfind)
    refine ⟨entry.1, by rw [hfind, Option.map_some], hne, entry.2, ?_, (mem_identityKeys hkey).1⟩
    exact mem_entries.1 hmem

end Updates

/-! ## Runs -/

theorem Indexed.step {s s' : IdentityIndex} {update : DeviceListUpdate} (hs : s.Indexed)
    (h : identityIndexSystem.step s update = some s') : s'.Indexed := by
  cases update with
  | load stored =>
    obtain rfl := Option.some.inj h
    exact .load stored
  | storeDevicesForUser u devs =>
    obtain rfl := Option.some.inj h
    exact hs.store
  | setRawStoredDevicesForUser userId devices =>
    obtain rfl := Option.some.inj h
    exact hs.store

theorem lookupsExact_step_iff {s s' : IdentityIndex} {update : DeviceListUpdate} (hs : s.Indexed)
    (hexact : s.LookupsExact) (h : identityIndexSystem.step s update = some s') :
    s'.LookupsExact ↔ s.UpdateKeepsKeys update := by
  cases update with
  | load stored =>
    obtain rfl := Option.some.inj h
    exact lookupsExact_load_iff
  | storeDevicesForUser u devs =>
    obtain rfl := Option.some.inj h
    exact lookupsExact_store_iff hs hexact
  | setRawStoredDevicesForUser userId devices =>
    obtain rfl := Option.some.inj h
    exact lookupsExact_store_iff hs hexact

theorem indexed_new : IdentityIndex.new.Indexed := fun _ _ h => nomatch h

theorem lookupsExact_new : IdentityIndex.new.LookupsExact := by
  rw [lookupsExact_iff]
  rintro key ⟨user, devs, hget, -⟩
  exact nomatch hget

/-- A device with the given identity key and no others. -/
def exampleDevice (deviceId key : String) : DeviceInfo :=
  { DeviceInfo.new with keys := .set .empty ("curve25519:" ++ deviceId) key }

/-- Both users publish the key `K`, then one of them publishes an empty list. -/
def exampleUpdates : List DeviceListUpdate :=
  [.storeDevicesForUser "@alice:x" (.set .empty "A" (exampleDevice "A" "K")),
    .storeDevicesForUser "@bob:x" (.set .empty "B" (exampleDevice "B" "K")),
    .storeDevicesForUser "@bob:x" .empty]

end IdentityIndex

end MatrixSdk.Crypto
