/-
Discovery of the servers of a domain: `AutoDiscovery` of `autodiscovery.js`.

The document that a domain serves is read in a chain of early exits, and where it gets to the end
all that it has besides is copied. Two values that are `null` are not expected: the answer of the
homeserver about its versions, and the identity server of a document whose homeserver is right.
With either the promise is rejected; in all other cases the result is what the document and the
servers say ([`fromDiscoveryConfig_iff`]).

How a URL and a text are parsed, and what becomes of a request, is left open.
-/
import MatrixSdk.Lib.JsonValue
import Mathlib

set_option autoImplicit false

namespace MatrixSdk.AutoDiscovery

open MatrixSdk.Lib

universe u

/-! ## Texts -/

def ERROR_INVALID : String := "Invalid homeserver discovery response"

def ERROR_INVALID_HS_BASE_URL : String := "Invalid base_url for m.homeserver"

def ERROR_INVALID_HOMESERVER : String :=
  "Homeserver URL does not appear to be a valid Matrix homeserver"

def ERROR_INVALID_IS_BASE_URL : String := "Invalid base_url for m.identity_server"

def ERROR_INVALID_IDENTITY_SERVER : String :=
  "Identity server URL does not appear to be a valid identity server"

def ERROR_MISSING_WELLKNOWN : String := "No .well-known JSON file found"

def ERROR_INVALID_JSON : String := "Invalid JSON"

def FAIL_ERROR : String := "FAIL_ERROR"

def FAIL_PROMPT : String := "FAIL_PROMPT"

def PROMPT : String := "PROMPT"

def SUCCESS : String := "SUCCESS"

/-! ## Values -/

variable {ν : Type u}

/-- What is thrown. -/
inductive Thrown
  | typeError
  | error (message : String)
  deriving DecidableEq

/-- The members of an object. -/
abbrev Members (ν : Type u) := List (String × JsonValue ν)

/-- `value[name]`, of names that are not inherited; `null` is asked for no property. -/
def getProperty : JsonValue ν → String → Option (JsonValue ν)
  | .obj members, name => members.lookup name
  | _, _ => none

/-- A value that passes `if (value)`. -/
def isTruthy [Zero ν] [DecidableEq ν] : JsonValue ν → Bool
  | .null => false
  | .bool value => value
  | .num value => value ≠ 0
  | .str value => value ≠ ""
  | .arr _ => true
  | .obj _ => true

/-- `o[name] = value`; `__proto__` is no property, but sets the prototype. -/
def assign (members : Members ν) (name : String) (value : JsonValue ν) : Members ν :=
  if name = "__proto__" then members else Lib.Members.set members name value

/-- A text or `null`. -/
def textOrNull : Option String → JsonValue ν
  | none => .null
  | some text => .str text

/-- An object with `state`, `error` and `base_url`. -/
def entry (state : String) (error base_url : Option String) : Members ν :=
  [("state", .str state), ("error", textOrNull error), ("base_url", textOrNull base_url)]

/-! ## The world outside -/

/-- What is read of a `URL`. -/
structure ParsedUrl where
  protocol : String
  hostname : String
  port : String
  pathname : String

/-- What a request ends with: its callback may be given an error, by its message, a response, by its
status code, and a body. -/
structure Outcome where
  err : Option (Option String)
  response : Option (Option ℕ)
  body : Option String

/-- The two libraries for URLs, `JSON.parse`, which throws an error of some name, and what requests
end with. -/
structure Environment (ν : Type u) where
  NodeURL : Option (JsonValue ν → Option ParsedUrl)
  URL : JsonValue ν → Option ParsedUrl
  parse : Option String → Except String (JsonValue ν)
  request : String → Outcome

namespace Environment

variable (env : Environment ν)

/-- "try the NodeJS version first and fall back to the browser" -/
def parseUrl (url : JsonValue ν) : Option ParsedUrl :=
  match env.NodeURL with
  | some NodeURL => (NodeURL url).or (env.URL url)
  | none => env.URL url

/-- `_sanitizeWellKnownUrl` -/
def sanitizeWellKnownUrl [Zero ν] [DecidableEq ν] (url : JsonValue ν) : Option String :=
  if !isTruthy url then none
  else
    match env.parseUrl url with
    | none => none
    | some parsed =>
      if parsed.hostname = "" then none
      else if parsed.protocol ≠ "http:" ∧ parsed.protocol ≠ "https:" then none
      else
        let port := if parsed.port = "" then "" else ":" ++ parsed.port
        let saferUrl := parsed.protocol ++ "//" ++ parsed.hostname ++ port ++ parsed.pathname
        if saferUrl.toList.getLast? = some '/' then some (String.ofList saferUrl.toList.dropLast)
        else some saferUrl

end Environment

inductive Action
  | success
  | ignore
  | failPrompt
  deriving DecidableEq

/-- What `_fetchWellKnownObject` resolves to. -/
structure Fetched (ν : Type u) where
  raw : JsonValue ν
  action : Action
  reason : Option String

namespace Environment

variable (env : Environment ν)

/-- `response.statusCode < 200 || response.statusCode >= 300`; `undefined` compares as false. -/
def isFailure (statusCode : Option ℕ) : Bool :=
  statusCode.any fun statusCode => decide (statusCode < 200 ∨ 300 ≤ statusCode)

/-- `_fetchWellKnownObject`, when there is a request library. -/
def fetchWellKnownObject (url : String) : Fetched ν :=
  let outcome := env.request url
  if outcome.err.isSome ∨ outcome.response.any isFailure then
    if outcome.response = some (some 404) then ⟨.obj [], .ignore, some ERROR_MISSING_WELLKNOWN⟩
    else
      let reason := (outcome.err.bind id).filter fun message => message ≠ ""
      ⟨.obj [], .failPrompt, some (reason.getD "General failure")⟩
  else
    match env.parse outcome.body with
    | .ok raw => ⟨raw, .success, none⟩
    | .error name =>
      ⟨.obj [], .failPrompt,
        some (if name = "SyntaxError" then ERROR_INVALID_JSON else ERROR_INVALID)⟩

/-! ## The document -/

/-- The properties of an entry that are not copied. -/
def notProps : List String := ["error", "state", "base_url"]

/-- The names of an object. What is no object has got here without a property that is set, and has
no names either. -/
def objectKeys : JsonValue ν → List String
  | .obj members => members.map Prod.fst
  | _ => []

/-- The properties of one of the two servers are copied. -/
def copyProps (server : Members ν) (value : JsonValue ν) : Members ν :=
  (objectKeys value).foldl (fun server prop =>
    if prop ∈ notProps then server
    else
      match getProperty value prop with
      | some v => assign server prop v
      | none => server) server

/-- A key of the document is copied. -/
def copyKey (wellknown : JsonValue ν) (clientConfig : Members ν) (k : String) :
    Except Thrown (Members ν) :=
  match getProperty wellknown k with
  | none => .ok clientConfig
  | some value =>
    if k = "m.homeserver" ∨ k = "m.identity_server" then
      match value, clientConfig.lookup k with
      | .null, _ => .error .typeError
      | value, some (.obj server) => .ok (assign clientConfig k (.obj (copyProps server value)))
      | _, _ => .ok clientConfig
    else .ok (assign clientConfig k value)

/-- "Copy any other keys directly into the clientConfig." -/
def copyKeys (wellknown : JsonValue ν) (clientConfig : Members ν) : Except Thrown (Members ν) :=
  (objectKeys wellknown).foldlM (copyKey wellknown) clientConfig

/-- A `clientConfig` with these entries. -/
def config (homeserver identityServer : Members ν) : Members ν :=
  [("m.homeserver", .obj homeserver), ("m.identity_server", .obj identityServer)]

variable [Zero ν] [DecidableEq ν]

/-- `fromDiscoveryConfig` from step 5 on, with the URL of a homeserver that is right. -/
def discoverIdentityServer (wellknown : JsonValue ν) (hsUrl : String) :
    Except Thrown (Members ν) :=
  let homeserver : Members ν := entry SUCCESS none (some hsUrl)
  let identityServer := (getProperty wellknown "m.identity_server").filter isTruthy
  match identityServer with
  | none => copyKeys wellknown (config homeserver (entry PROMPT none none))
  | some identityServer =>
    let isUrl := (getProperty identityServer "base_url").bind env.sanitizeWellKnownUrl
    match isUrl.filter fun isUrl => isUrl ≠ "" with
    | none => .ok (config homeserver (entry FAIL_PROMPT (some ERROR_INVALID_IS_BASE_URL) none))
    | some isUrl =>
      let isResponse := env.fetchWellKnownObject (isUrl ++ "/_matrix/identity/api/v1")
      if !isTruthy isResponse.raw || isResponse.action ≠ .success then
        .ok (config homeserver
          (entry FAIL_PROMPT (some ERROR_INVALID_IDENTITY_SERVER) (some isUrl)))
      else copyKeys wellknown (config homeserver (entry SUCCESS none (some isUrl)))

/-- `fromDiscoveryConfig` -/
def fromDiscoveryConfig (wellknown : JsonValue ν) : Except Thrown (Members ν) :=
  let clientConfig (homeserver : Members ν) : Members ν :=
    config homeserver (entry PROMPT none none)
  match (getProperty wellknown "m.homeserver").filter isTruthy with
  | none => .ok (clientConfig (entry FAIL_PROMPT (some ERROR_INVALID) none))
  | some homeserver =>
    match (getProperty homeserver "base_url").filter isTruthy with
    | none => .ok (clientConfig (entry FAIL_PROMPT (some ERROR_INVALID_HS_BASE_URL) none))
    | some base_url =>
      match (env.sanitizeWellKnownUrl base_url).filter fun hsUrl => hsUrl ≠ "" with
      | none => .ok (clientConfig (entry FAIL_ERROR (some ERROR_INVALID_HS_BASE_URL) none))
      | some hsUrl =>
        match (env.fetchWellKnownObject (hsUrl ++ "/_matrix/client/versions")).raw with
        | .null => .error .typeError
        | raw =>
          if ((getProperty raw "versions").filter isTruthy).isNone then
            .ok (clientConfig (entry FAIL_ERROR (some ERROR_INVALID_HOMESERVER) (some hsUrl)))
          else env.discoverIdentityServer wellknown hsUrl

/-- `findClientConfig` -/
def findClientConfig (domain : String) : Except Thrown (Members ν) :=
  if domain = "" then .error (.error "'domain' must be a string of non-zero length")
  else
    let clientConfig (homeserver : Members ν) : Members ν :=
      config homeserver (entry PROMPT none none)
    let wellknown := env.fetchWellKnownObject ("https://" ++ domain ++ "/.well-known/matrix/client")
    match wellknown.action with
    | .success => env.fromDiscoveryConfig wellknown.raw
    | .ignore => .ok (clientConfig (entry PROMPT none none))
    | .failPrompt => .ok (clientConfig (entry FAIL_PROMPT (some ERROR_INVALID) none))

/-! ## What is to be discovered -/

/-- What a server has answered, when the request is successful and the body is JSON. -/
def answer (url : String) : Option (JsonValue ν) :=
  let outcome := env.request url
  if outcome.err.isSome ∨ outcome.response.any isFailure then none
  else (env.parse outcome.body).toOption

/-- The base URL that a document has for a server, sanitised. -/
def serverUrl (wellknown : JsonValue ν) (server : String) : Option String :=
  ((getProperty wellknown server).bind fun value => getProperty value "base_url").bind
    env.sanitizeWellKnownUrl

/-- The homeserver has told its versions. -/
def VersionsAnswered (url : String) : Prop :=
  ∃ raw versions, env.answer (url ++ "/_matrix/client/versions") = some raw ∧
    getProperty raw "versions" = some versions ∧ isTruthy versions

/-- The identity server has answered with something. -/
def StatusAnswered (url : String) : Prop :=
  ∃ raw, env.answer (url ++ "/_matrix/identity/api/v1") = some raw ∧ isTruthy raw

/-- A property of one of the servers of a result. -/
def field (clientConfig : Members ν) (server prop : String) : Option (JsonValue ν) :=
  (clientConfig.lookup server).bind fun value => getProperty value prop

def Succeeded (clientConfig : Members ν) (server : String) : Prop :=
  field clientConfig server "state" = some (.str SUCCESS)

/-- Two documents that say the same of both servers: whether there is one, and its base URL. -/
def SameServers (wellknown wellknown' : JsonValue ν) : Prop :=
  ∀ server ∈ ["m.homeserver", "m.identity_server"],
    ((getProperty wellknown server).filter isTruthy).map
        (fun value => getProperty value "base_url") =
      ((getProperty wellknown' server).filter isTruthy).map fun value =>
        getProperty value "base_url"

/-- A URL of one of the two protocols. -/
def IsHttp (url : String) : Prop :=
  "http://".toList <+: url.toList ∨ "https://".toList <+: url.toList

/-- **The right result for a document.** -/
structure RightConfig (wellknown : JsonValue ν) (clientConfig : Members ν) : Prop where
  homeserver : Succeeded clientConfig "m.homeserver" ↔
    ∃ url, env.serverUrl wellknown "m.homeserver" = some url ∧ env.VersionsAnswered url
  identityServer : Succeeded clientConfig "m.identity_server" ↔
    Succeeded clientConfig "m.homeserver" ∧
      ∃ url, env.serverUrl wellknown "m.identity_server" = some url ∧ env.StatusAnswered url
  base_url : ∀ server ∈ ["m.homeserver", "m.identity_server"], Succeeded clientConfig server →
    ∃ url, env.serverUrl wellknown server = some url ∧ IsHttp url ∧
      field clientConfig server "base_url" = some (.str url)
  /-- What is computed depends on nothing else that the document has. -/
  unspoofed : ∀ wellknown' clientConfig', SameServers wellknown wellknown' →
    env.fromDiscoveryConfig wellknown' = .ok clientConfig' →
      ∀ server ∈ ["m.homeserver", "m.identity_server"], ∀ prop ∈ notProps,
        field clientConfig server prop = field clientConfig' server prop

/-- The promise is fulfilled, with the right result. -/
def Discovers (wellknown : JsonValue ν) (result : Except Thrown (Members ν)) : Prop :=
  ∃ clientConfig, result = .ok clientConfig ∧ env.RightConfig wellknown clientConfig

/-- So for a domain, where a document that is not served is of no server. -/
def Finds (domain : String) : Prop :=
  match env.answer ("https://" ++ domain ++ "/.well-known/matrix/client") with
  | some wellknown => env.Discovers wellknown (env.findClientConfig domain)
  | none => ∃ clientConfig, env.findClientConfig domain = .ok clientConfig ∧
      ∀ server ∈ ["m.homeserver", "m.identity_server"], ¬ Succeeded clientConfig server

/-- **No `null` where it is not expected**: neither for the versions of the homeserver, nor, when
they are right, for the identity server. -/
def NoNull (wellknown : JsonValue ν) : Prop :=
  ∀ url, env.serverUrl wellknown "m.homeserver" = some url →
    env.answer (url ++ "/_matrix/client/versions") ≠ some .null ∧
      (env.VersionsAnswered url → getProperty wellknown "m.identity_server" ≠ some .null)

/-! ## Requests and URLs -/

omit [Zero ν] [DecidableEq ν] in
/-- What is fetched is what has been answered, or an empty object and no success. -/
theorem fetch_cases (url : String) :
    (∃ raw, env.answer url = some raw ∧ env.fetchWellKnownObject url = ⟨raw, .success, none⟩) ∨
      env.answer url = none ∧ (env.fetchWellKnownObject url).raw = .obj [] ∧
        (env.fetchWellKnownObject url).action ≠ .success := by
  unfold answer fetchWellKnownObject
  by_cases hfails : (env.request url).err.isSome ∨ (env.request url).response.any isFailure
  · right
    rw [if_pos hfails, if_pos hfails]
    by_cases hmissing : (env.request url).response = some (some 404)
    · rw [if_pos hmissing]
      exact ⟨rfl, rfl, nofun⟩
    · rw [if_neg hmissing]
      exact ⟨rfl, rfl, nofun⟩
  · rw [if_neg hfails, if_neg hfails]
    cases env.parse (env.request url).body with
    | ok raw => exact .inl ⟨raw, rfl, rfl⟩
    | error name => exact .inr ⟨rfl, rfl, nofun⟩

/-- **A URL that is sanitised** is of one of the two protocols. -/
theorem isHttp_of_sanitize {value : JsonValue ν} {url : String}
    (h : env.sanitizeWellKnownUrl value = some url) : IsHttp url := by
  unfold sanitizeWellKnownUrl at h
  split at h
  · exact nomatch h
  · split at h
    · exact nomatch h
    next parsed _ =>
      split at h
      · exact nomatch h
      next hhostname =>
        split at h
        · exact nomatch h
        next hprotocol =>
          -- the host comes after the protocol and the slashes
          obtain ⟨c, host, hhost⟩ : ∃ c host, parsed.hostname.toList = c :: host := by
            cases hlist : parsed.hostname.toList with
            | nil => exact absurd (String.toList_eq_nil_iff.1 hlist) hhostname
            | cons c host => exact ⟨c, host, rfl⟩
          have hstart : ∀ rest : List Char, (parsed.protocol ++ "//").toList <+:
              (parsed.protocol ++ "//").toList ++ (c :: rest) ∧
              (parsed.protocol ++ "//").toList <+:
                ((parsed.protocol ++ "//").toList ++ (c :: rest)).dropLast := by
            intro rest
            refine ⟨List.prefix_append _ _, ?_⟩
            rw [List.dropLast_append_cons]
            exact List.prefix_append _ _
          have hboth : (parsed.protocol ++ "//").toList <+: url.toList := by
            dsimp only at h
            generalize (if parsed.port = "" then "" else ":" ++ parsed.port) = port at h
            rw [String.append_assoc, String.append_assoc] at h
            have hlist : ∀ t : String, (parsed.protocol ++ "//" ++ (parsed.hostname ++ t)).toList =
                (parsed.protocol ++ "//").toList ++ (c :: (host ++ t.toList)) := by
              intro t
              rw [String.toList_append, String.toList_append (s := parsed.hostname), hhost]
              rfl
            split at h
            · obtain rfl := Option.some.inj h
              rw [String.toList_ofList, hlist]
              exact (hstart _).2
            · obtain rfl := Option.some.inj h
              rw [hlist]
              exact (hstart _).1
          rcases not_and_or.1 hprotocol with hhttp | hhttps
          · rw [not_not.1 hhttp] at hboth
            exact .inl hboth
          · rw [not_not.1 hhttps] at hboth
            exact .inr hboth

/-! ## Copying -/

section Copying

omit [Zero ν] [DecidableEq ν]

theorem lookup_assign (members : Members ν) (name : String) (value : JsonValue ν)
    {name' : String} (hname' : name' ≠ name) :
    (assign members name value).lookup name' = members.lookup name' := by
  unfold assign
  split
  · rfl
  · rw [Lib.Members.lookup_set, if_neg hname']

theorem lookup_assign_self (members : Members ν) {name : String} (hname : name ≠ "__proto__")
    (value : JsonValue ν) : (assign members name value).lookup name = some value := by
  unfold assign
  rw [if_neg hname, Lib.Members.lookup_set, if_pos rfl]

/-- The properties that are computed are not copied. -/
theorem lookup_copyProps (server : Members ν) (value : JsonValue ν) {prop : String}
    (hprop : prop ∈ notProps) : (copyProps server value).lookup prop = server.lookup prop := by
  unfold copyProps
  generalize objectKeys value = props
  induction props generalizing server with
  | nil => rfl
  | cons prop' props ih =>
    rw [List.foldl_cons, ih]
    by_cases hprop' : prop' ∈ notProps
    · rw [if_pos hprop']
    · rw [if_neg hprop']
      split
      · exact lookup_assign server _ _ fun heq => hprop' (heq ▸ hprop)
      · rfl

/-- A config has both servers, with these values in what is computed. -/
def HasServers (clientConfig : Members ν) (computed : String → Members ν) : Prop :=
  ∀ server ∈ ["m.homeserver", "m.identity_server"], ∃ members,
    clientConfig.lookup server = some (.obj members) ∧
      ∀ prop ∈ notProps, members.lookup prop = (computed server).lookup prop

variable {computed : String → Members ν} {clientConfig : Members ν}

theorem HasServers.field_eq (h : HasServers clientConfig computed) {server prop : String}
    (hserver : server ∈ ["m.homeserver", "m.identity_server"]) (hprop : prop ∈ notProps) :
    field clientConfig server prop = (computed server).lookup prop := by
  obtain ⟨members, hlookup, hprops⟩ := h server hserver
  unfold field
  rw [hlookup, Option.bind_some]
  exact hprops prop hprop

/-- **A key is copied** unless it is a server that is `null`, and what is computed stays as it is.
-/
theorem copyKey_cases (wellknown : JsonValue ν) (h : HasServers clientConfig computed)
    (k : String) :
    (k ∈ ["m.homeserver", "m.identity_server"] ∧ getProperty wellknown k = some .null ∧
        copyKey wellknown clientConfig k = .error .typeError) ∨
      (¬ (k ∈ ["m.homeserver", "m.identity_server"] ∧ getProperty wellknown k = some .null) ∧
        ∃ clientConfig', copyKey wellknown clientConfig k = .ok clientConfig' ∧
          HasServers clientConfig' computed) := by
  have hiff : k ∈ ["m.homeserver", "m.identity_server"] ↔
      k = "m.homeserver" ∨ k = "m.identity_server" := by
    rw [List.mem_cons, List.mem_singleton]
  unfold copyKey
  cases hget : getProperty wellknown k with
  | none => exact .inr ⟨fun hnull => (nomatch hnull.2), clientConfig, rfl, h⟩
  | some value =>
    dsimp only
    by_cases hserver : k = "m.homeserver" ∨ k = "m.identity_server"
    · rw [if_pos hserver]
      obtain ⟨members, hlookup, hprops⟩ := h k (hiff.2 hserver)
      rw [hlookup]
      by_cases hnull : value = .null
      · subst hnull
        exact .inl ⟨hiff.2 hserver, rfl, rfl⟩
      · right
        refine ⟨fun heq => hnull (Option.some.inj heq.2),
          assign clientConfig k (.obj (copyProps members value)), ?_, fun server hmem => ?_⟩
        · cases value with
          | null => exact absurd rfl hnull
          | _ => rfl
        by_cases heq : server = k
        · subst heq
          refine ⟨copyProps members value, lookup_assign_self _ ?_ _, fun prop hprop => ?_⟩
          · rcases hserver with rfl | rfl <;> decide
          · rw [lookup_copyProps members value hprop, hprops prop hprop]
        · obtain ⟨members', hlookup', hprops'⟩ := h server hmem
          exact ⟨members', by rw [lookup_assign _ _ _ heq, hlookup'], hprops'⟩
    · rw [if_neg hserver]
      refine .inr ⟨fun hboth => hserver (hiff.1 hboth.1), _, rfl, fun server hmem => ?_⟩
      obtain ⟨members', hlookup', hprops'⟩ := h server hmem
      have hne : server ≠ k := fun heq => hserver (hiff.1 (heq ▸ hmem))
      exact ⟨members', by rw [lookup_assign _ _ _ hne, hlookup'], hprops'⟩

/-- **All keys are copied**, unless one of the servers is `null`. -/
theorem copyKeys_cases (wellknown : JsonValue ν) (h : HasServers clientConfig computed) :
    ((∃ server ∈ ["m.homeserver", "m.identity_server"],
        getProperty wellknown server = some .null) ∧
        copyKeys wellknown clientConfig = .error .typeError) ∨
      ((∀ server ∈ ["m.homeserver", "m.identity_server"],
        getProperty wellknown server ≠ some .null) ∧
        ∃ clientConfig', copyKeys wellknown clientConfig = .ok clientConfig' ∧
          HasServers clientConfig' computed) := by
  have hkeys : ∀ (ks : List String) (clientConfig : Members ν), HasServers clientConfig computed →
      ((∃ k ∈ ks, k ∈ ["m.homeserver", "m.identity_server"] ∧
          getProperty wellknown k = some .null) ∧
        ks.foldlM (copyKey wellknown) clientConfig = .error .typeError) ∨
      ((∀ k ∈ ks, ¬ (k ∈ ["m.homeserver", "m.identity_server"] ∧
          getProperty wellknown k = some .null)) ∧
        ∃ clientConfig', ks.foldlM (copyKey wellknown) clientConfig = .ok clientConfig' ∧
          HasServers clientConfig' computed) := by
    intro ks
    induction ks with
    | nil =>
      intro clientConfig h
      exact .inr ⟨fun _ hk => absurd hk List.not_mem_nil, clientConfig, rfl, h⟩
    | cons k ks ih =>
      intro clientConfig h
      rw [List.foldlM_cons]
      rcases copyKey_cases wellknown h k with ⟨hserver, hnull, hthrows⟩ | ⟨hnot, _, hok, h'⟩
      · exact .inl ⟨⟨k, List.mem_cons_self, hserver, hnull⟩, by rw [hthrows]; rfl⟩
      · rw [hok]
        rcases ih _ h' with ⟨⟨k', hk', hrest⟩, hthrows⟩ | ⟨hall, hcopied⟩
        · exact .inl ⟨⟨k', List.mem_cons_of_mem k hk', hrest⟩, hthrows⟩
        · refine .inr ⟨fun k' hk' => ?_, hcopied⟩
          rcases List.mem_cons.1 hk' with rfl | hk'
          · exact hnot
          · exact hall k' hk'
  -- a property that is set is one of the names
  have hname : ∀ k value, getProperty wellknown k = some value → k ∈ objectKeys wellknown := by
    intro k value hget
    unfold getProperty at hget
    split at hget
    · exact List.mem_map_of_mem (Lib.Members.mem_of_lookup hget)
    · exact nomatch hget
  rcases hkeys (objectKeys wellknown) clientConfig h with ⟨⟨k, -, hk⟩, hthrows⟩ | ⟨hall, hcopied⟩
  · exact .inl ⟨⟨k, hk⟩, hthrows⟩
  · exact .inr ⟨fun server hmem hnull => hall server (hname server _ hnull) ⟨hmem, hnull⟩, hcopied⟩

end Copying

/-! ## What is computed -/

/-- What is read of a document for a server: whether there is one, and its base URL. -/
def readServer (wellknown : JsonValue ν) (server : String) : Option (Option (JsonValue ν)) :=
  ((getProperty wellknown server).filter isTruthy).map fun value => getProperty value "base_url"

/-- What is computed from a document, and whether its other keys are copied. -/
structure Computed (ν : Type u) where
  homeserver : Members ν
  identityServer : Members ν
  copies : Bool

def Computed.entries (computed : Computed ν) (server : String) : Members ν :=
  if server = "m.homeserver" then computed.homeserver else computed.identityServer

/-- What is computed of the identity server, from what is read. -/
def computeIdentityServer (identityServer : Option (Option (JsonValue ν))) : Members ν × Bool :=
  match identityServer with
  | none => (entry PROMPT none none, true)
  | some base_url =>
    match (base_url.bind env.sanitizeWellKnownUrl).filter fun isUrl => isUrl ≠ "" with
    | none => (entry FAIL_PROMPT (some ERROR_INVALID_IS_BASE_URL) none, false)
    | some isUrl =>
      let isResponse := env.fetchWellKnownObject (isUrl ++ "/_matrix/identity/api/v1")
      if !isTruthy isResponse.raw || isResponse.action ≠ .success then
        (entry FAIL_PROMPT (some ERROR_INVALID_IDENTITY_SERVER) (some isUrl), false)
      else (entry SUCCESS none (some isUrl), true)

/-- What is computed of both servers, from what is read; nothing when that throws. -/
def compute (homeserver identityServer : Option (Option (JsonValue ν))) : Option (Computed ν) :=
  match homeserver with
  | none => some ⟨entry FAIL_PROMPT (some ERROR_INVALID) none, entry PROMPT none none, false⟩
  | some base_url =>
    match base_url.filter isTruthy with
    | none =>
      some ⟨entry FAIL_PROMPT (some ERROR_INVALID_HS_BASE_URL) none, entry PROMPT none none, false⟩
    | some base_url =>
      match (env.sanitizeWellKnownUrl base_url).filter fun hsUrl => hsUrl ≠ "" with
      | none =>
        some ⟨entry FAIL_ERROR (some ERROR_INVALID_HS_BASE_URL) none, entry PROMPT none none,
          false⟩
      | some hsUrl =>
        match (env.fetchWellKnownObject (hsUrl ++ "/_matrix/client/versions")).raw with
        | .null => none
        | raw =>
          if ((getProperty raw "versions").filter isTruthy).isNone then
            some ⟨entry FAIL_ERROR (some ERROR_INVALID_HOMESERVER) (some hsUrl),
              entry PROMPT none none, false⟩
          else
            let identityServer := env.computeIdentityServer identityServer
            some ⟨entry SUCCESS none (some hsUrl), identityServer.1, identityServer.2⟩

/-- The code computes this from what it reads of the two servers, and then copies. -/
theorem fromDiscoveryConfig_eq (wellknown : JsonValue ν) :
    env.fromDiscoveryConfig wellknown =
      match env.compute (readServer wellknown "m.homeserver")
        (readServer wellknown "m.identity_server") with
      | none => .error .typeError
      | some computed =>
        let clientConfig := config computed.homeserver computed.identityServer
        if computed.copies then copyKeys wellknown clientConfig else .ok clientConfig := by
  have hidentity : ∀ hsUrl, env.discoverIdentityServer wellknown hsUrl =
      if (env.computeIdentityServer (readServer wellknown "m.identity_server")).2 then
        copyKeys wellknown (config (entry SUCCESS none (some hsUrl))
          (env.computeIdentityServer (readServer wellknown "m.identity_server")).1)
      else .ok (config (entry SUCCESS none (some hsUrl))
        (env.computeIdentityServer (readServer wellknown "m.identity_server")).1) := by
    intro hsUrl
    unfold discoverIdentityServer computeIdentityServer readServer
    cases (getProperty wellknown "m.identity_server").filter isTruthy with
    | none => rfl
    | some identityServer =>
      simp only [Option.map_some]
      cases ((getProperty identityServer "base_url").bind env.sanitizeWellKnownUrl).filter
          fun isUrl => isUrl ≠ "" with
      | none => rfl
      | some isUrl =>
        dsimp only
        split <;> rfl
  unfold fromDiscoveryConfig compute
  rw [readServer]
  cases (getProperty wellknown "m.homeserver").filter isTruthy with
  | none => rfl
  | some homeserver =>
    simp only [Option.map_some]
    cases (getProperty homeserver "base_url").filter isTruthy with
    | none => rfl
    | some base_url =>
      simp only
      cases (env.sanitizeWellKnownUrl base_url).filter fun hsUrl => hsUrl ≠ "" with
      | none => rfl
      | some hsUrl =>
        simp only [hidentity]
        split
        · rfl
        · split <;> rfl

/-- A URL that is sanitised is not empty. -/
theorem filter_sanitize (value : JsonValue ν) :
    (env.sanitizeWellKnownUrl value).filter (fun url => url ≠ "") =
      env.sanitizeWellKnownUrl value := by
  cases hurl : env.sanitizeWellKnownUrl value with
  | none => rfl
  | some url =>
    rw [Option.filter_some, if_pos]
    refine decide_eq_true ?_
    rintro rfl
    rcases env.isHttp_of_sanitize hurl with hstart | hstart <;>
      exact absurd (List.prefix_nil.1 hstart) (by decide)

/-- The URL of a server is that of what is read. -/
theorem serverUrl_eq (wellknown : JsonValue ν) (server : String) :
    env.serverUrl wellknown server =
      ((readServer wellknown server).bind id).bind env.sanitizeWellKnownUrl := by
  unfold serverUrl readServer
  cases getProperty wellknown server with
  | none => rfl
  | some value =>
    rw [Option.bind_some, Option.filter_some]
    by_cases htruthy : isTruthy value = true
    · rw [if_pos htruthy]
      rfl
    · -- what is falsy has no properties
      rw [if_neg htruthy]
      cases value with
      | obj members => exact absurd rfl htruthy
      | _ => rfl

/-- **What is computed of the identity server.** -/
theorem computeIdentityServer_spec (identityServer : Option (Option (JsonValue ν))) :
    ((env.computeIdentityServer identityServer).1.lookup "state" = some (.str SUCCESS) ↔
      ∃ url, (identityServer.bind id).bind env.sanitizeWellKnownUrl = some url ∧
        env.StatusAnswered url) ∧
    ((env.computeIdentityServer identityServer).1.lookup "state" = some (.str SUCCESS) →
      ∃ url, (identityServer.bind id).bind env.sanitizeWellKnownUrl = some url ∧
        (env.computeIdentityServer identityServer).1.lookup "base_url" = some (.str url)) := by
  have hprompt : ¬ (entry (ν := ν) PROMPT none none).lookup "state" = some (.str SUCCESS) := by
    simp [entry, PROMPT, SUCCESS]
  have hfail : ∀ error base_url,
      ¬ (entry (ν := ν) FAIL_PROMPT error base_url).lookup "state" = some (.str SUCCESS) := by
    simp [entry, FAIL_PROMPT, SUCCESS]
  unfold computeIdentityServer
  cases identityServer with
  | none =>
    refine ⟨iff_of_false hprompt fun h => ?_, fun h => absurd h hprompt⟩
    obtain ⟨url, hurl, -⟩ := h
    exact nomatch hurl
  | some base_url =>
    simp only [Option.bind_some, id]
    have hfilter : (base_url.bind env.sanitizeWellKnownUrl).filter (fun isUrl => isUrl ≠ "") =
        base_url.bind env.sanitizeWellKnownUrl := by
      cases base_url with
      | none => rfl
      | some value => exact env.filter_sanitize value
    rw [hfilter]
    cases hurl : base_url.bind env.sanitizeWellKnownUrl with
    | none =>
      refine ⟨iff_of_false (hfail _ _) fun h => ?_, fun h => absurd h (hfail _ _)⟩
      obtain ⟨url, heq, -⟩ := h
      exact nomatch heq
    | some isUrl =>
      dsimp only
      have hstatus : (∃ url, some isUrl = some url ∧ env.StatusAnswered url) ↔
          env.StatusAnswered isUrl :=
        ⟨fun ⟨url, heq, h⟩ => Option.some.inj heq ▸ h, fun h => ⟨isUrl, rfl, h⟩⟩
      rw [hstatus]
      rcases env.fetch_cases (isUrl ++ "/_matrix/identity/api/v1") with
        ⟨raw, hanswer, hfetch⟩ | ⟨hanswer, -, haction⟩
      · rw [hfetch]
        by_cases htruthy : isTruthy raw = true
        · rw [if_neg (by simp [htruthy])]
          exact ⟨iff_of_true rfl ⟨raw, hanswer, htruthy⟩, fun _ => ⟨isUrl, rfl, rfl⟩⟩
        · rw [if_pos (by simp [htruthy])]
          refine ⟨iff_of_false (hfail _ _) fun h => ?_, fun h => absurd h (hfail _ _)⟩
          obtain ⟨raw', hanswer', htruthy'⟩ := h
          rw [hanswer] at hanswer'
          exact htruthy (Option.some.inj hanswer' ▸ htruthy')
      · rw [if_pos (by simp [haction])]
        refine ⟨iff_of_false (hfail _ _) fun h => ?_, fun h => absurd h (hfail _ _)⟩
        obtain ⟨raw', hanswer', -⟩ := h
        rw [hanswer] at hanswer'
        exact nomatch hanswer'

/-- What is computed when the homeserver has this URL, if it has one. -/
structure RightlyComputed (url : Option String)
    (identityServer : Option (Option (JsonValue ν))) (computed : Computed ν) : Prop where
  success : computed.homeserver.lookup "state" = some (.str SUCCESS) ↔
    ∃ hsUrl, url = some hsUrl ∧ env.VersionsAnswered hsUrl
  base_url : computed.homeserver.lookup "state" = some (.str SUCCESS) →
    ∃ hsUrl, url = some hsUrl ∧ computed.homeserver.lookup "base_url" = some (.str hsUrl)
  rest : computed.homeserver.lookup "state" = some (.str SUCCESS) →
    (computed.identityServer, computed.copies) = env.computeIdentityServer identityServer
  failed : ¬ computed.homeserver.lookup "state" = some (.str SUCCESS) →
    computed.identityServer = entry PROMPT none none ∧ computed.copies = false
  noNull : ∀ hsUrl, url = some hsUrl →
    env.answer (hsUrl ++ "/_matrix/client/versions") ≠ some .null

/-- A homeserver that fails is the end. -/
theorem rightlyComputed_of_failed {url : Option String} {state : String}
    {error base_url : Option String} (identityServer : Option (Option (JsonValue ν)))
    (hstate : state ≠ SUCCESS)
    (hurl : ∀ hsUrl, url = some hsUrl →
      env.answer (hsUrl ++ "/_matrix/client/versions") ≠ some .null ∧
        ¬ env.VersionsAnswered hsUrl) :
    env.RightlyComputed url identityServer
      ⟨entry state error base_url, entry PROMPT none none, false⟩ := by
  have hnot : ¬ (entry (ν := ν) state error base_url).lookup "state" = some (.str SUCCESS) :=
    fun h => hstate (JsonValue.str.inj (Option.some.inj h))
  refine ⟨iff_of_false hnot fun h => ?_, fun h => absurd h hnot, fun h => absurd h hnot,
    fun _ => ⟨rfl, rfl⟩, fun hsUrl h => (hurl hsUrl h).1⟩
  obtain ⟨hsUrl, heq, hversions⟩ := h
  exact (hurl hsUrl heq).2 hversions

/-- What is falsy is not sanitised. -/
theorem bind_filter_sanitize (base_url : Option (JsonValue ν)) :
    (base_url.filter isTruthy).bind env.sanitizeWellKnownUrl =
      base_url.bind env.sanitizeWellKnownUrl := by
  cases base_url with
  | none => rfl
  | some value =>
    rw [Option.filter_some]
    by_cases htruthy : isTruthy value = true
    · rw [if_pos htruthy]
    · rw [if_neg htruthy, Option.bind_none, Option.bind_some]
      unfold sanitizeWellKnownUrl
      rw [if_pos (by simp [htruthy])]

/-- **What is computed of both servers**, or why it throws. -/
theorem compute_spec (homeserver identityServer : Option (Option (JsonValue ν)))
    {url : Option String} (hurl : (homeserver.bind id).bind env.sanitizeWellKnownUrl = url) :
    (env.compute homeserver identityServer = none ∧
      ∃ hsUrl, url = some hsUrl ∧
        env.answer (hsUrl ++ "/_matrix/client/versions") = some .null) ∨
    ∃ computed, env.compute homeserver identityServer = some computed ∧
      env.RightlyComputed url identityServer computed := by
  unfold compute
  cases homeserver with
  | none =>
    obtain rfl : none = url := hurl
    exact .inr ⟨_, rfl, env.rightlyComputed_of_failed _ (by decide) fun _ h => nomatch h⟩
  | some base_url =>
    rw [Option.bind_some, id, ← env.bind_filter_sanitize] at hurl
    dsimp only
    cases hbase : base_url.filter isTruthy with
    | none =>
      rw [hbase] at hurl
      obtain rfl : none = url := hurl
      exact .inr ⟨_, rfl, env.rightlyComputed_of_failed _ (by decide) fun _ h => nomatch h⟩
    | some value =>
      rw [hbase, Option.bind_some] at hurl
      dsimp only
      rw [env.filter_sanitize, hurl]
      cases url with
      | none =>
        exact .inr ⟨_, rfl, env.rightlyComputed_of_failed _ (by decide) fun _ h => nomatch h⟩
      | some hsUrl =>
        dsimp only
        rcases env.fetch_cases (hsUrl ++ "/_matrix/client/versions") with
          ⟨raw, hanswer, hfetch⟩ | ⟨hanswer, hraw, -⟩
        · rw [hfetch]
          by_cases hnull : raw = .null
          · subst hnull
            exact .inl ⟨rfl, hsUrl, rfl, hanswer⟩
          · right
            have hiff : env.VersionsAnswered hsUrl ↔
                ¬ ((getProperty raw "versions").filter isTruthy).isNone = true := by
              rw [Option.isNone_iff_eq_none, Option.eq_none_iff_forall_ne_some]
              constructor
              · rintro ⟨raw', versions, hraw', hget, htruthy⟩ hnone
                obtain rfl := Option.some.inj (hanswer.symm.trans hraw')
                exact hnone versions (Option.filter_eq_some_iff.2 ⟨hget, htruthy⟩)
              · intro hnone
                obtain ⟨versions, hversions⟩ := not_forall.1 hnone
                obtain ⟨hget, htruthy⟩ := Option.filter_eq_some_iff.1 (not_not.1 hversions)
                exact ⟨raw, versions, hanswer, hget, htruthy⟩
            by_cases hversions : ((getProperty raw "versions").filter isTruthy).isNone = true
            · refine ⟨⟨entry FAIL_ERROR (some ERROR_INVALID_HOMESERVER) (some hsUrl),
                entry PROMPT none none, false⟩, ?_,
                env.rightlyComputed_of_failed _ (by decide) fun url' h => ?_⟩
              · cases raw with
                | null => exact absurd rfl hnull
                | _ => exact if_pos hversions
              · obtain rfl := Option.some.inj h
                rw [hanswer]
                exact ⟨fun heq => hnull (Option.some.inj heq), fun h' => hiff.1 h' hversions⟩
            · refine ⟨⟨entry SUCCESS none (some hsUrl),
                (env.computeIdentityServer identityServer).1,
                (env.computeIdentityServer identityServer).2⟩, ?_,
                iff_of_true rfl ⟨hsUrl, rfl, hiff.2 hversions⟩, fun _ => ⟨hsUrl, rfl, rfl⟩,
                fun _ => rfl, fun hnot => absurd rfl hnot, fun url' h heq => ?_⟩
              · cases raw with
                | null => exact absurd rfl hnull
                | _ => exact if_neg hversions
              · obtain rfl := Option.some.inj h
                rw [hanswer] at heq
                exact hnull (Option.some.inj heq)
        · rw [hraw]
          refine .inr ⟨_, rfl, env.rightlyComputed_of_failed _ (by decide) fun url' h => ?_⟩
          obtain rfl := Option.some.inj h
          rw [hanswer]
          refine ⟨nofun, fun hversions => ?_⟩
          obtain ⟨raw, _, hraw', -⟩ := hversions
          rw [hanswer] at hraw'
          exact nomatch hraw'

/-! ## When it is discovered -/

omit [Zero ν] [DecidableEq ν] in
theorem hasServers_config (computed : Computed ν) :
    HasServers (config computed.homeserver computed.identityServer) computed.entries := by
  intro server hserver
  rcases List.mem_cons.1 hserver with rfl | hserver
  · exact ⟨computed.homeserver, rfl, fun _ _ => rfl⟩
  · obtain rfl := List.mem_singleton.1 hserver
    exact ⟨computed.identityServer, rfl, fun _ _ => rfl⟩

/-- **How a call ends**: it throws on a `null`, or it has what is computed. -/
theorem fromDiscoveryConfig_cases (wellknown : JsonValue ν) :
    (env.fromDiscoveryConfig wellknown = .error .typeError ∧ ¬ env.NoNull wellknown) ∨
      ∃ clientConfig computed, env.fromDiscoveryConfig wellknown = .ok clientConfig ∧
        env.NoNull wellknown ∧
        env.compute (readServer wellknown "m.homeserver")
          (readServer wellknown "m.identity_server") = some computed ∧
        HasServers clientConfig computed.entries ∧
        env.RightlyComputed (env.serverUrl wellknown "m.homeserver")
          (readServer wellknown "m.identity_server") computed := by
  rw [fromDiscoveryConfig_eq]
  rcases env.compute_spec (readServer wellknown "m.homeserver")
    (readServer wellknown "m.identity_server") (env.serverUrl_eq wellknown "m.homeserver").symm with
    ⟨hnone, hsUrl, hurl, hnull⟩ | ⟨computed, hsome, hright⟩
  · rw [hnone]
    exact .inl ⟨rfl, fun h => (h hsUrl hurl).1 hnull⟩
  · rw [hsome]
    dsimp only
    have hconfig := hasServers_config computed
    by_cases hsuccess : computed.homeserver.lookup "state" = some (.str SUCCESS)
    · obtain ⟨hsUrl, hurl, hversions⟩ := hright.success.1 hsuccess
      have hiff : env.NoNull wellknown ↔
          getProperty wellknown "m.identity_server" ≠ some .null := by
        refine ⟨fun h => (h hsUrl hurl).2 hversions, fun h url' hurl' =>
          ⟨hright.noNull url' hurl', fun _ => h⟩⟩
      rw [hiff]
      -- there is an object for the homeserver
      have hhomeserver : getProperty wellknown "m.homeserver" ≠ some .null := by
        intro hnull
        unfold serverUrl at hurl
        rw [hnull] at hurl
        exact nomatch hurl
      have hrest := hright.rest hsuccess
      by_cases hcopies : computed.copies = true
      · rw [if_pos hcopies]
        rcases copyKeys_cases wellknown hconfig with
          ⟨⟨server, hserver, hnull⟩, hthrows⟩ | ⟨hall, clientConfig, hok, hkept⟩
        · refine .inl ⟨hthrows, fun h => ?_⟩
          rcases List.mem_cons.1 hserver with rfl | hserver
          · exact hhomeserver hnull
          · obtain rfl := List.mem_singleton.1 hserver
            exact h hnull
        · exact .inr ⟨clientConfig, computed, hok, hall _ (by decide), rfl, hkept, hright⟩
      · rw [if_neg hcopies]
        refine .inr ⟨_, computed, rfl, fun hnull => hcopies ?_, rfl, hconfig, hright⟩
        -- without an identity server the keys are copied
        have hread : readServer wellknown "m.identity_server" = none := by
          unfold readServer
          rw [hnull]
          rfl
        rw [hread] at hrest
        exact (Prod.mk.inj hrest).2
    · have hfailed := hright.failed hsuccess
      rw [if_neg (by rw [hfailed.2]; exact Bool.false_ne_true)]
      refine .inr ⟨_, computed, rfl,
        fun url' hurl' => ⟨hright.noNull url' hurl', fun hversions => ?_⟩, rfl, hconfig, hright⟩
      exact absurd (hright.success.2 ⟨url', hurl', hversions⟩) hsuccess

/-- What is right when there is no `null` in the way. -/
theorem rightConfig_of_computed {wellknown : JsonValue ν} {clientConfig : Members ν}
    {computed : Computed ν}
    (hcompute : env.compute (readServer wellknown "m.homeserver")
      (readServer wellknown "m.identity_server") = some computed)
    (hservers : HasServers clientConfig computed.entries)
    (hright : env.RightlyComputed (env.serverUrl wellknown "m.homeserver")
      (readServer wellknown "m.identity_server") computed) :
    env.RightConfig wellknown clientConfig := by
  have hhs : ∀ prop ∈ notProps, field clientConfig "m.homeserver" prop =
      computed.homeserver.lookup prop := fun prop hprop =>
    hservers.field_eq (by decide) hprop
  have his : ∀ prop ∈ notProps, field clientConfig "m.identity_server" prop =
      computed.identityServer.lookup prop := fun prop hprop =>
    hservers.field_eq (by decide) hprop
  have hurl := env.serverUrl_eq wellknown "m.identity_server"
  have hidentity := env.computeIdentityServer_spec (readServer wellknown "m.identity_server")
  rw [← hurl] at hidentity
  have hprompt : ¬ (entry (ν := ν) PROMPT none none).lookup "state" = some (.str SUCCESS) := by
    simp [entry, PROMPT, SUCCESS]
  have hboth : Succeeded clientConfig "m.identity_server" →
      Succeeded clientConfig "m.homeserver" ∧
        computed.identityServer =
          (env.computeIdentityServer (readServer wellknown "m.identity_server")).1 := by
    unfold Succeeded
    rw [hhs _ (by decide), his _ (by decide)]
    intro hsuccess
    by_cases hhomeserver : computed.homeserver.lookup "state" = some (.str SUCCESS)
    · exact ⟨hhomeserver, (Prod.mk.inj (hright.rest hhomeserver)).1⟩
    · rw [(hright.failed hhomeserver).1] at hsuccess
      exact absurd hsuccess hprompt
  refine ⟨?_, ?_, fun server hserver hsuccess => ?_, fun wellknown' clientConfig' hsame hok => ?_⟩
  · unfold Succeeded
    rw [hhs _ (by decide)]
    exact hright.success
  · constructor
    · intro hsuccess
      obtain ⟨hhomeserver, heq⟩ := hboth hsuccess
      unfold Succeeded at hsuccess
      rw [his _ (by decide), heq] at hsuccess
      exact ⟨hhomeserver, hidentity.1.1 hsuccess⟩
    · rintro ⟨hhomeserver, hstatus⟩
      unfold Succeeded at hhomeserver ⊢
      rw [hhs _ (by decide)] at hhomeserver
      rw [his _ (by decide), (Prod.mk.inj (hright.rest hhomeserver)).1]
      exact hidentity.1.2 hstatus
  · rcases List.mem_cons.1 hserver with rfl | hserver
    · unfold Succeeded at hsuccess
      rw [hhs _ (by decide)] at hsuccess ⊢
      obtain ⟨hsUrl, hof, hbase⟩ := hright.base_url hsuccess
      obtain ⟨value, -, hsanitize⟩ := Option.bind_eq_some_iff.1 hof
      exact ⟨hsUrl, hof, env.isHttp_of_sanitize hsanitize, hbase⟩
    · obtain rfl := List.mem_singleton.1 hserver
      obtain ⟨-, heq⟩ := hboth hsuccess
      unfold Succeeded at hsuccess
      rw [his _ (by decide)] at hsuccess ⊢
      rw [heq] at hsuccess ⊢
      obtain ⟨isUrl, hof, hbase⟩ := hidentity.2 hsuccess
      obtain ⟨value, -, hsanitize⟩ := Option.bind_eq_some_iff.1 hof
      exact ⟨isUrl, hof, env.isHttp_of_sanitize hsanitize, hbase⟩
  · -- the other document is read the same
    rcases env.fromDiscoveryConfig_cases wellknown' with
      ⟨hthrows, -⟩ | ⟨clientConfig'', computed', hok', -, hcompute', hservers', -⟩
    · rw [hthrows] at hok
      exact nomatch hok
    · rw [hok'] at hok
      obtain rfl := Except.ok.inj hok
      have hread : ∀ server ∈ ["m.homeserver", "m.identity_server"],
          readServer wellknown server = readServer wellknown' server := hsame
      rw [← hread _ (by decide), ← hread _ (by decide), hcompute] at hcompute'
      obtain rfl := Option.some.inj hcompute'
      intro server hserver prop hprop
      rw [hservers.field_eq hserver hprop, hservers'.field_eq hserver hprop]

/-- A call discovers what it should unless a `null` is in the way. -/
theorem discovers_iff (wellknown : JsonValue ν) :
    env.Discovers wellknown (env.fromDiscoveryConfig wellknown) ↔ env.NoNull wellknown := by
  rcases env.fromDiscoveryConfig_cases wellknown with
    ⟨hthrows, hnull⟩ | ⟨clientConfig, computed, hok, hnoNull, hcompute, hservers, hright⟩
  · refine iff_of_false (fun h => ?_) hnull
    obtain ⟨clientConfig, hok, -⟩ := h
    rw [hthrows] at hok
    exact nomatch hok
  · exact iff_of_true ⟨clientConfig, hok, env.rightConfig_of_computed hcompute hservers hright⟩
      hnoNull

/-- **When the right servers are discovered**: for a document, and for a domain. -/
theorem fromDiscoveryConfig_iff :
    (∀ wellknown, env.Discovers wellknown (env.fromDiscoveryConfig wellknown) ↔
      env.NoNull wellknown) ∧
    ∀ domain, domain ≠ "" → (env.Finds domain ↔
      ∀ wellknown, env.answer ("https://" ++ domain ++ "/.well-known/matrix/client") =
        some wellknown → env.NoNull wellknown) := by
  refine ⟨env.discovers_iff, fun domain hdomain => ?_⟩
  unfold Finds findClientConfig
  rw [if_neg hdomain]
  dsimp only
  rcases env.fetch_cases ("https://" ++ domain ++ "/.well-known/matrix/client") with
    ⟨raw, hanswer, hfetch⟩ | ⟨hanswer, -, haction⟩
  · rw [hanswer, hfetch]
    dsimp only
    rw [env.discovers_iff]
    exact ⟨fun h _ heq => Option.some.inj heq ▸ h, fun h => h raw rfl⟩
  · rw [hanswer]
    dsimp only
    refine iff_of_true ?_ fun _ h => nomatch h
    have hnot : ∀ state error, state ≠ SUCCESS →
        ∀ server ∈ ["m.homeserver", "m.identity_server"],
          ¬ Succeeded (ν := ν)
            (config (entry state error none) (entry PROMPT none none)) server := by
      intro state error hstate server hserver hsuccess
      rcases List.mem_cons.1 hserver with rfl | hserver
      · exact hstate (JsonValue.str.inj (Option.some.inj hsuccess))
      · obtain rfl := List.mem_singleton.1 hserver
        exact absurd (JsonValue.str.inj (Option.some.inj hsuccess)) (by decide)
    split
    next hsuccess => exact absurd hsuccess haction
    next => exact ⟨_, rfl, hnot _ _ (by decide)⟩
    next => exact ⟨_, rfl, hnot _ _ (by decide)⟩

end Environment

/-! ## A document with `null` -/

/-- A homeserver that tells one version, at the only URL that is parsed. -/
def oneHomeserver : Environment ℕ where
  NodeURL := none
  URL
    | .str "https://hs.example.org" => some ⟨"https:", "hs.example.org", "", "/"⟩
    | _ => none
  parse
    | some "versions" => .ok (.obj [("versions", .arr [.str "r0.6.0"])])
    | _ => .error "SyntaxError"
  request
    | "https://hs.example.org/_matrix/client/versions" =>
      ⟨none, some (some 200), some "versions"⟩
    | _ => ⟨some (some "ENOTFOUND"), none, none⟩

/-- The document `{"m.homeserver": {"base_url": "https://hs.example.org"}}`. -/
def homeserverOnly : JsonValue ℕ :=
  .obj [("m.homeserver", .obj [("base_url", .str "https://hs.example.org")])]

/-- The same with `"m.identity_server": null`. -/
def nullIdentityServer : JsonValue ℕ :=
  .obj [("m.homeserver", .obj [("base_url", .str "https://hs.example.org")]),
    ("m.identity_server", .null)]

/-- The homeserver of a document without `null` is discovered. -/
theorem fromDiscoveryConfig_homeserverOnly :
    oneHomeserver.Discovers homeserverOnly (oneHomeserver.fromDiscoveryConfig homeserverOnly) ∧
      oneHomeserver.Finds "example.org" := by
  have hiff := oneHomeserver.fromDiscoveryConfig_iff
  refine ⟨(hiff.1 homeserverOnly).2 fun url hurl => ?_, (hiff.2 "example.org" (by decide)).2 ?_⟩
  · have hsanitized : oneHomeserver.serverUrl homeserverOnly "m.homeserver" =
        some "https://hs.example.org" := by decide +kernel
    obtain rfl := Option.some.inj (hsanitized.symm.trans hurl)
    refine ⟨fun h => ?_, fun _ h => nomatch h⟩
    have hversions : ((oneHomeserver.answer
        ("https://hs.example.org" ++ "/_matrix/client/versions")).bind
          fun raw => getProperty raw "versions").isSome = true := by
      decide +kernel
    rw [h] at hversions
    exact nomatch hversions
  · intro wellknown hanswer
    have hnone : (oneHomeserver.answer
        ("https://" ++ "example.org" ++ "/.well-known/matrix/client")).isSome = false := by
      decide +kernel
    rw [hanswer] at hnone
    exact nomatch hnone

/-- **Not every document has a result**: of the identity server `null` the properties are to be
copied. -/
theorem fromDiscoveryConfig_throws :
    ¬ ∀ (env : Environment ℕ) (wellknown : JsonValue ℕ),
      env.Discovers wellknown (env.fromDiscoveryConfig wellknown) := by
  intro h
  obtain ⟨clientConfig, hok, -⟩ := h oneHomeserver nullIdentityServer
  have hthrows : (oneHomeserver.fromDiscoveryConfig nullIdentityServer).toOption.isNone = true := by
    decide +kernel
  rw [hok] at hthrows
  exact nomatch hthrows

end MatrixSdk.AutoDiscovery
