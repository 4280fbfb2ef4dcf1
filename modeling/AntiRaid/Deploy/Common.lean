import AntiRaid.Python.Base64
import AntiRaid.Python.Json
import AntiRaid.Deploy.Template

/-!
# What the two setup scripts share

`deploy/setup.py` and `deploy/docker/setup.py` read the same four values with the same
`get_var`, build the same synthetic bot credential from the client id and two
`secrets.token_urlsafe(32)` draws, and write the same message-relay configuration
(`SANDWICH_YAML`), secrets mapping and storage identity document. This module models those
parts once.

The relay configuration is an f-string. Its text is given here line by line as the source writes
it (`sandwichYamlLines`), and as a template (`sandwichYaml`) whose placeholders stand for the
spliced values; `sandwichYaml_text` says that rendering the template is the f-string.

Three agreements between the four written texts (`Files`) are stated here: one synthetic
credential throughout, the main configuration's storage settings against the identity document,
and its relay URL. Each comes with the lemmas that reduce it to what the main configuration
holds.
-/

namespace AntiRaid.Deploy.Common

open AntiRaid.Python AntiRaid.Deploy.Yaml AntiRaid.Deploy.Template

/-! ## Prompting -/

/-- Why a run stops before it has written its files. -/
inductive Failure
  /-- `print(message)`, then `exit(code)`. -/
  | exit (message : String) (code : Nat)
  /-- `os.mkdir` of a directory that exists. -/
  | fileExistsError (path : String)
  /-- `input()` after the typed answers ran out. -/
  | eofError
deriving DecidableEq, Repr

/-- A script's run against the answers still to be typed at its prompts. -/
abbrev Prompts := StateT (List String) (Except Failure)

/-- `input(f"{prompt}: ")` repeated until an answer is not empty. -/
def promptNonempty : List String → Except Failure (String × List String)
  | [] => .error .eofError
  | a :: as => if a = "" then promptNonempty as else .ok (a, as)

/-- `get_var(prompt, env_var)`: the environment's value when it is set and not empty, else the
first answer that is not empty, with spaces and line breaks removed. (Its second emptiness
check and `exit(1)` cannot fire: the value is never empty there.) -/
def getVar (env : String → Option String) (envVar : String) : Prompts String := fun input => do
  let (value, rest) ←
    match env envVar with
    | some v => if v = "" then promptNonempty input else pure (v, input)
    | none => promptNonempty input
  pure (Str.replace (Str.replace value " " "") "\n" "", rest)

/-- The values both scripts prompt for, as `get_var` returns them. -/
structure Request where
  realtoken : String
  clientId : String
  clientSecret : String
  sandwichAlertWebhook : String
deriving DecidableEq, Repr

/-- The four prompts both scripts open with, in their order. -/
def readRequest (env : String → Option String) : Prompts Request := do
  let realtoken ← getVar env "BOT_TOKEN"
  let clientId ← getVar env "CLIENT_ID"
  let clientSecret ← getVar env "CLIENT_SECRET"
  let sandwichAlertWebhook ← getVar env "SANDWICH_ALERT_WEBHOOK"
  pure ⟨realtoken, clientId, clientSecret, sandwichAlertWebhook⟩

/-! ## Reading the prompts

A run reads each value from the environment when it is set there and not empty, and otherwise
from the typed answers. -/

section Prompting

variable {env : String → Option String} {envVar : String} {input : List String}

/-- A value set in the environment is read from it, and no answer is typed. -/
theorem getVar_of_env {v : String} (h : env envVar = some v) (hv : v ≠ "") :
    getVar env envVar input = .ok (Str.replace (Str.replace v " " "") "\n" "", input) := by
  simp [getVar, h, hv]
  rfl

theorem getVar_bind_of_env {α : Type} {v : String} (h : env envVar = some v) (hv : v ≠ "")
    (f : String → Prompts α) :
    (getVar env envVar >>= f) input = f (Str.replace (Str.replace v " " "") "\n" "") input := by
  show (getVar env envVar input).bind _ = _
  rw [getVar_of_env h hv]
  rfl

end Prompting

/-! ## Secrets -/

/-- The bytes `secrets.token_urlsafe` draws, call by call: the two of the synthetic credential,
then the storage keys, the VAPID keys and the signing secret. -/
structure Draws where
  faketokenA : List UInt8
  faketokenB : List UInt8
  s3AccessKey : List UInt8
  s3SecretKey : List UInt8
  vapidPublicKey : List UInt8
  vapidPrivateKey : List UInt8
  dpSecret : List UInt8
  faketokenA_length : faketokenA.length = 32
  faketokenB_length : faketokenB.length = 32
  s3AccessKey_length : s3AccessKey.length = 32
  s3SecretKey_length : s3SecretKey.length = 64
  vapidPublicKey_length : vapidPublicKey.length = 32
  vapidPrivateKey_length : vapidPrivateKey.length = 64
  dpSecret_length : dpSecret.length = 128

/-- Draws of zero bytes. -/
def zeroDraws : Draws :=
  ⟨List.replicate 32 0, List.replicate 32 0, List.replicate 32 0, List.replicate 64 0,
    List.replicate 32 0, List.replicate 64 0, List.replicate 128 0, List.length_replicate _ _,
    List.length_replicate _ _, List.length_replicate _ _, List.length_replicate _ _,
    List.length_replicate _ _, List.length_replicate _ _, List.length_replicate _ _⟩

/-- `f"{base64.b64encode(client_id.encode()).decode()}.{secrets.token_urlsafe(32)}.{...}"`. -/
def faketoken (clientId : String) (d : Draws) : String :=
  ⟨Base64.b64encode (String.toUTF8 clientId).data.toList⟩ ++ "." ++
    Base64.tokenUrlsafe d.faketokenA ++ "." ++ Base64.tokenUrlsafe d.faketokenB

/-- `{faketoken: realtoken}`, the secrets mapping. -/
def nirnSecrets (faketoken realtoken : String) : Json.Value := .dict [(faketoken, .str realtoken)]

/-- `s3_json`, the storage identity document. -/
def s3Json (s3AccessKey s3SecretKey : String) : Json.Value :=
  .dict [("identities", .list [.dict [("name", .str "antiraid"),
      ("credentials", .list [.dict [("accessKey", .str s3AccessKey),
        ("secretKey", .str s3SecretKey)]]),
      ("actions", .list [.str "Read", .str "Write", .str "List", .str "Tagging", .str "Admin"])]]),
    ("accounts", .list [])]

/-! ## Reading the written JSON -/

/-- `obj[key]` on a loaded object. -/
def field (key : String) : Json.Value → Option Json.Value
  | .dict kvs => kvs.lookup key
  | _ => none

/-- The items of a loaded array. -/
def items : Json.Value → List Json.Value
  | .list xs => xs
  | _ => []

/-- A loaded string. -/
def text : Json.Value → Option String
  | .str s => some s
  | _ => none

/-- The `key` of the first credential of the identity called `name` in an identity document. -/
def credentialOf (doc : Json.Value) (name key : String) : Option String := do
  let identities ← field "identities" doc
  let identity ← (items identities).find? fun i => (field "name" i).bind text == some name
  let credential ← (items (← field "credentials" identity)).head?
  text (← field key credential)

theorem credentialOf_s3Json (s3AccessKey s3SecretKey : String) :
    credentialOf (s3Json s3AccessKey s3SecretKey) "antiraid" "accessKey" = some s3AccessKey ∧
      credentialOf (s3Json s3AccessKey s3SecretKey) "antiraid" "secretKey" = some s3SecretKey :=
  ⟨rfl, rfl⟩

/-! ## Placeholders -/

/-- The variables the configuration f-strings splice in, by their names in the scripts. -/
inductive Var
  | faketoken | clientId | clientSecret | sandwichAlertWebhook | realtoken
  | dpSecret | vapidPublicKey | vapidPrivateKey | s3AccessKey | s3SecretKey
  | pgUrl | proxyUrl | sandwichUrl | defaultErrorChannel | localFsPath
  /-- `user` in the `i`th turn of the loop over the root users. -/
  | user (i : Nat)
deriving DecidableEq, Repr

/-- The values of the prompted variables and of `faketoken`; the others are the scripts' own. -/
def requestVars (faketoken : String) (req : Request) : Var → String
  | .faketoken => faketoken
  | .clientId => req.clientId
  | .clientSecret => req.clientSecret
  | .sandwichAlertWebhook => req.sandwichAlertWebhook
  | .realtoken => req.realtoken
  | _ => ""

/-! ## The message-relay configuration -/

/-- `SANDWICH_YAML`, line by line. -/
def sandwichYamlLines (faketoken clientId clientSecret sandwichAlertWebhook realtoken : String) :
    List String :=
  [""] ++
  ["identify:",
   "    url: \"\"",
   "    headers: \x7b\x7d",
   "producer:",
   "    type: websocket",
   "    configuration:",
   "        address: 0.0.0.0:3600",
   s!"        expectedtoken: \"{faketoken}\"",
   "http:",
   "    oauth:",
   s!"        clientid: \"{clientId}\"",
   s!"        clientsecret: \"{clientSecret}\"",
   "        endpoint:",
   "            authurl: https://discord.com/api/oauth2/authorize?prompt=none",
   "            deviceauthurl: \"\"",
   "            tokenurl: https://discord.com/api/oauth2/token",
   "            authstyle: 0",
   "        redirecturl: http://splashtail-sandwich.antiraid.xyz/callback",
   "        scopes:",
   "            - identify",
   "            - email",
   "    user_access: # Change this later",
   "        - \"USER1\"",
   "        - \"USER2\"",
   "        - \"USER3\"",
   "webhooks:",
   s!"    - {sandwichAlertWebhook}",
   "managers:",
   "    - identifier: antiraid",
   "      virtual_shards:",
   "        enabled: true",
   "        count: 30",
   "        dm_shard: 0",
   "      producer_identifier: antiraid_producer",
   "      friendly_name: Anti Raid",
   s!"      token: {realtoken}",
   "      auto_start: true",
   "      disable_trace: true",
   "      bot:",
   "        default_presence:",
   "            status: online",
   "            activities:",
   "                - timestamps: null",
   "                  applicationid: null",
   "                  party: null"] ++
  ["                  assets: null",
   "                  secrets: null",
   "                  flags: null",
   "                  name: Listening to development of Anti-Raid v6 ",
   "                  url: null",
   "                  details: null",
   "                  state: Listening to development of Anti-Raid v6",
   "                  type: 1",
   "                  instance: null",
   "                  createdat: null",
   "            since: 0",
   "            afk: false",
   "        intents: 20031103",
   "        chunk_guilds_on_startup: false",
   "      caching:",
   "        cache_users: true",
   "        cache_members: true",
   "        store_mutuals: true",
   "      events:",
   "        event_blacklist: []",
   "        produce_blacklist: []",
   "      messaging:",
   "        client_name: antiraid",
   "        channel_name: sandwich",
   "        use_random_suffix: true",
   "      sharding:",
   "        auto_sharded: true",
   "        shard_count: 0",
   "        shard_ids: \"\""] ++
  [""]

/-- `SANDWICH_YAML`'s text. -/
def sandwichYamlText (faketoken clientId clientSecret sandwichAlertWebhook realtoken : String) :
    String :=
  "\n".intercalate
    (sandwichYamlLines faketoken clientId clientSecret sandwichAlertWebhook realtoken)

/-- `SANDWICH_YAML` as a template. -/
def sandwichYaml : List (TLine Var) :=
  [.blank] ++
  [.entry 0 "identify" .none "",
   .entry 4 "url" (.quoted (.lit "")) "",
   .entry 4 "headers" (.flowMap "") "",
   .entry 0 "producer" .none "",
   .entry 4 "type" (.plain (.lit "websocket")) "",
   .entry 4 "configuration" .none "",
   .entry 8 "address" (.plain (.lit "0.0.0.0:3600")) "",
   .entry 8 "expectedtoken" (.quoted (.hole .faketoken)) "",
   .entry 0 "http" .none "",
   .entry 4 "oauth" .none "",
   .entry 8 "clientid" (.quoted (.hole .clientId)) "",
   .entry 8 "clientsecret" (.quoted (.hole .clientSecret)) "",
   .entry 8 "endpoint" .none "",
   .entry 12 "authurl" (.plain (.lit "https://discord.com/api/oauth2/authorize?prompt=none")) "",
   .entry 12 "deviceauthurl" (.quoted (.lit "")) "",
   .entry 12 "tokenurl" (.plain (.lit "https://discord.com/api/oauth2/token")) "",
   .entry 12 "authstyle" (.plain (.lit "0")) "",
   .entry 8 "redirecturl" (.plain (.lit "http://splashtail-sandwich.antiraid.xyz/callback")) "",
   .entry 8 "scopes" .none "",
   .item 12 (.plain (.lit "identify")) "",
   .item 12 (.plain (.lit "email")) "",
   .entry 4 "user_access" .none " # Change this later",
   .item 8 (.quoted (.lit "USER1")) "",
   .item 8 (.quoted (.lit "USER2")) "",
   .item 8 (.quoted (.lit "USER3")) "",
   .entry 0 "webhooks" .none "",
   .item 4 (.plain (.hole .sandwichAlertWebhook)) "",
   .entry 0 "managers" .none "",
   .itemEntry 4 "identifier" (.plain (.lit "antiraid")) "",
   .entry 6 "virtual_shards" .none "",
   .entry 8 "enabled" (.plain (.lit "true")) "",
   .entry 8 "count" (.plain (.lit "30")) "",
   .entry 8 "dm_shard" (.plain (.lit "0")) "",
   .entry 6 "producer_identifier" (.plain (.lit "antiraid_producer")) "",
   .entry 6 "friendly_name" (.plain (.lit "Anti Raid")) "",
   .entry 6 "token" (.plain (.hole .realtoken)) "",
   .entry 6 "auto_start" (.plain (.lit "true")) "",
   .entry 6 "disable_trace" (.plain (.lit "true")) "",
   .entry 6 "bot" .none "",
   .entry 8 "default_presence" .none "",
   .entry 12 "status" (.plain (.lit "online")) "",
   .entry 12 "activities" .none "",
   .itemEntry 16 "timestamps" (.plain (.lit "null")) "",
   .entry 18 "applicationid" (.plain (.lit "null")) "",
   .entry 18 "party" (.plain (.lit "null")) ""] ++
  [.entry 18 "assets" (.plain (.lit "null")) "",
   .entry 18 "secrets" (.plain (.lit "null")) "",
   .entry 18 "flags" (.plain (.lit "null")) "",
   .entry 18 "name" (.plain (.lit "Listening to development of Anti-Raid v6")) " ",
   .entry 18 "url" (.plain (.lit "null")) "",
   .entry 18 "details" (.plain (.lit "null")) "",
   .entry 18 "state" (.plain (.lit "Listening to development of Anti-Raid v6")) "",
   .entry 18 "type" (.plain (.lit "1")) "",
   .entry 18 "instance" (.plain (.lit "null")) "",
   .entry 18 "createdat" (.plain (.lit "null")) "",
   .entry 12 "since" (.plain (.lit "0")) "",
   .entry 12 "afk" (.plain (.lit "false")) "",
   .entry 8 "intents" (.plain (.lit "20031103")) "",
   .entry 8 "chunk_guilds_on_startup" (.plain (.lit "false")) "",
   .entry 6 "caching" .none "",
   .entry 8 "cache_users" (.plain (.lit "true")) "",
   .entry 8 "cache_members" (.plain (.lit "true")) "",
   .entry 8 "store_mutuals" (.plain (.lit "true")) "",
   .entry 6 "events" .none "",
   .entry 8 "event_blacklist" (.flowSeq "") "",
   .entry 8 "produce_blacklist" (.flowSeq "") "",
   .entry 6 "messaging" .none "",
   .entry 8 "client_name" (.plain (.lit "antiraid")) "",
   .entry 8 "channel_name" (.plain (.lit "sandwich")) "",
   .entry 8 "use_random_suffix" (.plain (.lit "true")) "",
   .entry 6 "sharding" .none "",
   .entry 8 "auto_sharded" (.plain (.lit "true")) "",
   .entry 8 "shard_count" (.plain (.lit "0")) "",
   .entry 8 "shard_ids" (.quoted (.lit "")) ""] ++
  [.blank]

/-- The template renders to the f-string's text. -/
theorem sandwichYaml_text (σ : Var → String) :
    renderAll σ sandwichYaml = sandwichYamlText (σ .faketoken) (σ .clientId) (σ .clientSecret)
      (σ .sandwichAlertWebhook) (σ .realtoken) := by
  refine congrArg ("\n".intercalate ·) ?_
  simp only [sandwichYaml, sandwichYamlLines, List.cons_append, List.singleton_append,
    List.nil_append, List.map_cons, List.map_nil, List.cons.injEq]
  repeat' constructor
  all_goals
    apply String.ext
    simp only [TLine.render, TValue.render, Part.text, String.data_append, List.append_assoc,
      List.cons_append, List.nil_append, List.append_nil]
    rfl

/-! ## Values the configurations hold unescaped -/

/-- Prompted values the templates can splice in unescaped and read back: the ids in double
quotes need no escape, and the webhook and the bot token each stay one plain scalar. -/
structure Request.Safe (req : Request) : Prop where
  clientId : quotedOk req.clientId.data = true
  clientSecret : quotedOk req.clientSecret.data = true
  sandwichAlertWebhook : Place.ok ⟨false, true⟩ req.sandwichAlertWebhook.data = true
  realtoken : Place.ok ⟨false, false⟩ req.realtoken.data = true

theorem safeChar_of_tokenChar : ∀ c ∈ Base64.tokenChars, safeChar c = true := by decide

theorem Place.ok_of_isToken {s : String} (h : Base64.IsToken s) (hlen : 2 ≤ s.length)
    (pl : Place) : pl.ok s.data = true :=
  Place.ok_of_safe (fun c hc => safeChar_of_tokenChar c (h c hc)) hlen pl

/-- A `token_urlsafe` draw reads back as itself wherever a template puts it. -/
theorem Place.ok_tokenUrlsafe {bs : List UInt8} (h : bs ≠ []) (pl : Place) :
    pl.ok (Base64.tokenUrlsafe bs).data = true :=
  Place.ok_of_isToken (Base64.tokenUrlsafe_isToken bs) (Base64.two_le_length_tokenUrlsafe h) pl

theorem faketoken_isToken (clientId : String) (d : Draws) : Base64.IsToken (faketoken clientId d) :=
  ((((Base64.b64encode_isToken _).append (by decide)).append (Base64.tokenUrlsafe_isToken _)).append
    (by decide)).append (Base64.tokenUrlsafe_isToken _)

/-- The synthetic credential reads back as itself wherever a template puts it, whatever the
client id. -/
theorem Place.ok_faketoken (clientId : String) (d : Draws) (pl : Place) :
    pl.ok (faketoken clientId d).data = true := by
  refine Place.ok_of_isToken (faketoken_isToken clientId d) ?_ pl
  simp only [faketoken, String.length_append]
  have : "".length + 1 = ".".length := rfl
  omega

/-! ## Reading the relay configuration -/

theorem sandwichYaml_holes :
    sandwichYaml.flatMap TLine.holes =
      [(.faketoken, ⟨true, false⟩), (.clientId, ⟨true, false⟩), (.clientSecret, ⟨true, false⟩),
        (.sandwichAlertWebhook, ⟨false, true⟩), (.realtoken, ⟨false, false⟩)] := by
  decide

theorem sandwichYaml_ok (ft : String) (hft : quotedOk ft.data = true) {req : Request}
    (hreq : req.Safe) : ∀ tl ∈ sandwichYaml, tl.ok (requestVars ft req) = true := by
  refine ok_of_holes (by decide) ?_
  rw [sandwichYaml_holes]
  simp only [List.mem_cons, List.mem_singleton, List.not_mem_nil, or_false, forall_eq_or_imp,
    forall_eq]
  exact ⟨hft, hreq.clientId, hreq.clientSecret, hreq.sandwichAlertWebhook, hreq.realtoken⟩

/-- The relay configuration carries the synthetic credential as
`producer.configuration.expectedtoken`. -/
theorem sandwichYaml_expectedtoken (ft : String) (hft : quotedOk ft.data = true) {req : Request}
    (hreq : req.Safe) :
    yamlAt (sandwichYamlText ft req.clientId req.clientSecret req.sandwichAlertWebhook
        req.realtoken) ["producer", "configuration", "expectedtoken"] = some (some (.str ft)) := by
  have h : yamlAt (renderAll (requestVars ft req) sandwichYaml)
      ["producer", "configuration", "expectedtoken"] = some (some (.str ft)) :=
    yamlAt_renderAll (sandwichYaml_ok ft hft hreq) (by decide) (v := .str (.hole .faketoken))
      (by decide)
  rwa [sandwichYaml_text] at h

/-! ## The written files -/

/-- The four texts a run writes: the main configuration, the secrets mapping, the relay
configuration and the storage identity document. -/
structure Files where
  mainConfig : String
  secrets : String
  sandwichConfig : String
  s3 : String

/-- The files of a run whose main configuration is `mainConfig`: the other three are the same
in both scripts. -/
def files (mainConfig : String) (req : Request) (d : Draws) : Files :=
  let faketoken := faketoken req.clientId d
  ⟨mainConfig, Json.dumps (some 4) (nirnSecrets faketoken req.realtoken),
    sandwichYamlText faketoken req.clientId req.clientSecret req.sandwichAlertWebhook req.realtoken,
    Json.dumps (some 4)
      (s3Json (Base64.tokenUrlsafe d.s3AccessKey) (Base64.tokenUrlsafe d.s3SecretKey))⟩

/-! ## Agreement between the written files -/

/-- The synthetic credential is one string in the main configuration's `discord_auth.token`,
in the relay configuration's `producer.configuration.expectedtoken`, and as the only key of the
secrets mapping, whose value is the bot token. -/
def CredentialAgrees (fs : Files) (realtoken : String) : Prop :=
  ∃ t, yamlAt fs.mainConfig ["discord_auth", "token"] = some (some (.str t)) ∧
    yamlAt fs.sandwichConfig ["producer", "configuration", "expectedtoken"] = some (some (.str t)) ∧
    Json.loads fs.secrets = some (.dict [(t, .str realtoken)])

/-- The main configuration's storage keys are those of the `antiraid` identity in the identity
document, and its endpoint is `endpoint`. -/
def StorageAgrees (fs : Files) (endpoint : String) : Prop :=
  ∃ doc accessKey secretKey, Json.loads fs.s3 = some doc ∧
    credentialOf doc "antiraid" "accessKey" = some accessKey ∧
    credentialOf doc "antiraid" "secretKey" = some secretKey ∧
    yamlAt fs.mainConfig ["object_storage", "access_key"] = some (some (.str accessKey)) ∧
    yamlAt fs.mainConfig ["object_storage", "secret_key"] = some (some (.str secretKey)) ∧
    yamlAt fs.mainConfig ["object_storage", "endpoint"] = some (some (.str endpoint))

/-- The main configuration points at the message relay's URL. -/
def RelayAgrees (fs : Files) (url : String) : Prop :=
  yamlAt fs.mainConfig ["meta", "sandwich_http_api"] = some (some (.str url))

/-- The secrets mapping reads back as the one entry the script writes. -/
theorem loads_nirnSecrets (ft realtoken : String) :
    Json.loads (Json.dumps (some 4) (nirnSecrets ft realtoken)) =
      some (.dict [(ft, .str realtoken)]) :=
  Json.loads_dumps _ _

/-- The identity document reads back with the drawn keys as the `antiraid` identity's. -/
theorem credentialOf_loads_s3Json (s3AccessKey s3SecretKey : String) :
    ∃ doc, Json.loads (Json.dumps (some 4) (s3Json s3AccessKey s3SecretKey)) = some doc ∧
      credentialOf doc "antiraid" "accessKey" = some s3AccessKey ∧
      credentialOf doc "antiraid" "secretKey" = some s3SecretKey :=
  ⟨_, Json.loads_dumps _ _, credentialOf_s3Json s3AccessKey s3SecretKey⟩

section Agree

variable {mainConfig : String} {req : Request} {d : Draws}

/-- The credential agrees as soon as the main configuration holds it as `discord_auth.token`:
the relay configuration and the secrets mapping carry it by construction. -/
theorem files_credentialAgrees (hreq : req.Safe)
    (htoken : yamlAt mainConfig ["discord_auth", "token"] =
      some (some (.str (faketoken req.clientId d)))) :
    CredentialAgrees (files mainConfig req d) req.realtoken :=
  ⟨_, htoken, sandwichYaml_expectedtoken _ (Place.ok_faketoken _ _ ⟨true, false⟩) hreq,
    loads_nirnSecrets _ _⟩

/-- The storage settings agree as soon as the main configuration holds the two drawn keys and
the endpoint. -/
theorem files_storageAgrees {endpoint : String}
    (haccess : yamlAt mainConfig ["object_storage", "access_key"] =
      some (some (.str (Base64.tokenUrlsafe d.s3AccessKey))))
    (hsecret : yamlAt mainConfig ["object_storage", "secret_key"] =
      some (some (.str (Base64.tokenUrlsafe d.s3SecretKey))))
    (hendpoint : yamlAt mainConfig ["object_storage", "endpoint"] = some (some (.str endpoint))) :
    StorageAgrees (files mainConfig req d) endpoint :=
  let ⟨doc, hload, haccessKey, hsecretKey⟩ := credentialOf_loads_s3Json
    (Base64.tokenUrlsafe d.s3AccessKey) (Base64.tokenUrlsafe d.s3SecretKey)
  ⟨doc, _, _, hload, haccessKey, hsecretKey, haccess, hsecret, hendpoint⟩

/-- A storage key that does not read as text agrees with no identity document. -/
theorem not_storageAgrees_of_access_key {fs : Files} {endpoint : String}
    (h : ∀ s, yamlAt fs.mainConfig ["object_storage", "access_key"] ≠ some (some (.str s))) :
    ¬ StorageAgrees fs endpoint := by
  rintro ⟨-, accessKey, -, -, -, -, haccess, -⟩
  exact h accessKey haccess

end Agree

end AntiRaid.Deploy.Common
