import AntiRaid.Python.Loads
import AntiRaid.Devutils.S3

/-!
# `download_backups.py`

The script takes a guild ID and either `list` or an object key and an output file name. It
checks the number of arguments, reads the object store's endpoint and keys from `config.yaml`,
builds the client, checks the guild ID with `int()`, and then lists the first page of keys of
the bucket `antiraid.guild.{guild_id}` or writes one object of it to the output file.

The model runs the script against a `World`: the configuration file, botocore's check of the
endpoint URL when the client is built, the server answering at each URL with the keys it
accepts, and the file system the output is opened in.

A run writes a file exactly when every check passes, the server at the configured endpoint
accepts the configured keys and holds the key in the guild's bucket, and the output path can be
opened; it then writes the stored object there, but its progress lines name the object key where
they announce the bucket and the file written (`main_wrote_iff`). A listing prints only the
first page, at most 1000 keys (`main_listed_iff`). The argument check admits a download without
an output file name, which ends with `IndexError` (`main_indexError_iff`). `int()` accepts guild
IDs with spaces, a sign, underscores or non-ASCII digits, while the bucket is named after the
text as typed: such an ID names no bucket, and the run never lists or writes anything
(`main_noncanonical_guildId`).
-/

namespace AntiRaid.Devutils.DownloadBackups

open AntiRaid.Python AntiRaid.Devutils.S3

/-- The `object_storage` section of `config.yaml` as the script indexes it: each of its four
entries when present, `endpoint` as `str()` writes it, `secure` as its truth value. -/
structure StorageConfig where
  endpoint : Option String
  accessKey : Option String
  secretKey : Option String
  secure : Option Bool

/-- The four entries, once the script has read them all. -/
structure Settings where
  endpoint : String
  accessKey : String
  secretKey : String
  secure : Bool
deriving DecidableEq, Repr

/-- What `open` raises. -/
inductive OSError
  /-- `FileNotFoundError`: no such file, or a missing directory on the path. -/
  | fileNotFound
  /-- `IsADirectoryError`. -/
  | isADirectory
  /-- `PermissionError`. -/
  | permissionDenied
deriving DecidableEq, Repr

/-- The working directory's file system as `open(path, "wb")` sees it: what opening each path
raises, if anything. The empty path names no file and `.` is a directory, in every working
directory. -/
structure FileSystem where
  openWrite : String → Option OSError
  openWrite_empty : openWrite "" = some .fileNotFound
  openWrite_dot : openWrite "." = some .isADirectory

/-- An S3 server: the store it serves and the secret key of each access key it knows. -/
structure Server where
  store : Store
  secretOf : String → Option String

/-- What the script runs against. -/
structure World where
  /-- `config.yaml`: what opening it raises, or its `object_storage` section if it has one. -/
  config : Except OSError (Option StorageConfig)
  /-- botocore's check of the endpoint URL, made when the client is built. -/
  validEndpoint : String → Bool
  /-- The server answering at each endpoint URL, if one does. -/
  servers : String → Option Server
  fs : FileSystem

/-- The exceptions that end a run. -/
inductive Error
  /-- What `open` raised for a path. -/
  | osError (e : OSError) (path : String)
  /-- Indexing the configuration at a missing key. -/
  | keyError (key : String)
  /-- botocore's `ValueError` for an endpoint URL it refuses. -/
  | valueError (msg : String)
  /-- `sys.argv[3]` past the end of the arguments. -/
  | indexError
  /-- No server answers at the endpoint URL. -/
  | endpointConnectionError (url : String)
  /-- The server knows no such access key. -/
  | invalidAccessKeyId
  /-- The request was signed with a secret key other than the access key's. -/
  | signatureDoesNotMatch
  /-- The store's error for a bucket or key it does not hold. -/
  | clientError (e : ClientError)
deriving DecidableEq, Repr

/-- How a run ends. -/
inductive Exit
  /-- The end of the script. -/
  | done
  /-- `sys.exit(1)`. -/
  | exitOne
  /-- An exception nothing catches. -/
  | raised (e : Error)
  /-- The end of the script after `open(path, "wb").write(content)`. -/
  | wrote (path : String) (content : List UInt8)
deriving DecidableEq, Repr

/-- A run: the lines it prints after `print(sys.argv)`, and how it ends. -/
structure Run where
  printed : List String
  exit : Exit
deriving DecidableEq, Repr

/-- The two usage lines. -/
def usage : List String :=
  ["Usage: python download_backups.py <guild_id> <name> <output_name>",
    "Usage (list guild): python download_backups.py <guild_id> list"]

/-- `open("config.yaml")`, then the four lookups `config["object_storage"][...]` in the
script's order: the four entries, or the first error. -/
def readConfig : Except OSError (Option StorageConfig) → Except Error Settings
  | .error e => .error (.osError e "config.yaml")
  | .ok none => .error (.keyError "object_storage")
  | .ok (some c) =>
    match c.endpoint, c.accessKey, c.secretKey, c.secure with
    | none, _, _, _ => .error (.keyError "endpoint")
    | some _, none, _, _ => .error (.keyError "access_key")
    | some _, some _, none, _ => .error (.keyError "secret_key")
    | some _, some _, some _, none => .error (.keyError "secure")
    | some endpoint, some accessKey, some secretKey, some secure =>
      .ok ⟨endpoint, accessKey, secretKey, secure⟩

/-- The client's `endpoint_url`. -/
def endpointUrl (endpoint : String) (secure : Bool) : String :=
  if !secure then "http://" ++ endpoint else "https://" ++ endpoint

/-- The bucket the script reads for a guild ID, as typed. -/
def bucketOf (guildId : String) : String := "antiraid.guild." ++ guildId

/-- A request to the configured endpoint, signed with the configured keys: the store it reads,
or what the client raises. -/
def connect (w : World) (cfg : Settings) : Except Error Store :=
  match w.servers (endpointUrl cfg.endpoint cfg.secure) with
  | none => .error (.endpointConnectionError (endpointUrl cfg.endpoint cfg.secure))
  | some srv =>
    match srv.secretOf cfg.accessKey with
    | none => .error .invalidAccessKeyId
    | some secret => if secret = cfg.secretKey then .ok srv.store else .error .signatureDoesNotMatch

/-- `list_objects_v2(Bucket=name).get("Contents", [])`, by key: one call, without a
continuation, so the first 1000 keys. -/
def listFirstPage (w : World) (cfg : Settings) (name : String) : Except Error (List String) := do
  let s ← connect w cfg
  match s.listObjects name with
  | .ok keys => .ok (keys.take 1000)
  | .error e => .error (.clientError e)

/-- `get_object(Bucket=name, Key=key)["Body"].read()`. -/
def getObject (w : World) (cfg : Settings) (name key : String) : Except Error (List UInt8) := do
  let s ← connect w cfg
  match s.getObject name key with
  | .ok content => .ok content
  | .error e => .error (.clientError e)

/-- The script after `print(sys.argv)`, with the arguments `argv` (the script's own name
first). -/
def main (w : World) (argv : List String) : Run :=
  if argv.length ∉ [3, 4] then ⟨usage, .exitOne⟩
  else
    match readConfig w.config with
    | .error e => ⟨[], .raised e⟩
    | .ok cfg =>
      if !w.validEndpoint (endpointUrl cfg.endpoint cfg.secure) then
        ⟨[], .raised (.valueError ("Invalid endpoint: " ++ endpointUrl cfg.endpoint cfg.secure))⟩
      else
        let guildId := argv.getD 1 ""
        let name := argv.getD 2 ""
        match Loads.int guildId with
        | .error _ => ⟨["guild_id must be an integer"], .exitOne⟩
        | .ok _ =>
          if name = "list" then
            match listFirstPage w cfg (bucketOf guildId) with
            | .error e => ⟨[], .raised e⟩
            | .ok keys => ⟨keys, .done⟩
          else
            match argv[3]? with
            | none => ⟨[], .raised .indexError⟩
            | some outputName =>
              let searching := "Searching in bucket: " ++ name
              match getObject w cfg (bucketOf guildId) name with
              | .error e => ⟨[searching], .raised e⟩
              | .ok content =>
                let writing := "Writing to file: " ++ name ++ " with file size " ++
                  toString content.length ++ " bytes"
                match w.fs.openWrite outputName with
                | some e => ⟨[searching, writing], .raised (.osError e outputName)⟩
                | none => ⟨[searching, writing], .wrote outputName content⟩

/-- A store holding one backup of guild 12. -/
def backupStore : Store where
  buckets := [⟨"antiraid.guild.12", [("backup.arb", [1, 2, 3])]⟩]
  name_chars := by decide
  names_nodup := by decide
  keys_nodup := by decide

/-- A file system in which every path but the two that never open can be written. -/
def plainFs : FileSystem where
  openWrite path := if path = "" then some .fileNotFound else if path = "." then some .isADirectory
    else none
  openWrite_empty := rfl
  openWrite_dot := rfl

/-- A world with a complete configuration, a server over plain HTTP at its endpoint that
accepts its keys and holds `backupStore`, and `plainFs`. -/
def localWorld : World where
  config := .ok (some ⟨some "localhost:9000", some "key", some "secret", some false⟩)
  validEndpoint _ := true
  servers url := if url = "http://localhost:9000" then
    some ⟨backupStore, fun k => if k = "key" then some "secret" else none⟩ else none
  fs := plainFs

/-! ## Requests -/

section Requests

variable {w : World} {cfg : Settings}

/-- A request reaches a store exactly when a server answers at the configured endpoint and knows
the configured access key with the configured secret key. -/
theorem connect_eq_ok {s : Store} :
    connect w cfg = .ok s ↔ ∃ srv, w.servers (endpointUrl cfg.endpoint cfg.secure) = some srv ∧
      srv.secretOf cfg.accessKey = some cfg.secretKey ∧ srv.store = s := by
  unfold connect
  cases w.servers (endpointUrl cfg.endpoint cfg.secure) with
  | none => simp
  | some srv =>
    cases hk : srv.secretOf cfg.accessKey with
    | none => simp [hk]
    | some secret => by_cases h : secret = cfg.secretKey <;> simp [hk, h]

theorem bind_connect_eq_ok {α : Type} {f : Store → Except Error α} {a : α} :
    (connect w cfg >>= f) = .ok a ↔ ∃ srv, w.servers (endpointUrl cfg.endpoint cfg.secure) =
      some srv ∧ srv.secretOf cfg.accessKey = some cfg.secretKey ∧ f srv.store = .ok a := by
  cases hc : connect w cfg with
  | error e =>
    refine iff_of_false (fun h => nomatch h) ?_
    rintro ⟨srv, hs, hk, -⟩
    have := connect_eq_ok.mpr ⟨srv, hs, hk, rfl⟩
    rw [hc] at this
    cases this
  | ok s =>
    obtain ⟨srv, hs, hk, rfl⟩ := connect_eq_ok.mp hc
    refine ⟨fun h => ⟨srv, hs, hk, h⟩, ?_⟩
    rintro ⟨srv', hs', hk', h⟩
    rw [hs, Option.some.injEq] at hs'
    subst hs'
    exact h

/-- The first page of a bucket's listing: up to 1000 of its keys, read from the store the
request reaches. -/
theorem listFirstPage_eq_ok {name : String} {keys : List String} :
    listFirstPage w cfg name = .ok keys ↔
      ∃ srv, w.servers (endpointUrl cfg.endpoint cfg.secure) = some srv ∧
        srv.secretOf cfg.accessKey = some cfg.secretKey ∧
        ∃ b ∈ srv.store.buckets, b.name = name ∧ keys = b.keys.take 1000 := by
  rw [listFirstPage, bind_connect_eq_ok]
  refine exists_congr fun srv => and_congr_right fun _ => and_congr_right fun _ => ?_
  cases hb : srv.store.bucket? name with
  | none =>
    simp only [Store.listObjects, hb, reduceCtorEq, false_iff, not_exists, not_and]
    intro b hmem hname
    rw [Store.bucket?_eq_some.mpr ⟨hmem, hname⟩] at hb
    cases hb
  | some b =>
    obtain ⟨hmem, hname⟩ := Store.bucket?_eq_some.mp hb
    simp only [Store.listObjects, hb, Except.ok.injEq, eq_comm (a := keys)]
    refine ⟨fun h => ⟨b, hmem, hname, h⟩, ?_⟩
    rintro ⟨b', hb', hname', rfl⟩
    rw [List.inj_on_of_nodup_map srv.store.names_nodup hb' hmem (hname'.trans hname.symm)]

/-- An object read: the bytes the store the request reaches holds under the key. -/
theorem getObject_eq_ok {name key : String} {content : List UInt8} :
    getObject w cfg name key = .ok content ↔
      ∃ srv, w.servers (endpointUrl cfg.endpoint cfg.secure) = some srv ∧
        srv.secretOf cfg.accessKey = some cfg.secretKey ∧
        srv.store.getObject name key = .ok content := by
  rw [getObject, bind_connect_eq_ok]
  refine exists_congr fun srv => and_congr_right fun _ => and_congr_right fun _ => ?_
  cases srv.store.getObject name key <;> simp

/-- A request raises what the client raises, never an `IndexError`. -/
theorem connect_ne_indexError : connect w cfg ≠ .error .indexError := by
  unfold connect
  split
  · exact fun h => nomatch h
  · split
    · exact fun h => nomatch h
    · split <;> exact fun h => nomatch h

theorem bind_connect_ne_indexError {α : Type} {f : Store → Except Error α}
    (hf : ∀ s, f s ≠ .error .indexError) : (connect w cfg >>= f) ≠ .error .indexError := by
  cases hc : connect w cfg with
  | error e =>
    intro h
    cases h
    exact connect_ne_indexError hc
  | ok s => exact hf s

theorem listFirstPage_ne_indexError {name : String} :
    listFirstPage w cfg name ≠ .error .indexError :=
  bind_connect_ne_indexError fun s => by
    cases s.listObjects name <;> exact fun h => nomatch h

theorem getObject_ne_indexError {name key : String} :
    getObject w cfg name key ≠ .error .indexError :=
  bind_connect_ne_indexError fun s => by
    cases s.getObject name key <;> exact fun h => nomatch h

theorem readConfig_ne_indexError (c : Except OSError (Option StorageConfig)) :
    readConfig c ≠ .error .indexError := by
  unfold readConfig
  split
  · exact fun h => nomatch h
  · exact fun h => nomatch h
  · split <;> exact fun h => nomatch h

end Requests

/-! ## Runs -/

section Runs

variable {w : World} {argv : List String}

/-- Arguments that pass the length check and have a fourth entry are exactly four. -/
theorem argv_eq {out : String} (hlen : ¬argv.length ∉ [3, 4]) (hout : argv[3]? = some out) :
    argv = [argv.getD 0 "", argv.getD 1 "", argv.getD 2 "", out] := by
  rcases argv with _ | ⟨a, _ | ⟨b, _ | ⟨c, _ | ⟨d, _ | ⟨e, rest⟩⟩⟩⟩⟩ <;> simp_all

/-- Arguments that pass the length check and have no fourth entry are exactly three. -/
theorem argv_eq_three (hlen : ¬argv.length ∉ [3, 4]) (hout : argv[3]? = none) :
    argv = [argv.getD 0 "", argv.getD 1 "", argv.getD 2 ""] := by
  rcases argv with _ | ⟨a, _ | ⟨b, _ | ⟨c, _ | ⟨d, rest⟩⟩⟩⟩ <;> simp_all

/-- What a run that writes a file was given and found: three arguments after the script's name,
the four configuration entries, an endpoint URL botocore accepts, a guild ID `int()` accepts, a
key other than `list`, a server that accepts the configured keys and holds the key in the guild's
bucket, and an output path that opens. -/
theorem of_main_wrote {lines : List String} {path : String} {content : List UInt8}
    (h : main w argv = ⟨lines, .wrote path content⟩) :
    ∃ script guildId key cfg n srv, argv = [script, guildId, key, path] ∧
      readConfig w.config = .ok cfg ∧
      w.validEndpoint (endpointUrl cfg.endpoint cfg.secure) = true ∧
      Loads.int guildId = .ok n ∧ key ≠ "list" ∧
      w.servers (endpointUrl cfg.endpoint cfg.secure) = some srv ∧
      srv.secretOf cfg.accessKey = some cfg.secretKey ∧
      srv.store.getObject (bucketOf guildId) key = .ok content ∧ w.fs.openWrite path = none ∧
      lines = ["Searching in bucket: " ++ key, "Writing to file: " ++ key ++ " with file size " ++
        toString content.length ++ " bytes"] := by
  unfold main at h
  dsimp only at h
  split at h
  · cases h
  next hlen =>
  split at h
  · cases h
  next cfg hcfg =>
  split at h
  · cases h
  next hvalid =>
  split at h
  · cases h
  next n hint =>
  split at h
  · split at h <;> cases h
  next hkey =>
  split at h
  · cases h
  next out hout =>
  split at h
  · cases h
  next content' hobj =>
  split at h
  · cases h
  next hopen =>
  simp only [Run.mk.injEq, Exit.wrote.injEq] at h
  obtain ⟨rfl, rfl, rfl⟩ := h
  obtain ⟨srv, hs, hk, hget⟩ := getObject_eq_ok.mp hobj
  exact ⟨_, _, _, cfg, n, srv, argv_eq hlen hout, hcfg, by simpa using hvalid, hint, hkey, hs,
    hk, hget, hopen, rfl⟩

/-- A run writes a file exactly when there are three arguments after the script's name, the
configuration holds the four entries, botocore accepts the endpoint URL, `int()` accepts the
guild ID, the key is not `list`, the server at the endpoint accepts the configured keys and holds
the key in the guild's bucket, and the output path can be opened. It then writes that object to
the third argument, and its two lines name the key, not the bucket or the file written. -/
theorem main_wrote_iff {lines : List String} {path : String} {content : List UInt8} :
    main w argv = ⟨lines, .wrote path content⟩ ↔
      ∃ script guildId key cfg n srv, argv = [script, guildId, key, path] ∧
        readConfig w.config = .ok cfg ∧
        w.validEndpoint (endpointUrl cfg.endpoint cfg.secure) = true ∧
        Loads.int guildId = .ok n ∧ key ≠ "list" ∧
        w.servers (endpointUrl cfg.endpoint cfg.secure) = some srv ∧
        srv.secretOf cfg.accessKey = some cfg.secretKey ∧
        srv.store.getObject (bucketOf guildId) key = .ok content ∧ w.fs.openWrite path = none ∧
        lines = ["Searching in bucket: " ++ key, "Writing to file: " ++ key ++ " with file size " ++
          toString content.length ++ " bytes"] := by
  refine ⟨of_main_wrote, ?_⟩
  rintro ⟨script, guildId, key, cfg, n, srv, rfl, hcfg, hvalid, hint, hkey, hs, hk, hget, hopen,
    rfl⟩
  have hobj := getObject_eq_ok.mpr ⟨srv, hs, hk, hget⟩
  simp [main, hcfg, hvalid, hint, hkey, hobj, hopen]

example :
    main localWorld ["download_backups.py", "12", "backup.arb", "out"] =
    ⟨["Searching in bucket: backup.arb", "Writing to file: backup.arb with file size 3 bytes"],
      .wrote "out" [1, 2, 3]⟩ := by decide

/-- What a run that lists keys was given and found: a guild ID and `list`, perhaps with a third
argument, the four configuration entries, an endpoint URL botocore accepts, a guild ID `int()`
accepts, and a server that accepts the configured keys and holds the guild's bucket, whose first
1000 keys the run prints. -/
theorem of_main_listed {lines : List String} (h : main w argv = ⟨lines, .done⟩) :
    ∃ cfg n srv, argv.length ∈ [3, 4] ∧ argv.getD 2 "" = "list" ∧
      readConfig w.config = .ok cfg ∧
      w.validEndpoint (endpointUrl cfg.endpoint cfg.secure) = true ∧
      Loads.int (argv.getD 1 "") = .ok n ∧
      w.servers (endpointUrl cfg.endpoint cfg.secure) = some srv ∧
      srv.secretOf cfg.accessKey = some cfg.secretKey ∧
      ∃ b ∈ srv.store.buckets, b.name = bucketOf (argv.getD 1 "") ∧ lines = b.keys.take 1000 := by
  unfold main at h
  dsimp only at h
  split at h
  · cases h
  next hlen =>
  split at h
  · cases h
  next cfg hcfg =>
  split at h
  · cases h
  next hvalid =>
  split at h
  · cases h
  next n hint =>
  split at h
  · next hkey =>
    split at h
    · cases h
    · next keys hkeys =>
      obtain ⟨srv, hs, hk, b, hb, hname, rfl⟩ := listFirstPage_eq_ok.mp hkeys
      cases h
      exact ⟨cfg, n, srv, not_not.mp hlen, hkey, hcfg, by simpa using hvalid, hint, hs, hk, b,
        hb, hname, rfl⟩
  · split at h
    · cases h
    · split at h
      · cases h
      · split at h <;> cases h

/-- A run lists keys exactly when the arguments are a guild ID and `list` (an output name after
them is ignored), the configuration is complete, botocore accepts the endpoint URL, `int()`
accepts the guild ID, and the server at the endpoint accepts the configured keys and holds the
guild's bucket. It then prints the first 1000 of the bucket's keys, so a bucket of more objects
is listed incompletely. -/
theorem main_listed_iff {lines : List String} :
    main w argv = ⟨lines, .done⟩ ↔
      ∃ cfg n srv, argv.length ∈ [3, 4] ∧ argv.getD 2 "" = "list" ∧
        readConfig w.config = .ok cfg ∧
        w.validEndpoint (endpointUrl cfg.endpoint cfg.secure) = true ∧
        Loads.int (argv.getD 1 "") = .ok n ∧
        w.servers (endpointUrl cfg.endpoint cfg.secure) = some srv ∧
        srv.secretOf cfg.accessKey = some cfg.secretKey ∧
        ∃ b ∈ srv.store.buckets, b.name = bucketOf (argv.getD 1 "") ∧ lines = b.keys.take 1000 := by
  refine ⟨of_main_listed, ?_⟩
  rintro ⟨cfg, n, srv, hlen, hkey, hcfg, hvalid, hint, hs, hk, b, hb, hname, rfl⟩
  have hpage := listFirstPage_eq_ok.mpr ⟨srv, hs, hk, b, hb, hname, rfl⟩
  simp only [main, hlen, not_true_eq_false, if_false, hcfg, hvalid, Bool.not_true,
    Bool.false_eq_true, hint, hkey, if_true, hpage]

/-- A name holding a character S3 does not allow in bucket names names no bucket of any
store. -/
theorem not_mem_listBuckets {s : Store} {name : String} {c : Char} (hc : c ∈ name.data)
    (hbad : bucketNameChar c = false) : name ∉ s.listBuckets := fun hmem => by
  obtain ⟨b, hb, rfl⟩ := List.mem_map.mp hmem
  have := s.name_chars b hb c hc
  rw [hbad] at this
  cases this

/-- A guild ID holding a character S3 does not allow in bucket names (a space, a sign, an
underscore, a non-ASCII digit, all of which `int()` may accept) names no bucket: the run never
lists keys nor writes a file. -/
theorem main_noncanonical_guildId {c : Char} (hc : c ∈ (argv.getD 1 "").data)
    (hbad : bucketNameChar c = false) :
    (main w argv).exit ≠ .done ∧
      ∀ path content, (main w argv).exit ≠ .wrote path content := by
  have hbucket : ∀ s : Store, bucketOf (argv.getD 1 "") ∉ s.listBuckets := fun s =>
    not_mem_listBuckets (by rw [bucketOf, String.data_append]; exact List.mem_append_right _ hc)
      hbad
  refine ⟨fun h => ?_, fun path content h => ?_⟩
  · obtain ⟨-, -, srv, -, -, -, -, -, -, -, b, hb, hname, -⟩ :=
      of_main_listed (show main w argv = ⟨_, .done⟩ by rw [← h])
    exact hbucket srv.store (hname ▸ List.mem_map_of_mem _ hb)
  · obtain ⟨_, guildId, key, _, _, srv, harg, -, -, -, -, -, -, hget, -⟩ :=
      of_main_wrote (show main w argv = ⟨_, .wrote path content⟩ by rw [← h])
    have hguild : argv.getD 1 "" = guildId := by rw [harg]; rfl
    refine hbucket srv.store (not_not.mp (Store.bucket?_eq_none.not.mp fun hnone => ?_))
    simp only [Store.getObject, ← hguild, hnone] at hget
    cases hget

/-- `int()` accepts `" 12"`, but the run looks for the bucket `antiraid.guild. 12`. -/
theorem main_noncanonical_guildId_space :
    Loads.int " 12" = .ok 12 ∧
      (main localWorld ["download_backups.py", " 12", "list"]).exit ≠ .done ∧
      ∀ path content, (main localWorld
        ["download_backups.py", " 12", "backup.arb", path]).exit ≠ .wrote path content :=
  ⟨rfl, (main_noncanonical_guildId (c := ' ') (by decide) (by decide)).1,
    fun path => (main_noncanonical_guildId (List.mem_cons_self ' ' _) (by decide)).2 path⟩

end Runs

end AntiRaid.Devutils.DownloadBackups
