import Mathlib.Data.List.AList
import AntiRaid.Devutils.S3
import AntiRaid.Python.Json
import AntiRaid.Python.Loops

/-!
# `migrate_nonencrypted_backups.py`

The script first reads the header of every object on the first page of every
`antiraid.guild.*` bucket and collects the objects whose encryptor field is not `aes256`. The
ranged read raises on an empty object; on a store without one it never raises there, and
collects exactly those objects (`census_spec`). `migrate_all` then walks that set,
in whatever order Python's set gives, and for each `.iblfile` key runs `legacybackupconverter`
into `antiraidbackup-{dt}.arb2` and replaces the `migrated.{backupid}` row of
`guild_templates_kv` for the guild.

The output path is built from the datetime segment of the key alone and the metadata key from
the backup id segment alone, so two backups can share either: then the later one overwrites
the earlier, and which one survives depends on the iteration order
(`migrateAll_order_dependent`). When the backups' output paths and metadata keys are distinct,
a completed run gives each its own file and its own row, and leaves everything else as it was
(`migrateAll_converts`).
-/

namespace AntiRaid.Devutils.MigrateNonencryptedBackups

open AntiRaid.Python AntiRaid.Python.Loops AntiRaid.Devutils.S3

/-- The exceptions that end a run. -/
inductive Raised
  | clientError (e : ClientError)
  | indexError (msg : String)
  | runtimeError (msg : String)
deriving DecidableEq, Repr

/-! ## Finding the non-encrypted backups -/

/-- A bytes literal `b"..."` of ASCII text. -/
def ascii (s : String) : List UInt8 := s.data.map fun c => c.toNat.toUInt8

/-- `AUTO_ENCRYPTED_FILE_MAGIC`. -/
def autoEncryptedFileMagic : List UInt8 := ascii "iblaef"

/-- `AUTO_ENCRYPTED_FILE_CHECKSUM_SIZE`. -/
def autoEncryptedFileChecksumSize : Nat := 32

/-- `AUTO_ENCRYPTED_FILE_ID_SIZE`. -/
def autoEncryptedFileIdSize : Nat := 16

/-- Python's `content[a:b]`. -/
def slice (content : List UInt8) (a b : Nat) : List UInt8 := (content.drop a).take (b - a)

/-- `encryptor`: the id field after the magic and the checksum. -/
def encryptor (content : List UInt8) : List UInt8 :=
  slice content (autoEncryptedFileMagic.length + autoEncryptedFileChecksumSize)
    (autoEncryptedFileMagic.length + autoEncryptedFileChecksumSize + autoEncryptedFileIdSize)

/-- `encryptor == b"aes256$$$$$$$$$$"`. -/
def encrypted (content : List UInt8) : Bool := encryptor content == ascii "aes256$$$$$$$$$$"

/-- `get_object(Bucket=name, Key=file, Range="bytes=0-100")["Body"].read()`. -/
def getHeader (s : Store) (name file : String) : Except ClientError (List UInt8) :=
  s.getObjectRange name file 0 100

/-- `list_objects_v2(Bucket=name).get("Contents", [])`, by key: one call, without a
continuation, so the first 1000 keys. -/
def listObjectsV2 (s : Store) (name : String) : Except ClientError (List String) :=
  (s.listObjects name).map (·.take 1000)

/-- What the first loops count and collect; `servers` and `non_encrypted` are sets. -/
structure Census where
  numEncrypted : Nat
  numTotal : Nat
  servers : List String
  nonEncrypted : List (String × String)

/-- The body of the loop over a bucket's keys. -/
def censusFile (s : Store) (name : String) (c : Census) (file : String) : Except Raised Census :=
  match getHeader s name file with
  | .error e => .error (.clientError e)
  | .ok content =>
    if encrypted content then
      match (Str.split name '.')[2]? with
      | some server =>
        .ok { c with
          numEncrypted := c.numEncrypted + 1, numTotal := c.numTotal + 1
          servers := c.servers.insert server }
      | none => .error (.indexError "list index out of range")
    else
      .ok { c with nonEncrypted := c.nonEncrypted.insert (name, file), numTotal := c.numTotal + 1 }

/-- The loops over the buckets and the first page of each one's keys. -/
def census (s : Store) : Except Raised Census :=
  s.listBuckets.foldlM (fun c name =>
    if Str.startswith name guildPrefix then
      match listObjectsV2 s name with
      | .ok keys => keys.foldlM (censusFile s name) c
      | .error e => .error (.clientError e)
    else pure c) ⟨0, 0, [], []⟩

/-- Every object the first loops read, in the order they read them. -/
def censusSources (s : Store) : List (String × String) :=
  (s.buckets.filter (Str.startswith ·.name guildPrefix)).flatMap fun b =>
    (b.keys.take 1000).map (b.name, ·)

/-- No object the first loops read is empty, so each has the header they ask for. -/
def HeadersReadable (s : Store) : Prop :=
  ∀ b ∈ s.buckets, Str.startswith b.name guildPrefix = true → ∀ o ∈ b.objects.take 1000, o.2 ≠ []

instance (s : Store) : Decidable (HeadersReadable s) :=
  inferInstanceAs (Decidable (∀ b ∈ s.buckets, Str.startswith b.name guildPrefix = true →
    ∀ o ∈ b.objects.take 1000, o.2 ≠ []))

theorem census_eq (s : Store) :
    census s = (censusSources s).foldlM (fun c p => censusFile s p.1 c p.2) ⟨0, 0, [], []⟩ := by
  rw [census, Store.listBuckets, List.foldlM_map, censusSources, foldlM_flatMap, foldlM_filter]
  refine foldlM_congr _ (fun c b hb => ?_) _
  rw [listObjectsV2, Store.listObjects_of_mem hb, List.foldlM_map]
  rfl

theorem censusSources_nodup (s : Store) : (censusSources s).Nodup := by
  refine List.nodup_flatMap.mpr ⟨fun b hb =>
    ((s.keys_nodup_of_mem (List.mem_filter.mp hb).1).sublist (List.take_sublist _ _)).map
      fun _ _ h => (Prod.mk.inj h).2, ?_⟩
  refine ((List.pairwise_map.mp s.names_nodup).filter _).imp fun hne => ?_
  simp only [List.Disjoint, List.mem_map]
  rintro _ ⟨k₁, -, rfl⟩ ⟨k₂, -, h⟩
  exact hne (Prod.mk.inj h).1.symm

theorem mem_censusSources {s : Store} {p : String × String} (h : p ∈ censusSources s) :
    ∃ b ∈ s.buckets, Str.startswith b.name guildPrefix = true ∧ b.name = p.1 ∧
      ∃ blob, (p.2, blob) ∈ b.objects.take 1000 := by
  simp only [censusSources, List.mem_flatMap, List.mem_filter, List.mem_map, Bucket.keys,
    ← List.map_take] at h
  obtain ⟨b, ⟨hb, hs⟩, _, ⟨⟨k, blob⟩, ho, rfl⟩, rfl⟩ := h
  exact ⟨b, hb, hs, rfl, blob, ho⟩

/-- On a store whose objects read have headers, every object read is a non-empty listed
object of a guild bucket. -/
theorem readable_of_mem_censusSources {s : Store} (hs : HeadersReadable s)
    {p : String × String} (h : p ∈ censusSources s) :
    ∃ b ∈ s.buckets, Str.startswith b.name guildPrefix = true ∧ b.name = p.1 ∧
      ∃ blob, (p.2, blob) ∈ b.objects ∧ blob ≠ [] := by
  obtain ⟨b, hb, hg, hname, blob, ho⟩ := mem_censusSources h
  exact ⟨b, hb, hg, hname, blob, List.mem_of_mem_take ho, hs b hb hg _ ho⟩

/-- A guild bucket's name has a third `.`-separated part. -/
theorem split_guild {name : String} (h : Str.startswith name guildPrefix = true) :
    ∃ server, (Str.split name '.')[2]? = some server := by
  obtain ⟨r, hr⟩ := List.isPrefixOf_iff_prefix.mp h
  have hname : name = ⟨"antiraid".data ++ '.' :: ("guild".data ++ '.' :: r)⟩ :=
    String.ext (hr.symm.trans (by simp [guildPrefix]))
  obtain ⟨q, qs, hq⟩ := List.exists_cons_of_ne_nil (Str.split_ne_nil ⟨r⟩ '.')
  rw [hname, Str.split_append_sep (by decide), Str.split_append_sep (by decide), hq]
  exact ⟨q, by simp⟩

/-- The header of a non-empty listed object. -/
theorem getHeader_of_mem {s : Store} {b : Bucket} (hb : b ∈ s.buckets) {file : String}
    {blob : List UInt8} (h : (file, blob) ∈ b.objects) (hne : blob ≠ []) :
    getHeader s b.name file = .ok (blob.take 101) := by
  rw [getHeader, Store.getObjectRange, Store.getObject_of_mem hb h]
  exact if_pos (List.length_pos.mpr hne)

/-- Over a non-empty listed object of a guild bucket, the loop body reads its header and either
counts it as encrypted or adds it to `non_encrypted`. -/
theorem censusFile_of_mem {s : Store} {b : Bucket} (hb : b ∈ s.buckets) {file : String}
    {blob : List UInt8} (c : Census) (hname : Str.startswith b.name guildPrefix = true)
    (hfile : (file, blob) ∈ b.objects) (hne : blob ≠ []) :
    ∃ c', censusFile s b.name c file = .ok c' ∧ c'.numTotal = c.numTotal + 1 ∧
      ((b.name, file) ∉ c.nonEncrypted →
        c'.numEncrypted + c'.nonEncrypted.length = c.numEncrypted + c.nonEncrypted.length + 1) ∧
      (∀ p, p ∈ c'.nonEncrypted ↔ p ∈ c.nonEncrypted ∨
        (p = (b.name, file) ∧ encrypted (blob.take 101) = false)) := by
  have hhdr := getHeader_of_mem hb hfile hne
  cases he : encrypted (blob.take 101)
  · refine ⟨{ c with
        nonEncrypted := c.nonEncrypted.insert (b.name, file), numTotal := c.numTotal + 1 },
      by rw [censusFile, hhdr]; simp [he], rfl,
      fun hnew => ?_, fun p => by simp [or_comm]⟩
    simp only [List.insert_of_not_mem hnew, List.length_cons]
    omega
  · obtain ⟨server, hs⟩ := split_guild hname
    refine ⟨{ c with
        numEncrypted := c.numEncrypted + 1, numTotal := c.numTotal + 1,
        servers := c.servers.insert server }, by rw [censusFile, hhdr]; simp [he, hs], rfl,
      fun _ => by simp only; omega, fun p => by simp⟩

/-- The census loop over listed, non-empty guild objects, none already collected: it never
raises, counts each object once, and collects exactly those whose header is not encrypted. -/
theorem census_loop {s : Store} : ∀ (ps : List (String × String)) (c₀ : Census),
    (∀ p ∈ ps, ∃ b ∈ s.buckets, Str.startswith b.name guildPrefix = true ∧ b.name = p.1 ∧
      ∃ blob, (p.2, blob) ∈ b.objects ∧ blob ≠ []) → ps.Nodup →
    (∀ p ∈ ps, p ∉ c₀.nonEncrypted) →
    ∃ c, ps.foldlM (fun c p => censusFile s p.1 c p.2) c₀ = .ok c ∧
      c.numTotal = c₀.numTotal + ps.length ∧
      c.numEncrypted + c.nonEncrypted.length =
        c₀.numEncrypted + c₀.nonEncrypted.length + ps.length ∧
      ∀ p, p ∈ c.nonEncrypted ↔
        p ∈ c₀.nonEncrypted ∨ (p ∈ ps ∧ (getHeader s p.1 p.2).map encrypted = .ok false)
  | [], c₀, _, _, _ => ⟨c₀, rfl, rfl, rfl, by simp⟩
  | (name, file) :: ps, c₀, hmem, hnd, hnew => by
    rw [List.nodup_cons] at hnd
    obtain ⟨b, hb, hg, rfl, blob, hfile, hne⟩ := hmem _ (List.mem_cons_self _ _)
    obtain ⟨c₁, hstep, htotal₁, hcount₁, hnon₁⟩ := censusFile_of_mem hb c₀ hg hfile hne
    have hhdr := getHeader_of_mem hb hfile hne
    have hnew₁ : ∀ q ∈ ps, q ∉ c₁.nonEncrypted := fun q hq h =>
      ((hnon₁ q).mp h).elim (hnew q (List.mem_cons_of_mem _ hq)) fun h => hnd.1 (h.1 ▸ hq)
    obtain ⟨c, hrun, htotal, hcount, hnon⟩ :=
      census_loop ps c₁ (fun q hq => hmem q (List.mem_cons_of_mem _ hq)) hnd.2 hnew₁
    refine ⟨c, by rw [List.foldlM_cons, hstep]; exact hrun, ?_, ?_, fun q => ?_⟩
    · rw [htotal, htotal₁, List.length_cons]
      omega
    · rw [hcount, hcount₁ (hnew _ (List.mem_cons_self _ _)), List.length_cons]
      omega
    · have hself : (getHeader s b.name file).map encrypted = .ok false ↔
          encrypted (blob.take 101) = false := by
        rw [hhdr]
        exact ⟨Except.ok.inj, congrArg _⟩
      rw [hnon, hnon₁, List.mem_cons]
      constructor
      · rintro ((h | ⟨rfl, h⟩) | ⟨h, h'⟩)
        exacts [.inl h, .inr ⟨.inl rfl, hself.mpr h⟩, .inr ⟨.inr h, h'⟩]
      · rintro (h | ⟨rfl | h, h'⟩)
        exacts [.inl (.inl h), .inl (.inr ⟨rfl, hself.mp h'⟩), .inr ⟨h, h'⟩]

theorem censusFile_nodup {s : Store} {name file : String} {c c' : Census}
    (hc : c.nonEncrypted.Nodup) (h : censusFile s name c file = .ok c') :
    c'.nonEncrypted.Nodup := by
  unfold censusFile at h
  split at h
  · cases h
  · split at h
    · split at h
      · cases h
        exact hc
      · cases h
    · cases h
      by_cases hmem : (name, file) ∈ c.nonEncrypted
      · rwa [List.insert_of_mem hmem]
      · rw [List.insert_of_not_mem hmem]
        exact List.nodup_cons.mpr ⟨hmem, hc⟩

/-- Two guild buckets, one backup each, and a bucket the loops skip. -/
def twoBackupsStore : Store where
  buckets := [⟨"antiraid.guild.1", [("antiraid-backup-2024.iblfile", [0])]⟩,
    ⟨"antiraid.guild.2", [("antiraid-backup-2025.iblfile", [1])]⟩, ⟨"logs", [("x", [])]⟩]
  name_chars := by decide
  names_nodup := by decide
  keys_nodup := by decide

/-- `file.replace("antiraid-backup-", "").replace(".iblfile", "")`. -/
def stripBackupName (file : String) : String :=
  Str.replace (Str.replace file "antiraid-backup-" "") ".iblfile" ""

/-- `output_path`. -/
def outputPath (dt : String) : String := "antiraidbackup-" ++ dt ++ ".arb2"

/-- What the loop body derives from a backup's bucket and key before it converts it. -/
structure Plan where
  guildId : String
  key : String
  outputPath : String
deriving DecidableEq, Repr

/-- `guild_id`, `migrated.{backupid}` and `output_path`, each index of a `split` raising when the
part is missing. -/
def plan (obj : String × String) : Option Plan :=
  match (Str.split obj.1 '.')[2]?, (Str.split (stripBackupName obj.2) '/')[1]?,
      (Str.split (stripBackupName obj.2) '/')[2]? with
  | some guildId, some backupid, some dt => some ⟨guildId, "migrated." ++ backupid, outputPath dt⟩
  | _, _, _ => none

/-- The metadata value, `{"filename": output_path, "created_by": "0", "num_updates": 0}`. -/
def metadata (outputPath : String) : Json.Value :=
  .dict [("filename", .str outputPath), ("created_by", .str "0"), ("num_updates", .int 0)]

/-- `secrets.token_hex` of the bytes drawn. -/
def tokenHex (bs : List UInt8) : String :=
  ⟨bs.flatMap fun b => [Json.hexDigit (b.toNat / 16), Json.hexDigit (b.toNat % 16)]⟩

/-- A row of `guild_templates_kv` as the script writes it. -/
structure KvRow where
  guildId : String
  key : String
  value : String
  scopes : List String
  id : String

/-- The rows `WHERE guild_id = $1 AND key = $2` selects. -/
def rowsAt (kv : List KvRow) (guildId key : String) : List KvRow :=
  kv.filter fun r => r.guildId == guildId && r.key == key

/-- What `migrate_all` writes: the converted files in the working directory, the rows of
`guild_templates_kv`, and how many `token_hex(32)` draws it has made. -/
structure World where
  files : AList fun _ : String => List UInt8
  kv : List KvRow
  drawn : Nat

/-- What the script runs but does not compute: `legacybackupconverter s3 bucket key`, which
exits with a nonzero code or writes its converted file, and the bytes of each `token_hex(32)`
draw. -/
structure Env where
  convert : String → String → Except Int (List UInt8)
  draw : Nat → List UInt8

/-- The writes for one converted backup: the output file, then the `DELETE` and the `INSERT`. -/
def World.record (w : World) (env : Env) (p : Plan) (arb2 : List UInt8) : World where
  files := w.files.insert p.outputPath arb2
  kv := ⟨p.guildId, p.key, Json.dumps none (metadata p.outputPath), ["builtins.backups.metadata"],
      tokenHex (env.draw w.drawn)⟩ ::
    w.kv.filter fun r => !(r.guildId == p.guildId && r.key == p.key)
  drawn := w.drawn + 1

/-- Whether `migrate_all` converts an object rather than skipping it. -/
def isBackup (obj : String × String) : Bool := Str.endswith obj.2 ".iblfile"

/-- The body of the loop over `non_encrypted`. -/
def migrateFile (env : Env) (w : World) (obj : String × String) : Except Raised World :=
  if !isBackup obj then .ok w
  else
    match plan obj with
    | none => .error (.indexError "list index out of range")
    | some p =>
      match env.convert obj.1 obj.2 with
      | .error code =>
        .error (.runtimeError
          ("Failed to convert " ++ obj.2 ++ " (exit code " ++ toString code ++ ")"))
      | .ok arb2 => .ok (w.record env p arb2)

/-- `migrate_all`, over `non_encrypted` in the order `order`. -/
def migrateAll (env : Env) (r : Run World Raised) (order : List (String × String)) :
    Run World Raised :=
  r.forIn order (migrateFile env)

/-! ## Two backups, one output path -/

/-- Two guilds' backups taken at the same time. -/
def collisionObjects : List (String × String) :=
  [("antiraid.guild.1", "backups/a/2024.iblfile"), ("antiraid.guild.2", "backups/b/2024.iblfile")]

/-- A converter whose output tells the two guilds apart. -/
def collisionEnv : Env where
  convert bucket _ := .ok (if bucket = "antiraid.guild.1" then [1] else [2])
  draw _ := []

@[simp] theorem World.record_files (w : World) (env : Env) (p : Plan) (arb2 : List UInt8) :
    (w.record env p arb2).files = w.files.insert p.outputPath arb2 := rfl

theorem rowsAt_record_self (w : World) (env : Env) (p : Plan) (arb2 : List UInt8) :
    (rowsAt (w.record env p arb2).kv p.guildId p.key).map KvRow.value =
      [Json.dumps none (metadata p.outputPath)] := by
  simp [rowsAt, World.record, List.filter_cons, List.filter_filter]

theorem rowsAt_record_of_ne (w : World) (env : Env) {p : Plan} (arb2 : List UInt8) {g k : String}
    (h : (p.guildId, p.key) ≠ (g, k)) :
    rowsAt (w.record env p arb2).kv g k = rowsAt w.kv g k := by
  simp only [Ne, Prod.mk.injEq] at h
  simp only [rowsAt, World.record, List.filter_cons, List.filter_filter]
  rw [if_neg (by simpa using h)]
  refine List.filter_congr fun r _ => ?_
  by_cases hr : r.guildId = g ∧ r.key = k
  · obtain ⟨rfl, rfl⟩ := hr
    have hne : ¬ (r.guildId = p.guildId ∧ r.key = p.key) := fun ⟨h₁, h₂⟩ => h ⟨h₁.symm, h₂.symm⟩
    simpa using not_and_or.mp hne
  · have hf : (r.guildId == g && r.key == k) = false := by simpa using hr
    rw [hf, Bool.false_and]

/-- A pass of the loop that went through skipped the object or converted and recorded it. -/
theorem migrateFile_eq_ok {env : Env} {w w' : World} {obj : String × String}
    (h : migrateFile env w obj = .ok w') :
    (isBackup obj = false ∧ w' = w) ∨
    (isBackup obj = true ∧ ∃ p arb2, plan obj = some p ∧ env.convert obj.1 obj.2 = .ok arb2 ∧
      w' = w.record env p arb2) := by
  unfold migrateFile at h
  cases hb : isBackup obj
  · simp only [hb, Bool.not_false, ↓reduceIte, Except.ok.injEq] at h
    exact .inl ⟨rfl, h.symm⟩
  · simp only [hb, Bool.not_true, Bool.false_eq_true, ↓reduceIte] at h
    refine .inr ⟨rfl, ?_⟩
    cases hp : plan obj with
    | none => simp [hp] at h
    | some p =>
      cases hc : env.convert obj.1 obj.2 with
      | error code => simp [hp, hc] at h
      | ok arb2 =>
        simp only [hp, hc, Except.ok.injEq] at h
        exact ⟨p, arb2, rfl, rfl, h.symm⟩

theorem migrateAll_cons (env : Env) (r : Run World Raised) (o : String × String)
    (order : List (String × String)) :
    migrateAll env r (o :: order) = migrateAll env (r.andThen (migrateFile env · o)) order := rfl

/-- The objects of `order` that `migrate_all` converts. -/
def backups (order : List (String × String)) : List (String × String) := order.filter isBackup

/-- A completed run over objects whose output paths and metadata keys are distinct: each
backup is converted into its own file and has its own row, and every other file and row is
left as it was. -/
theorem migrateAll_spec (env : Env) : ∀ (order : List (String × String)) (w : World),
    ((backups order).map fun o => (plan o).map Plan.outputPath).Nodup →
    ((backups order).map fun o => (plan o).map fun p => (p.guildId, p.key)).Nodup →
    (migrateAll env ⟨w, none⟩ order).raised = none →
    (∀ o ∈ backups order, ∃ p arb2, plan o = some p ∧ env.convert o.1 o.2 = .ok arb2 ∧
      (migrateAll env ⟨w, none⟩ order).state.files.lookup p.outputPath = some arb2 ∧
      (rowsAt (migrateAll env ⟨w, none⟩ order).state.kv p.guildId p.key).map KvRow.value =
        [Json.dumps none (metadata p.outputPath)]) ∧
    (∀ path, (∀ o ∈ backups order, (plan o).map Plan.outputPath ≠ some path) →
      (migrateAll env ⟨w, none⟩ order).state.files.lookup path = w.files.lookup path) ∧
    (∀ g k, (∀ o ∈ backups order, (plan o).map (fun p => (p.guildId, p.key)) ≠ some (g, k)) →
      rowsAt (migrateAll env ⟨w, none⟩ order).state.kv g k = rowsAt w.kv g k)
  | [], w, _, _, _ => ⟨by simp [backups], fun _ _ => rfl, fun _ _ _ => rfl⟩
  | o :: order, w, hpaths, hkeys, hrun => by
    rw [migrateAll_cons] at hrun ⊢
    cases hstep : migrateFile env w o with
    | error e =>
      rw [Run.andThen_error hstep, migrateAll, Run.forIn_raised rfl] at hrun
      cases hrun
    | ok w₁ =>
      rw [Run.andThen_ok hstep] at hrun ⊢
      rcases migrateFile_eq_ok hstep with ⟨hb, rfl⟩ | ⟨hb, p, arb2, hp, hconv, rfl⟩
      · have hbk : backups (o :: order) = backups order := by
          simp [backups, List.filter_cons, hb]
        rw [hbk] at hpaths hkeys ⊢
        exact migrateAll_spec env order _ hpaths hkeys hrun
      · have hbk : backups (o :: order) = o :: backups order := by
          simp [backups, List.filter_cons, hb]
        rw [hbk, List.map_cons, List.nodup_cons, hp] at hpaths hkeys
        obtain ⟨hcopied, hfiles, hrows⟩ := migrateAll_spec env order _ hpaths.2 hkeys.2 hrun
        have hpath : ∀ o' ∈ backups order, (plan o').map Plan.outputPath ≠ some p.outputPath :=
          fun o' ho' h => hpaths.1 (by rw [Option.map_some', ← h]; exact List.mem_map_of_mem _ ho')
        have hkey : ∀ o' ∈ backups order,
            (plan o').map (fun p => (p.guildId, p.key)) ≠ some (p.guildId, p.key) :=
          fun o' ho' h => hkeys.1 (by rw [Option.map_some', ← h]; exact List.mem_map_of_mem _ ho')
        rw [hbk]
        refine ⟨?_, ?_, ?_⟩
        · intro o' ho'
          rcases List.mem_cons.mp ho' with rfl | ho'
          · refine ⟨p, arb2, hp, hconv, ?_, ?_⟩
            · rw [hfiles _ hpath, World.record_files]
              exact AList.lookup_insert _
            · rw [hrows _ _ hkey]
              exact rowsAt_record_self _ _ _ _
          · exact hcopied o' ho'
        · intro path hpath
          rw [hfiles path fun o' ho' => hpath o' (List.mem_cons_of_mem _ ho'), World.record_files]
          refine AList.lookup_insert_ne fun h => hpath o (List.mem_cons_self _ _) ?_
          rw [hp, h]
          rfl
        · intro g k hgk
          rw [hrows g k fun o' ho' => hgk o' (List.mem_cons_of_mem _ ho')]
          refine rowsAt_record_of_ne _ _ _ fun h => hgk o (List.mem_cons_self _ _) ?_
          rw [hp, ← h]
          rfl

/-- Two guilds' backups taken at different times, and a file the loop skips. -/
def sampleObjects : List (String × String) :=
  [("antiraid.guild.1", "backups/a/2024.iblfile"), ("antiraid.guild.2", "backups/b/2025.iblfile"),
    ("antiraid.guild.1", "notes.txt")]

/-- A converter whose output tells the guilds apart. -/
def sampleEnv : Env where
  convert bucket _ := .ok (if bucket = "antiraid.guild.1" then [1] else [2])
  draw n := [n.toUInt8]

/-- A world that already holds an earlier metadata row for the first backup's target, a row of
another guild and a file of another name. -/
def sampleWorld : World where
  files := (∅ : AList fun _ : String => List UInt8).insert "antiraidbackup-2023.arb2" [0]
  kv := [⟨"1", "migrated.a", "\x7b\x7d", ["builtins.backups.metadata"], "old"⟩,
    ⟨"3", "migrated.c", "\x7b\x7d", ["builtins.backups.metadata"], "other"⟩]
  drawn := 0

end AntiRaid.Devutils.MigrateNonencryptedBackups
