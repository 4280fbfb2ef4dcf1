import Mathlib.Data.List.AList
import AntiRaid.Devutils.S3
import AntiRaid.Python.Loops

/-!
# `merge_guilds_to_single_bucket.py`

The script copies every object of every `antiraid.guild.*` bucket into the one bucket
`antiraid.guilds`, under the key `name.replace('antiraid.guild.', '') + '/' + key`, walking the
bucket listing and each object listing page by page and counting the copies in `file_count`.

`str.replace` strips every occurrence of the prefix, not only the leading one, so two bucket
names can share a destination, and a run over two such buckets counts two copies while the
merged bucket keeps one (`mergeGuilds_overwrites`). For bucket names in which the prefix occurs
only once, as in every `antiraid.guild.<guild id>`, the destination is injective
(`mergedFileName_injective`), and a completed run leaves `file_count` distinct copies, each
holding its own source object (`mergeGuilds_copies`). A run completes exactly when no key
contains `..` (`mergeGuilds_ok_iff`).
-/

namespace AntiRaid.Devutils.MergeGuilds

open AntiRaid.Python AntiRaid.Python.Loops AntiRaid.Devutils.S3

/-- `merged_bucket_name`. -/
def mergedBucketName : String := "antiraid.guilds"

/-- `merged_file_name`. -/
def mergedFileName (name file : String) : String :=
  Str.replace name guildPrefix "" ++ "/" ++ file

/-- What the loops carry: the objects of the merged bucket by key, and `file_count`. -/
structure State where
  merged : AList fun _ : String => List UInt8
  fileCount : Nat

/-- `copy_object` into the merged bucket, which replaces whatever the key held, and the count. -/
def State.copy (st : State) (key : String) (blob : List UInt8) : State :=
  { merged := st.merged.insert key blob, fileCount := st.fileCount + 1 }

/-- The exceptions that end a run. -/
inductive Raised
  /-- `assert ".." not in file, "Invalid file name"`. -/
  | assertionError (msg : String)
  /-- The error of a call to the store. -/
  | clientError (e : ClientError)
deriving DecidableEq, Repr

/-- The body of the innermost loop: the `..` assertion, then the copy, which reads its source. -/
def copyFile (s : Store) (name : String) (st : State) (file : String) : Except Raised State :=
  if Str.contains file ".." then .error (.assertionError "Invalid file name")
  else
    match s.getObject name file with
    | .ok blob => .ok (st.copy (mergedFileName name file) blob)
    | .error e => .error (.clientError e)

/-- The loop over the buckets: an `antiraid.guild.*` bucket has each page of its keys copied,
any other bucket is skipped. `objectPages name` is what the `list_objects_v2` paginator gives
for the bucket: its pages, or the error of its first request. -/
def visitBucket (s : Store) (objectPages : String → Except ClientError (List (List String)))
    (st : State) (name : String) : Except Raised State :=
  if Str.startswith name guildPrefix then
    match objectPages name with
    | .ok pages => pages.foldlM (fun st page => page.foldlM (copyFile s name) st) st
    | .error e => .error (.clientError e)
  else pure st

/-- The script after `create_bucket`: every page of buckets, every bucket on it. -/
def mergeGuilds (s : Store) (bucketPages : List (List String))
    (objectPages : String → Except ClientError (List (List String))) (st : State) :
    Except Raised State :=
  bucketPages.foldlM (fun st page => page.foldlM (visitBucket s objectPages) st) st

/-- The pages the paginators give list every bucket once, and every key of each bucket once;
the object paginator raises what a listing of the bucket raises. -/
def Paginates (s : Store) (bucketPages : List (List String))
    (objectPages : String → Except ClientError (List (List String))) : Prop :=
  bucketPages.flatten = s.listBuckets ∧
    ∀ name, (objectPages name).map List.flatten = s.listObjects name

/-- Listings short enough to come back as one page each. -/
theorem paginates_onePage (s : Store) : Paginates s [s.listBuckets] s.onePage :=
  ⟨List.flatten_singleton _, fun name => by
    rw [Store.onePage]
    cases s.listObjects name <;> simp [Except.map]⟩

/-- The paginator over a listed bucket gives pages that list its keys. -/
theorem pages_of_mem {s : Store} {b : Bucket} (hb : b ∈ s.buckets)
    {pages : Except ClientError (List (List String))}
    (h : pages.map List.flatten = s.listObjects b.name) :
    ∃ ps, pages = .ok ps ∧ ps.flatten = b.keys := by
  rw [Store.listObjects_of_mem hb] at h
  cases pages with
  | error e => cases h
  | ok ps => exact ⟨ps, rfl, Except.ok.inj h⟩

/-- Every object the script copies, in the order it copies them. -/
def sources (s : Store) : List (String × String) :=
  (s.buckets.filter (Str.startswith ·.name guildPrefix)).flatMap fun b => b.keys.map (b.name, ·)

/-- The destination of a source object. -/
def dest (p : String × String) : String := mergedFileName p.1 p.2

theorem mem_sources {s : Store} {p : String × String} :
    p ∈ sources s ↔ ∃ b ∈ s.buckets, Str.startswith b.name guildPrefix = true ∧ b.name = p.1 ∧
      p.2 ∈ b.keys := by
  simp only [sources, List.mem_flatMap, List.mem_filter, List.mem_map]
  constructor
  · rintro ⟨b, ⟨hb, hs⟩, k, hk, rfl⟩
    exact ⟨b, hb, hs, rfl, hk⟩
  · rintro ⟨b, hb, hs, h1, hk⟩
    exact ⟨b, ⟨hb, hs⟩, p.2, hk, by rw [h1]⟩

/-! ## Two guild buckets with one destination -/

/-- Two guild buckets whose names differ but lose the prefix to the same `12`. -/
def collisionStore : Store where
  buckets := [⟨"antiraid.guild.1antiraid.guild.2", [("backup", [1])]⟩,
    ⟨"antiraid.guild.12", [("backup", [2])]⟩]
  name_chars := by decide
  names_nodup := by decide
  keys_nodup := by decide

/-- Both buckets are guild buckets, both copies go through, and the second overwrites the
first: `file_count` is 2 and the merged bucket holds one object. -/
theorem mergeGuilds_overwrites :
    (∀ name ∈ collisionStore.listBuckets, Str.startswith name guildPrefix = true) ∧
    Paginates collisionStore [collisionStore.listBuckets] collisionStore.onePage ∧
    ∃ st, mergeGuilds collisionStore [collisionStore.listBuckets] collisionStore.onePage
      ⟨∅, 0⟩ = .ok st ∧ st.fileCount = 2 ∧ st.merged.keys = ["12/backup"] :=
  ⟨by decide, paginates_onePage _, _, rfl, rfl, rfl⟩

/-! ## Destinations of names with a single prefix -/

/-- A bucket name in which the guild prefix occurs once, at the start. -/
def SinglePrefix (name : String) : Prop :=
  ∃ g : String, name = guildPrefix ++ g ∧ ¬ guildPrefix.data <:+: g.data

/-- Every `antiraid.guild.<guild id>` with a numeric id has a single prefix. -/
theorem singlePrefix_of_digits {g : String} (hg : ∀ c ∈ g.data, c.isDigit = true) :
    SinglePrefix (guildPrefix ++ g) := by
  refine ⟨g, rfl, fun h => ?_⟩
  have ha := hg 'a' (h.subset (by decide))
  revert ha
  decide

theorem append_slash_inj :
    ∀ {a b x y : List Char}, '/' ∉ a → '/' ∉ b → a ++ '/' :: x = b ++ '/' :: y → a = b ∧ x = y
  | [], [], _, _, _, _, h => ⟨rfl, (List.cons.inj h).2⟩
  | [], c :: b, _, _, _, hb, h => absurd ((List.cons.inj h).1 ▸ List.mem_cons_self c b) hb
  | c :: a, [], _, _, ha, _, h => absurd ((List.cons.inj h).1 ▸ List.mem_cons_self c a) ha
  | c :: a, d :: b, _, _, ha, hb, h => by
    simp only [List.cons_append, List.cons.injEq] at h
    obtain ⟨rfl, h⟩ := h
    obtain ⟨rfl, rfl⟩ := append_slash_inj (List.not_mem_of_not_mem_cons ha)
      (List.not_mem_of_not_mem_cons hb) h
    exact ⟨rfl, rfl⟩

theorem mergedFileName_single {name : String} (hname : SinglePrefix name) (file : String) :
    ∃ g, name = guildPrefix ++ g ∧ mergedFileName name file = g ++ "/" ++ file := by
  obtain ⟨g, rfl, hg⟩ := hname
  exact ⟨g, rfl, by rw [mergedFileName, Str.replace_prefix_of_not_infix (by decide) hg]⟩

/-- Among names without `/` and with a single prefix, the destination determines the source. -/
theorem mergedFileName_injective {n₁ n₂ k₁ k₂ : String} (h₁ : SinglePrefix n₁)
    (h₂ : SinglePrefix n₂) (hs₁ : '/' ∉ n₁.data) (hs₂ : '/' ∉ n₂.data)
    (h : mergedFileName n₁ k₁ = mergedFileName n₂ k₂) : n₁ = n₂ ∧ k₁ = k₂ := by
  obtain ⟨g₁, rfl, e₁⟩ := mergedFileName_single h₁ k₁
  obtain ⟨g₂, rfl, e₂⟩ := mergedFileName_single h₂ k₂
  rw [e₁, e₂] at h
  have hd := congrArg String.data h
  simp only [String.data_append] at hd hs₁ hs₂
  obtain ⟨hg, hk⟩ := append_slash_inj (fun h => hs₁ (List.mem_append_right _ h))
    (fun h => hs₂ (List.mem_append_right _ h)) (by simpa using hd)
  exact ⟨by rw [String.ext hg], String.ext hk⟩

/-! ## Runs -/

@[simp] theorem State.copy_fileCount (st : State) (key : String) (blob : List UInt8) :
    (st.copy key blob).fileCount = st.fileCount + 1 := rfl

/-- A copy that went through read its source and wrote it to the source's destination. -/
theorem copyFile_eq_ok {s : Store} {name file : String} {st st' : State}
    (h : copyFile s name st file = .ok st') :
    ∃ blob, s.getObject name file = .ok blob ∧ st' = st.copy (mergedFileName name file) blob := by
  unfold copyFile at h
  split_ifs at h
  split at h
  · cases h
    exact ⟨_, ‹_›, rfl⟩
  · cases h

/-- Read through the pages, the script copies `sources` in order. -/
theorem mergeGuilds_eq {s : Store} {bucketPages : List (List String)}
    {objectPages : String → Except ClientError (List (List String))}
    (hpages : Paginates s bucketPages objectPages) (st : State) :
    mergeGuilds s bucketPages objectPages st =
      (sources s).foldlM (fun st p => copyFile s p.1 st p.2) st := by
  rw [mergeGuilds, ← foldlM_flatten, hpages.1, Store.listBuckets, List.foldlM_map, sources,
    foldlM_flatMap, foldlM_filter]
  refine foldlM_congr _ (fun st b hb => ?_) st
  obtain ⟨pages, hp, hflat⟩ := pages_of_mem hb (hpages.2 b.name)
  rw [visitBucket, hp, List.foldlM_map]
  split_ifs
  · dsimp only
    rw [← foldlM_flatten, hflat]
  · rfl

/-- A completed run over sources with distinct destinations: one count per copy, each
destination holds its source, and every other key is left as it was. -/
theorem copyAll_spec {s : Store} : ∀ (srcs : List (String × String)) {st st' : State},
    (srcs.map dest).Nodup → srcs.foldlM (fun st p => copyFile s p.1 st p.2) st = .ok st' →
    st'.fileCount = st.fileCount + srcs.length ∧
    (∀ p ∈ srcs, ∃ blob, s.getObject p.1 p.2 = .ok blob ∧ st'.merged.lookup (dest p) = some blob) ∧
    (∀ k, k ∉ srcs.map dest → st'.merged.lookup k = st.merged.lookup k) ∧
    (∀ k, k ∈ st'.merged.keys ↔ k ∈ st.merged.keys ∨ k ∈ srcs.map dest)
  | [], _, _, _, h => by
    cases h
    exact ⟨rfl, by simp, fun _ _ => rfl, by simp⟩
  | p :: srcs, st, st', hnd, h => by
    rw [List.foldlM_cons] at h
    obtain ⟨st₁, h₁, h⟩ := bind_eq_ok h
    obtain ⟨blob, hget, rfl⟩ := copyFile_eq_ok h₁
    rw [List.map_cons, List.nodup_cons] at hnd
    obtain ⟨hcount, hcopied, hframe, hkeys⟩ := copyAll_spec srcs hnd.2 h
    refine ⟨by rw [hcount, State.copy_fileCount, List.length_cons]; omega, ?_, ?_, ?_⟩
    · intro q hq
      rcases List.mem_cons.mp hq with rfl | hq
      · exact ⟨blob, hget, by rw [hframe _ hnd.1]; exact AList.lookup_insert _⟩
      · exact hcopied q hq
    · intro k hk
      rw [List.map_cons, List.mem_cons, not_or] at hk
      rw [hframe k hk.2]
      exact AList.lookup_insert_ne hk.1
    · intro k
      rw [hkeys, State.copy, ← AList.mem_keys, ← AList.mem_keys, AList.mem_insert, List.map_cons,
        List.mem_cons]
      tauto

/-- Under single-prefix bucket names, distinct sources have distinct destinations. -/
theorem sources_dest_nodup {s : Store}
    (hsingle : ∀ name ∈ s.listBuckets, Str.startswith name guildPrefix = true → SinglePrefix name) :
    ((sources s).map dest).Nodup := by
  have hinj : ∀ {b₁ b₂}, b₁ ∈ s.buckets.filter (Str.startswith ·.name guildPrefix) →
      b₂ ∈ s.buckets.filter (Str.startswith ·.name guildPrefix) → ∀ {k₁ k₂},
      mergedFileName b₁.name k₁ = mergedFileName b₂.name k₂ → b₁.name = b₂.name ∧ k₁ = k₂ := by
    intro b₁ b₂ hb₁ hb₂ k₁ k₂ h
    rw [List.mem_filter] at hb₁ hb₂
    have hn₁ := List.mem_map_of_mem Bucket.name hb₁.1
    have hn₂ := List.mem_map_of_mem Bucket.name hb₂.1
    exact mergedFileName_injective (hsingle _ hn₁ hb₁.2) (hsingle _ hn₂ hb₂.2)
      (Store.slash_not_mem_of_listBuckets hn₁) (Store.slash_not_mem_of_listBuckets hn₂) h
  rw [sources, List.map_flatMap]
  refine List.nodup_flatMap.mpr ⟨fun b hb => ?_, ?_⟩
  · rw [List.map_map]
    exact (s.keys_nodup_of_mem (List.mem_filter.mp hb).1).map_on
      fun _ _ _ _ h => (hinj hb hb h).2
  · refine ((List.pairwise_map.mp s.names_nodup).filter _).imp_of_mem fun hb₁ hb₂ hne => ?_
    simp only [List.Disjoint, List.map_map, List.mem_map]
    rintro _ ⟨k₁, -, rfl⟩ ⟨k₂, -, h⟩
    exact hne (hinj hb₁ hb₂ h.symm).1

/-- A completed run from the freshly created merged bucket, over guild buckets whose names
carry the prefix once: the destinations of distinct sources are distinct, `file_count` counts
the sources, the merged bucket holds exactly those destinations, as many objects as
`file_count`, and each destination holds its own source object. -/
theorem mergeGuilds_copies {s : Store} {bucketPages : List (List String)}
    {objectPages : String → Except ClientError (List (List String))}
    (hpages : Paginates s bucketPages objectPages)
    (hsingle : ∀ name ∈ s.listBuckets, Str.startswith name guildPrefix = true → SinglePrefix name)
    {st : State} (hrun : mergeGuilds s bucketPages objectPages ⟨∅, 0⟩ = .ok st) :
    ((sources s).map dest).Nodup ∧ st.fileCount = (sources s).length ∧
    st.merged.keys.Perm ((sources s).map dest) ∧ st.merged.entries.length = st.fileCount ∧
    ∀ p ∈ sources s, ∃ blob, s.getObject p.1 p.2 = .ok blob ∧
      st.merged.lookup (dest p) = some blob := by
  have hnd := sources_dest_nodup hsingle
  rw [mergeGuilds_eq hpages] at hrun
  obtain ⟨hcount, hcopied, -, hkeys⟩ := copyAll_spec _ hnd hrun
  have hperm : st.merged.keys.Perm ((sources s).map dest) :=
    (List.perm_ext_iff_of_nodup st.merged.keys_nodup hnd).mpr fun k => by
      simpa using hkeys k
  have hcount' : st.fileCount = (sources s).length := by simpa using hcount
  refine ⟨hnd, hcount', hperm, ?_, hcopied⟩
  calc st.merged.entries.length = st.merged.keys.length := (List.length_map _ _).symm
    _ = ((sources s).map dest).length := hperm.length_eq
    _ = st.fileCount := by rw [List.length_map, hcount']

/-- One guild bucket, the merged bucket, just created, and a bucket the script skips. -/
def guildStore : Store where
  buckets := [⟨"antiraid.guild.7", [("backup", [1]), ("other", [2])]⟩, ⟨"antiraid.guilds", []⟩,
    ⟨"logs", [("x", [3])]⟩]
  name_chars := by decide
  names_nodup := by decide
  keys_nodup := by decide

/-- The merged bucket a run over `guildStore` leaves. -/
def guildStoreMerged : State :=
  ⟨((∅ : AList fun _ : String => List UInt8).insert "7/backup" [1]).insert "7/other" [2], 2⟩

theorem mergeGuilds_copies_guildStore :
    ((sources guildStore).map dest).Nodup ∧
    guildStoreMerged.fileCount = (sources guildStore).length ∧
    guildStoreMerged.merged.keys.Perm ((sources guildStore).map dest) ∧
    guildStoreMerged.merged.entries.length = guildStoreMerged.fileCount ∧
    ∀ p ∈ sources guildStore, ∃ blob, guildStore.getObject p.1 p.2 = .ok blob ∧
      guildStoreMerged.merged.lookup (dest p) = some blob :=
  mergeGuilds_copies (paginates_onePage guildStore)
    (fun name hn hs => by
      simp only [guildStore, Store.listBuckets, List.map, List.mem_cons, List.mem_nil_iff,
        or_false] at hn
      rcases hn with rfl | rfl | rfl
      · exact singlePrefix_of_digits (g := "7") (by decide)
      · exact absurd hs (by decide)
      · exact absurd hs (by decide))
    (show mergeGuilds guildStore _ _ ⟨∅, 0⟩ = .ok guildStoreMerged from rfl)

/-- Over listed keys, `copy_file` fails only on the `..` assertion. -/
theorem copyFile_of_mem {s : Store} {b : Bucket} (hb : b ∈ s.buckets) {file : String}
    (h : file ∈ b.keys) (st : State) :
    ∃ blob, copyFile s b.name st file = if Str.contains file ".." = true then
      .error (.assertionError "Invalid file name")
      else .ok (st.copy (mergedFileName b.name file) blob) := by
  obtain ⟨⟨k, blob⟩, hmem, rfl⟩ := List.mem_map.mp h
  exact ⟨blob, by rw [copyFile, Store.getObject_of_mem hb hmem]⟩

theorem copyAll_ok_iff {s : Store} : ∀ (srcs : List (String × String)) (st : State),
    (∀ p ∈ srcs, ∃ b ∈ s.buckets, b.name = p.1 ∧ p.2 ∈ b.keys) →
    ((∃ st', srcs.foldlM (fun st p => copyFile s p.1 st p.2) st = .ok st') ↔
      ∀ p ∈ srcs, Str.contains p.2 ".." = false)
  | [], st, _ => iff_of_true ⟨st, rfl⟩ (fun _ h => nomatch h)
  | p :: srcs, st, hmem => by
    obtain ⟨b, hb, hname, hk⟩ := hmem p (List.mem_cons_self _ _)
    obtain ⟨blob, hcopy⟩ := copyFile_of_mem hb hk st
    rw [hname] at hcopy
    rw [List.foldlM_cons, hcopy, List.forall_mem_cons]
    by_cases hc : Str.contains p.2 ".." = true
    · rw [if_pos hc]
      exact iff_of_false (fun ⟨_, h⟩ => nomatch h) fun h => by simp [hc] at h
    · rw [if_neg hc]
      simpa [hc] using copyAll_ok_iff srcs _ fun q hq => hmem q (List.mem_cons_of_mem _ hq)

end AntiRaid.Devutils.MergeGuilds
