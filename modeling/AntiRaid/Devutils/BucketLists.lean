import AntiRaid.Devutils.MergeGuilds

/-!
# `all_buckets_list.py` and `single_bucket_list.py`

Both scripts walk object listings page by page, print every key, and print a total. The second
lists the merged bucket `antiraid.guilds`; the first lists every bucket, printing the total after
each one under the label `Total files in single bucket`. What a run prints stays printed when it
raises, so a run is a `Run` of the printed lines and `file_count`.

The first script never resets `file_count` between buckets, so the total it prints after a
bucket counts the objects of that bucket and of every bucket listed before it
(`allBucketsList_totals`); it is the bucket's own count only while the earlier buckets are
empty. The second prints each key of its bucket once and then their number, and raises
`NoSuchBucket` with nothing printed when the bucket is missing (`singleBucketList_eq`). Both
hold for every way the paginators cut the listings into pages, and for every order the store
lists keys in.

Run after `merge_guilds_to_single_bucket.py` has filled the merged bucket, empty until then,
the second script prints every merged key once and as total the `file_count` the merge counted,
when every guild bucket's name holds the prefix once (`singleBucketList_after_merge`).
-/

namespace AntiRaid.Devutils.AllBucketsList

open AntiRaid.Python.Loops AntiRaid.Devutils.S3
open AntiRaid.Devutils.MergeGuilds (Paginates)

/-- A printed line. -/
inductive Line
  /-- `print("file: ", file)`. -/
  | file (key : String)
  /-- `print(f"Total files in single bucket: {file_count}")`. -/
  | total (count : Nat)
deriving DecidableEq, Repr

/-- The text of a line; `print` puts a space between its two arguments. -/
def Line.text : Line → String
  | .file key => "file:  " ++ key
  | .total count => "Total files in single bucket: " ++ toString count

/-- What the loops carry: the lines printed so far and `file_count`. -/
structure State where
  printed : List Line
  fileCount : Nat
deriving DecidableEq, Repr

/-- The body of the innermost loop. -/
def State.listFile (st : State) (file : String) : State :=
  ⟨st.printed ++ [.file file], st.fileCount + 1⟩

/-- The object loop of one bucket, page by page, then the total line; `pages` is what the
`list_objects_v2` paginator gives for the bucket, its pages or the error of its first
request. -/
def listBucket (pages : Except ClientError (List (List String))) (st : State) :
    Except ClientError State :=
  match pages with
  | .ok pages =>
    let st := pages.foldl (fun st page => page.foldl State.listFile st) st
    .ok ⟨st.printed ++ [.total st.fileCount], st.fileCount⟩
  | .error e => .error e

/-- The script after the client is made: every page of buckets, every bucket on it, from
`file_count = 0`. -/
def main (bucketPages : List (List String))
    (objectPages : String → Except ClientError (List (List String))) : Run State ClientError :=
  bucketPages.foldl (fun r page => r.forIn page fun st name => listBucket (objectPages name) st)
    ⟨⟨[], 0⟩, none⟩

/-! ## The loops -/

theorem foldl_listFile (keys : List String) (st : State) :
    keys.foldl State.listFile st = ⟨st.printed ++ keys.map .file, st.fileCount + keys.length⟩ := by
  induction keys generalizing st with
  | nil => simp
  | cons key keys ih =>
    rw [List.foldl_cons, ih]
    simp only [State.listFile, List.map_cons, List.append_assoc, List.singleton_append,
      List.length_cons]
    congr 1
    omega

/-- One bucket, however its keys are cut into pages. -/
theorem listBucket_eq {pages : List (List String)} {keys : List String}
    (hkeys : pages.flatten = keys) (st : State) :
    listBucket (.ok pages) st =
      .ok ⟨st.printed ++ keys.map .file ++ [.total (st.fileCount + keys.length)],
        st.fileCount + keys.length⟩ := by
  rw [listBucket, ← List.foldl_flatten, hkeys, foldl_listFile]

/-! ## What the script prints -/

/-- What the script prints for the buckets `bs` when `count` keys were listed before them:
each bucket's keys, then the number of every key listed so far. -/
def listing : List Bucket → Nat → List Line
  | [], _ => []
  | b :: bs, count =>
    b.keys.map .file ++ .total (count + b.keys.length) :: listing bs (count + b.keys.length)

/-- The number of keys in the buckets `bs`. -/
def keyCount : List Bucket → Nat
  | [] => 0
  | b :: bs => b.keys.length + keyCount bs

theorem forIn_listBucket {s : Store}
    {objectPages : String → Except ClientError (List (List String))}
    (hpages : ∀ name, (objectPages name).map List.flatten = s.listObjects name) :
    ∀ (bs : List Bucket), (∀ b ∈ bs, b ∈ s.buckets) → ∀ st : State,
      (⟨st, none⟩ : Run State ClientError).forIn (bs.map Bucket.name)
          (fun st name => listBucket (objectPages name) st) =
        ⟨⟨st.printed ++ listing bs st.fileCount, st.fileCount + keyCount bs⟩, none⟩
  | [], _, st => by simp [Run.forIn, listing, keyCount]
  | b :: bs, hbs, st => by
    obtain ⟨pages, hp, hflat⟩ :=
      MergeGuilds.pages_of_mem (hbs b (List.mem_cons_self _ _)) (hpages b.name)
    rw [List.map_cons, Run.forIn_cons, hp, Run.andThen_ok (listBucket_eq hflat st),
      forIn_listBucket hpages bs fun b' hb' => hbs b' (List.mem_cons_of_mem _ hb')]
    simp only [listing, keyCount, List.append_assoc, List.singleton_append, List.cons_append,
      List.nil_append, Nat.add_assoc]

/-- Read through the pages, the script prints `listing` of the buckets and never raises. -/
theorem main_eq {s : Store} {bucketPages : List (List String)}
    {objectPages : String → Except ClientError (List (List String))}
    (hpages : Paginates s bucketPages objectPages) :
    main bucketPages objectPages = ⟨⟨listing s.buckets 0, keyCount s.buckets⟩, none⟩ := by
  have hflat : main bucketPages objectPages =
      (⟨⟨[], 0⟩, none⟩ : Run State ClientError).forIn bucketPages.flatten
        (fun st name => listBucket (objectPages name) st) := by
    rw [main, Run.forIn, List.foldl_flatten]
    rfl
  rw [hflat, hpages.1, Store.listBuckets, forIn_listBucket hpages.2 _ fun _ h => h]
  simp only [List.nil_append, Nat.zero_add]

/-- The key a line prints, if it is a key line. -/
def Line.key? : Line → Option String
  | .file key => some key
  | .total _ => none

/-- The count a line prints, if it is a total line. -/
def Line.count? : Line → Option Nat
  | .file _ => none
  | .total count => some count

theorem listing_keys : ∀ (bs : List Bucket) (count : Nat),
    (listing bs count).filterMap Line.key? = bs.flatMap Bucket.keys
  | [], _ => rfl
  | b :: bs, count => by
    simp [listing, Line.key?, listing_keys bs, List.filterMap_map, Function.comp_def]

theorem listing_totals : ∀ (bs : List Bucket) (count : Nat),
    (listing bs count).filterMap Line.count? =
      (List.range bs.length).map fun i => count + keyCount (bs.take (i + 1))
  | [], _ => rfl
  | b :: bs, count => by
    simp only [listing, List.filterMap_append, List.filterMap_map, List.filterMap_cons,
      listing_totals bs, List.length_cons, List.range_succ_eq_map, List.map_cons, List.map_map]
    simp [Line.count?, Function.comp_def, keyCount, Nat.add_assoc]

/-- The script never raises on the buckets it lists, and prints each bucket's keys followed by a
total; the keys printed are every key of every bucket once, in the listing's order, and the
total after the `i`-th bucket counts the keys of buckets `0` to `i`, not of the `i`-th bucket
alone. -/
theorem allBucketsList_totals {s : Store} {bucketPages : List (List String)}
    {objectPages : String → Except ClientError (List (List String))}
    (hpages : Paginates s bucketPages objectPages) :
    main bucketPages objectPages = ⟨⟨listing s.buckets 0, keyCount s.buckets⟩, none⟩ ∧
      (listing s.buckets 0).filterMap Line.key? = s.buckets.flatMap Bucket.keys ∧
      (listing s.buckets 0).filterMap Line.count? =
        (List.range s.buckets.length).map fun i => keyCount (s.buckets.take (i + 1)) := by
  refine ⟨main_eq hpages, listing_keys _ _, ?_⟩
  rw [listing_totals]
  simp only [Nat.zero_add]

/-- Two buckets of one and two objects: the totals are 1 and 3. -/
def twoBuckets : Store where
  buckets := [⟨"antiraid.guild.1", [("a", [1])]⟩, ⟨"antiraid.guild.2", [("b", [2]), ("c", [3])]⟩]
  name_chars := by decide
  names_nodup := by decide
  keys_nodup := by decide

theorem allBucketsList_totals_twoBuckets :
    main [twoBuckets.listBuckets] twoBuckets.onePage =
      ⟨⟨[.file "a", .total 1, .file "b", .file "c", .total 3], 3⟩, none⟩ :=
  (allBucketsList_totals (MergeGuilds.paginates_onePage twoBuckets)).1.trans rfl

end AntiRaid.Devutils.AllBucketsList

namespace AntiRaid.Devutils.SingleBucketList

open AntiRaid.Python AntiRaid.Python.Loops AntiRaid.Devutils.S3
open AntiRaid.Devutils.AllBucketsList (Line State listBucket listBucket_eq)

/-- The script after the client is made: the object loop of `antiraid.guilds` from
`file_count = 0`, then the total line; `pages` is what the paginator gives for the bucket, its
pages or the error of its first request. -/
def main (pages : Except ClientError (List (List String))) : Run State ClientError :=
  (⟨⟨[], 0⟩, none⟩ : Run State ClientError).andThen (listBucket pages)

/-- When the store holds `antiraid.guilds`, each of its keys is printed once, then their number,
however the keys are cut into pages. -/
theorem main_of_mem {s : Store} {pages : Except ClientError (List (List String))}
    (hpages : pages.map List.flatten = s.listObjects "antiraid.guilds") {b : Bucket}
    (hb : b ∈ s.buckets) (hname : b.name = "antiraid.guilds") :
    main pages = ⟨⟨b.keys.map .file ++ [.total b.keys.length], b.keys.length⟩, none⟩ ∧
      b.keys.Nodup := by
  rw [← hname, Store.listObjects_of_mem hb] at hpages
  cases pages with
  | error e => cases hpages
  | ok ps =>
    rw [main, Run.andThen_ok (listBucket_eq (Except.ok.inj hpages) _)]
    simp only [List.nil_append, Nat.zero_add, s.keys_nodup_of_mem hb, and_true]

/-- Each key of the merged bucket is printed once, then their number, however the keys are cut
into pages; when there is no such bucket, the first request raises `NoSuchBucket` and nothing
is printed. -/
theorem singleBucketList_eq {s : Store} {pages : Except ClientError (List (List String))}
    (hpages : pages.map List.flatten = s.listObjects "antiraid.guilds") :
    (∀ b ∈ s.buckets, b.name = "antiraid.guilds" →
      main pages = ⟨⟨b.keys.map .file ++ [.total b.keys.length], b.keys.length⟩, none⟩ ∧
        b.keys.Nodup) ∧
    ("antiraid.guilds" ∉ s.listBuckets →
      main pages = ⟨⟨[], 0⟩, some (.noSuchBucket "antiraid.guilds")⟩) := by
  refine ⟨fun b hb hname => main_of_mem hpages hb hname, fun hmiss => ?_⟩
  rw [Store.listObjects, Store.bucket?_eq_none.mpr hmiss] at hpages
  cases pages with
  | ok ps => cases hpages
  | error e =>
    cases hpages
    rfl

/-- The merged bucket after two guilds' objects were copied into it. -/
def mergedStore : Store where
  buckets := [⟨"antiraid.guilds", [("1/a", [1]), ("2/b", [2])]⟩]
  name_chars := by decide
  names_nodup := by decide
  keys_nodup := by decide

theorem singleBucketList_eq_mergedStore :
    (mergedStore.onePage "antiraid.guilds").map List.flatten =
      mergedStore.listObjects "antiraid.guilds" ∧
    (∀ b ∈ mergedStore.buckets, b.name = "antiraid.guilds" →
      main (mergedStore.onePage "antiraid.guilds") =
        ⟨⟨b.keys.map .file ++ [.total b.keys.length], b.keys.length⟩, none⟩ ∧ b.keys.Nodup) ∧
    ("antiraid.guilds" ∉ mergedStore.listBuckets →
      main (mergedStore.onePage "antiraid.guilds") =
        ⟨⟨[], 0⟩, some (.noSuchBucket "antiraid.guilds")⟩) :=
  ⟨(MergeGuilds.paginates_onePage mergedStore).2 _,
    singleBucketList_eq ((MergeGuilds.paginates_onePage mergedStore).2 _)⟩

/-! ## After a merge -/

section AfterMerge

open AntiRaid.Devutils.MergeGuilds (mergeGuilds mergedBucketName Paginates SinglePrefix sources
  dest mergeGuilds_eq copyAll_spec sources_dest_nodup paginates_onePage singlePrefix_of_digits)

/-- The stores a merge that ended in `st` can leave behind, from the store `s` it listed: the
same buckets, each as it was but the merged one, which holds the objects the merge copied and,
under every other key, the objects it held before, in whatever order the store lists them. -/
def MergeLeaves (s : Store) (st : MergeGuilds.State) (s' : Store) : Prop :=
  s'.listBuckets = s.listBuckets ∧
  ∀ b' ∈ s'.buckets, ∃ b ∈ s.buckets, b.name = b'.name ∧
    if b.name = mergedBucketName then
      b'.objects.Perm (b.objects.filter (fun o => (st.merged.lookup o.1).isNone) ++
        st.merged.entries.map fun e => (e.1, e.2))
    else b'.objects = b.objects

instance (s : Store) (st : MergeGuilds.State) (s' : Store) : Decidable (MergeLeaves s st s') :=
  inferInstanceAs (Decidable (s'.listBuckets = s.listBuckets ∧
    ∀ b' ∈ s'.buckets, ∃ b ∈ s.buckets, b.name = b'.name ∧
      if b.name = mergedBucketName then
        b'.objects.Perm (b.objects.filter (fun o => (st.merged.lookup o.1).isNone) ++
          st.merged.entries.map fun e => (e.1, e.2))
      else b'.objects = b.objects))

/-- A completed merge over guild buckets whose names hold the prefix once leaves one merged key
per copy it counted. -/
theorem keys_length_of_merge {s : Store} {bucketPages : List (List String)}
    {objectPages : String → Except ClientError (List (List String))}
    (hpages : Paginates s bucketPages objectPages)
    (hsingle : ∀ name ∈ s.listBuckets, Str.startswith name guildPrefix = true → SinglePrefix name)
    {st : MergeGuilds.State} (hrun : mergeGuilds s bucketPages objectPages ⟨∅, 0⟩ = .ok st) :
    st.merged.keys.length = st.fileCount := by
  have hnd := sources_dest_nodup hsingle
  rw [mergeGuilds_eq hpages] at hrun
  obtain ⟨hcount, -, -, hkeys⟩ := copyAll_spec _ hnd hrun
  have hperm : st.merged.keys.Perm ((sources s).map dest) :=
    (List.perm_ext_iff_of_nodup st.merged.keys_nodup hnd).mpr fun k => by simpa using hkeys k
  rw [hperm.length_eq, List.length_map, hcount, Nat.zero_add]

/-- A store the merge leaves, from one whose merged bucket was empty, lists in the merged bucket
exactly the merged keys, in some order. -/
theorem mergeLeaves_keys {s s' : Store} {st : MergeGuilds.State}
    (hfresh : s.listObjects mergedBucketName = .ok []) (hleaves : MergeLeaves s st s') :
    ∃ b' ∈ s'.buckets, b'.name = mergedBucketName ∧ b'.keys.Perm st.merged.keys := by
  obtain ⟨b, hb, hbname⟩ : ∃ b ∈ s.buckets, b.name = mergedBucketName := by
    cases h : s.bucket? mergedBucketName with
    | none => rw [Store.listObjects, h] at hfresh; cases hfresh
    | some b => exact ⟨b, Store.bucket?_eq_some.mp h⟩
  have hempty : b.objects = [] := by
    rw [← hbname, Store.listObjects_of_mem hb] at hfresh
    exact List.map_eq_nil_iff.mp (Except.ok.inj hfresh)
  obtain ⟨b', hb', hb'name⟩ : ∃ b' ∈ s'.buckets, b'.name = mergedBucketName := by
    have : mergedBucketName ∈ s'.listBuckets := by
      rw [hleaves.1, ← hbname]
      exact List.mem_map_of_mem _ hb
    simpa [Store.listBuckets] using this
  obtain ⟨b₀, hb₀, hname, hobjects⟩ := hleaves.2 b' hb'
  have hb₀b : b₀ = b :=
    List.inj_on_of_nodup_map s.names_nodup hb₀ hb (hname.trans (hb'name.trans hbname.symm))
  subst hb₀b
  rw [if_pos (hname.trans hb'name), hempty, List.filter_nil, List.nil_append] at hobjects
  refine ⟨b', hb', hb'name, ?_⟩
  rw [Bucket.keys, AList.keys, List.keys]
  simpa [List.map_map, Function.comp_def] using hobjects.map Prod.fst

/-- After a merge, into a merged bucket empty until then, runs to the end over guild buckets
whose names hold the prefix once, `single_bucket_list.py` on the store the merge leaves prints
every merged key once, in some order, and a total equal to the `file_count` the merge counted,
however either listing is cut into pages. -/
theorem singleBucketList_after_merge {s : Store} {bucketPages : List (List String)}
    {objectPages : String → Except ClientError (List (List String))}
    (hpages : Paginates s bucketPages objectPages)
    (hsingle : ∀ name ∈ s.listBuckets, Str.startswith name guildPrefix = true → SinglePrefix name)
    (hfresh : s.listObjects mergedBucketName = .ok []) {st : MergeGuilds.State}
    (hrun : mergeGuilds s bucketPages objectPages ⟨∅, 0⟩ = .ok st) {s' : Store}
    (hleaves : MergeLeaves s st s') {pages : Except ClientError (List (List String))}
    (hlist : pages.map List.flatten = s'.listObjects mergedBucketName) :
    ∃ keys : List String, keys.Perm st.merged.keys ∧
      main pages = ⟨⟨keys.map .file ++ [.total st.fileCount], st.fileCount⟩, none⟩ := by
  obtain ⟨b', hb', hname, hperm⟩ := mergeLeaves_keys hfresh hleaves
  obtain ⟨hmain, -⟩ := main_of_mem hlist hb' hname
  have hlen : b'.keys.length = st.fileCount :=
    hperm.length_eq.trans (keys_length_of_merge hpages hsingle hrun)
  exact ⟨b'.keys, hperm, by rw [hmain, hlen]⟩

/-- Two guild buckets, the merged bucket, just created, and a bucket the merge skips. -/
def twoGuildsStore : Store where
  buckets := [⟨"antiraid.guild.7", [("backup", [1]), ("other", [2])]⟩,
    ⟨"antiraid.guild.8", [("backup", [3])]⟩, ⟨"antiraid.guilds", []⟩, ⟨"logs", [("x", [4])]⟩]
  name_chars := by decide
  names_nodup := by decide
  keys_nodup := by decide

/-- The merge's state at the end of a run over `twoGuildsStore`. -/
def twoGuildsMerged : MergeGuilds.State :=
  ⟨(((∅ : AList fun _ : String => List UInt8).insert "7/backup" [1]).insert "7/other"
    [2]).insert "8/backup" [3], 3⟩

/-- The store the merge leaves, its merged bucket listed in key order as S3 lists it. -/
def twoGuildsAfter : Store where
  buckets := [⟨"antiraid.guild.7", [("backup", [1]), ("other", [2])]⟩,
    ⟨"antiraid.guild.8", [("backup", [3])]⟩,
    ⟨"antiraid.guilds", [("7/backup", [1]), ("7/other", [2]), ("8/backup", [3])]⟩,
    ⟨"logs", [("x", [4])]⟩]
  name_chars := by decide
  names_nodup := by decide
  keys_nodup := by decide

theorem singleBucketList_after_merge_twoGuilds :
    mergeGuilds twoGuildsStore [twoGuildsStore.listBuckets] twoGuildsStore.onePage ⟨∅, 0⟩ =
      .ok twoGuildsMerged ∧
    MergeLeaves twoGuildsStore twoGuildsMerged twoGuildsAfter ∧
    ∃ keys : List String, keys.Perm twoGuildsMerged.merged.keys ∧
      main (twoGuildsAfter.onePage mergedBucketName) =
        ⟨⟨keys.map .file ++ [.total twoGuildsMerged.fileCount], twoGuildsMerged.fileCount⟩,
          none⟩ :=
  ⟨rfl, by decide, singleBucketList_after_merge (paginates_onePage twoGuildsStore)
    (fun name hn hs => by
      simp only [twoGuildsStore, Store.listBuckets, List.map, List.mem_cons, List.mem_nil_iff,
        or_false] at hn
      rcases hn with rfl | rfl | rfl | rfl
      · exact singlePrefix_of_digits (g := "7") (by decide)
      · exact singlePrefix_of_digits (g := "8") (by decide)
      · exact absurd hs (by decide)
      · exact absurd hs (by decide))
    rfl rfl (by decide) ((paginates_onePage twoGuildsAfter).2 _)⟩

end AfterMerge

end AntiRaid.Devutils.SingleBucketList
