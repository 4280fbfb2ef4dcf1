import Mathlib.Data.List.Nodup
import AntiRaid.Python.Str

/-!
# The object store the migration scripts read

The `devutils` scripts walk the guild buckets with `list_buckets` and `list_objects_v2` and read
or copy what they find. This module models the store as S3 presents it to them: uniquely named
buckets whose names use S3's alphabet, each holding uniquely keyed objects.
-/

namespace AntiRaid.Devutils.S3

/-- Characters S3 allows in a bucket name: lowercase letters, digits, dots and hyphens. -/
def bucketNameChar (c : Char) : Bool :=
  ('a' ≤ c && c ≤ 'z') || ('0' ≤ c && c ≤ '9') || c == '.' || c == '-'

/-- The prefix that marks a per-guild bucket. -/
def guildPrefix : String := "antiraid.guild."

/-- A bucket: its name and its objects with their contents. -/
structure Bucket where
  name : String
  objects : List (String × List UInt8)

/-- An object store as the listing calls see it: bucket names are unique and spelled in
`bucketNameChar`, and keys are unique within a bucket. -/
structure Store where
  buckets : List Bucket
  name_chars : ∀ b ∈ buckets, ∀ c ∈ b.name.data, bucketNameChar c = true
  names_nodup : (buckets.map Bucket.name).Nodup
  keys_nodup : ∀ b ∈ buckets, (b.objects.map Prod.fst).Nodup

/-- The keys of a bucket, in the order the store lists them. -/
def Bucket.keys (b : Bucket) : List String := b.objects.map Prod.fst

/-- What a call raises for a bucket or a key the store does not hold, or for a byte range an
object does not have (`ClientError` with the code `NoSuchBucket`, `NoSuchKey` or
`InvalidRange`). -/
inductive ClientError
  | noSuchBucket (bucket : String)
  | noSuchKey (bucket key : String)
  | invalidRange (bucket key : String)
deriving DecidableEq, Repr

namespace Store

/-- `list_buckets()["Buckets"]`, by name. -/
def listBuckets (s : Store) : List String := s.buckets.map Bucket.name

/-- The bucket called `name`, if the store holds one. -/
def bucket? (s : Store) (name : String) : Option Bucket := s.buckets.find? (·.name == name)

/-- Every key of a bucket, as the pages of `list_objects_v2` give them together; the first
request raises `NoSuchBucket` when the store holds no bucket of that name. -/
def listObjects (s : Store) (name : String) : Except ClientError (List String) :=
  match s.bucket? name with
  | some b => .ok b.keys
  | none => .error (.noSuchBucket name)

/-- `get_object(Bucket=name, Key=key)["Body"].read()`; `copy_object` reads its source so too. -/
def getObject (s : Store) (name key : String) : Except ClientError (List UInt8) :=
  match s.bucket? name with
  | none => .error (.noSuchBucket name)
  | some b =>
    match b.objects.lookup key with
    | some blob => .ok blob
    | none => .error (.noSuchKey name key)

/-- `get_object(Bucket=name, Key=key, Range=f"bytes={first}-{last}")["Body"].read()`: the
bytes from `first` to `last`, as many as the object has; a range that starts past the end of the
object is not satisfiable and raises `InvalidRange`. -/
def getObjectRange (s : Store) (name key : String) (first last : Nat) :
    Except ClientError (List UInt8) := do
  let blob ← s.getObject name key
  if first < blob.length then pure ((blob.drop first).take (last + 1 - first))
  else throw (.invalidRange name key)

/-- One page per listing: the pages of listings short enough to come back whole. -/
def onePage (s : Store) (name : String) : Except ClientError (List (List String)) :=
  (s.listObjects name).map fun keys => [keys]

theorem bucket?_eq_some {s : Store} {name : String} {b : Bucket} :
    s.bucket? name = some b ↔ b ∈ s.buckets ∧ b.name = name := by
  constructor
  · intro h
    exact ⟨List.mem_of_find?_eq_some h, by simpa using List.find?_some h⟩
  · rintro ⟨hb, rfl⟩
    obtain ⟨b', hb'⟩ := Option.isSome_iff_exists.mp
      (List.find?_isSome.mpr ⟨b, hb, by simp⟩ : (s.buckets.find? (·.name == b.name)).isSome)
    obtain ⟨hmem, hname⟩ : b' ∈ s.buckets ∧ b'.name = b.name :=
      ⟨List.mem_of_find?_eq_some hb', by simpa using List.find?_some hb'⟩
    have hnd := s.names_nodup
    rw [bucket?, hb', List.inj_on_of_nodup_map hnd hmem hb hname]

theorem bucket?_eq_none {s : Store} {name : String} :
    s.bucket? name = none ↔ name ∉ s.listBuckets := by
  rw [bucket?, List.find?_eq_none, listBuckets, List.mem_map]
  simp

theorem keys_nodup_of_mem (s : Store) {b : Bucket} (hb : b ∈ s.buckets) : b.keys.Nodup :=
  s.keys_nodup b hb

/-- A listed bucket's listing never raises: it gives the bucket's keys. -/
theorem listObjects_of_mem {s : Store} {b : Bucket} (hb : b ∈ s.buckets) :
    s.listObjects b.name = .ok b.keys := by
  rw [listObjects, bucket?_eq_some.mpr ⟨hb, rfl⟩]

theorem lookup_of_mem {l : List (String × List UInt8)} (hnd : (l.map Prod.fst).Nodup)
    {key : String} {blob : List UInt8} (h : (key, blob) ∈ l) : l.lookup key = some blob := by
  induction l with
  | nil => cases h
  | cons p l ih =>
    obtain ⟨k, v⟩ := p
    rw [List.map_cons, List.nodup_cons] at hnd
    rcases List.mem_cons.mp h with hhd | htl
    · cases hhd
      exact List.lookup_cons_self
    · have hne : key ≠ k := fun e =>
        hnd.1 (e ▸ List.mem_map_of_mem (a := (key, blob)) Prod.fst htl)
      have hbeq : (key == k) = false := by simpa using hne
      rw [List.lookup_cons, hbeq, ih hnd.2 htl]

/-- A listed object is read without error. -/
theorem getObject_of_mem {s : Store} {b : Bucket} (hb : b ∈ s.buckets) {key : String}
    {blob : List UInt8} (h : (key, blob) ∈ b.objects) : s.getObject b.name key = .ok blob := by
  simp only [getObject, bucket?_eq_some.mpr ⟨hb, rfl⟩, lookup_of_mem (s.keys_nodup b hb) h]

theorem slash_not_mem_of_listBuckets {s : Store} {name : String} (h : name ∈ s.listBuckets) :
    '/' ∉ name.data := by
  obtain ⟨b, hb, rfl⟩ := List.mem_map.mp h
  intro hc
  have := s.name_chars b hb '/' hc
  revert this
  decide

end Store

end AntiRaid.Devutils.S3
