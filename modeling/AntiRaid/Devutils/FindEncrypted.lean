import AntiRaid.Devutils.MigrateNonencryptedBackups

/-!
# `find_encrypted.py`

The report script walks the buckets and the first page of keys that the first loops of
`migrate_nonencrypted_backups.py` walk, reads the same 101-byte header, and counts the objects
whose encryptor field is `aes256`, collecting their guilds and their backup datetimes. It
prints the counts and the two sets, sorted. (The last `print` has a backslash inside an
f-string expression, which Python accepts from 3.12 on; the model follows 3.12.)

The two scripts' loops run in step (`report_resultRel`): they raise alike and agree on both
counts and on the guilds. The ranged read of a header raises `InvalidRange` on an empty object;
on a store without one among the objects read, the script never raises, and the objects it
reports encrypted and those the migration collects split the objects both read
(`report_partition`). `report_spec` says which guilds and datetimes the report holds.
-/

namespace AntiRaid.Devutils.FindEncrypted

open AntiRaid.Python AntiRaid.Python.Loops AntiRaid.Devutils.S3
  AntiRaid.Devutils.MigrateNonencryptedBackups

/-- What the loops count and collect; `servers` and `dts` are sets. -/
structure Report where
  numEncrypted : Nat
  numTotal : Nat
  servers : List String
  dts : List String

/-- The body of the loop over a bucket's keys. -/
def reportFile (s : Store) (name : String) (r : Report) (file : String) :
    Except Raised Report :=
  match getHeader s name file with
  | .error e => .error (.clientError e)
  | .ok content =>
    if encrypted content then
      match (Str.split name '.')[2]? with
      | some server =>
        let datetime := stripBackupName file
        .ok { r with
          numEncrypted := r.numEncrypted + 1, numTotal := r.numTotal + 1
          servers := r.servers.insert server, dts := r.dts.insert datetime }
      | none => .error (.indexError "list index out of range")
    else .ok { r with numTotal := r.numTotal + 1 }

/-- The loops over the buckets and the first page of each one's keys. -/
def report (s : Store) : Except Raised Report :=
  s.listBuckets.foldlM (fun r name =>
    if Str.startswith name guildPrefix then
      match listObjectsV2 s name with
      | .ok keys => keys.foldlM (reportFile s name) r
      | .error e => .error (.clientError e)
    else pure r) ⟨0, 0, [], []⟩

/-- `sorted` on text: by code points, as core's order on `String` compares. -/
def sorted (xs : List String) : List String := xs.mergeSort fun a b => @decide _ (String.decLE a b)

/-- The three lines the script prints last. -/
def summary (r : Report) : List String :=
  let numEncrypted := r.numEncrypted
  let numTotal := r.numTotal
  let servers := ", ".intercalate (sorted r.servers)
  let numServers := r.servers.length
  let dts := "\n".intercalate (sorted r.dts)
  let numDts := r.dts.length
  [s!"Status: {numEncrypted}/{numTotal}.",
    s!"Servers with encrypted files: {servers} [{numServers}].",
    s!"Backup datetimes: {dts} [{numDts}]."]

/-- The script, up to its last lines. -/
def main (s : Store) : Except Raised (List String) := (report s).map summary

theorem report_eq (s : Store) :
    report s = (censusSources s).foldlM (fun r p => reportFile s p.1 r p.2) ⟨0, 0, [], []⟩ := by
  rw [report, Store.listBuckets, List.foldlM_map, censusSources, foldlM_flatMap, foldlM_filter]
  refine foldlM_congr _ (fun r b hb => ?_) _
  rw [listObjectsV2, Store.listObjects_of_mem hb, List.foldlM_map]
  rfl

/-! ## The report and the census in step -/

/-- The report's counts and guilds are the census's. -/
def SameCounts (r : Report) (c : Census) : Prop :=
  r.numEncrypted = c.numEncrypted ∧ r.numTotal = c.numTotal ∧ r.servers = c.servers

theorem reportFile_resultRel (s : Store) (name file : String) {r : Report} {c : Census}
    (h : SameCounts r c) :
    ResultRel SameCounts (reportFile s name r file) (censusFile s name c file) := by
  obtain ⟨h₁, h₂, h₃⟩ := h
  unfold reportFile censusFile
  cases getHeader s name file with
  | error e => rfl
  | ok content =>
    dsimp only
    split
    · cases (Str.split name '.')[2]? with
      | none => rfl
      | some server => exact ⟨by rw [h₁], by rw [h₂], by rw [h₃]⟩
    · exact ⟨h₁, by rw [h₂], h₃⟩

/-- The two scripts' first loops raise alike, and otherwise agree on the counts and the
guilds. -/
theorem report_resultRel (s : Store) : ResultRel SameCounts (report s) (census s) := by
  rw [report_eq, census_eq]
  exact foldlM_resultRel (fun _ _ p h => reportFile_resultRel s p.1 p.2 h) _ _ _ ⟨rfl, rfl, rfl⟩

/-- On a store whose objects read have headers, `find_encrypted.py` never raises, and the
objects it counts as encrypted and the objects `migrate_nonencrypted_backups.py` collects as not
encrypted split the objects both read: the first page of every guild bucket. -/
theorem report_partition {s : Store} (hs : HeadersReadable s) :
    ∃ r c, report s = .ok r ∧ census s = .ok c ∧
      r.numEncrypted + c.nonEncrypted.length = r.numTotal ∧
      r.numTotal = (censusSources s).length ∧ r.servers = c.servers := by
  obtain ⟨c, hrun, htotal, hcount, -⟩ := census_loop (censusSources s) ⟨0, 0, [], []⟩
    (fun _ hp => readable_of_mem_censusSources hs hp) (censusSources_nodup s)
    (fun _ _ h => nomatch h)
  have hc : census s = .ok c := (census_eq s).trans hrun
  have hsplit : c.numEncrypted + c.nonEncrypted.length = c.numTotal := by
    simpa [htotal] using hcount
  have hrel := report_resultRel s
  rw [hc] at hrel
  cases hr : report s with
  | error e => rw [hr] at hrel; exact hrel.elim
  | ok r =>
    rw [hr] at hrel
    obtain ⟨h₁, h₂, h₃⟩ := hrel
    exact ⟨r, c, rfl, hc, by omega, by simpa [h₂] using htotal, h₃⟩

/-! ## What the report holds -/

theorem reportFile_of_mem {s : Store} {b : Bucket} (hb : b ∈ s.buckets) {file : String}
    {blob : List UInt8} (r : Report) (hname : Str.startswith b.name guildPrefix = true)
    (hfile : (file, blob) ∈ b.objects) (hne : blob ≠ []) :
    ∃ r', reportFile s b.name r file = .ok r' ∧ r'.numTotal = r.numTotal + 1 ∧
      (∀ g, g ∈ r'.servers ↔ g ∈ r.servers ∨
        ((getHeader s b.name file).map encrypted = .ok true ∧
          (Str.split b.name '.')[2]? = some g)) ∧
      (∀ t, t ∈ r'.dts ↔ t ∈ r.dts ∨
        ((getHeader s b.name file).map encrypted = .ok true ∧ stripBackupName file = t)) := by
  have hhdr := getHeader_of_mem hb hfile hne
  cases he : encrypted (blob.take 101)
  · exact ⟨{ r with numTotal := r.numTotal + 1 }, by rw [reportFile, hhdr]; simp [he], rfl,
      by simp [hhdr, he, Except.map], by simp [hhdr, he, Except.map]⟩
  · obtain ⟨server, hs⟩ := split_guild hname
    refine ⟨{ r with
      numEncrypted := r.numEncrypted + 1, numTotal := r.numTotal + 1
      servers := r.servers.insert server
      dts := r.dts.insert (stripBackupName file) },
      by rw [reportFile, hhdr]; simp [he, hs], rfl, ?_, ?_⟩ <;>
    simp [hhdr, he, hs, Except.map, eq_comm, or_comm]

theorem report_loop {s : Store} : ∀ (ps : List (String × String)) (r₀ : Report),
    (∀ p ∈ ps, ∃ b ∈ s.buckets, Str.startswith b.name guildPrefix = true ∧ b.name = p.1 ∧
      ∃ blob, (p.2, blob) ∈ b.objects ∧ blob ≠ []) →
    ∃ r, ps.foldlM (fun r p => reportFile s p.1 r p.2) r₀ = .ok r ∧
      r.numTotal = r₀.numTotal + ps.length ∧
      (∀ g, g ∈ r.servers ↔ g ∈ r₀.servers ∨ ∃ p ∈ ps,
        (getHeader s p.1 p.2).map encrypted = .ok true ∧ (Str.split p.1 '.')[2]? = some g) ∧
      (∀ t, t ∈ r.dts ↔ t ∈ r₀.dts ∨ ∃ p ∈ ps, (getHeader s p.1 p.2).map encrypted = .ok true ∧
        stripBackupName p.2 = t)
  | [], r₀, _ => ⟨r₀, rfl, rfl, by simp, by simp⟩
  | (name, file) :: ps, r₀, hmem => by
    obtain ⟨b, hb, hg, rfl, blob, hfile, hne⟩ := hmem _ (List.mem_cons_self _ _)
    obtain ⟨r₁, hstep, ht₁, hs₁, hd₁⟩ := reportFile_of_mem hb r₀ hg hfile hne
    obtain ⟨r, hrun, ht, hs, hd⟩ :=
      report_loop ps r₁ fun q hq => hmem q (List.mem_cons_of_mem _ hq)
    refine ⟨r, by rw [List.foldlM_cons, hstep]; exact hrun,
      by rw [ht, ht₁, List.length_cons]; omega, fun g => ?_, fun t => ?_⟩
    · rw [hs, hs₁, List.exists_mem_cons_iff, or_assoc]
    · rw [hd, hd₁, List.exists_mem_cons_iff, or_assoc]

theorem reportFile_nodup {s : Store} {name file : String} {r r' : Report}
    (hr : r.servers.Nodup ∧ r.dts.Nodup) (h : reportFile s name r file = .ok r') :
    r'.servers.Nodup ∧ r'.dts.Nodup := by
  unfold reportFile at h
  split at h
  · cases h
  · split at h
    · split at h
      · cases h
        exact ⟨hr.1.insert, hr.2.insert⟩
      · cases h
    · cases h
      exact hr

end AntiRaid.Devutils.FindEncrypted
