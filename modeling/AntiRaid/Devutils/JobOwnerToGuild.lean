import Mathlib.Data.List.Nodup
import AntiRaid.Python.Str
import AntiRaid.Python.Loops

/-!
# `migration_job_owner_to_guild.py`

The script fetches every `(id, owner)` row of `jobs`, rewrites each owner to the second
`/`-separated segment of it, renames the column to `guild_id` and adds a foreign key to
`guilds`. Each statement runs on its own, outside any transaction, so an exception leaves
whatever the statements before it wrote. The loop rejects an owner that starts with `u/`
(`ValueError`) or has no `/` (`IndexError`), and the first row it rejects, in fetch order, ends
the run.

* `migrateJobs_run`: the loop rewrites the rows it accepts before the first it rejects, and
  raises that row's exception.
* `guildIdOf_eq`: what the loop body computes for a row, in terms of the owner's text.
* `main_outcome`: the three ways a run ends, for every fetch order.
* `main_partialDb`: a run that raises after it has rewritten a row.
-/

namespace AntiRaid.Devutils.JobOwnerToGuild

open AntiRaid.Python AntiRaid.Python.Loops

/-- A row of `jobs` as the script selects it. -/
structure Job where
  id : String
  owner : String
deriving DecidableEq, Repr

/-- The name the owner column goes by. -/
inductive Column
  | owner
  | guildId
deriving DecidableEq, Repr

/-- What the script reads and writes: the rows of `jobs`, whose ids are distinct, the name of
the owner column, the ids of `guilds`, and whether `fk_guild_id` exists. -/
structure Db where
  jobs : List Job
  column : Column
  guilds : List String
  fkGuildId : Bool
  ids_nodup : (jobs.map Job.id).Nodup

/-- The exceptions that end a run. -/
inductive Raised
  | valueError (msg : String)
  | indexError (msg : String)
  | postgresError (msg : String)
deriving DecidableEq, Repr

/-- The row `UPDATE jobs SET owner = $1 WHERE id = $2` leaves. -/
def setOwner (id guildId : String) (j : Job) : Job :=
  if j.id = id then { j with owner := guildId } else j

@[simp] theorem setOwner_id (id guildId : String) (j : Job) :
    (setOwner id guildId j).id = j.id := by
  unfold setOwner
  split <;> rfl

/-- `UPDATE jobs SET owner = $1 WHERE id = $2`. -/
def Db.updateOwner (db : Db) (guildId id : String) : Db :=
  { db with
    jobs := db.jobs.map (setOwner id guildId)
    ids_nodup := by simpa [List.map_map, Function.comp_def] using db.ids_nodup }

@[simp] theorem Db.updateOwner_jobs (db : Db) (guildId id : String) :
    (db.updateOwner guildId id).jobs = db.jobs.map (setOwner id guildId) := rfl

/-- The loop body up to the `UPDATE`: the `u/` check, then `owner.split("/")[1]`. -/
def guildIdOf (job : Job) : Except Raised String :=
  if Str.startswith job.owner "u/" then
    .error (.valueError ("Job " ++ job.id ++ " has an owner that starts with 'u/'"))
  else
    match (Str.split job.owner '/')[1]? with
    | some guildId => .ok guildId
    | none => .error (.indexError "list index out of range")

/-- What the loop body computes for a row: the `u/` check, which names the job, then the second
`/`-separated segment of the owner, which is missing when the owner holds no `/`. -/
theorem guildIdOf_eq (job : Job) :
    guildIdOf job =
      if Str.startswith job.owner "u/" then
        .error (.valueError ("Job " ++ job.id ++ " has an owner that starts with 'u/'"))
      else if '/' ∈ job.owner.data then
        .ok ⟨(job.owner.data.dropWhile (· != '/')).tail.takeWhile (· != '/')⟩
      else .error (.indexError "list index out of range") := by
  rw [guildIdOf, Str.split_getElem_one]
  split_ifs <;> rfl

/-- One pass of the loop: the checks, then the `UPDATE`, which commits at once. -/
def migrateJob (db : Db) (job : Job) : Except Raised Db :=
  (guildIdOf job).map fun guildId => db.updateOwner guildId job.id

/-- The `for job in jobs` loop. -/
def migrateJobs (r : Run Db Raised) (jobs : List Job) : Run Db Raised :=
  r.forIn jobs migrateJob

/-- `ALTER TABLE jobs RENAME COLUMN owner TO guild_id`. -/
def renameColumn (db : Db) : Except Raised Db :=
  if db.column = .owner then .ok { db with column := .guildId }
  else .error (.postgresError "column \"owner\" does not exist")

/-- What Postgres raises when a row names no guild. -/
def fkViolation : Raised :=
  .postgresError
    "insert or update on table \"jobs\" violates foreign key constraint \"fk_guild_id\""

/-- `ALTER TABLE jobs ADD CONSTRAINT fk_guild_id FOREIGN KEY (guild_id) REFERENCES guilds(id)`,
which checks every row. -/
def addForeignKey (db : Db) : Except Raised Db :=
  if db.column ≠ .guildId then .error (.postgresError "column \"guild_id\" does not exist")
  else if db.fkGuildId then
    .error (.postgresError "constraint \"fk_guild_id\" for relation \"jobs\" already exists")
  else if db.jobs.all fun j => j.owner ∈ db.guilds then .ok { db with fkGuildId := true }
  else .error fkViolation

/-- `SELECT id, owner FROM jobs`, whose rows come back in the order `fetched`. -/
def fetchJobs (db : Db) (fetched : List Job) : Except Raised (List Job) :=
  if db.column = .owner then .ok fetched
  else .error (.postgresError "column \"owner\" does not exist")

/-- The script, with the rows fetched in the order `fetched`. -/
def main (db : Db) (fetched : List Job) : Run Db Raised :=
  match fetchJobs db fetched with
  | .error e => ⟨db, some e⟩
  | .ok jobs => ((migrateJobs ⟨db, none⟩ jobs).andThen renameColumn).andThen addForeignKey

/-! ## A run that stops half way -/

/-- Two jobs; the first fetched is a guild's, the second a user's. -/
def partialDb : Db where
  jobs := [⟨"1", "g/5"⟩, ⟨"2", "u/7"⟩]
  column := .owner
  guilds := ["5"]
  fkGuildId := false
  ids_nodup := by decide

theorem main_partialDb :
    (main partialDb partialDb.jobs).raised =
      some (.valueError "Job 2 has an owner that starts with 'u/'") ∧
    (main partialDb partialDb.jobs).state.jobs = [⟨"1", "5"⟩, ⟨"2", "u/7"⟩] ∧
    partialDb.jobs = [⟨"1", "g/5"⟩, ⟨"2", "u/7"⟩] :=
  ⟨rfl, rfl, rfl⟩

/-! ## The loop -/

/-- Whether the loop accepts a row. -/
def accepts (job : Job) : Bool :=
  match guildIdOf job with
  | .ok _ => true
  | .error _ => false

/-- A row as the loop rewrites it. -/
def newOwner (job : Job) : Job :=
  match guildIdOf job with
  | .ok guildId => { job with owner := guildId }
  | .error _ => job

/-- The exception the loop raises over `jobs`: that of the first row it rejects. -/
def loopError (jobs : List Job) : Option Raised :=
  jobs.findSome? fun j =>
    match guildIdOf j with
    | .ok _ => none
    | .error e => some e

/-- The rows `rows` with those in `done` rewritten. -/
def rewriteRows (rows done : List Job) : List Job :=
  rows.map fun j => if j ∈ done then newOwner j else j

@[simp] theorem newOwner_id (j : Job) : (newOwner j).id = j.id := by
  unfold newOwner
  split <;> rfl

theorem rewriteRows_congr (rows : List Job) {d₁ d₂ : List Job} (h : ∀ j, j ∈ d₁ ↔ j ∈ d₂) :
    rewriteRows rows d₁ = rewriteRows rows d₂ := by
  simp only [rewriteRows, h]

theorem rewriteRows_nil (rows : List Job) : rewriteRows rows [] = rows := by
  simp [rewriteRows]

theorem rewriteRows_of_forall_mem {rows done : List Job} (h : ∀ j ∈ rows, j ∈ done) :
    rewriteRows rows done = rows.map newOwner :=
  List.map_congr_left fun j hj => if_pos (h j hj)

/-- The `UPDATE` of an accepted row `k` not yet rewritten rewrites exactly that row. -/
theorem updateOwner_rewriteRows {rows done : List Job} (hnd : (rows.map Job.id).Nodup)
    {k : Job} (hk : k ∈ rows) (hkd : k ∉ done) {g : String} (hg : guildIdOf k = .ok g) :
    (rewriteRows rows done).map (setOwner k.id g) = rewriteRows rows (k :: done) := by
  rw [rewriteRows, rewriteRows, List.map_map]
  refine List.map_congr_left fun j hj => ?_
  by_cases hid : j.id = k.id
  · obtain rfl : j = k := List.inj_on_of_nodup_map hnd hj hk hid
    simp [hkd, setOwner, newOwner, hg]
  · have hne : j ≠ k := fun h => hid (h ▸ rfl)
    simp only [Function.comp_apply, List.mem_cons, hne, false_or]
    split <;> simp [setOwner, hid]

theorem migrateJob_ok {db : Db} {job : Job} {g : String} (hg : guildIdOf job = .ok g) :
    migrateJob db job = .ok (db.updateOwner g job.id) := by
  rw [migrateJob, hg]
  rfl

theorem migrateJob_error {db : Db} {job : Job} {e : Raised} (he : guildIdOf job = .error e) :
    migrateJob db job = .error e := by
  rw [migrateJob, he]
  rfl

/-- The loop over the fetched rows `jobs`, from a table whose rows in `done` are rewritten:
it rewrites the rows it accepts before the first it rejects, and raises that row's exception. -/
theorem migrateJobs_run {rows : List Job} (hnd : (rows.map Job.id).Nodup) :
    ∀ {jobs done : List Job} {db : Db}, jobs.Nodup → (∀ j ∈ jobs, j ∈ rows ∧ j ∉ done) →
    db.jobs = rewriteRows rows done →
    ∃ db', migrateJobs ⟨db, none⟩ jobs = ⟨db', loopError jobs⟩ ∧
      db'.jobs = rewriteRows rows (done ++ jobs.takeWhile accepts) ∧
      db'.column = db.column ∧ db'.guilds = db.guilds ∧ db'.fkGuildId = db.fkGuildId
  | [], done, db, _, _, hdb => ⟨db, rfl, by simpa using hdb, rfl, rfl, rfl⟩
  | k :: jobs, done, db, hnodup, hmem, hdb => by
    rw [List.nodup_cons] at hnodup
    have hloop : migrateJobs ⟨db, none⟩ (k :: jobs) =
        migrateJobs ((⟨db, none⟩ : Run Db Raised).andThen (migrateJob · k)) jobs := rfl
    cases hg : guildIdOf k with
    | error e =>
      have hacc : accepts k = false := by rw [accepts, hg]
      refine ⟨db, ?_, by simpa [List.takeWhile_cons, hacc] using hdb, rfl, rfl, rfl⟩
      rw [hloop, Run.andThen_error (migrateJob_error hg), migrateJobs, Run.forIn_raised rfl]
      simp [loopError, List.findSome?_cons, hg]
    | ok g =>
      have hacc : accepts k = true := by rw [accepts, hg]
      obtain ⟨hk, hkd⟩ := hmem k (List.mem_cons_self _ _)
      have hdb₁ : (db.updateOwner g k.id).jobs = rewriteRows rows (k :: done) := by
        rw [Db.updateOwner_jobs, hdb, updateOwner_rewriteRows hnd hk hkd hg]
      have hrest : ∀ j ∈ jobs, j ∈ rows ∧ j ∉ k :: done := fun j hj => by
        obtain ⟨hj₁, hj₂⟩ := hmem j (List.mem_cons_of_mem _ hj)
        refine ⟨hj₁, List.mem_cons.not.mpr (not_or.mpr ⟨?_, hj₂⟩)⟩
        rintro rfl
        exact hnodup.1 hj
      obtain ⟨db', hrun, hjobs, hcol, hguilds, hfk⟩ := migrateJobs_run hnd hnodup.2 hrest hdb₁
      refine ⟨db', ?_, ?_, by simpa using hcol, by simpa using hguilds, by simpa using hfk⟩
      · rw [hloop, Run.andThen_ok (migrateJob_ok hg), hrun]
        simp [loopError, List.findSome?_cons, hg]
      · rw [hjobs, List.takeWhile_cons, if_pos hacc]
        exact rewriteRows_congr rows fun j => List.perm_middle.mem_iff.symm

theorem takeWhile_of_loopError : ∀ {jobs : List Job}, loopError jobs = none →
    jobs.takeWhile accepts = jobs
  | [], _ => rfl
  | k :: jobs, h => by
    cases hg : guildIdOf k with
    | error e => simp [loopError, List.findSome?_cons, hg] at h
    | ok g =>
      have hacc : accepts k = true := by rw [accepts, hg]
      have hrest : loopError jobs = none := by simpa [loopError, List.findSome?_cons, hg] using h
      rw [List.takeWhile_cons, if_pos hacc, takeWhile_of_loopError hrest]

/-! ## The script -/

theorem renameColumn_owner {db : Db} (h : db.column = .owner) :
    renameColumn db = .ok { db with column := .guildId } := if_pos h

theorem addForeignKey_new {db : Db} (hcol : db.column = .guildId) (hfk : db.fkGuildId = false) :
    addForeignKey db =
      if ∀ j ∈ db.jobs, j.owner ∈ db.guilds then .ok { db with fkGuildId := true }
      else .error fkViolation := by
  simp [addForeignKey, hcol, hfk]

/-- Every run from the table as it is before the migration (column `owner`, no `fk_guild_id`),
for every fetch order: the rows fetched before the first rejected one are rewritten and the
others left as they were; a rejected row ends the run with its exception, the column and the
constraint untouched; otherwise the column is renamed, and the constraint is added exactly when
every rewritten owner is a guild id, the run raising the violation otherwise. -/
theorem main_outcome {db : Db} {fetched : List Job} (hperm : fetched.Perm db.jobs)
    (hcol : db.column = .owner) (hfk : db.fkGuildId = false) :
    (∀ j ∈ fetched, guildIdOf j =
      if Str.startswith j.owner "u/" then
        .error (.valueError ("Job " ++ j.id ++ " has an owner that starts with 'u/'"))
      else if '/' ∈ j.owner.data then
        .ok ⟨(j.owner.data.dropWhile (· != '/')).tail.takeWhile (· != '/')⟩
      else .error (.indexError "list index out of range")) ∧
    (main db fetched).state.jobs = rewriteRows db.jobs (fetched.takeWhile accepts) ∧
    (∀ e, loopError fetched = some e → (main db fetched).raised = some e ∧
      (main db fetched).state.column = .owner ∧ (main db fetched).state.fkGuildId = false) ∧
    (loopError fetched = none → (main db fetched).state.column = .guildId ∧
      if ∀ j ∈ db.jobs, (newOwner j).owner ∈ db.guilds then
        (main db fetched).raised = none ∧ (main db fetched).state.fkGuildId = true
      else (main db fetched).raised = some fkViolation ∧
        (main db fetched).state.fkGuildId = false) := by
  have hnodup : fetched.Nodup := hperm.nodup_iff.mpr (List.Nodup.of_map _ db.ids_nodup)
  obtain ⟨db', hrun, hjobs, hcol', hguilds, hfk'⟩ := migrateJobs_run db.ids_nodup hnodup
    (fun j hj => ⟨hperm.subset hj, List.not_mem_nil j⟩) (rewriteRows_nil db.jobs).symm
  have hmain : main db fetched =
      ((⟨db', loopError fetched⟩ : Run Db Raised).andThen renameColumn).andThen addForeignKey := by
    rw [main, fetchJobs, if_pos hcol]
    exact congrArg (fun r => (Run.andThen r renameColumn).andThen addForeignKey) hrun
  rw [hmain, List.nil_append] at *
  refine ⟨fun j _ => guildIdOf_eq j, ?_⟩
  cases hl : loopError fetched with
  | some e =>
    rw [Run.andThen_raised rfl, Run.andThen_raised rfl]
    exact ⟨hjobs, fun e' he => ⟨he, hcol'.trans hcol, hfk'.trans hfk⟩, fun h => nomatch h⟩
  | none =>
    have hall : rewriteRows db.jobs fetched = db.jobs.map newOwner :=
      rewriteRows_of_forall_mem fun j hj => hperm.symm.subset hj
    rw [takeWhile_of_loopError hl, hall] at hjobs ⊢
    have hiff : (∀ j ∈ db'.jobs, j.owner ∈ db'.guilds) ↔
        ∀ j ∈ db.jobs, (newOwner j).owner ∈ db.guilds := by
      rw [hjobs, hguilds, List.forall_mem_map]
    have hadd : addForeignKey { db' with column := .guildId } = _ :=
      addForeignKey_new rfl (hfk'.trans hfk)
    rw [Run.andThen_ok (renameColumn_owner (hcol'.trans hcol))]
    by_cases hg : ∀ j ∈ db.jobs, (newOwner j).owner ∈ db.guilds
    · rw [Run.andThen_ok (hadd.trans (if_pos (hiff.mpr hg))), if_pos hg]
      exact ⟨hjobs, fun _ h => (Option.some_ne_none _ h.symm).elim, fun _ => ⟨rfl, rfl, rfl⟩⟩
    · rw [Run.andThen_error (hadd.trans (if_neg (mt hiff.mp hg))), if_neg hg]
      exact ⟨hjobs, fun _ h => (Option.some_ne_none _ h.symm).elim,
        fun _ => ⟨rfl, rfl, hfk'.trans hfk⟩⟩

theorem main_outcome_partialDb :
    (∀ j ∈ partialDb.jobs, guildIdOf j =
      if Str.startswith j.owner "u/" then
        .error (.valueError ("Job " ++ j.id ++ " has an owner that starts with 'u/'"))
      else if '/' ∈ j.owner.data then
        .ok ⟨(j.owner.data.dropWhile (· != '/')).tail.takeWhile (· != '/')⟩
      else .error (.indexError "list index out of range")) ∧
    (main partialDb partialDb.jobs).state.jobs =
      rewriteRows partialDb.jobs (partialDb.jobs.takeWhile accepts) ∧
    (∀ e, loopError partialDb.jobs = some e → (main partialDb partialDb.jobs).raised = some e ∧
      (main partialDb partialDb.jobs).state.column = .owner ∧
      (main partialDb partialDb.jobs).state.fkGuildId = false) ∧
    (loopError partialDb.jobs = none → (main partialDb partialDb.jobs).state.column = .guildId ∧
      if ∀ j ∈ partialDb.jobs, (newOwner j).owner ∈ partialDb.guilds then
        (main partialDb partialDb.jobs).raised = none ∧
          (main partialDb partialDb.jobs).state.fkGuildId = true
      else (main partialDb partialDb.jobs).raised = some fkViolation ∧
        (main partialDb partialDb.jobs).state.fkGuildId = false) :=
  main_outcome (List.Perm.refl _) rfl rfl

end AntiRaid.Devutils.JobOwnerToGuild
