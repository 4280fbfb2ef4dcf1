import AntiRaid.Devutils.AddPerm

/-!
# `migrate_guild_data.py`

The script fetches every row of `guild_roles` and, for each in the order the query returns
them, inserts into `guild_templates_kv` a row for the same guild keyed by the role ID, whose value
is `json.dumps({"index": index, "perms": perms})` under the scope `builtins.guild_permissions`,
with the role's two timestamps and the id `automigrated.{created_by}.{last_updated_by}/` followed
by `secrets.token_hex(24)`.

A run keeps every row that was there and appends one row per role, in fetch order
(`main_eq`); each appended row's value reads back with `json.loads` as the role's index and
permissions (`main_rows`). The migrated row holds what `add_perm` inserts when the role's guild
ID, role ID, `json.dumps` of its permissions and `str` of its index are typed at its prompts
(`migratedRow_agrees`), so the two ways of granting permissions write the same data. The ids the
run inserts are distinct whenever the drawn tokens are (`main_ids_nodup`), whoever created and
updated the roles.
-/

namespace AntiRaid.Devutils.MigrateGuildData

open AntiRaid.Python AntiRaid.Python.Loads AntiRaid.Python.Dumps
open AntiRaid.Python.Json (intRepr intRepr_head)
open AntiRaid.Devutils.AddPerm (permsValue isStr)
open AntiRaid.Devutils.MigrateNonencryptedBackups (KvRow tokenHex)

/-- A row of `guild_roles` as `conn.fetch` returns it. `Time` is what the driver gives for a
timestamp, which the script only passes on. -/
structure GuildRole (Time : Type) where
  guildId : String
  roleId : String
  perms : List String
  index : Int
  createdAt : Time
  lastUpdatedAt : Time
  createdBy : String
  lastUpdatedBy : String

/-- A row of `guild_templates_kv` as this script writes it, with the timestamps it copies. -/
structure KvRowAt (Time : Type) extends KvRow where
  createdAt : Time
  lastUpdatedAt : Time

/-- The 24 bytes behind one `secrets.token_hex(24)`. -/
abbrev Token := {bs : List UInt8 // bs.length = 24}

variable {Time : Type}

/-- `entry["perms"]`: a list of `str`. -/
def permsObj (perms : List String) : Obj := .list (perms.map fun p => .str (ofString p))

/-- The row the loop's body inserts for `entry`, its id ending in `secrets.token_hex(24)` of the
drawn `token`. -/
def migratedRow (token : Token) (entry : GuildRole Time) : KvRowAt Time where
  guildId := entry.guildId
  key := entry.roleId
  value := dumps (permsValue entry.index (permsObj entry.perms))
  scopes := ["builtins.guild_permissions"]
  id :=
    "automigrated." ++ entry.createdBy ++ "." ++ entry.lastUpdatedBy ++ "/" ++ tokenHex token.1
  createdAt := entry.createdAt
  lastUpdatedAt := entry.lastUpdatedAt

/-- The loop `for entry in data` over the rows of `kv`; the `n`-th insert takes the `n`-th
draw. -/
def insertAll (draw : Nat → Token) :
    Nat → List (GuildRole Time) → List (KvRowAt Time) → List (KvRowAt Time)
  | _, [], kv => kv
  | n, entry :: data, kv => insertAll draw (n + 1) data (kv ++ [migratedRow (draw n) entry])

/-- `main` after `asyncpg.connect()` and the fetch: `guild_templates_kv` after the loop, from
`kv` before it. -/
def main (draw : Nat → Token) (data : List (GuildRole Time)) (kv : List (KvRowAt Time)) :
    List (KvRowAt Time) :=
  insertAll draw 0 data kv

/-! ## The rows a run appends -/

/-- The rows the loop appends, from the `n`-th draw on. -/
def migratedRows (draw : Nat → Token) : Nat → List (GuildRole Time) → List (KvRowAt Time)
  | _, [] => []
  | n, entry :: data => migratedRow (draw n) entry :: migratedRows draw (n + 1) data

theorem insertAll_eq (draw : Nat → Token) :
    ∀ (n : Nat) (data : List (GuildRole Time)) (kv : List (KvRowAt Time)),
      insertAll draw n data kv = kv ++ migratedRows draw n data
  | _, [], kv => (List.append_nil kv).symm
  | n, entry :: data, kv => by
    rw [insertAll, insertAll_eq draw (n + 1) data, migratedRows, List.append_assoc,
      List.singleton_append]

/-- A run keeps the rows that were there, in their order, and appends the migrated rows. -/
theorem main_eq (draw : Nat → Token) (data : List (GuildRole Time))
    (kv : List (KvRowAt Time)) : main draw data kv = kv ++ migratedRows draw 0 data :=
  insertAll_eq draw 0 data kv

/-! ## What the appended rows hold -/

theorem isStr_of_mem_permsObj {perms : List String} {v : Obj}
    (hv : v ∈ perms.map fun p => Obj.str (ofString p)) : isStr v := by
  obtain ⟨p, -, rfl⟩ := List.mem_map.mp hv
  rfl

theorem wf_permsObj (perms : List String) (b : Nat) : Wf (b + 1) (permsObj perms) :=
  fun x hx => by
    obtain ⟨p, -, rfl⟩ := List.mem_map.mp hx
    exact wfOf_str.mpr (joined_ofString p)

/-- The value migrated for a role reads back as the role's index and permissions. -/
theorem loads_migratedRow (token : Token) (entry : GuildRole Time) (hn : Fits entry.index)
    (b : Nat) :
    loads (b + 2) (migratedRow token entry).value =
      .ok (permsValue entry.index (permsObj entry.perms)) :=
  AddPerm.loads_dumps_permsValue hn (fun _ => isStr_of_mem_permsObj) (wf_permsObj entry.perms b)

/-- The rows a run appends are one per role, in fetch order: each for the role's guild and
role ID, with its timestamps, under `builtins.guild_permissions`, and a value that `json.loads`
reads back as the role's index and permissions wherever the index has at most `maxStrDigits`
digits. -/
theorem main_rows (draw : Nat → Token) (data : List (GuildRole Time)) (kv : List (KvRowAt Time)) :
    ∃ rows, main draw data kv = kv ++ rows ∧ List.Forall₂ (fun entry row =>
      row.guildId = entry.guildId ∧ row.key = entry.roleId ∧
      row.scopes = ["builtins.guild_permissions"] ∧ row.createdAt = entry.createdAt ∧
      row.lastUpdatedAt = entry.lastUpdatedAt ∧
      (Fits entry.index → ∀ b, loads (b + 2) row.value =
        .ok (permsValue entry.index (permsObj entry.perms)))) data rows := by
  refine ⟨_, main_eq draw data kv, ?_⟩
  suffices h : ∀ n (data : List (GuildRole Time)), List.Forall₂ _ data (migratedRows draw n data)
    from h 0 data
  intro n data
  induction data generalizing n with
  | nil => exact .nil
  | cons entry data ih =>
    exact .cons ⟨rfl, rfl, rfl, rfl, rfl, fun hn b => loads_migratedRow (draw n) entry hn b⟩ (ih _)

/-! ## The same data as `add_perm` -/

theorem strip_intRepr (n : Int) : strip (ofChars (intRepr n)) ≠ [] := by
  obtain ⟨c, cs, h, hc⟩ := intRepr_head n
  rw [show ofChars (intRepr n) = ofString ⟨intRepr n⟩ from rfl, strip_ofString, ne_eq,
    ofString_eq_nil]
  refine Str.strip_ne_empty (c := c) (by rw [h]; exact List.mem_cons_self c cs) ?_
  rcases hc with rfl | hc
  · decide
  · simp only [Char.isDigit, Bool.and_eq_true, decide_eq_true_eq] at hc
    have h₁ : 48 ≤ c.toNat := hc.1
    have h₂ : c.toNat ≤ 57 := hc.2
    simp only [Str.isspace, List.mem_cons, List.mem_singleton, List.not_mem_nil, or_false,
      decide_eq_false_iff_not]
    omega

/-- The row migrated for a role holds what `add_perm` inserts when the role's guild ID, role ID,
`json.dumps` of its permissions and `str` of its index are typed at its prompts: the same guild,
key, value and scope. Only the id and the timestamps differ. -/
theorem migratedRow_agrees (token : Token) (token' : List UInt8) (entry : GuildRole Time)
    (budget : Nat) (hg : Str.strip entry.guildId ≠ "") (hk : Str.strip entry.roleId ≠ "")
    (hn : Fits entry.index) :
    AddPerm.main (budget + 1) token'
        [entry.guildId, entry.roleId, dumps (permsObj entry.perms),
          (⟨intRepr entry.index⟩ : String)] =
      .ok (⟨entry.guildId, entry.roleId, (migratedRow token entry).value,
        (migratedRow token entry).scopes, tokenHex token'⟩, []) := by
  obtain ⟨t, ht⟩ := AddPerm.encodeObj_list_of_isStr none 0 fun _ => isStr_of_mem_permsObj
  have hloads : loads (budget + 1) (dumps (permsObj entry.perms)) = .ok (permsObj entry.perms) := by
    rw [dumps, permsObj, ht]
    exact loads_encodeObj (wf_permsObj entry.perms budget) ht
  have hnonblank : ∀ {x : String}, Str.strip x ≠ "" → strip (ofString x) ≠ [] := fun h => by
    rwa [strip_ofString, ne_eq, ofString_eq_nil]
  exact AddPerm.main_eq_ok.mpr ⟨_, _, _, _, _, _, rfl, hnonblank hg, hnonblank hk, hloads,
    ⟨_, rfl, fun _ => isStr_of_mem_permsObj⟩, strip_intRepr _, int_intRepr hn, rfl⟩

theorem migratedRow_agrees_sample :
    AddPerm.main 1 [] ["7", "42", dumps (permsObj ["ban"]), (⟨intRepr 3⟩ : String)] =
      .ok (⟨"7", "42", (migratedRow ⟨List.replicate 24 0, rfl⟩
        (⟨"7", "42", ["ban"], 3, 0, 0, "1", "1"⟩ : GuildRole Nat)).value,
        ["builtins.guild_permissions"], tokenHex []⟩, []) :=
  migratedRow_agrees ⟨List.replicate 24 0, rfl⟩ [] ⟨"7", "42", ["ban"], 3, 0, 0, "1", "1"⟩ 0
    (by decide) (by decide) (by simp [Fits, Json.natRepr, maxStrDigits])

/-! ## Ids -/

/-- The two hex digits `token_hex` writes for a byte determine it. -/
theorem eq_of_hexDigits {a b : UInt8}
    (h : [Json.hexDigit (a.toNat / 16), Json.hexDigit (a.toNat % 16)] =
      [Json.hexDigit (b.toNat / 16), Json.hexDigit (b.toNat % 16)]) : a = b := by
  have ha : a.toNat < 256 := a.toNat_lt_size
  have hb : b.toNat < 256 := b.toNat_lt_size
  simp only [List.cons.injEq, and_true] at h
  have h₁ := congrArg Json.hexVal h.1
  have h₂ := congrArg Json.hexVal h.2
  rw [Json.hexVal_hexDigit _ (by omega), Json.hexVal_hexDigit _ (by omega),
    Option.some.injEq] at h₁ h₂
  exact UInt8.toNat.inj (by omega)

/-- `secrets.token_hex` tells its bytes apart. -/
theorem tokenHex_injective : Function.Injective tokenHex := by
  intro as bs h
  replace h := congrArg String.data h
  induction as generalizing bs with
  | nil => cases bs <;> simp_all [tokenHex]
  | cons a as ih =>
    cases bs with
    | nil => simp [tokenHex] at h
    | cons b bs =>
      simp only [tokenHex, List.flatMap_cons] at h
      obtain ⟨hab, hrest⟩ := List.append_inj h rfl
      rw [eq_of_hexDigits hab, ih hrest]

theorem length_tokenHex (bs : List UInt8) : (tokenHex bs).data.length = 2 * bs.length := by
  induction bs with
  | nil => rfl
  | cons b bs ih =>
    simp only [tokenHex, List.flatMap_cons, List.length_append, List.length_cons,
      List.length_nil] at ih ⊢
    omega

/-- Two migrated rows with the same id drew the same token. -/
theorem token_eq_of_id_eq {t₁ t₂ : Token} {e₁ e₂ : GuildRole Time}
    (h : (migratedRow t₁ e₁).id = (migratedRow t₂ e₂).id) : t₁ = t₂ := by
  replace h := congrArg String.data h
  simp only [migratedRow, String.data_append] at h
  have hlen : (tokenHex t₁.1).data.length = (tokenHex t₂.1).data.length := by
    rw [length_tokenHex, length_tokenHex, t₁.2, t₂.2]
  exact Subtype.ext (tokenHex_injective (String.ext (List.append_inj' h hlen).2))

theorem mem_migratedRows {draw : Nat → Token} {row : KvRowAt Time} :
    ∀ {n : Nat} {data : List (GuildRole Time)}, row ∈ migratedRows draw n data →
      ∃ k < data.length, ∃ entry, row = migratedRow (draw (n + k)) entry
  | _, [], h => by cases h
  | n, entry :: data, h => by
    rcases List.mem_cons.mp h with rfl | h
    · exact ⟨0, by simp, entry, rfl⟩
    · obtain ⟨k, hk, e, rfl⟩ := mem_migratedRows h
      exact ⟨k + 1, by simp [hk], e, by rw [Nat.add_right_comm, Nat.add_assoc]⟩

theorem migratedRows_ids_nodup (draw : Nat → Token) :
    ∀ (n : Nat) (data : List (GuildRole Time)),
      (∀ i < data.length, ∀ j < data.length, draw (n + i) = draw (n + j) → i = j) →
      ((migratedRows draw n data).map fun row => row.id).Nodup
  | _, [], _ => List.nodup_nil
  | n, entry :: data, hdraw => by
    refine List.nodup_cons.mpr ⟨fun hmem => ?_, migratedRows_ids_nodup draw (n + 1) data
      fun i hi j hj h => ?_⟩
    · obtain ⟨row, hrow, hid⟩ := List.mem_map.mp hmem
      obtain ⟨k, hk, e, rfl⟩ := mem_migratedRows hrow
      have hidx : n + (k + 1) = n + 1 + k := by omega
      have := hdraw 0 (by simp) (k + 1) (by simp [hk])
        (by rw [Nat.add_zero, hidx]; exact token_eq_of_id_eq hid.symm)
      omega
    · have hi' : n + (i + 1) = n + 1 + i := by omega
      have hj' : n + (j + 1) = n + 1 + j := by omega
      have := hdraw (i + 1) (by simp [hi]) (j + 1) (by simp [hj]) (by rw [hi', hj']; exact h)
      omega

/-- The ids a run inserts are pairwise distinct whenever the tokens drawn for them are, even for
roles created and last updated by the same users. -/
theorem main_ids_nodup (draw : Nat → Token) (data : List (GuildRole Time))
    (kv : List (KvRowAt Time))
    (hdraw : ∀ i < data.length, ∀ j < data.length, draw i = draw j → i = j) :
    (((main draw data kv).drop kv.length).map fun row => row.id).Nodup := by
  rw [main_eq, List.drop_left]
  exact migratedRows_ids_nodup draw 0 data fun i hi j hj h =>
    hdraw i hi j hj (by simpa using h)

theorem main_ids_nodup_sameUsers :
    (((main (fun n => ⟨List.replicate 23 0 ++ [n.toUInt8], by simp⟩)
      [(⟨"7", "42", ["ban"], 3, 0, 0, "1", "1"⟩ : GuildRole Nat),
        ⟨"7", "43", [], 0, 0, 0, "1", "1"⟩] []).drop 0).map fun row => row.id).Nodup :=
  main_ids_nodup _ _ [] (by decide)

end AntiRaid.Devutils.MigrateGuildData
