import AntiRaid.Python.Dumps
import AntiRaid.Devutils.MigrateNonencryptedBackups

/-!
# `add_perm.py` and `add_perm_override.py`

Both scripts prompt for a guild ID, a role (or member) ID and the permissions as a JSON string,
check each answer as they read it, and insert one row of `guild_templates_kv`. `add_perm` then
prompts for an index, read with `int()`, and stores `json.dumps({"index": index, "perms": perms})`
under the scope `builtins.guild_permissions`; `add_perm_override` stores `json.dumps(perms)`
under `builtins.guild_permissions.overrides`.

The answers are Python `str`s (`PyStr`): `input()` decodes bytes that are not UTF-8 into lone
surrogates. A run inserts a row exactly when every answer passes its check and asyncpg can encode
the guild ID and the role or member ID, which it cannot where they hold a lone surrogate; the row
is then determined by the answers (`main_eq_ok`, `AddPermOverride.main_eq_ok`). Its value reads
back with `json.loads` as the index and the permissions that were typed exactly when no
permission holds a high surrogate right before a low one (`main_value_loads`,
`AddPermOverride.main_stores_perms`): such a pair is written as two escapes, which
`json.loads` joins; and `int()` returns no integer that `json.loads` would refuse. The scripts
catch `JSONDecodeError` only: a run ends with another exception of `json.loads` exactly when
that is what the permissions raise after two non-blank IDs (`perms_error_uncaught`).
-/

namespace AntiRaid.Devutils.AddPerm

open AntiRaid.Python AntiRaid.Python.Loads AntiRaid.Python.Dumps
open AntiRaid.Devutils.MigrateNonencryptedBackups (KvRow tokenHex)

/-- How a run ends without inserting a row. -/
inductive Stop
  /-- `print(message)`, then `return`. -/
  | printed (message : String)
  /-- `print(f"Invalid permission value: {v}. All permissions must be strings.")`, then
  `return`; the text `str(v)` gives is not modelled. -/
  | invalidPermission (v : Obj)
  /-- `input()` after the typed answers ran out: `EOFError`. -/
  | eofError
  /-- An exception of `json.loads` other than `JSONDecodeError`, which nothing catches. -/
  | raised (e : Raised)
  /-- `UnicodeEncodeError` of asyncpg for an argument holding a lone surrogate. -/
  | unicodeEncodeError

/-- A run against the answers still to be typed at the prompts. -/
abbrev Script := StateT (List PyStr) (Except Stop)

/-- `input(prompt)`: the next typed answer. -/
def input : Script PyStr
  | [] => .error .eofError
  | a :: as => .ok (a, as)

/-- `if not answer.strip(): print(message); return`. -/
def requireNonblank (answer : PyStr) (message : String) : Script Unit :=
  if strip answer = [] then throw (.printed message) else pure ()

/-- `json.loads(perms_input)` under `except json.JSONDecodeError`, where the interpreter lets
`json.loads` open `budget` containers. -/
def loadPerms (budget : Nat) (permsInput : PyStr) : Script Obj :=
  match loads budget permsInput with
  | .ok perms => pure perms
  | .error (.decodeError _ _) => throw (.printed "Invalid JSON format for permissions.")
  | .error e => throw (.raised e)

/-- `isinstance(v, str)`. -/
def isStr : Obj → Bool
  | .str _ => true
  | _ => false

/-- The loop `for v in perms`: the first item that is not a `str` ends the run. -/
def checkItems : List Obj → Script Unit
  | [] => pure ()
  | v :: vs => if isStr v then checkItems vs else throw (.invalidPermission v)

/-- `isinstance(perms, list)`, then the loop over its items. -/
def checkPerms : Obj → Script Unit
  | .list items => checkItems items
  | _ => throw (.printed "Permissions must be a list of strings.")

/-- What both scripts read before they differ: the guild ID, the role or member ID (the second
script's message also says "Role ID"), and the permissions, each answer checked as it is
read. -/
def readGrant (budget : Nat) : Script (PyStr × PyStr × Obj) := do
  let guildId ← input
  requireNonblank guildId "Guild ID cannot be empty."
  let key ← input
  requireNonblank key "Role ID cannot be empty."
  let permsInput ← input
  let perms ← loadPerms budget permsInput
  checkPerms perms
  pure (guildId, key, perms)

/-- `int(index)` under `except ValueError`. -/
def parseIndex (index : PyStr) : Script Int :=
  match int index with
  | .ok n => pure n
  | .error _ => throw (.printed "Invalid index value. It must be an integer.")

/-- `{"index": index, "perms": perms}`. -/
def permsValue (index : Int) (perms : Obj) : Obj :=
  .dict [(ofString "index", .int index), (ofString "perms", perms)]

/-- asyncpg's encoding of a `str` argument for a `text` column: its UTF-8 text, or
`UnicodeEncodeError` where it holds a lone surrogate. -/
def encodeText (arg : PyStr) : Script String :=
  match toChars? arg with
  | some cs => pure ⟨cs⟩
  | none => throw .unicodeEncodeError

/-- `add_perm.py`'s `main` after `asyncpg.connect()`: the row it inserts, its id
`secrets.token_hex(32)` of the drawn bytes `token`. `conn.execute` encodes the guild ID and the
role ID before it sends anything. -/
def main (budget : Nat) (token : List UInt8) : Script KvRow := do
  let (guildId, roleId, perms) ← readGrant budget
  let index ← input
  requireNonblank index "No index provided"
  let index ← parseIndex index
  let guildId ← encodeText guildId
  let roleId ← encodeText roleId
  pure ⟨guildId, roleId, dumps (permsValue index perms), ["builtins.guild_permissions"],
    tokenHex token⟩

/-! ## One lemma per step -/

section Steps

variable {α β : Type} {s s' : List PyStr}

@[simp] theorem throw_apply {e : Stop} : (throw e : Script α) s = .error e := rfl

@[simp] theorem pure_apply {a : α} : (pure a : Script α) s = .ok (a, s) := rfl

@[simp] theorem bind_eq_ok {x : Script α} {f : α → Script β} {r : β × List PyStr} :
    (x >>= f) s = .ok r ↔ ∃ a s', x s = .ok (a, s') ∧ f a s' = .ok r := by
  show (x s >>= fun p => f p.1 p.2) = _ ↔ _
  cases x s with
  | error e => simp [bind, Except.bind]
  | ok p =>
    obtain ⟨a, s'⟩ := p
    exact ⟨fun h => ⟨a, s', rfl, h⟩, fun ⟨_, _, h, hf⟩ => by cases h; exact hf⟩

@[simp] theorem map_eq_ok {x : Script α} {f : α → β} {r : β × List PyStr} :
    (f <$> x) s = .ok r ↔ ∃ a s', x s = .ok (a, s') ∧ (f a, s') = r := by
  show (x s >>= fun p => pure (f p.1, p.2)) = _ ↔ _
  cases x s with
  | error e => simp [bind, Except.bind]
  | ok p =>
    obtain ⟨a, s'⟩ := p
    exact ⟨fun h => ⟨a, s', rfl, by cases h; rfl⟩, fun ⟨_, _, h, hf⟩ => by cases h; cases hf; rfl⟩

@[simp] theorem bind_eq_error {x : Script α} {f : α → Script β} {e : Stop} :
    (x >>= f) s = .error e ↔ x s = .error e ∨ ∃ a s', x s = .ok (a, s') ∧ f a s' = .error e := by
  show (x s >>= fun p => f p.1 p.2) = _ ↔ _
  cases x s with
  | error e' => simp [bind, Except.bind]
  | ok p =>
    obtain ⟨a, s'⟩ := p
    exact ⟨fun h => .inr ⟨a, s', rfl, h⟩, fun h => by
      rcases h with h | ⟨_, _, h, hf⟩
      · cases h
      · cases h
        exact hf⟩

@[simp] theorem map_eq_error {x : Script α} {f : α → β} {e : Stop} :
    (f <$> x) s = .error e ↔ x s = .error e := by
  show (x s >>= fun p => pure (f p.1, p.2)) = _ ↔ _
  cases x s with
  | error e' => simp [bind, Except.bind]
  | ok p => simp [bind, Except.bind, pure, Except.pure]

@[simp] theorem input_eq_ok {a : PyStr} : input s = .ok (a, s') ↔ s = a :: s' := by
  cases s <;> simp [input]

@[simp] theorem requireNonblank_eq_ok {answer : PyStr} {message : String} {u : Unit} :
    requireNonblank answer message s = .ok (u, s') ↔ s' = s ∧ strip answer ≠ [] := by
  unfold requireNonblank
  split_ifs with h <;> simp [h, eq_comm]

@[simp] theorem loadPerms_eq_ok {budget : Nat} {permsInput : PyStr} {o : Obj} :
    loadPerms budget permsInput s = .ok (o, s') ↔ s' = s ∧ loads budget permsInput = .ok o := by
  unfold loadPerms
  rcases h : loads budget permsInput with (_ | _ | _) | o' <;> simp [eq_comm, and_comm]

@[simp] theorem input_ne_raised {e : Raised} : input s ≠ .error (.raised e) := by
  cases s <;> simp [input]

@[simp] theorem requireNonblank_ne_raised {answer : PyStr} {message : String} {e : Raised} :
    requireNonblank answer message s ≠ .error (.raised e) := by
  unfold requireNonblank
  split_ifs <;> simp

/-- `json.loads(perms_input)` under `except json.JSONDecodeError` ends the run with an exception
exactly when `json.loads` raises anything but `JSONDecodeError`. -/
@[simp] theorem loadPerms_eq_raised {budget : Nat} {permsInput : PyStr} {e : Raised} :
    loadPerms budget permsInput s = .error (.raised e) ↔
      loads budget permsInput = .error e ∧ ∀ msg pos, e ≠ .decodeError msg pos := by
  unfold loadPerms
  rcases h : loads budget permsInput with (_ | _ | _) | o <;> simp [eq_comm]
  · exact fun h => ⟨_, _, h⟩
  all_goals rintro rfl _ _ ⟨⟩

@[simp] theorem checkItems_eq_ok {u : Unit} :
    ∀ {items : List Obj}, checkItems items s = .ok (u, s') ↔ s' = s ∧ ∀ v ∈ items, isStr v
  | [] => by
    rw [checkItems, pure_apply]
    simp only [Except.ok.injEq, Prod.mk.injEq, List.not_mem_nil, false_implies, implies_true,
      true_and, and_true]
    exact eq_comm
  | v :: vs => by
    unfold checkItems
    split_ifs with h
    · rw [checkItems_eq_ok]
      simp [h]
    · simp [h]

@[simp] theorem checkItems_ne_raised {e : Raised} :
    ∀ {items : List Obj}, checkItems items s ≠ .error (.raised e)
  | [] => by simp [checkItems]
  | v :: vs => by
    unfold checkItems
    split_ifs
    · exact checkItems_ne_raised
    · simp

@[simp] theorem checkPerms_ne_raised {o : Obj} {e : Raised} :
    checkPerms o s ≠ .error (.raised e) := by
  cases o <;> simp [checkPerms]

@[simp] theorem checkPerms_eq_ok {o : Obj} {u : Unit} :
    checkPerms o s = .ok (u, s') ↔
      s' = s ∧ ∃ items, o = .list items ∧ ∀ v ∈ items, isStr v := by
  cases o <;> simp [checkPerms]

@[simp] theorem parseIndex_eq_ok {index : PyStr} {n : Int} :
    parseIndex index s = .ok (n, s') ↔ s' = s ∧ int index = .ok n := by
  unfold parseIndex
  rcases h : int index with _ | n' <;> simp [eq_comm, and_comm]

@[simp] theorem parseIndex_ne_raised {index : PyStr} {e : Raised} :
    parseIndex index s ≠ .error (.raised e) := by
  unfold parseIndex
  rcases int index with _ | n <;> simp

@[simp] theorem encodeText_ne_raised {arg : PyStr} {e : Raised} :
    encodeText arg s ≠ .error (.raised e) := by
  unfold encodeText
  rcases toChars? arg with _ | cs <;> simp

@[simp] theorem encodeText_eq_ok {arg : PyStr} {t : String} :
    encodeText arg s = .ok (t, s') ↔ s' = s ∧ arg = ofString t := by
  unfold encodeText
  rcases h : toChars? arg with _ | cs
  · refine ⟨fun h' => (nomatch h'), ?_⟩
    rintro ⟨-, rfl⟩
    rw [show toChars? (ofString t) = some t.data from toChars?_eq_some.mpr rfl] at h
    cases h
  · rw [toChars?_eq_some] at h
    subst h
    simp only [pure_apply, Except.ok.injEq, Prod.mk.injEq, ofString]
    constructor
    · rintro ⟨rfl, rfl⟩
      exact ⟨rfl, rfl⟩
    · rintro ⟨rfl, h⟩
      exact ⟨String.ext (List.map_injective_iff.mpr (fun _ _ => CodePoint.char.inj) h), rfl⟩

end Steps

/-! ## A run -/

section Run

variable {budget : Nat} {s s' : List PyStr}

/-- The first three answers are read, and the run goes on, exactly when each passes its
check. -/
theorem readGrant_eq_ok {g k : PyStr} {perms : Obj} :
    readGrant budget s = .ok ((g, k, perms), s') ↔
      ∃ p, s = g :: k :: p :: s' ∧ strip g ≠ [] ∧ strip k ≠ [] ∧
        loads budget p = .ok perms ∧ ∃ items, perms = .list items ∧ ∀ v ∈ items, isStr v := by
  simp only [readGrant, bind_pure_comp, bind_eq_ok, input_eq_ok, requireNonblank_eq_ok, ne_eq,
    loadPerms_eq_ok, map_eq_ok, checkPerms_eq_ok, Prod.mk.injEq, and_assoc, exists_eq_left,
    exists_const]
  constructor
  · rintro ⟨_, _, rfl, hg, _, _, rfl, hk, p, _, rfl, _, hp, hitems, rfl, rfl, rfl, rfl⟩
    exact ⟨p, rfl, hg, hk, hp, hitems⟩
  · rintro ⟨p, rfl, hg, hk, hp, hitems⟩
    exact ⟨g, _, rfl, hg, k, _, rfl, hk, p, s', rfl, perms, hp, hitems, rfl, rfl, rfl, rfl⟩

/-- `add_perm` inserts a row exactly when all four answers pass their checks and the guild ID
and the role ID hold no lone surrogate; the row holds them as typed, `json.dumps` of the index
and permissions read from the other two answers, and the drawn token. -/
theorem main_eq_ok {token : List UInt8} {row : KvRow} :
    main budget token s = .ok (row, s') ↔
      ∃ g k p i perms n, s = ofString g :: ofString k :: p :: i :: s' ∧
        strip (ofString g) ≠ [] ∧ strip (ofString k) ≠ [] ∧ loads budget p = .ok perms ∧
        (∃ items, perms = .list items ∧ ∀ v ∈ items, isStr v) ∧ strip i ≠ [] ∧ int i = .ok n ∧
        row =
          ⟨g, k, dumps (permsValue n perms), ["builtins.guild_permissions"], tokenHex token⟩ := by
  simp only [main, bind_eq_ok, Prod.exists, readGrant_eq_ok, ne_eq, input_eq_ok,
    requireNonblank_eq_ok, parseIndex_eq_ok, encodeText_eq_ok, pure_apply, Except.ok.injEq,
    Prod.mk.injEq, and_assoc, exists_eq_left, exists_const, exists_and_left]
  constructor
  · rintro ⟨_, _, perms, _, ⟨p, rfl, hg, hk, hp, hitems⟩, i, _, rfl, hi, n, hn, g, rfl, k, rfl,
      rfl, rfl⟩
    exact ⟨g, k, p, i, rfl, hg, hk, perms, hp, hitems, hi, n, hn, rfl⟩
  · rintro ⟨g, k, p, i, rfl, hg, hk, perms, hp, hitems, hi, n, hn, rfl⟩
    exact ⟨_, _, perms, _, ⟨p, rfl, hg, hk, hp, hitems⟩, i, _, rfl, hi, n, hn, g, rfl, k, rfl,
      rfl, rfl⟩

/-- The steps of `add_perm` after the permissions are read never end the run with an exception
of `json.loads`. -/
theorem main_eq_raised {token : List UInt8} {e : Raised} :
    main budget token s = .error (.raised e) ↔ readGrant budget s = .error (.raised e) := by
  simp [main]

/-- The first three answers end the run with an exception of `json.loads` exactly when the IDs
are not blank and `json.loads` of the permissions raises anything but `JSONDecodeError`. -/
theorem readGrant_eq_raised {e : Raised} :
    readGrant budget s = .error (.raised e) ↔
      ∃ g k p rest, s = g :: k :: p :: rest ∧ strip g ≠ [] ∧ strip k ≠ [] ∧
        loads budget p = .error e ∧ ∀ msg pos, e ≠ .decodeError msg pos := by
  simp only [readGrant, bind_eq_error, input_ne_raised, requireNonblank_ne_raised,
    loadPerms_eq_raised, checkPerms_ne_raised, input_eq_ok, requireNonblank_eq_ok, false_or,
    bind_pure_comp, map_eq_error, and_false, exists_false, or_false, and_assoc, exists_eq_left,
    exists_const, ne_eq]
  constructor
  · rintro ⟨g, _, rfl, hg, k, _, rfl, hk, p, rest, rfl, hp, he⟩
    exact ⟨g, k, p, rest, rfl, hg, hk, hp, he⟩
  · rintro ⟨g, k, p, rest, rfl, hg, hk, hp, he⟩
    exact ⟨g, _, rfl, hg, k, _, rfl, hk, p, rest, rfl, hp, he⟩

/-! ## What the stored value reads back as -/

/-- A list of strings whose strings are `Joined` is `Wf` at every depth that admits a list. -/
theorem wf_list_of_isStr {items : List Obj} (hitems : ∀ v ∈ items, isStr v)
    (hj : ∀ x ∈ strs (.list items), Joined x) (b : Nat) : Wf (b + 1) (.list items) := by
  intro x hx
  have hs := hitems x hx
  cases x <;> simp only [isStr, Bool.false_eq_true] at hs
  exact wfOf_str.mpr (hj _ ((strs_list items) ▸ List.mem_flatMap.mpr
    ⟨_, hx, List.mem_singleton_self _⟩))

theorem encodeItems_of_isStr {indent : Option Nat} {level : Nat} :
    ∀ {items : List Obj}, (∀ v ∈ items, isStr v) →
      ∃ t, encodeObj.encodeItems indent level items = some t
  | [], _ => ⟨_, rfl⟩
  | x :: xs, h => by
    have hx := h x (List.mem_cons_self x xs)
    cases x <;> simp only [isStr, Bool.false_eq_true] at hx
    obtain ⟨ts, hts⟩ := @encodeItems_of_isStr indent level xs
      fun v hv => h v (List.mem_cons_of_mem _ hv)
    exact ⟨_, by simp [encodeObj.encodeItems, encodeObj, hts]; rfl⟩

theorem encodeObj_list_of_isStr (indent : Option Nat) (level : Nat) {items : List Obj}
    (hitems : ∀ v ∈ items, isStr v) : ∃ t, encodeObj indent level (.list items) = some t := by
  cases items with
  | nil => exact ⟨_, rfl⟩
  | cons x xs =>
    have hx := hitems x (List.mem_cons_self x xs)
    cases x <;> simp only [isStr, Bool.false_eq_true] at hx
    obtain ⟨ts, hts⟩ := @encodeItems_of_isStr indent (level + 1) xs
      fun v hv => hitems v (List.mem_cons_of_mem _ hv)
    exact ⟨_, by simp [encodeObj, hts]; rfl⟩

/-- `json.dumps` writes an index of at most `maxStrDigits` digits and a list of strings. -/
theorem encodeObj_permsValue {n : Int} (hn : Fits n) {items : List Obj}
    (hitems : ∀ v ∈ items, isStr v) :
    ∃ t, encodeObj none 0 (permsValue n (.list items)) = some t := by
  obtain ⟨t, ht⟩ := encodeObj_list_of_isStr none 1 hitems
  have hdigits : (Json.natRepr n.natAbs).length ≤ maxStrDigits := hn
  exact ⟨_, by simp [permsValue, encodeObj, encodeObj.encodeEntries, hdigits, ht]; rfl⟩

theorem wf_permsValue {n : Int} (hn : Fits n) {perms : Obj} {b : Nat}
    (hperms : Wf (b + 1) perms) : Wf (b + 2) (permsValue n perms) := by
  refine ⟨show [ofString "index", ofString "perms"].Nodup by decide, ?_⟩
  simp only [List.mem_cons, forall_eq_or_imp, List.not_mem_nil, false_implies, implies_true,
    and_true]
  exact ⟨⟨joined_ofString _, wfOf_int.mpr hn⟩, joined_ofString _, hperms⟩

/-- `json.loads` reads back what `json.dumps` writes of an index and a list of strings. -/
theorem loads_dumps_permsValue {n : Int} (hn : Fits n) {items : List Obj}
    (hitems : ∀ v ∈ items, isStr v) {b : Nat} (hperms : Wf (b + 1) (.list items)) :
    loads (b + 2) (dumps (permsValue n (.list items))) = .ok (permsValue n (.list items)) := by
  obtain ⟨t, ht⟩ := encodeObj_permsValue hn hitems
  rw [dumps, ht]
  exact loads_encodeObj (wf_permsValue hn hperms) ht

theorem strs_permsValue (n : Int) (perms : Obj) :
    strs (permsValue n perms) = ofString "index" :: ofString "perms" :: strs perms := by
  simp only [permsValue, strs_dict, List.flatMap_cons, List.flatMap_nil, List.append_nil,
    List.cons_append]
  rfl

/-- The value `add_perm` stores reads back with `json.loads` as `{"index": n, "perms": perms}`,
where `perms` is what `json.loads` read from the third answer and `n` what `int()` read from the
fourth, whenever the reader may open two containers, exactly when no permission holds a high
surrogate right before a low one. -/
theorem main_value_loads {token : List UInt8} {row : KvRow}
    (h : main budget token s = .ok (row, s')) (b : Nat) :
    ∃ g k p i perms n, s = g :: k :: p :: i :: s' ∧ loads budget p = .ok perms ∧ int i = .ok n ∧
      (loads (b + 2) row.value = .ok (permsValue n perms) ↔ ∀ x ∈ strs perms, Joined x) := by
  obtain ⟨g, k, p, i, perms, n, rfl, -, -, hp, ⟨items, rfl, hitems⟩, -, hn, rfl⟩ := main_eq_ok.mp h
  refine ⟨_, _, p, i, _, n, rfl, hp, hn, fun hback x hx => ?_, fun hj =>
    loads_dumps_permsValue (int_fits hn) hitems (wf_list_of_isStr hitems hj b)⟩
  exact wfOf_strs (loads_joined (noSurrogate_ofChars _) hback) x
    ((strs_permsValue n _).symm ▸ List.mem_cons_of_mem _ (List.mem_cons_of_mem _ hx))

theorem main_value_loads_sample : ∃ row : KvRow,
    main 1 [] [" 7", "42", "[\"ban\", \"\\ud800\"]", " \u0663 "] = .ok (row, []) ∧
    ∃ (g k p i : PyStr) (perms : Obj) (n : Int),
      ([" 7", "42", "[\"ban\", \"\\ud800\"]", " \u0663 "] : List PyStr) = [g, k, p, i] ∧
      loads 1 p = .ok perms ∧ int i = .ok n ∧
      (loads 2 row.value = .ok (permsValue n perms) ↔ ∀ x ∈ strs perms, Joined x) :=
  ⟨_, rfl, @main_value_loads 1 [" 7", "42", "[\"ban\", \"\\ud800\"]", " \u0663 "] [] [] _ rfl 0⟩

end Run

end AntiRaid.Devutils.AddPerm

namespace AntiRaid.Devutils.AddPermOverride

open AntiRaid.Python AntiRaid.Python.Loads AntiRaid.Python.Dumps
open AntiRaid.Devutils.AddPerm (Script readGrant isStr encodeText)
open AntiRaid.Devutils.MigrateNonencryptedBackups (KvRow tokenHex)

/-- `add_perm_override.py`'s `main` after `asyncpg.connect()`: the row it inserts, its id
`secrets.token_hex(32)` of the drawn bytes `token`. `conn.execute` encodes the guild ID and the
member ID before it sends anything. -/
def main (budget : Nat) (token : List UInt8) : Script KvRow := do
  let (guildId, memberId, perms) ← readGrant budget
  let guildId ← encodeText guildId
  let memberId ← encodeText memberId
  pure ⟨guildId, memberId, dumps perms, ["builtins.guild_permissions.overrides"], tokenHex token⟩

section Run

variable {budget : Nat} {token : List UInt8} {s s' : List PyStr} {row : KvRow}

/-- `add_perm_override` inserts a row exactly when the three answers pass their checks and the
guild ID and the member ID hold no lone surrogate; the row holds them as typed, `json.dumps` of
the permissions read from the third answer, and the drawn token. -/
theorem main_eq_ok :
    main budget token s = .ok (row, s') ↔
      ∃ g k p perms, s = ofString g :: ofString k :: p :: s' ∧ strip (ofString g) ≠ [] ∧
        strip (ofString k) ≠ [] ∧ loads budget p = .ok perms ∧
        (∃ items, perms = .list items ∧ ∀ v ∈ items, isStr v) ∧
        row = ⟨g, k, dumps perms, ["builtins.guild_permissions.overrides"], tokenHex token⟩ := by
  simp only [main, AddPerm.bind_eq_ok, Prod.exists, AddPerm.readGrant_eq_ok, ne_eq,
    AddPerm.encodeText_eq_ok, AddPerm.pure_apply, Except.ok.injEq, Prod.mk.injEq,
    exists_eq_right_right, exists_and_left]
  constructor
  · rintro ⟨_, _, perms, _, ⟨p, rfl, hg, hk, hp, hitems⟩, g, _, ⟨rfl, rfl⟩, k, ⟨rfl, rfl⟩, rfl⟩
    exact ⟨g, k, p, rfl, hg, hk, perms, hp, hitems, rfl⟩
  · rintro ⟨g, k, p, rfl, hg, hk, perms, hp, hitems, rfl⟩
    exact ⟨_, _, perms, _, ⟨p, rfl, hg, hk, hp, hitems⟩, g, _, ⟨rfl, rfl⟩, k, ⟨rfl, rfl⟩, rfl⟩

theorem main_eq_raised {e : Raised} :
    main budget token s = .error (.raised e) ↔ readGrant budget s = .error (.raised e) := by
  simp [main]

/-- The value `add_perm_override` stores reads back with `json.loads` as the permissions
`json.loads` read from the third answer, whenever the reader may open one container, exactly
when no permission holds a high surrogate right before a low one. -/
theorem main_stores_perms (h : main budget token s = .ok (row, s')) (b : Nat) :
    ∃ g k p perms, s = g :: k :: p :: s' ∧ loads budget p = .ok perms ∧
      (loads (b + 1) row.value = .ok perms ↔ ∀ x ∈ strs perms, Joined x) := by
  obtain ⟨g, k, p, perms, rfl, -, -, hp, ⟨items, rfl, hitems⟩, rfl⟩ := main_eq_ok.mp h
  refine ⟨_, _, p, _, rfl, hp, fun hback => wfOf_strs (loads_joined (noSurrogate_ofChars _) hback),
    fun hj => ?_⟩
  obtain ⟨t, ht⟩ := AddPerm.encodeObj_list_of_isStr none 0 hitems
  show loads (b + 1) (dumps _) = _
  rw [dumps, ht]
  exact loads_encodeObj (AddPerm.wf_list_of_isStr hitems hj b) ht

theorem main_stores_perms_sample : ∃ row : KvRow,
    main 1 [] ["7", "42", "[\"ban\"]"] = .ok (row, []) ∧
    ∃ (g k p : PyStr) (perms : Obj), (["7", "42", "[\"ban\"]"] : List PyStr) = [g, k, p] ∧
      loads 1 p = .ok perms ∧
      (loads 1 row.value = .ok perms ↔ ∀ x ∈ strs perms, Joined x) :=
  ⟨_, rfl, @main_stores_perms 1 [] ["7", "42", "[\"ban\"]"] [] _ rfl 0⟩

end Run

end AntiRaid.Devutils.AddPermOverride
