import AntiRaid.Python.Loads

/-!
# `json.dumps` of what `json.loads` returns

The permission scripts store `json.dumps` of an object they got from `json.loads`, and the
role migration stores `json.dumps` of values read from the database. This module writes every
object `json.loads` can return as CPython's encoder does (`ensure_ascii`, the default
separators, with or without an indent), and proves that `json.loads` reads it back as the
object it was.

The objects `json.loads` returns have distinct keys in each dict, integers of at most
`maxStrDigits` digits, and containers nested no deeper than the interpreter lets the reader go
(`loads_wf`); `json.dumps` writes each of them that holds no float (`encodeObj_isSome`). What it
writes reads back as the object exactly when every string of the object is `Joined`, holding no
high surrogate right before a low one (`loads_encodeObj`, `loads_joined`). `json.loads` reads
only such strings from a text without lone surrogates, but a `str` that `input()` made of
undecodable bytes holds lone low surrogates, and a `\uXXXX` escape of a high surrogate right
before one is read as an unjoined pair. Writing what was read and reading it again therefore
changes nothing exactly when the object read is joined (`loads_dumps_loads`). The encoder of
the provisioning scripts' values, `Json.encode`, is this one on their image in `Obj`
(`encodeObj_toObj`), so those values read back too.
-/

namespace AntiRaid.Python.Dumps

open AntiRaid.Python.Json hiding loads dumps
open AntiRaid.Python.Loads

/-! ## Writing -/

/-- `json.dumps(o, indent=indent)` for an object at nesting `level`, as `_make_iterencode` and
the C encoder write it. `none` where `o` holds an integer of more than `maxStrDigits` digits,
for which `int.__repr__` raises `ValueError`, or a float, whose `float.__repr__` is not
modelled. -/
def encodeObj (indent : Option Nat) (level : Nat) : Obj → Option (List Char)
  | .none => some "null".data
  | .bool b => some (if b then "true" else "false").data
  | .int n => if (natRepr n.natAbs).length ≤ maxStrDigits then some (intRepr n) else none
  | .float _ => none
  | .str s => some (encodeStr s)
  | .list [] => some ['[', ']']
  | .list (x :: xs) => do
    let t ← encodeObj indent (level + 1) x
    let ts ← encodeItems (level + 1) xs
    pure ('[' :: newline indent (level + 1) ++ t ++ ts ++ newline indent level ++ [']'])
  | .dict [] => some ['{', '}']
  | .dict ((k, v) :: kvs) => do
    let t ← encodeObj indent (level + 1) v
    let ts ← encodeEntries (level + 1) kvs
    pure ('{' :: newline indent (level + 1) ++ encodeStr k ++ [':', ' '] ++ t ++ ts ++
      newline indent level ++ ['}'])
where
  /-- The items after the first, each behind a separator. -/
  encodeItems (level : Nat) : List Obj → Option (List Char)
    | [] => some []
    | x :: xs => do
      let t ← encodeObj indent level x
      let ts ← encodeItems level xs
      pure (itemSep indent level ++ t ++ ts)
  /-- The entries after the first, each behind a separator. -/
  encodeEntries (level : Nat) : List (PyStr × Obj) → Option (List Char)
    | [] => some []
    | (k, v) :: kvs => do
      let t ← encodeObj indent level v
      let ts ← encodeEntries level kvs
      pure (itemSep indent level ++ encodeStr k ++ [':', ' '] ++ t ++ ts)

/-- `json.dumps(o)`, the text the scripts store. Where `encodeObj` has no text the empty string
stands in; the scripts never dump such an object. -/
def dumps (o : Obj) : String := ⟨(encodeObj none 0 o).getD []⟩

theorem encodeObj_int {indent : Option Nat} {level : Nat} {n : Int} (hn : Fits n) :
    encodeObj indent level (.int n) = some (intRepr n) :=
  if_pos hn

example : dumps (.list [.str (ofString "a"), .none, .bool true, .dict []]) =
    "[\"a\", null, true, \x7b\x7d]" := by decide

/-! ## The strings and floats of an object -/

/-- The strings of an object, keys and values. -/
def strs : Obj → List PyStr
  | .str s => [s]
  | .list xs => strsItems xs
  | .dict kvs => strsEntries kvs
  | _ => []
where
  /-- The strings of a list's items. -/
  strsItems : List Obj → List PyStr
    | [] => []
    | x :: xs => strs x ++ strsItems xs
  /-- The strings of a dict's entries. -/
  strsEntries : List (PyStr × Obj) → List PyStr
    | [] => []
    | (k, v) :: kvs => k :: strs v ++ strsEntries kvs

/-- Whether an object holds no `float`, for which `json.dumps` is not modelled. -/
def noFloat : Obj → Bool
  | .float _ => false
  | .list xs => noFloatItems xs
  | .dict kvs => noFloatEntries kvs
  | _ => true
where
  /-- Whether no item of a list holds a `float`. -/
  noFloatItems : List Obj → Bool
    | [] => true
    | x :: xs => noFloat x && noFloatItems xs
  /-- Whether no value of a dict holds a `float`. -/
  noFloatEntries : List (PyStr × Obj) → Bool
    | [] => true
    | (_, v) :: kvs => noFloat v && noFloatEntries kvs

@[simp] theorem strs_list (xs : List Obj) : strs (.list xs) = xs.flatMap strs := by
  induction xs with
  | nil => rfl
  | cons x xs ih => exact congrArg (strs x ++ ·) ih

@[simp] theorem strs_dict (kvs : List (PyStr × Obj)) :
    strs (.dict kvs) = kvs.flatMap fun kv => kv.1 :: strs kv.2 := by
  induction kvs with
  | nil => rfl
  | cons kv kvs ih => exact congrArg (kv.1 :: strs kv.2 ++ ·) ih

@[simp] theorem noFloat_list (xs : List Obj) : noFloat (.list xs) = xs.all noFloat := by
  induction xs with
  | nil => rfl
  | cons x xs ih => exact congrArg (noFloat x && ·) ih

@[simp] theorem noFloat_dict (kvs : List (PyStr × Obj)) :
    noFloat (.dict kvs) = kvs.all fun kv => noFloat kv.2 := by
  induction kvs with
  | nil => rfl
  | cons kv kvs ih => exact congrArg (noFloat kv.2 && ·) ih

/-! ## What `json.loads` returns -/

/-- The invariant of what `json.loads` returns when it may open `budget` more containers, its
strings satisfying `S`: the keys of each dict distinct, its integers of at most `maxStrDigits`
digits, and its containers at most `budget` deep. -/
def WfOf (S : PyStr → Prop) : Nat → Obj → Prop
  | _, .none | _, .bool _ | _, .float _ => True
  | _, .int n => Fits n
  | _, .str s => S s
  | 0, .list _ | 0, .dict _ => False
  | b + 1, .list xs => ∀ x ∈ xs, WfOf S b x
  | b + 1, .dict kvs => (kvs.map Prod.fst).Nodup ∧ ∀ kv ∈ kvs, S kv.1 ∧ WfOf S b kv.2

/-- `WfOf` with `Joined` strings: what reads back from what `json.dumps` writes, and what
`json.loads` returns from a text without lone surrogates. -/
def Wf (b : Nat) (o : Obj) : Prop := WfOf Joined b o

@[simp] theorem wfOf_str {S : PyStr → Prop} {b : Nat} {s : PyStr} : WfOf S b (.str s) ↔ S s := by
  cases b <;> rfl

@[simp] theorem wfOf_int {S : PyStr → Prop} {b : Nat} {n : Int} : WfOf S b (.int n) ↔ Fits n := by
  cases b <;> rfl

@[simp] theorem wf_str {b : Nat} {s : PyStr} : Wf b (.str s) ↔ Joined s := wfOf_str

@[simp] theorem wf_int {b : Nat} {n : Int} : Wf b (.int n) ↔ Fits n := wfOf_int

/-- The strings of a `WfOf S` object satisfy `S`. -/
theorem wfOf_strs {S : PyStr → Prop} : ∀ {b : Nat} {o : Obj}, WfOf S b o → ∀ x ∈ strs o, S x
  | _, .str _, h, x, hx => by
    rw [List.mem_singleton.mp hx]
    exact wfOf_str.mp h
  | b + 1, .list xs, h, x, hx => by
    obtain ⟨y, hy, hxy⟩ := List.mem_flatMap.mp ((strs_list xs) ▸ hx)
    exact wfOf_strs (h y hy) x hxy
  | b + 1, .dict kvs, h, x, hx => by
    obtain ⟨kv, hkv, hx⟩ := List.mem_flatMap.mp ((strs_dict kvs) ▸ hx)
    rcases List.mem_cons.mp hx with rfl | hx
    · exact (h.2 kv hkv).1
    · exact wfOf_strs (h.2 kv hkv).2 x hx
  | _, .none, _, _, hx | _, .bool _, _, _, hx | _, .int _, _, _, hx | _, .float _, _, _, hx =>
    absurd hx (List.not_mem_nil _)
  | 0, .list _, h, _, _ | 0, .dict _, h, _, _ => h.elim

/-- A `WfOf S` object whose strings satisfy `S'` is `WfOf S'`. -/
theorem wfOf_of_strs {S S' : PyStr → Prop} :
    ∀ {b : Nat} {o : Obj}, WfOf S b o → (∀ x ∈ strs o, S' x) → WfOf S' b o
  | _, .str s, _, h => wfOf_str.mpr (h s (List.mem_singleton_self s))
  | b + 1, .list xs, ho, h => fun y hy => wfOf_of_strs (ho y hy) fun x hx =>
    h x ((strs_list xs) ▸ List.mem_flatMap.mpr ⟨y, hy, hx⟩)
  | b + 1, .dict kvs, ho, h => ⟨ho.1, fun kv hkv =>
    ⟨h kv.1 ((strs_dict kvs) ▸ List.mem_flatMap.mpr ⟨kv, hkv, List.mem_cons_self _ _⟩),
      wfOf_of_strs (ho.2 kv hkv).2 fun x hx =>
        h x ((strs_dict kvs) ▸ List.mem_flatMap.mpr ⟨kv, hkv, List.mem_cons_of_mem _ hx⟩)⟩⟩
  | b, .none, _, _ | b, .bool _, _, _ | b, .float _, _, _ => by cases b <;> trivial
  | _, .int _, ho, _ => wfOf_int.mpr (wfOf_int.mp ho)
  | 0, .list _, h, _ | 0, .dict _, h, _ => h.elim

/-! ## `json.dumps` writes every object without a float -/

section Total

variable {indent : Option Nat}

theorem encodeItems_isSome {level : Nat} :
    ∀ {xs : List Obj}, (∀ x ∈ xs, ∃ t, encodeObj indent level x = some t) →
      ∃ ts, encodeObj.encodeItems indent level xs = some ts
  | [], _ => ⟨_, rfl⟩
  | x :: xs, h => by
    obtain ⟨t, ht⟩ := h x (List.mem_cons_self x xs)
    obtain ⟨ts, hts⟩ := encodeItems_isSome fun y hy => h y (List.mem_cons_of_mem x hy)
    exact ⟨_, by simp only [encodeObj.encodeItems, ht, hts]; rfl⟩

theorem encodeEntries_isSome {level : Nat} :
    ∀ {kvs : List (PyStr × Obj)}, (∀ kv ∈ kvs, ∃ t, encodeObj indent level kv.2 = some t) →
      ∃ ts, encodeObj.encodeEntries indent level kvs = some ts
  | [], _ => ⟨_, rfl⟩
  | (k, v) :: kvs, h => by
    obtain ⟨t, ht⟩ := h (k, v) (List.mem_cons_self _ _)
    obtain ⟨ts, hts⟩ := encodeEntries_isSome fun kv hkv => h kv (List.mem_cons_of_mem _ hkv)
    exact ⟨_, by simp only [encodeObj.encodeEntries, ht, hts]; rfl⟩

/-- `json.dumps` writes every object `json.loads` can return that holds no float: its integers
have at most `maxStrDigits` digits. -/
theorem encodeObj_isSome {S : PyStr → Prop} :
    ∀ (b level : Nat) (o : Obj), WfOf S b o → noFloat o = true →
      ∃ t, encodeObj indent level o = some t
  | _, _, .none, _, _ | _, _, .bool _, _, _ | _, _, .str _, _, _ => ⟨_, rfl⟩
  | _, _, .list [], _, _ | _, _, .dict [], _, _ => ⟨_, rfl⟩
  | _, _, .int n, ho, _ => ⟨_, encodeObj_int (wfOf_int.mp ho)⟩
  | _, _, .float _, _, hf => absurd hf Bool.false_ne_true
  | 0, _, .list (_ :: _), ho, _ | 0, _, .dict (_ :: _), ho, _ => ho.elim
  | b + 1, level, .list (x :: xs), ho, hf => by
    rw [noFloat_list, List.all_eq_true] at hf
    have hall : ∀ y ∈ x :: xs, ∃ t, encodeObj indent (level + 1) y = some t := fun y hy =>
      encodeObj_isSome b (level + 1) y (ho y hy) (hf y hy)
    obtain ⟨t, ht⟩ := hall x (List.mem_cons_self x xs)
    obtain ⟨ts, hts⟩ := encodeItems_isSome fun y hy => hall y (List.mem_cons_of_mem x hy)
    exact ⟨_, by simp only [encodeObj, ht, hts]; rfl⟩
  | b + 1, level, .dict ((k, v) :: kvs), ho, hf => by
    rw [noFloat_dict, List.all_eq_true] at hf
    have hall : ∀ kv ∈ (k, v) :: kvs, ∃ t, encodeObj indent (level + 1) kv.2 = some t :=
      fun kv hkv => encodeObj_isSome b (level + 1) kv.2 (ho.2 kv hkv).2 (hf kv hkv)
    obtain ⟨t, ht⟩ := hall (k, v) (List.mem_cons_self _ _)
    obtain ⟨ts, hts⟩ := encodeEntries_isSome fun kv hkv => hall kv (List.mem_cons_of_mem _ hkv)
    exact ⟨_, by simp only [encodeObj, ht, hts]; rfl⟩

end Total

/-! ## The reader keeps the invariant -/

/-- Every object `value` reads from a text satisfying `Q` satisfies `P`, and the text it leaves
satisfies `Q` too. -/
def Yields (Q : PyStr → Prop) (value : PyStr → Except Raised (Obj × PyStr)) (P : Obj → Prop) :
    Prop :=
  ∀ {cs o r}, Q cs → value cs = .ok (o, r) → P o ∧ Q r

/-- A property of texts that every suffix of a text having it has. -/
def SuffixClosed (Q : PyStr → Prop) : Prop := ∀ {a b : PyStr}, a <:+ b → Q b → Q a

/-- Every string `scanString` reads from a text satisfying `Q` satisfies `S`. -/
def ReadsStrings (Q S : PyStr → Prop) : Prop :=
  ∀ {len begin fuel : Nat} {cs s r : PyStr}, Q cs → scanString len begin fuel cs = .ok (s, r) → S s

theorem map_eq_ok {ε α β : Type} {f : α → β} {x : Except ε α} {b : β} (h : x.map f = .ok b) :
    ∃ a, x = .ok a ∧ f a = b := by
  cases x with
  | error e => cases h
  | ok a => cases h; exact ⟨a, rfl, rfl⟩

theorem mem_setItem {kvs : List (PyStr × Obj)} {k : PyStr} {v : Obj} {kv : PyStr × Obj}
    (h : kv ∈ setItem kvs k v) : kv ∈ kvs ∨ kv = (k, v) := by
  unfold setItem at h
  split at h
  · obtain ⟨p, hp, rfl⟩ := List.mem_map.mp h
    split_ifs
    · exact .inr rfl
    · exact .inl hp
  · simpa using h

/-- `PyDict_SetItem` keeps the keys distinct. -/
theorem nodup_setItem {kvs : List (PyStr × Obj)} (hkvs : (kvs.map Prod.fst).Nodup) (k : PyStr)
    (v : Obj) : ((setItem kvs k v).map Prod.fst).Nodup := by
  unfold setItem
  split
  · have hfst : ∀ p : PyStr × Obj, (if p.1 = k then (k, v) else p).1 = p.1 := fun p => by
      split_ifs with h <;> simp [h]
    simpa only [List.map_map, Function.comp_def, hfst] using hkvs
  · next hk =>
    rw [List.map_append, List.nodup_append]
    refine ⟨hkvs, List.nodup_singleton k, fun a ha hb => ?_⟩
    obtain ⟨p, hp, rfl⟩ := List.mem_map.mp ha
    have hne := List.lookup_eq_none_iff.mp hk p hp
    simp_all

/-- The entries of a dict whose keys are distinct and satisfy `S` and whose values satisfy
`P`. -/
def EntriesOk (S : PyStr → Prop) (P : Obj → Prop) (kvs : List (PyStr × Obj)) : Prop :=
  (kvs.map Prod.fst).Nodup ∧ ∀ kv ∈ kvs, S kv.1 ∧ P kv.2

theorem entriesOk_nil (S : PyStr → Prop) (P : Obj → Prop) : EntriesOk S P [] :=
  ⟨List.nodup_nil, by simp⟩

theorem entriesOk_setItem {S : PyStr → Prop} {P : Obj → Prop} {kvs : List (PyStr × Obj)}
    {k : PyStr} {v : Obj} (h : EntriesOk S P kvs) (hk : S k) (hv : P v) :
    EntriesOk S P (setItem kvs k v) := by
  refine ⟨nodup_setItem h.1 k v, fun kv hkv => ?_⟩
  rcases mem_setItem hkv with hkv | rfl
  · exact h.2 kv hkv
  · exact ⟨hk, hv⟩

section Invariant

variable {len : Nat} {Q S : PyStr → Prop} {value : PyStr → Except Raised (Obj × PyStr)}
  {P : Obj → Prop}

/-- The text after whitespace and one given code point is a suffix. -/
theorem suffix_of_dropWhile {r r' : PyStr} {c : CodePoint}
    (h : r.dropWhile CodePoint.isWs = c :: r') : r' <:+ r :=
  (List.suffix_cons c r').trans (h ▸ List.dropWhile_suffix _)

/-- The array loop returns only items `value` read. -/
theorem parseItems_yields (hQ : SuffixClosed Q) (hv : Yields Q value P) :
    ∀ {fuel cs xs r}, Q cs → parseItems len value fuel cs = .ok (xs, r) → (∀ x ∈ xs, P x) ∧ Q r
  | 0, _, _, _, _, h => by cases h
  | fuel + 1, cs, xs, r, hcs, h => by
    unfold parseItems at h
    split at h
    · cases h
    · next v r₀ hvr =>
      obtain ⟨hpv, hr₀⟩ := hv hcs hvr
      split at h
      · next r' heq =>
        cases h
        exact ⟨by simpa using hpv, hQ (suffix_of_dropWhile heq) hr₀⟩
      · next r' heq =>
        obtain ⟨⟨vs, r''⟩, hrec, heq'⟩ := map_eq_ok h
        cases heq'
        obtain ⟨hvs, hr''⟩ := parseItems_yields hQ hv
          (hQ ((List.dropWhile_suffix _).trans (suffix_of_dropWhile heq)) hr₀) hrec
        refine ⟨fun x hx => ?_, hr''⟩
        rcases List.mem_cons.mp hx with rfl | hx
        · exact hpv
        · exact hvs x hx
      · cases h

/-- The object loop keeps its entries' keys distinct and read by `scanString`, and their values
read by `value`. -/
theorem parseEntries_yields (hQ : SuffixClosed Q) (hS : ReadsStrings Q S)
    (hv : Yields Q value P) :
    ∀ {fuel acc cs kvs r}, Q cs → EntriesOk S P acc →
      parseEntries len value fuel acc cs = .ok (kvs, r) → EntriesOk S P kvs ∧ Q r
  | 0, _, _, _, _, _, _, h => by cases h
  | fuel + 1, acc, cs, kvs, r, hcs, hacc, h => by
    unfold parseEntries at h
    split at h
    · next r₁ =>
      have hr₁ : Q r₁ := hQ (List.suffix_cons _ _) hcs
      split at h
      · cases h
      · next k r₂ hk =>
        have hr₂ : Q r₂ := hQ (scanString_suffix hk) hr₁
        split at h
        · next r₃ heq₃ =>
          have hr₃ : Q (r₃.dropWhile CodePoint.isWs) :=
            hQ ((List.dropWhile_suffix _).trans (suffix_of_dropWhile heq₃)) hr₂
          split at h
          · cases h
          · next v r₄ hvr =>
            obtain ⟨hpv, hr₄⟩ := hv hr₃ hvr
            have hset := entriesOk_setItem hacc (hS hr₁ hk) hpv
            split at h
            · next r' heq =>
              cases h
              exact ⟨hset, hQ (suffix_of_dropWhile heq) hr₄⟩
            · next r' heq =>
              exact parseEntries_yields hQ hS hv
                (hQ ((List.dropWhile_suffix _).trans (suffix_of_dropWhile heq)) hr₄) hset h
            · cases h
        · cases h
    · cases h

theorem parseArray_yields (hQ : SuffixClosed Q) (hv : Yields Q value P) :
    Yields Q (parseArray len value) fun o => ∃ xs, o = .list xs ∧ ∀ x ∈ xs, P x := by
  intro cs o r hcs h
  have hdrop : Q (cs.dropWhile CodePoint.isWs) := hQ (List.dropWhile_suffix _) hcs
  unfold parseArray at h
  split at h
  · next r' heq =>
    cases h
    exact ⟨⟨[], rfl, by simp⟩, hQ (suffix_of_dropWhile heq) hcs⟩
  · next r' _ =>
    obtain ⟨⟨xs, r''⟩, hxs, heq⟩ := map_eq_ok h
    cases heq
    obtain ⟨hall, hr⟩ := parseItems_yields hQ hv hdrop hxs
    exact ⟨⟨xs, rfl, hall⟩, hr⟩

theorem parseObject_yields (hQ : SuffixClosed Q) (hS : ReadsStrings Q S) (hv : Yields Q value P) :
    Yields Q (parseObject len value) fun o => ∃ kvs, o = .dict kvs ∧ EntriesOk S P kvs := by
  intro cs o r hcs h
  have hdrop : Q (cs.dropWhile CodePoint.isWs) := hQ (List.dropWhile_suffix _) hcs
  unfold parseObject at h
  split at h
  · next r' heq =>
    cases h
    exact ⟨⟨[], rfl, entriesOk_nil S P⟩, hQ (suffix_of_dropWhile heq) hcs⟩
  · next r' _ =>
    obtain ⟨⟨kvs, r''⟩, hkvs, heq⟩ := map_eq_ok h
    cases heq
    obtain ⟨hok, hr⟩ := parseEntries_yields hQ hS hv hdrop (entriesOk_nil S P) hkvs
    exact ⟨⟨kvs, rfl, hok⟩, hr⟩

theorem scanNumber_wf (hQ : SuffixClosed Q) (b : Nat) : Yields Q (scanNumber len) (WfOf S b) := by
  intro cs o r hcs h
  refine ⟨?_, hQ (scanNumber_suffix h) hcs⟩
  unfold scanNumber at h
  split at h
  · cases h
  · cases h
    cases b <;> trivial
  · split at h
    · next n hn =>
      cases h
      exact wfOf_int.mpr (longFromString_fits hn)
    · cases h

/-- `scan_once_unicode` reads `WfOf S` objects when what it reads inside a container is `WfOf S`
one level down. -/
theorem scanValue_wf (hQ : SuffixClosed Q) (hS : ReadsStrings Q S)
    {inner : Option (PyStr → Except Raised (Obj × PyStr))} {b : Nat}
    (hinner : ∀ value, inner = some value → ∃ b', b = b' + 1 ∧ Yields Q value (WfOf S b')) :
    Yields Q (scanValue len inner) (WfOf S b) := by
  intro cs o r hcs h
  cases cs with
  | nil => cases h
  | cons c cs =>
    have hlit : ∀ n, Q (cs.drop n) := fun n =>
      hQ ((List.drop_suffix n cs).trans (List.suffix_cons c cs)) hcs
    simp only [scanValue] at h
    rcases ite_eq_iff.mp h with ⟨-, h⟩ | ⟨-, h⟩
    · obtain ⟨⟨s, r'⟩, hs, heq⟩ := map_eq_ok h
      cases heq
      exact ⟨wfOf_str.mpr (hS (hQ (List.suffix_cons c cs) hcs) hs),
        hQ ((scanString_suffix hs).trans (List.suffix_cons c cs)) hcs⟩
    rcases ite_eq_iff.mp h with ⟨-, h⟩ | ⟨-, h⟩
    · cases inner with
      | none => cases h
      | some value =>
        obtain ⟨b', rfl, hv⟩ := hinner value rfl
        obtain ⟨⟨kvs, rfl, hkvs⟩, hr⟩ :=
          parseObject_yields hQ hS hv (hQ (List.suffix_cons c cs) hcs) h
        exact ⟨hkvs, hr⟩
    rcases ite_eq_iff.mp h with ⟨-, h⟩ | ⟨-, h⟩
    · cases inner with
      | none => cases h
      | some value =>
        obtain ⟨b', rfl, hv⟩ := hinner value rfl
        obtain ⟨⟨xs, rfl, hxs⟩, hr⟩ := parseArray_yields hQ hv (hQ (List.suffix_cons c cs) hcs) h
        exact ⟨hxs, hr⟩
    repeat (rcases ite_eq_iff.mp h with ⟨-, h⟩ | ⟨-, h⟩
            · cases h
              exact ⟨by cases b <;> trivial, hlit _⟩)
    exact scanNumber_wf hQ b hcs h

theorem scanOnce_wf (hQ : SuffixClosed Q) (hS : ReadsStrings Q S) :
    ∀ budget, Yields Q (scanOnce len budget) (WfOf S budget)
  | 0 => scanValue_wf hQ hS fun _ h => by cases h
  | b + 1 => scanValue_wf hQ hS fun _ h => by
    cases h
    exact ⟨b, rfl, scanOnce_wf hQ hS b⟩

/-- `json.loads` of a text satisfying `Q` returns a `WfOf S` object, for the budget it was read
with. -/
theorem loads_wfOf (hQ : SuffixClosed Q) (hS : ReadsStrings Q S) {budget : Nat} {s : PyStr}
    {o : Obj} (hs : Q s) (h : loads budget s = .ok o) : WfOf S budget o := by
  unfold loads at h
  split_ifs at h
  split at h
  · cases h
  · next v r hv =>
    split at h
    · cases h
      exact (scanOnce_wf hQ hS budget (hQ (List.dropWhile_suffix _) hs) hv).1
    · cases h

end Invariant

/-- Every object `json.loads` returns, whatever the text, has distinct keys in each dict,
integers of at most `maxStrDigits` digits, and containers at most `budget` deep. -/
theorem loads_wf {budget : Nat} {s : PyStr} {o : Obj} (h : loads budget s = .ok o) :
    WfOf (fun _ => True) budget o :=
  loads_wfOf (Q := fun _ => True) (fun _ _ => trivial) (fun _ _ => trivial) trivial h

/-- From a text without lone surrogates, such as every text `json.dumps` writes, `json.loads`
returns only `Wf` objects: their strings are also `Joined`. -/
theorem loads_joined {budget : Nat} {s : PyStr} {o : Obj} (hs : NoSurrogate s)
    (h : loads budget s = .ok o) : Wf budget o :=
  loads_wfOf (fun hab hb => hb.suffix hab) (fun hcs h => scanString_joined hcs h) hs h

/-! ## Reading back what was written -/

section ReadBack

variable {len : Nat}

theorem readsAs_none (budget : Nat) : ReadsAs (scanOnce len budget) "null".data .none :=
  ⟨⟨'n', _, rfl, rfl, by decide, by decide⟩, fun r _ => by
    cases budget <;> simp [scanOnce, scanValue, ofString]⟩

theorem readsAs_bool (budget : Nat) (b : Bool) :
    ReadsAs (scanOnce len budget) (if b then "true" else "false").data (.bool b) := by
  cases b
  · exact ⟨⟨'f', _, rfl, rfl, by decide, by decide⟩, fun r _ => by
      cases budget <;> simp [scanOnce, scanValue, ofString]⟩
  · exact ⟨⟨'t', _, rfl, rfl, by decide, by decide⟩, fun r _ => by
      cases budget <;> simp [scanOnce, scanValue, ofString]⟩

/-- The items after the first, as `json.dumps` writes them, are read back one by one. -/
theorem encodeItems_readsAs {value : PyStr → Except Raised (Obj × PyStr)}
    {indent : Option Nat} {level : Nat} {sep : List Char}
    (hsep : itemSep indent level = ',' :: sep) :
    ∀ {xs : List Obj} {ts : List Char},
      (∀ x ∈ xs, ∀ t, encodeObj indent level x = some t → ReadsAs value t x) →
      encodeObj.encodeItems indent level xs = some ts →
      ∃ items : List (List Char × Obj), items.map Prod.snd = xs ∧
        ts = writeItems sep (items.map Prod.fst) ∧ ∀ p ∈ items, ReadsAs value p.1 p.2
  | [], ts, _, h => by
    cases h
    exact ⟨[], rfl, rfl, by simp⟩
  | x :: xs, ts, hxs, h => by
    simp only [encodeObj.encodeItems, Option.bind_eq_bind, Option.bind_eq_some,
      Option.pure_def, Option.some.injEq] at h
    obtain ⟨t, ht, ts', hts', rfl⟩ := h
    obtain ⟨items, hsnd, rfl, hitems⟩ :=
      encodeItems_readsAs hsep (fun y hy => hxs y (List.mem_cons_of_mem x hy)) hts'
    refine ⟨(t, x) :: items, by simp [hsnd], by simp [hsep, writeItems], fun p hp => ?_⟩
    rcases List.mem_cons.mp hp with rfl | hp
    · exact hxs x (List.mem_cons_self x xs) t ht
    · exact hitems p hp

/-- The entries after the first, as `json.dumps` writes them, are read back one by one. -/
theorem encodeEntries_readsAs {value : PyStr → Except Raised (Obj × PyStr)}
    {indent : Option Nat} {level : Nat} {sep : List Char}
    (hsep : itemSep indent level = ',' :: sep) :
    ∀ {kvs : List (PyStr × Obj)} {ts : List Char},
      (∀ kv ∈ kvs, ∀ t, encodeObj indent level kv.2 = some t → ReadsAs value t kv.2) →
      encodeObj.encodeEntries indent level kvs = some ts →
      ∃ entries : List (PyStr × List Char × Obj), (entries.map fun e => (e.1, e.2.2)) = kvs ∧
        ts = writeEntries sep (entries.map fun e => (e.1, e.2.1)) ∧
        ∀ e ∈ entries, ReadsAs value e.2.1 e.2.2
  | [], ts, _, h => by
    cases h
    exact ⟨[], rfl, rfl, by simp⟩
  | (k, v) :: kvs, ts, hkvs, h => by
    simp only [encodeObj.encodeEntries, Option.bind_eq_bind, Option.bind_eq_some,
      Option.pure_def, Option.some.injEq] at h
    obtain ⟨t, ht, ts', hts', rfl⟩ := h
    obtain ⟨entries, hkv, rfl, hentries⟩ :=
      encodeEntries_readsAs hsep (fun kv hkv => hkvs kv (List.mem_cons_of_mem _ hkv)) hts'
    refine ⟨(k, t, v) :: entries, by simp [hkv], by simp [hsep, writeEntries], fun e he => ?_⟩
    rcases List.mem_cons.mp he with rfl | he
    · exact hkvs (k, v) (List.mem_cons_self _ _) t ht
    · exact hentries e he

/-- What `json.dumps` writes of a `Wf` object, `json.loads` reads back as it, with any indent and
whatever follows that does not extend a number. -/
theorem readsAs_encodeObj (indent : Option Nat) :
    ∀ (budget level : Nat) (o : Obj) {t : List Char}, Wf budget o →
      encodeObj indent level o = some t → ReadsAs (scanOnce len budget) t o
  | budget, _, .none, _, _, h => by cases h; exact readsAs_none budget
  | budget, _, .bool b, _, _, h => by cases h; exact readsAs_bool budget b
  | budget, _, .int n, _, hn, h => by
    rw [encodeObj_int (wf_int.mp hn)] at h
    cases h
    exact readsAs_int budget (wf_int.mp hn)
  | _, _, .float _, _, _, h => by cases h
  | budget, _, .str s, _, hs, h => by cases h; exact readsAs_str budget (wf_str.mp hs)
  | 0, _, .list _, _, ho, _ => ho.elim
  | 0, _, .dict _, _, ho, _ => ho.elim
  | b + 1, _, .list [], _, _, h => by cases h; exact readsAs_nil b
  | b + 1, _, .dict [], _, _, h => by cases h; exact readsAs_empty b
  | b + 1, level, .list (x :: xs), _, ho, h => by
    simp only [encodeObj, Option.bind_eq_bind, Option.bind_eq_some, Option.pure_def,
      Option.some.injEq] at h
    obtain ⟨t, ht, ts, hts, rfl⟩ := h
    obtain ⟨sep, hsep, hws⟩ := itemSep_eq indent (level + 1)
    obtain ⟨items, rfl, rfl, hitems⟩ := encodeItems_readsAs hsep
      (fun y hy t' ht' => readsAs_encodeObj indent b (level + 1) y
        (ho y (List.mem_cons_of_mem x hy)) ht') hts
    have := readsAs_list b (allWs_newline indent (level + 1)) (allWs_newline indent level) hws
      items (readsAs_encodeObj indent b (level + 1) x (ho x (List.mem_cons_self _ _)) ht) hitems
    simpa only [List.cons_append, List.append_assoc] using this
  | b + 1, level, .dict ((k, v) :: kvs), _, ho, h => by
    simp only [encodeObj, Option.bind_eq_bind, Option.bind_eq_some, Option.pure_def,
      Option.some.injEq] at h
    obtain ⟨t, ht, ts, hts, rfl⟩ := h
    obtain ⟨sep, hsep, hws⟩ := itemSep_eq indent (level + 1)
    obtain ⟨hnodup, hkvs⟩ := ho
    obtain ⟨entries, hkv, rfl, hentries⟩ := encodeEntries_readsAs hsep
      (fun kv hkv t' ht' => readsAs_encodeObj indent b (level + 1) kv.2
        (hkvs kv (List.mem_cons_of_mem _ hkv)).2 ht') hts
    subst hkv
    have hkeys : (entries.map fun e => (e.1, e.2.2)).map Prod.fst = entries.map Prod.fst := by
      simp [Function.comp_def]
    have := readsAs_dict b (allWs_newline indent (level + 1)) (allWs_newline indent level) hws
      entries (hkvs (k, v) (List.mem_cons_self _ _)).1
      (readsAs_encodeObj indent b (level + 1) v (hkvs (k, v) (List.mem_cons_self _ _)).2 ht)
      (fun e he => ⟨(hkvs (e.1, e.2.2) (List.mem_cons_of_mem _ (List.mem_map_of_mem _ he))).1,
        hentries e he⟩)
      (by simpa only [List.map_cons, hkeys] using hnodup)
    simpa only [List.cons_append, List.append_assoc] using this

end ReadBack

/-- `json.dumps` writes ASCII, so never a byte order mark first. -/
theorem encodeObj_head {indent : Option Nat} {level : Nat} {o : Obj} {t : List Char}
    (h : encodeObj indent level o = some t) : t.head? ≠ some '\uFEFF' := by
  cases o with
  | none => cases h; decide
  | bool b => cases h; cases b <;> decide
  | int n =>
    rw [encodeObj] at h
    split_ifs at h
    cases h
    obtain ⟨c, cs, hc, hd⟩ := intRepr_head n
    rw [hc, List.head?_cons, ne_eq, Option.some.injEq]
    rintro rfl
    rcases hd with hd | hd <;> revert hd <;> decide
  | float => cases h
  | str s => cases h; simp [encodeStr]
  | list xs =>
    cases xs with
    | nil => cases h; decide
    | cons x xs =>
      simp only [encodeObj, Option.bind_eq_bind, Option.bind_eq_some, Option.pure_def,
        Option.some.injEq] at h
      obtain ⟨_, _, _, _, rfl⟩ := h
      simp
  | dict kvs =>
    cases kvs with
    | nil => cases h; decide
    | cons kv kvs =>
      simp only [encodeObj, Option.bind_eq_bind, Option.bind_eq_some, Option.pure_def,
        Option.some.injEq] at h
      obtain ⟨_, _, _, _, rfl⟩ := h
      simp

/-- `json.loads` reads back what `json.dumps` writes of a `Wf` object, with any indent. -/
theorem loads_encodeObj {budget : Nat} {o : Obj} (ho : Wf budget o) {indent : Option Nat}
    {t : List Char} (h : encodeObj indent 0 o = some t) : loads budget (ofChars t) = .ok o :=
  loads_of_readsAs (encodeObj_head h) (readsAs_encodeObj indent budget 0 o ho h)

/-- Writing what `json.loads` returned from any `str` and reading it again: `json.dumps` writes
it when it holds no float, and `json.loads` reads that back as the same object exactly when
every string of the object, key or value, is `Joined`. A high surrogate read right before a low
one (a `\uXXXX` escape of a high surrogate before a lone low surrogate that `input()` made of an
undecodable byte) is written as two escapes, which `json.loads` joins into one code point. -/
theorem loads_dumps_loads {budget : Nat} {s : PyStr} {o : Obj} (h : loads budget s = .ok o)
    (hf : noFloat o = true) (indent : Option Nat) :
    ∃ t, encodeObj indent 0 o = some t ∧
      (loads budget (ofChars t) = .ok o ↔ ∀ x ∈ strs o, Joined x) := by
  have hwf := loads_wf h
  obtain ⟨t, ht⟩ := encodeObj_isSome budget 0 o hwf hf
  exact ⟨t, ht, fun hback => wfOf_strs (loads_joined (noSurrogate_ofChars t) hback),
    fun hj => loads_encodeObj (wfOf_of_strs hwf hj) ht⟩

/-- The answer `input()` returns for the bytes of `["\ud800`, the byte `0x80`, which is not
UTF-8, and `"]`: the escape of a high surrogate right before a lone low surrogate. -/
def surrogateescapeAnswer : PyStr :=
  ofString "[\"\\ud800" ++ [.surrogate 0xdc80 ⟨by decide, by decide⟩] ++ ofString "\"]"

theorem loads_dumps_loads_surrogateescape : ∃ o t, loads 1 surrogateescapeAnswer = .ok o ∧
    encodeObj none 0 o = some t ∧ loads 1 (ofChars t) ≠ .ok o := by
  obtain ⟨t, ht, hiff⟩ := @loads_dumps_loads 1 surrogateescapeAnswer
    (.list [.str [.surrogate 0xd800 ⟨by decide, by decide⟩,
      .surrogate 0xdc80 ⟨by decide, by decide⟩]]) rfl rfl none
  exact ⟨_, t, rfl, ht, fun hback =>
    List.chain'_pair.mp (hiff.mp hback _ (List.mem_singleton_self _)) ⟨rfl, rfl⟩⟩

/-! ## The provisioning scripts' values -/

/-- A value of `Json.Value` as the Python object it stands for. -/
def toObj : Value → Obj
  | .str s => .str (ofString s)
  | .int n => .int n
  | .list xs => .list (toObjs xs)
  | .dict kvs => .dict (toEntries kvs)
where
  /-- The items of a list. -/
  toObjs : List Value → List Obj
    | [] => []
    | x :: xs => toObj x :: toObjs xs
  /-- The entries of a dict. -/
  toEntries : List (String × Value) → List (PyStr × Obj)
    | [] => []
    | (k, v) :: kvs => (ofString k, toObj v) :: toEntries kvs

theorem encodeStr_ofString (s : String) : encodeStr (ofString s) = encodeString s := by
  simp [encodeStr, encodeString, ofString, ofChars, List.flatMap_map, Function.comp_def, escapeCode]

/-- `Json.encode` is `json.dumps` on the objects the values stand for, where their integers
have at most `maxStrDigits` digits. -/
theorem encodeObj_toObj (indent : Option Nat) :
    ∀ {b : Nat} (level : Nat) (v : Value), Wf b (toObj v) →
      encodeObj indent level (toObj v) = some (encode indent level v)
  | _, _, .str s, _ => by simp [toObj, encodeObj, encode, encodeStr_ofString]
  | _, _, .int n, hv => encodeObj_int (wf_int.mp hv)
  | _, _, .list [], _ => rfl
  | _, _, .dict [], _ => rfl
  | 0, _, .list (_ :: _), hv => hv.elim
  | 0, _, .dict (_ :: _), hv => hv.elim
  | b + 1, level, .list (x :: xs), hv => by
    have hx := hv (toObj x) (List.mem_cons_self _ _)
    simp [toObj, toObj.toObjs, encodeObj, encode, encodeObj_toObj indent (level + 1) x hx,
      items (level + 1) xs fun y hy => hv y (List.mem_cons_of_mem _ hy)]
  | b + 1, level, .dict ((k, v) :: kvs), hv => by
    have hkv := (hv.2 (ofString k, toObj v) (List.mem_cons_self _ _)).2
    simp [toObj, toObj.toEntries, encodeObj, encode, encodeObj_toObj indent (level + 1) v hkv,
      entries (level + 1) kvs fun kv hkv => (hv.2 kv (List.mem_cons_of_mem _ hkv)).2,
      encodeStr_ofString]
where
  items {b : Nat} (level : Nat) : ∀ xs : List Value, (∀ y ∈ toObj.toObjs xs, Wf b y) →
      encodeObj.encodeItems indent level (toObj.toObjs xs) =
        some (encode.encodeItems indent level xs)
    | [], _ => rfl
    | x :: xs, h => by
      simp [toObj.toObjs, encodeObj.encodeItems, encode.encodeItems,
        encodeObj_toObj indent level x (h _ (List.mem_cons_self _ _)),
        items level xs fun y hy => h y (List.mem_cons_of_mem _ hy)]
  entries {b : Nat} (level : Nat) : ∀ kvs : List (String × Value),
      (∀ kv ∈ toObj.toEntries kvs, Wf b kv.2) →
      encodeObj.encodeEntries indent level (toObj.toEntries kvs) =
        some (encode.encodeEntries indent level kvs)
    | [], _ => rfl
    | (k, v) :: kvs, h => by
      simp [toObj.toEntries, encodeObj.encodeEntries, encode.encodeEntries,
        encodeObj_toObj indent level v (h _ (List.mem_cons_self _ _)),
        entries level kvs fun kv hkv => h kv (List.mem_cons_of_mem _ hkv), encodeStr_ofString]

/-- CPython's `json.loads` reads back what `json.dump` writes of a value whose dicts have distinct
keys, whose integers have at most `maxStrDigits` digits, and which nests no deeper than the
reader may go. -/
theorem loads_json_dumps {budget : Nat} {v : Value} (hv : Wf budget (toObj v))
    (indent : Option Nat) : Loads.loads budget (Json.dumps indent v) = .ok (toObj v) :=
  loads_encodeObj hv (encodeObj_toObj indent 0 v hv)

theorem loads_json_dumps_secrets :
    Loads.loads 1 (Json.dumps (some 4) (.dict [("fake", .str "real")])) =
      .ok (toObj (.dict [("fake", .str "real")])) :=
  @loads_json_dumps 1 (.dict [("fake", .str "real")])
    (by simp [Wf, WfOf, toObj, toObj.toEntries, joined_ofString]) (some 4)

end AntiRaid.Python.Dumps
