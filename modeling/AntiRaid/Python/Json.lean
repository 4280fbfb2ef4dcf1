import Mathlib.Data.Nat.Digits
import AntiRaid.Python.Base64

/-!
# `json.dump` and its reader

The provisioning scripts write the secrets mapping and the storage identity document with
`json.dump(obj, f, indent=4)`, and the backup migration stores `json.dumps(obj)` in a table.
This module encodes values as CPython's pure-Python encoder does (`ensure_ascii`, the default
separators), gives a reader for the JSON those calls produce, and proves that reading what was
written gives back the value, for both layouts.
-/

namespace AntiRaid.Python.Json

/-- The values the scripts pass to `json.dump`: strings, integers, lists, and dicts given by
their items in insertion order. -/
inductive Value where
  | str (s : String)
  | int (n : Int)
  | list (xs : List Value)
  | dict (kvs : List (String × Value))
deriving Repr

/-! ## Encoding -/

/-- The digit of `'{0:04x}'.format(n)` for one nibble. -/
def hexDigit (d : Nat) : Char := "0123456789abcdef".data.getD d '0'

/-- `'{0:04x}'.format(n)` for `n < 0x10000`. -/
def hex4 (n : Nat) : List Char :=
  [hexDigit (n / 4096 % 16), hexDigit (n / 256 % 16), hexDigit (n / 16 % 16), hexDigit (n % 16)]

/-- `ESCAPE_DCT`'s named entries: the backslash, the quote and five controls, each with the
letter written after a backslash. -/
def escapeDct : List (Char × Char) :=
  [('\\', '\\'), ('"', '"'), ('\x08', 'b'), ('\x0c', 'f'), ('\n', 'n'), ('\r', 'r'), ('\t', 't')]

/-- `py_encode_basestring_ascii` on one character: a named escape from `escapeDct`, the
character itself inside `' '`–`'~'`, and `\uXXXX` otherwise, as a surrogate pair above
`0xFFFF`. -/
def escapeChar (c : Char) : List Char :=
  match escapeDct.lookup c with
  | some e => ['\\', e]
  | none =>
    if ' ' ≤ c ∧ c ≤ '~' then [c]
    else if c.toNat < 0x10000 then '\\' :: 'u' :: hex4 c.toNat
    else
      let n := c.toNat - 0x10000
      '\\' :: 'u' :: hex4 (0xd800 ||| ((n >>> 10) &&& 0x3ff)) ++
        '\\' :: 'u' :: hex4 (0xdc00 ||| (n &&& 0x3ff))

/-- A string literal: the escaped characters between quotes. -/
def encodeString (s : String) : List Char :=
  '"' :: s.data.flatMap escapeChar ++ ['"']

/-- `int.__repr__` of a natural number. -/
def natRepr (n : Nat) : List Char :=
  if n = 0 then ['0'] else ((Nat.digits 10 n).reverse.map fun d => Char.ofNat (48 + d))

/-- `int.__repr__`. -/
def intRepr (n : Int) : List Char :=
  (if n < 0 then ['-'] else []) ++ natRepr n.natAbs

/-- What `_make_iterencode` writes before an item at `level`: a line break and
`indent * level` spaces, or nothing when `indent` is `None`. -/
def newline : Option Nat → Nat → List Char
  | none, _ => []
  | some k, level => '\n' :: List.replicate (k * level) ' '

/-- The item separator: `', '` without an indent, `','` and a fresh line with one. -/
def itemSep (indent : Option Nat) (level : Nat) : List Char :=
  match indent with
  | none => [',', ' ']
  | some _ => ',' :: newline indent level

/-- `json.dumps(v, indent=indent)` for a value at nesting `level`, as `_make_iterencode`
writes it: `[]` and `{}` for empty containers, items on fresh lines when indenting, and `': '`
between a key and its value. -/
def encode (indent : Option Nat) (level : Nat) : Value → List Char
  | .str s => encodeString s
  | .int n => intRepr n
  | .list [] => ['[', ']']
  | .list (x :: xs) =>
    '[' :: newline indent (level + 1) ++ encode indent (level + 1) x ++
      encodeItems (level + 1) xs ++ newline indent level ++ [']']
  | .dict [] => ['{', '}']
  | .dict ((k, v) :: kvs) =>
    '{' :: newline indent (level + 1) ++ encodeString k ++ [':', ' '] ++
      encode indent (level + 1) v ++ encodeEntries (level + 1) kvs ++ newline indent level ++
      ['}']
where
  /-- The items after the first, each behind a separator. -/
  encodeItems (level : Nat) : List Value → List Char
    | [] => []
    | x :: xs => itemSep indent level ++ encode indent level x ++ encodeItems level xs
  /-- The entries after the first, each behind a separator. -/
  encodeEntries (level : Nat) : List (String × Value) → List Char
    | [] => []
    | (k, v) :: kvs =>
      itemSep indent level ++ encodeString k ++ [':', ' '] ++ encode indent level v ++
        encodeEntries level kvs

/-- `json.dumps(v, indent=indent)`. -/
def dumps (indent : Option Nat) (v : Value) : String := ⟨encode indent 0 v⟩

example : dumps (some 4) (.dict [("k", .str "v")]) = "\x7b\n    \"k\": \"v\"\n\x7d" := by decide

example : dumps none (.dict [("a", .int 0), ("b", .list [])]) = "\x7b\"a\": 0, \"b\": []\x7d" := by
  decide

/-! ## Reading -/

/-- JSON whitespace. -/
def isWs (c : Char) : Bool := c = ' ' || c = '\t' || c = '\n' || c = '\r'

/-- The value of one hexadecimal digit, either case. -/
def hexVal (c : Char) : Option Nat :=
  if '0' ≤ c ∧ c ≤ '9' then some (c.toNat - 48)
  else if 'a' ≤ c ∧ c ≤ 'f' then some (c.toNat - 87)
  else if 'A' ≤ c ∧ c ≤ 'F' then some (c.toNat - 55)
  else none

/-- The code unit of four hexadecimal digits. -/
def hexValue (a b c d : Char) : Option Nat := do
  let a ← hexVal a
  let b ← hexVal b
  let c ← hexVal c
  let d ← hexVal d
  pure (((a * 16 + b) * 16 + c) * 16 + d)

/-- A code unit that starts a surrogate pair. -/
def isHigh (n : Nat) : Bool := 0xd800 ≤ n && n ≤ 0xdbff

/-- A code unit that ends a surrogate pair. -/
def isLow (n : Nat) : Bool := 0xdc00 ≤ n && n ≤ 0xdfff

/-- The decoder's `BACKSLASH` table: the character each one-letter escape stands for. -/
def backslash : List (Char × Char) :=
  [('"', '"'), ('\\', '\\'), ('/', '/'), ('b', '\x08'), ('f', '\x0c'), ('n', '\n'), ('r', '\r'),
    ('t', '\t')]

/-- A `\uXXXX` escape after its `u`: a high surrogate must be followed by `\u` and a low one,
and a lone surrogate is rejected. -/
def unicodeEscape : List Char → Option (Char × List Char)
  | a :: b :: c :: d :: r =>
    match hexValue a b c d with
    | none => none
    | some hi =>
      if isHigh hi then
        match r with
        | x :: y :: e :: f :: g :: h :: r' =>
          if x = '\\' ∧ y = 'u' then
            match hexValue e f g h with
            | some lo =>
              if isLow lo then
                some (Char.ofNat (0x10000 + (((hi - 0xd800) <<< 10) ||| (lo - 0xdc00))), r')
              else none
            | none => none
          else none
        | _ => none
      else if isLow hi then none
      else some (Char.ofNat hi, r)
  | _ => none

/-- One escape after its backslash: the character and what follows it. -/
def unescape : List Char → Option (Char × List Char)
  | [] => none
  | e :: r => if e = 'u' then unicodeEscape r else (backslash.lookup e).map (·, r)

/-- Puts a decoded character in front of the rest of a string body. -/
def push (c : Char) : Option (List Char × List Char) → Option (List Char × List Char)
  | some (s, r) => some (c :: s, r)
  | none => none

/-- The body of a string literal after its opening quote: its characters and what follows the
closing quote. A bad escape or a raw control character is rejected; `fuel` bounds the number of
characters read. -/
def decodeString : Nat → List Char → Option (List Char × List Char)
  | 0, _ => none
  | _ + 1, [] => none
  | fuel + 1, c :: r =>
    if c = '"' then some ([], r)
    else if c = '\\' then (unescape r).bind fun (d, r') => push d (decodeString fuel r')
    else if c.toNat < 0x20 then none
    else push c (decodeString fuel r)

/-- The value of a run of decimal digits. -/
def digitsValue (ds : List Char) : Nat :=
  ds.foldl (fun acc d => 10 * acc + (d.toNat - 48)) 0

/-- A natural number in JSON: a lone `0`, or a run of digits not starting with `0`. -/
def decodeNat : List Char → Option (Nat × List Char)
  | [] => none
  | c :: r =>
    if c = '0' then some (0, r)
    else if c.isDigit then
      some (digitsValue ((c :: r).takeWhile Char.isDigit), (c :: r).dropWhile Char.isDigit)
    else none

/-- A JSON integer: `-?(0|[1-9][0-9]*)`. -/
def decodeInt : List Char → Option (Value × List Char)
  | [] => none
  | c :: r =>
    if c = '-' then (decodeNat r).map fun (n, r') => (.int (-n), r')
    else (decodeNat (c :: r)).map fun (n, r') => (.int n, r')

/-- The items of an array after `[`, read with `value`; `fuel` bounds their number. -/
def decodeItems (value : List Char → Option (Value × List Char)) :
    Nat → List Char → Option (List Value × List Char)
  | 0, _ => none
  | fuel + 1, cs =>
    match value cs with
    | none => none
    | some (v, r) =>
      match r.dropWhile isWs with
      | ',' :: r' => (decodeItems value fuel r').map fun (vs, r'') => (v :: vs, r'')
      | ']' :: r' => some ([v], r')
      | _ => none

/-- The entries of an object after `{`, read with `value`; `fuel` bounds their number. -/
def decodeEntries (value : List Char → Option (Value × List Char)) :
    Nat → List Char → Option (List (String × Value) × List Char)
  | 0, _ => none
  | fuel + 1, cs =>
    match cs.dropWhile isWs with
    | '"' :: r =>
      match decodeString r.length r with
      | none => none
      | some (k, r) =>
        match r.dropWhile isWs with
        | ':' :: r =>
          match value r with
          | none => none
          | some (v, r) =>
            match r.dropWhile isWs with
            | ',' :: r' =>
              (decodeEntries value fuel r').map fun (kvs, r'') => ((⟨k⟩, v) :: kvs, r'')
            | '}' :: r' => some ([(⟨k⟩, v)], r')
            | _ => none
        | _ => none
    | _ => none

/-- One value after optional whitespace; `fuel` bounds the nesting. -/
def decodeValue : Nat → List Char → Option (Value × List Char)
  | 0, _ => none
  | fuel + 1, cs =>
    match cs.dropWhile isWs with
    | [] => none
    | c :: r =>
      if c = '"' then (decodeString r.length r).map fun (s, r) => (.str ⟨s⟩, r)
      else if c = '[' then
        match r.dropWhile isWs with
        | ']' :: r' => some (.list [], r')
        | _ => (decodeItems (decodeValue fuel) (r.length + 1) r).map fun (xs, r') => (.list xs, r')
      else if c = '{' then
        match r.dropWhile isWs with
        | '}' :: r' => some (.dict [], r')
        | _ =>
          (decodeEntries (decodeValue fuel) (r.length + 1) r).map fun (kvs, r') =>
            (.dict kvs, r')
      else decodeInt (c :: r)

/-- `json.loads`: one value and nothing but whitespace after it. -/
def loads (s : String) : Option Value :=
  match decodeValue (s.length + 1) s.data with
  | some (v, r) => if r.all isWs then some v else none
  | none => none

/-! ## Reading back what was written: strings -/

theorem hexVal_hexDigit : ∀ d, d < 16 → hexVal (hexDigit d) = some d := by decide

theorem hexValue_hex4 {n : Nat} (hn : n < 0x10000) :
    hexValue (hexDigit (n / 4096 % 16)) (hexDigit (n / 256 % 16)) (hexDigit (n / 16 % 16))
      (hexDigit (n % 16)) = some n := by
  simp only [hexValue, hexVal_hexDigit _ (Nat.mod_lt _ (by norm_num)), Option.pure_def,
    Option.bind_eq_bind, Option.some_bind, Option.some.injEq]
  omega

theorem or_eq_add {a x : Nat} (hx : x < 1024) : 1024 * a ||| x = 1024 * a + x :=
  (Nat.mul_add_lt_is_or (i := 10) hx a).symm

theorem high_surrogate {m : Nat} (hm : m < 0x100000) :
    0xd800 ||| ((m >>> 10) &&& 0x3ff) = 0xd800 + m / 1024 := by
  have h : (m >>> 10) &&& 0x3ff = m / 1024 := by
    rw [Nat.shiftRight_eq_div_pow, show 0x3ff = 2 ^ 10 - 1 from rfl,
      Nat.and_pow_two_sub_one_eq_mod]
    omega
  rw [h, show 0xd800 = 1024 * 54 from rfl, or_eq_add (by omega)]

theorem low_surrogate (m : Nat) : 0xdc00 ||| (m &&& 0x3ff) = 0xdc00 + m % 1024 := by
  rw [show 0x3ff = 2 ^ 10 - 1 from rfl, Nat.and_pow_two_sub_one_eq_mod,
    show 0xdc00 = 1024 * 55 from rfl, or_eq_add (by omega)]

theorem combine_surrogates (m : Nat) : ((m / 1024) <<< 10) ||| (m % 1024) = m := by
  rw [Nat.shiftLeft_eq, Nat.mul_comm, show 2 ^ 10 = 1024 from rfl, or_eq_add (by omega)]
  omega

theorem decodeString_backslash (fuel : Nat) (r : List Char) :
    decodeString (fuel + 1) ('\\' :: r) =
      (unescape r).bind fun (d, r') => push d (decodeString fuel r') := by
  rw [decodeString, if_neg (by decide), if_pos rfl]

theorem decodeString_cons {c : Char} (fuel : Nat) (r : List Char) (hq : c ≠ '"')
    (hb : c ≠ '\\') (hc : ¬ c.toNat < 0x20) :
    decodeString (fuel + 1) (c :: r) = push c (decodeString fuel r) := by
  rw [decodeString, if_neg hq, if_neg hb, if_neg hc]

theorem unicodeEscape_hex4 {c : Char} (r : List Char) (hc : c.toNat < 0x10000) :
    unicodeEscape (hex4 c.toNat ++ r) = some (c, r) := by
  have hv : c.toNat < 0xd800 ∨ (0xdfff < c.toNat ∧ c.toNat < 0x110000) := c.valid
  have hhi : isHigh c.toNat = false := by simp [isHigh]; omega
  have hlo : isLow c.toNat = false := by simp [isLow]; omega
  simp only [hex4, List.cons_append, List.nil_append, unicodeEscape, hexValue_hex4 hc, hhi, hlo,
    Bool.false_eq_true, if_false, Char.ofNat_toNat]

theorem unicodeEscape_pair {c : Char} (r : List Char) (hc : ¬ c.toNat < 0x10000) :
    unicodeEscape (hex4 (0xd800 ||| (((c.toNat - 0x10000) >>> 10) &&& 0x3ff)) ++
      '\\' :: 'u' :: hex4 (0xdc00 ||| ((c.toNat - 0x10000) &&& 0x3ff)) ++ r) = some (c, r) := by
  have hv : c.toNat < 0xd800 ∨ (0xdfff < c.toNat ∧ c.toNat < 0x110000) := c.valid
  have hm : c.toNat - 0x10000 < 0x100000 := by omega
  rw [high_surrogate hm, low_surrogate]
  have hhi : isHigh (0xd800 + (c.toNat - 0x10000) / 1024) = true := by simp [isHigh]; omega
  have hlo : isLow (0xdc00 + (c.toNat - 0x10000) % 1024) = true := by simp [isLow]; omega
  have hcode : 0x10000 + (((0xd800 + (c.toNat - 0x10000) / 1024 - 0xd800) <<< 10) |||
      (0xdc00 + (c.toNat - 0x10000) % 1024 - 0xdc00)) = c.toNat := by
    rw [Nat.add_sub_cancel_left, Nat.add_sub_cancel_left, combine_surrogates]
    omega
  have h1 := hexValue_hex4 (show 0xd800 + (c.toNat - 0x10000) / 1024 < 0x10000 by omega)
  have h2 := hexValue_hex4 (show 0xdc00 + (c.toNat - 0x10000) % 1024 < 0x10000 by omega)
  simp only [hex4, List.cons_append, List.nil_append]
  rw [unicodeEscape]
  simp only [h1, hhi, if_true]
  simp only [and_self, if_true, h2, hlo]
  rw [hcode, Char.ofNat_toNat]

theorem backslash_escapeDct : ∀ p ∈ escapeDct, p.2 ≠ 'u' ∧ backslash.lookup p.2 = some p.1 := by
  decide

theorem decodeString_escapeChar (fuel : Nat) (c : Char) (r : List Char) :
    decodeString (fuel + 1) (escapeChar c ++ r) = push c (decodeString fuel r) := by
  unfold escapeChar
  cases he : escapeDct.lookup c with
  | some e =>
    obtain ⟨l₁, l₂, hl, -⟩ := List.lookup_eq_some_iff.mp he
    obtain ⟨hu, hb⟩ :=
      backslash_escapeDct (c, e) (hl ▸ List.mem_append_right _ (List.mem_cons_self _ _))
    rw [List.cons_append, decodeString_backslash, List.cons_append, List.nil_append, unescape,
      if_neg hu, hb]
    rfl
  | none =>
    have hne : c ≠ '\\' ∧ c ≠ '"' := by
      simp only [List.lookup_eq_none_iff, escapeDct, List.mem_cons] at he
      exact ⟨fun h => by simp [h] at he, fun h => by simp [h] at he⟩
    dsimp only
    by_cases hp : ' ' ≤ c ∧ c ≤ '~'
    · have h32 : ¬ c.toNat < 0x20 := by
        have : (32 : Nat) ≤ c.toNat := hp.1
        omega
      rw [if_pos hp]
      exact decodeString_cons fuel r hne.2 hne.1 h32
    · rw [if_neg hp]
      by_cases hb : c.toNat < 0x10000
      · rw [if_pos hb, List.cons_append, decodeString_backslash, List.cons_append, unescape,
          if_pos rfl, unicodeEscape_hex4 _ hb]
        rfl
      · rw [if_neg hb]
        simp only [List.cons_append, List.append_assoc]
        rw [decodeString_backslash, unescape, if_pos rfl, ← List.cons_append, ← List.cons_append,
          ← List.append_assoc, unicodeEscape_pair _ hb]
        rfl

theorem decodeString_encode (s : List Char) (r : List Char) :
    ∀ fuel, s.length < fuel →
      decodeString fuel (s.flatMap escapeChar ++ '"' :: r) = some (s, r) := by
  induction s with
  | nil =>
    intro fuel hf
    obtain ⟨f, rfl⟩ : ∃ f, fuel = f + 1 := ⟨fuel - 1, by simp at hf; omega⟩
    rfl
  | cons c s ih =>
    intro fuel hf
    obtain ⟨f, rfl⟩ : ∃ f, fuel = f + 1 := ⟨fuel - 1, by simp at hf; omega⟩
    rw [List.flatMap_cons, List.append_assoc, decodeString_escapeChar, ih f (by simpa using hf)]
    rfl

/-! ## Reading back what was written: integers -/

theorem digitChar_isDigit {d : Nat} (hd : d < 10) : (Char.ofNat (48 + d)).isDigit = true := by
  interval_cases d <;> rfl

theorem digitChar_toNat {d : Nat} (hd : d < 10) : (Char.ofNat (48 + d)).toNat - 48 = d := by
  interval_cases d <;> rfl

theorem isDigit_of_mem_natRepr {n : Nat} {c : Char} (hc : c ∈ natRepr n) : c.isDigit = true := by
  unfold natRepr at hc
  split_ifs at hc
  · simp only [List.mem_singleton] at hc; subst hc; rfl
  · obtain ⟨d, hd, rfl⟩ := List.mem_map.mp hc
    exact digitChar_isDigit (Nat.digits_lt_base (by norm_num) (List.mem_reverse.mp hd))

theorem foldr_digitChar (ds : List Nat) (hds : ∀ d ∈ ds, d < 10) :
    ds.foldr (fun d acc => 10 * acc + ((Char.ofNat (48 + d)).toNat - 48)) 0 =
      Nat.ofDigits 10 ds := by
  induction ds with
  | nil => rfl
  | cons d ds ih =>
    rw [List.foldr_cons, ih fun e he => hds e (List.mem_cons_of_mem d he),
      digitChar_toNat (hds d (List.mem_cons_self d ds)), Nat.ofDigits_cons]
    omega

theorem digitsValue_natRepr (n : Nat) : digitsValue (natRepr n) = n := by
  unfold natRepr
  split_ifs with hn
  · subst hn; rfl
  · rw [digitsValue, List.foldl_map, List.foldl_reverse,
      foldr_digitChar _ fun d hd => Nat.digits_lt_base (by norm_num) hd, Nat.ofDigits_digits]

theorem natRepr_cons {n : Nat} (hn : n ≠ 0) :
    ∃ c cs, natRepr n = c :: cs ∧ c ≠ '0' := by
  have hL : Nat.digits 10 n ≠ [] := Nat.digits_ne_nil_iff_ne_zero.mpr hn
  obtain ⟨d, ds, hds⟩ := List.exists_cons_of_ne_nil (List.reverse_ne_nil_iff.mpr hL)
  have hd : d = (Nat.digits 10 n).getLast hL := by
    rw [List.getLast_eq_head_reverse]
    simp only [hds, List.head_cons]
  have h10 : d < 10 :=
    Nat.digits_lt_base (by norm_num) (List.mem_reverse.mp (hds ▸ List.mem_cons_self d ds))
  refine ⟨Char.ofNat (48 + d), ds.map fun d => Char.ofNat (48 + d), by simp [natRepr, hn, hds],
    fun h => Nat.getLast_digit_ne_zero 10 hn ?_⟩
  have h0 := digitChar_toNat h10
  rw [h] at h0
  rw [← hd, ← h0]
  rfl


/-- What may follow a number: anything but a digit. -/
def NumberEnd (r : List Char) : Prop := ∀ c ∈ r.head?, c.isDigit = false

theorem takeWhile_isDigit_nil {r : List Char} (hr : NumberEnd r) :
    r.takeWhile Char.isDigit = [] ∧ r.dropWhile Char.isDigit = r := by
  cases r with
  | nil => exact ⟨rfl, rfl⟩
  | cons c r => simp [hr c rfl]

theorem natRepr_ne_nil (n : Nat) : natRepr n ≠ [] := by
  by_cases hn : n = 0
  · simp [natRepr, hn]
  · obtain ⟨c, cs, hcs, -⟩ := natRepr_cons hn
    simp [hcs]

theorem decodeNat_natRepr (n : Nat) {r : List Char} (hr : NumberEnd r) :
    decodeNat (natRepr n ++ r) = some (n, r) := by
  by_cases hn : n = 0
  · subst hn; rfl
  · obtain ⟨c, cs, hcs, hc0⟩ := natRepr_cons hn
    have hdig : ∀ x ∈ natRepr n, x.isDigit = true := fun _ => isDigit_of_mem_natRepr
    have htake : (natRepr n ++ r).takeWhile Char.isDigit = natRepr n ++ r.takeWhile Char.isDigit :=
      List.takeWhile_append_of_pos hdig
    have hdrop : (natRepr n ++ r).dropWhile Char.isDigit = r.dropWhile Char.isDigit :=
      List.dropWhile_append_of_pos hdig
    rw [(takeWhile_isDigit_nil hr).1, List.append_nil] at htake
    rw [(takeWhile_isDigit_nil hr).2] at hdrop
    rw [hcs, List.cons_append] at htake hdrop ⊢
    rw [decodeNat, if_neg hc0, if_pos (hdig c (hcs ▸ List.mem_cons_self c cs)), htake, hdrop,
      ← hcs, digitsValue_natRepr]

theorem decodeInt_intRepr (n : Int) {r : List Char} (hr : NumberEnd r) :
    decodeInt (intRepr n ++ r) = some (.int n, r) := by
  unfold intRepr
  split_ifs with hn
  · rw [List.singleton_append, List.cons_append, decodeInt, if_pos rfl, decodeNat_natRepr _ hr]
    dsimp only [Option.map_some']
    rw [Int.ofNat_natAbs_of_nonpos (Int.le_of_lt hn), Int.neg_neg]
  · obtain ⟨c, cs, hcs⟩ := List.exists_cons_of_ne_nil (natRepr_ne_nil n.natAbs)
    have hc : c ≠ '-' := by
      have := isDigit_of_mem_natRepr (hcs ▸ List.mem_cons_self c cs)
      rintro rfl
      contradiction
    rw [List.nil_append, hcs, List.cons_append, decodeInt, if_neg hc, ← List.cons_append, ← hcs,
      decodeNat_natRepr _ hr]
    dsimp only [Option.map_some']
    rw [Int.natAbs_of_nonneg (Int.not_lt.mp hn)]

/-! ## Reading back what was written: values -/

/-- The nesting depth of a value, which bounds the reader's fuel. -/
def Value.depth : Value → Nat
  | .str _ | .int _ => 1
  | .list xs => depthItems xs + 1
  | .dict kvs => depthEntries kvs + 1
where
  /-- The deepest item. -/
  depthItems : List Value → Nat
    | [] => 0
    | x :: xs => max x.depth (depthItems xs)
  /-- The deepest entry. -/
  depthEntries : List (String × Value) → Nat
    | [] => 0
    | (_, v) :: kvs => max v.depth (depthEntries kvs)

/-- Characters JSON skips between tokens. -/
def AllWs (ws : List Char) : Prop := ∀ c ∈ ws, isWs c = true

theorem allWs_newline (indent : Option Nat) (level : Nat) : AllWs (newline indent level) := by
  cases indent with
  | none => simp [AllWs, newline]
  | some k =>
    intro c hc
    simp only [newline, List.mem_cons, List.mem_replicate] at hc
    rcases hc with rfl | ⟨-, rfl⟩ <;> rfl

theorem itemSep_eq (indent : Option Nat) (level : Nat) :
    ∃ ws, itemSep indent level = ',' :: ws ∧ AllWs ws := by
  cases indent with
  | none => exact ⟨[' '], rfl, by simp [AllWs]; rfl⟩
  | some k => exact ⟨_, rfl, allWs_newline _ _⟩

theorem dropWhile_ws {ws : List Char} (hws : AllWs ws) (cs : List Char) :
    (ws ++ cs).dropWhile isWs = cs.dropWhile isWs :=
  List.dropWhile_append_of_pos hws

theorem intRepr_head (n : Int) : ∃ c cs, intRepr n = c :: cs ∧ (c = '-' ∨ c.isDigit = true) := by
  unfold intRepr
  split_ifs
  · exact ⟨'-', _, rfl, .inl rfl⟩
  · obtain ⟨c, cs, hcs⟩ := List.exists_cons_of_ne_nil (natRepr_ne_nil n.natAbs)
    exact ⟨c, cs, by rw [List.nil_append, hcs],
      .inr (isDigit_of_mem_natRepr (hcs ▸ List.mem_cons_self c cs))⟩

theorem isWs_of_isDigit {c : Char} (hc : c.isDigit = true) : isWs c = false := by
  rw [Bool.eq_false_iff]
  intro h
  simp only [isWs, Bool.or_eq_true, decide_eq_true_eq] at h
  rcases h with ((rfl | rfl) | rfl) | rfl <;> revert hc <;> decide

/-- A value's text starts with a character that is neither whitespace nor a closing bracket. -/
theorem encode_head (indent : Option Nat) (level : Nat) (v : Value) :
    ∃ c cs, encode indent level v = c :: cs ∧ isWs c = false ∧ c ≠ ']' ∧ c ≠ '}' := by
  cases v with
  | str s => exact ⟨'"', _, rfl, rfl, by decide, by decide⟩
  | int n =>
    obtain ⟨c, cs, h, hc⟩ := intRepr_head n
    refine ⟨c, cs, h, ?_, ?_, ?_⟩ <;> rcases hc with rfl | hc
    all_goals first | rfl | decide | exact isWs_of_isDigit hc | (rintro rfl; revert hc; decide)
  | list xs => cases xs <;> exact ⟨'[', _, rfl, rfl, by decide, by decide⟩
  | dict kvs =>
    rcases kvs with _ | ⟨⟨k, v⟩, kvs⟩ <;> exact ⟨'{', _, rfl, rfl, by decide, by decide⟩

/-- `json.dumps` never writes an empty text. -/
theorem dumps_ne_empty (indent : Option Nat) (v : Value) : dumps indent v ≠ "" := by
  obtain ⟨c, cs, h, -⟩ := encode_head indent 0 v
  intro hd
  simpa [dumps, h] using congrArg String.data hd

theorem dropWhile_encode (indent : Option Nat) (level : Nat) (v : Value) (r : List Char) :
    (encode indent level v ++ r).dropWhile isWs = encode indent level v ++ r := by
  obtain ⟨c, cs, h, hc, -⟩ := encode_head indent level v
  rw [h, List.cons_append, List.dropWhile_cons, hc]
  rfl


/-- A reader that reads back every one of the given values, wherever it stands. -/
def ReadsBack (value : List Char → Option (Value × List Char)) (indent : Option Nat)
    (level : Nat) (xs : List Value) : Prop :=
  ∀ x ∈ xs, ∀ {ws r : List Char}, AllWs ws → NumberEnd r →
    value (ws ++ (encode indent level x ++ r)) = some (x, r)

theorem numberEnd_cons {c : Char} (hc : c.isDigit = false) (r : List Char) :
    NumberEnd (c :: r) := by
  rintro d ⟨⟩
  exact hc

theorem numberEnd_ws_close {tws : List Char} (htws : AllWs tws) {c : Char} (hc : c.isDigit = false)
    (r : List Char) : NumberEnd (tws ++ c :: r) := by
  cases tws with
  | nil => exact numberEnd_cons hc r
  | cons d ds =>
    rintro e ⟨⟩
    have hd := htws d (List.mem_cons_self d ds)
    revert hd
    simp only [isWs, Bool.or_eq_true, decide_eq_true_eq]
    rintro (((rfl | rfl) | rfl) | rfl) <;> rfl

theorem decodeItems_encode {value : List Char → Option (Value × List Char)}
    {indent : Option Nat} {level : Nat} {tws r : List Char} (htws : AllWs tws) :
    ∀ (xs : List Value) (x : Value) (k : Nat) {ws : List Char},
      ReadsBack value indent level (x :: xs) → xs.length < k → AllWs ws →
      decodeItems value k
        (ws ++ (encode indent level x ++ (encode.encodeItems indent level xs ++ (tws ++ ']' :: r))))
        = some (x :: xs, r)
  | [], x, k + 1, ws, hread, _, hws => by
    rw [encode.encodeItems, List.nil_append, decodeItems,
      hread x (List.mem_cons_self x []) hws (numberEnd_ws_close htws (c := ']') rfl r)]
    simp only [dropWhile_ws htws]
    rfl
  | y :: ys, x, k + 1, ws, hread, hk, hws => by
    obtain ⟨sep, hsep, hsepws⟩ := itemSep_eq indent level
    have hnext : encode.encodeItems indent level (y :: ys) ++ (tws ++ ']' :: r) =
        ',' :: (sep ++ (encode indent level y ++
          (encode.encodeItems indent level ys ++ (tws ++ ']' :: r)))) := by
      simp [encode.encodeItems, hsep]
    rw [decodeItems, hnext, hread x (List.mem_cons_self x _) hws (numberEnd_cons (c := ',') rfl _)]
    simp only [List.dropWhile_cons_of_neg (show ¬ isWs ',' = true by decide)]
    rw [decodeItems_encode htws ys y k (fun z hz => hread z (List.mem_cons_of_mem x hz))
      (by simpa using hk) hsepws]
    rfl


theorem escapeChar_ne_nil (c : Char) : escapeChar c ≠ [] := by
  unfold escapeChar
  split <;> (try split_ifs) <;> simp

theorem length_le_flatMap_escapeChar (s : List Char) :
    s.length ≤ (s.flatMap escapeChar).length := by
  induction s with
  | nil => exact Nat.le_refl 0
  | cons c s ih =>
    have := List.length_pos_of_ne_nil (escapeChar_ne_nil c)
    rw [List.flatMap_cons, List.length_append, List.length_cons]
    omega

/-- A string literal's body reads back with the fuel of its own length. -/
theorem decodeString_body (s : List Char) (r : List Char) :
    decodeString (s.flatMap escapeChar ++ '"' :: r).length (s.flatMap escapeChar ++ '"' :: r) =
      some (s, r) := by
  apply decodeString_encode
  have := length_le_flatMap_escapeChar s
  simp only [List.length_append, List.length_cons]
  omega

/-- Reading one `"key": value` entry leaves the reader at what follows the value. -/
theorem decodeEntries_entry {value : List Char → Option (Value × List Char)} {indent : Option Nat}
    {level k : Nat} {ws T : List Char} (key : String) (v : Value) (hws : AllWs ws)
    (hv : value ([' '] ++ (encode indent level v ++ T)) = some (v, T)) :
    decodeEntries value (k + 1)
        (ws ++ (encodeString key ++ ':' :: ' ' :: (encode indent level v ++ T))) =
      match T.dropWhile isWs with
      | ',' :: r' => (decodeEntries value k r').map fun (kvs, r'') => ((key, v) :: kvs, r'')
      | '}' :: r' => some ([(key, v)], r')
      | _ => none := by
  rw [decodeEntries, dropWhile_ws hws]
  simp only [encodeString, List.cons_append, List.append_assoc, List.singleton_append,
    List.dropWhile_cons_of_neg (show ¬ isWs '"' = true by decide), List.nil_append]
  rw [decodeString_body]
  simp only [List.dropWhile_cons_of_neg (show ¬ isWs ':' = true by decide)]
  rw [List.singleton_append] at hv
  rw [hv]

theorem decodeEntries_encode {value : List Char → Option (Value × List Char)}
    {indent : Option Nat} {level : Nat} {tws r : List Char} (htws : AllWs tws) :
    ∀ (kvs : List (String × Value)) (key : String) (v : Value) (k : Nat) {ws : List Char},
      ReadsBack value indent level (v :: kvs.map Prod.snd) → kvs.length < k → AllWs ws →
      decodeEntries value k
        (ws ++ (encodeString key ++ ':' :: ' ' :: (encode indent level v ++
          (encode.encodeEntries indent level kvs ++ (tws ++ '}' :: r))))) =
        some ((key, v) :: kvs, r)
  | [], key, v, k + 1, ws, hread, _, hws => by
    rw [decodeEntries_entry key v hws (hread v (List.mem_cons_self v _) (by simp [AllWs]; rfl)
      (by simpa using numberEnd_ws_close htws (c := '}') rfl r)), encode.encodeEntries,
      List.nil_append, dropWhile_ws htws]
    rfl
  | (key', v') :: kvs, key, v, k + 1, ws, hread, hk, hws => by
    obtain ⟨sep, hsep, hsepws⟩ := itemSep_eq indent level
    have hnext : encode.encodeEntries indent level ((key', v') :: kvs) ++ (tws ++ '}' :: r) =
        ',' :: (sep ++ (encodeString key' ++ ':' :: ' ' :: (encode indent level v' ++
          (encode.encodeEntries indent level kvs ++ (tws ++ '}' :: r))))) := by
      simp [encode.encodeEntries, hsep]
    rw [decodeEntries_entry key v hws (hread v (List.mem_cons_self v _) (by simp [AllWs]; rfl)
      (by rw [hnext]; exact numberEnd_cons (c := ',') rfl _)), hnext]
    simp only [List.dropWhile_cons_of_neg (show ¬ isWs ',' = true by decide)]
    rw [decodeEntries_encode htws kvs key' v' k (fun z hz => hread z (List.mem_cons_of_mem v hz))
      (by simpa using hk) hsepws]
    rfl

theorem depth_le_of_mem_items {y : Value} :
    ∀ {xs : List Value}, y ∈ xs → y.depth ≤ Value.depth.depthItems xs
  | x :: xs, hy => by
    rw [Value.depth.depthItems]
    rcases List.mem_cons.mp hy with rfl | hy
    · exact Nat.le_max_left _ _
    · exact Nat.le_trans (depth_le_of_mem_items hy) (Nat.le_max_right _ _)

theorem depth_le_of_mem_entries {y : Value} :
    ∀ {kvs : List (String × Value)}, y ∈ kvs.map Prod.snd → y.depth ≤ Value.depth.depthEntries kvs
  | (k, v) :: kvs, hy => by
    rw [Value.depth.depthEntries]
    rcases List.mem_cons.mp hy with rfl | hy
    · exact Nat.le_max_left _ _
    · exact Nat.le_trans (depth_le_of_mem_entries hy) (Nat.le_max_right _ _)

theorem length_le_encodeItems (indent : Option Nat) (level : Nat) :
    ∀ xs : List Value, xs.length ≤ (encode.encodeItems indent level xs).length
  | [] => Nat.le_refl 0
  | x :: xs => by
    obtain ⟨sep, hsep, -⟩ := itemSep_eq indent level
    have := length_le_encodeItems indent level xs
    simp only [encode.encodeItems, hsep, List.length_append, List.length_cons]
    omega

theorem length_le_encodeEntries (indent : Option Nat) (level : Nat) :
    ∀ kvs : List (String × Value), kvs.length ≤ (encode.encodeEntries indent level kvs).length
  | [] => Nat.le_refl 0
  | (k, v) :: kvs => by
    obtain ⟨sep, hsep, -⟩ := itemSep_eq indent level
    have := length_le_encodeEntries indent level kvs
    simp only [encode.encodeEntries, hsep, List.length_append, List.length_cons]
    omega

/-- What `json.dumps` writes, read with enough fuel, gives back the value and stops right after
it. -/
theorem decodeValue_encode (indent : Option Nat) :
    ∀ (fuel : Nat) (v : Value), v.depth ≤ fuel → ∀ (level : Nat) {ws r : List Char}, AllWs ws →
      NumberEnd r → decodeValue fuel (ws ++ (encode indent level v ++ r)) = some (v, r)
  | 0, v, hv, _, _, _, _, _ => absurd hv (by cases v <;> simp [Value.depth])
  | fuel + 1, .str s, _, level, ws, r, hws, _ => by
    rw [decodeValue, dropWhile_ws hws, dropWhile_encode]
    simp only [encode, encodeString, List.cons_append, List.append_assoc, List.singleton_append,
      List.nil_append, if_true, decodeString_body]
    rfl
  | fuel + 1, .int n, _, level, ws, r, hws, hr => by
    rw [decodeValue, dropWhile_ws hws, dropWhile_encode]
    obtain ⟨c, cs, h, hc⟩ := intRepr_head n
    have hne : c ≠ '"' ∧ c ≠ '[' ∧ c ≠ '{' := by
      rcases hc with rfl | hc
      · decide
      · refine ⟨?_, ?_, ?_⟩ <;> (rintro rfl; revert hc; decide)
    simp only [encode, h, List.cons_append]
    rw [if_neg hne.1, if_neg hne.2.1, if_neg hne.2.2, ← List.cons_append, ← h,
      decodeInt_intRepr n hr]
  | fuel + 1, .list [], _, level, ws, r, hws, _ => by
    rw [decodeValue, dropWhile_ws hws, dropWhile_encode]
    rfl
  | fuel + 1, .list (x :: xs), hv, level, ws, r, hws, hr => by
    rw [decodeValue, dropWhile_ws hws, dropWhile_encode]
    simp only [encode, List.cons_append, List.append_assoc, List.nil_append, if_true]
    have hdepth : ∀ y ∈ x :: xs, y.depth ≤ fuel := fun y hy => by
      simp only [Value.depth] at hv
      exact Nat.le_trans (depth_le_of_mem_items hy) (by omega)
    obtain ⟨c, cs, h, -, hc, -⟩ := encode_head indent (level + 1) x
    rw [if_neg (show ('[' : Char) ≠ '"' by decide)]
    split
    · next r' heq =>
      rw [dropWhile_ws (allWs_newline _ _), dropWhile_encode, h, List.cons_append] at heq
      exact absurd (List.cons.inj heq).1 hc
    · have hk := length_le_encodeItems indent (level + 1) xs
      rw [decodeItems_encode (allWs_newline indent level) xs x _
        (fun y hy _ _ hws' hr' =>
          decodeValue_encode indent fuel y (hdepth y hy) (level + 1) hws' hr')
        (by simp only [List.length_append]; omega) (allWs_newline _ _)]
      rfl
  | fuel + 1, .dict [], _, level, ws, r, hws, _ => by
    rw [decodeValue, dropWhile_ws hws, dropWhile_encode]
    rfl
  | fuel + 1, .dict ((k, v) :: kvs), hv, level, ws, r, hws, hr => by
    rw [decodeValue, dropWhile_ws hws, dropWhile_encode]
    simp only [encode, List.cons_append, List.append_assoc, List.nil_append, if_true]
    have hdepth : ∀ y ∈ v :: kvs.map Prod.snd, y.depth ≤ fuel := fun y hy => by
      simp only [Value.depth, Value.depth.depthEntries] at hv
      rcases List.mem_cons.mp hy with rfl | hy
      · omega
      · exact Nat.le_trans (depth_le_of_mem_entries hy) (by omega)
    rw [if_neg (show ('{' : Char) ≠ '"' by decide), if_neg (show ('{' : Char) ≠ '[' by decide)]
    split
    · next r' heq =>
      rw [dropWhile_ws (allWs_newline _ _), encodeString, List.cons_append, List.cons_append,
        List.dropWhile_cons_of_neg (by decide)] at heq
      exact absurd (List.cons.inj heq).1 (by decide)
    · have hk := length_le_encodeEntries indent (level + 1) kvs
      rw [decodeEntries_encode (allWs_newline indent level) kvs k v _
        (fun y hy _ _ hws' hr' =>
          decodeValue_encode indent fuel y (hdepth y hy) (level + 1) hws' hr')
        (by simp only [List.length_append, List.length_cons]; omega) (allWs_newline _ _)]
      rfl

theorem depth_le_length (indent : Option Nat) :
    ∀ (level : Nat) (v : Value), v.depth ≤ (encode indent level v).length
  | _, .str s => by simp [Value.depth, encode, encodeString]
  | _, .int n => by
    obtain ⟨c, cs, h, -⟩ := intRepr_head n
    simp [Value.depth, encode, h]
  | _, .list [] => by simp [Value.depth, Value.depth.depthItems, encode]
  | level, .list (x :: xs) => by
    have hx := depth_le_length indent (level + 1) x
    have hxs := items (level + 1) xs
    simp only [Value.depth, Value.depth.depthItems, encode, List.length_append, List.length_cons]
    omega
  | _, .dict [] => by simp [Value.depth, Value.depth.depthEntries, encode]
  | level, .dict ((k, v) :: kvs) => by
    have hv := depth_le_length indent (level + 1) v
    have hkvs := entries (level + 1) kvs
    simp only [Value.depth, Value.depth.depthEntries, encode, List.length_append, List.length_cons]
    omega
where
  items (level : Nat) : ∀ xs : List Value,
      Value.depth.depthItems xs ≤ (encode.encodeItems indent level xs).length
    | [] => Nat.zero_le _
    | x :: xs => by
      have hx := depth_le_length indent level x
      have hxs := items level xs
      simp only [Value.depth.depthItems, encode.encodeItems, List.length_append]
      omega
  entries (level : Nat) : ∀ kvs : List (String × Value),
      Value.depth.depthEntries kvs ≤ (encode.encodeEntries indent level kvs).length
    | [] => Nat.zero_le _
    | (_, v) :: kvs => by
      have hv := depth_le_length indent level v
      have hkvs := entries level kvs
      simp only [Value.depth.depthEntries, encode.encodeEntries, List.length_append]
      omega

/-- `json.loads(json.dumps(v, indent=indent)) == v`, for both layouts the scripts use. -/
theorem loads_dumps (indent : Option Nat) (v : Value) : loads (dumps indent v) = some v := by
  have h : decodeValue ((dumps indent v).length + 1) ([] ++ (encode indent 0 v ++ [])) =
      some (v, []) :=
    decodeValue_encode indent _ v (Nat.le_succ_of_le (depth_le_length indent 0 v)) 0
      (by simp [AllWs]) (by simp [NumberEnd])
  rw [List.nil_append, List.append_nil] at h
  rw [loads, show (dumps indent v).data = encode indent 0 v from rfl, h]
  rfl

end AntiRaid.Python.Json
