import Mathlib.Data.List.Basic

/-!
# `base64` and `secrets.token_urlsafe`

The synthetic bot credential is `base64.b64encode(client_id.encode())` followed by two
`secrets.token_urlsafe(32)` draws, and the storage keys and signing placeholders are further
`token_urlsafe` draws. This module encodes bytes as `binascii` does and proves that every such
value is made of Base64 characters only, which is what lets the templates embed them in quoted
YAML and JSON without escaping.
-/

namespace AntiRaid.Python.Base64

/-- `binascii`'s table for the standard Base64 alphabet. -/
def b64Table : List Char :=
  "ABCDEFGHIJKLMNOPQRSTUVWXYZabcdefghijklmnopqrstuvwxyz0123456789+/".data

/-- The character for a six-bit group. -/
def b64Char (i : Nat) : Char := b64Table.getD i 'A'

/-- `base64.b64encode`: each three bytes become four characters, and a short last group is
padded with `=`. -/
def b64encode : List UInt8 → List Char
  | [] => []
  | [a] => [b64Char (a.toNat >>> 2), b64Char ((a.toNat &&& 3) <<< 4), '=', '=']
  | [a, b] =>
    [b64Char (a.toNat >>> 2), b64Char (((a.toNat &&& 3) <<< 4) ||| (b.toNat >>> 4)),
      b64Char ((b.toNat &&& 15) <<< 2), '=']
  | a :: b :: c :: rest =>
    b64Char (a.toNat >>> 2) :: b64Char (((a.toNat &&& 3) <<< 4) ||| (b.toNat >>> 4)) ::
      b64Char (((b.toNat &&& 15) <<< 2) ||| (c.toNat >>> 6)) :: b64Char (c.toNat &&& 63) ::
        b64encode rest

/-- `base64.urlsafe_b64encode`: the standard encoding with `+` and `/` translated to `-` and
`_`. -/
def urlsafeB64encode (bs : List UInt8) : List Char :=
  (b64encode bs).map fun c => if c = '+' then '-' else if c = '/' then '_' else c

/-- `secrets.token_urlsafe(n)` for the `n` bytes drawn: their URL-safe encoding with the
padding stripped by `rstrip(b'=')`. -/
def tokenUrlsafe (bs : List UInt8) : String :=
  ⟨((urlsafeB64encode bs).reverse.dropWhile (· == '=')).reverse⟩

example : b64encode [77, 97, 110] = "TWFu".data := by decide

example : tokenUrlsafe [0xfb, 0xff] = "-_8" := by decide

/-- Characters of either Base64 alphabet, its padding, and the `.` that joins the parts of the
synthetic credential. -/
def tokenChars : List Char := b64Table ++ "-_=.".data

/-- A value spelled in `tokenChars` only. -/
def IsToken (s : String) : Prop := ∀ c ∈ s.data, c ∈ tokenChars

instance (s : String) : Decidable (IsToken s) :=
  inferInstanceAs (Decidable (∀ c ∈ s.data, c ∈ tokenChars))

theorem b64Char_mem (i : Nat) : b64Char i ∈ b64Table := by
  rw [b64Char, List.getD_eq_getElem?_getD]
  cases h : b64Table[i]? with
  | none => decide
  | some c => exact List.getElem?_mem h

theorem mem_b64encode {c : Char} :
    ∀ {bs : List UInt8}, c ∈ b64encode bs → c ∈ b64Table ∨ c = '='
  | [], h => by simp [b64encode] at h
  | [_], h | [_, _], h => by
    simp only [b64encode, List.mem_cons, List.not_mem_nil, or_false] at h
    rcases h with h | h | h | h <;> subst h <;> simp [b64Char_mem]
  | _ :: _ :: _ :: rest, h => by
    simp only [b64encode, List.mem_cons] at h
    rcases h with h | h | h | h | h
    all_goals first | exact mem_b64encode h | (subst h; exact .inl (b64Char_mem _))

theorem b64encode_isToken (bs : List UInt8) : IsToken ⟨b64encode bs⟩ := by
  intro c hc
  rcases mem_b64encode hc with h | rfl
  · exact List.mem_append_left _ h
  · decide

theorem tokenUrlsafe_isToken (bs : List UInt8) : IsToken (tokenUrlsafe bs) := by
  intro c hc
  have hc' : c ∈ urlsafeB64encode bs :=
    List.mem_reverse.mp ((List.dropWhile_suffix _).subset (List.mem_reverse.mp hc))
  obtain ⟨d, hd, rfl⟩ := List.mem_map.mp hc'
  rcases mem_b64encode hd with h | rfl
  · split_ifs
    · decide
    · decide
    · exact List.mem_append_left _ h
  · decide

theorem b64encode_cons (a : UInt8) :
    ∀ rest : List UInt8, ∃ x y t, b64encode (a :: rest) = x :: y :: t ∧ x ∈ b64Table ∧ y ∈ b64Table
  | [] | [_] | _ :: _ :: _ => ⟨_, _, _, rfl, b64Char_mem _, b64Char_mem _⟩

/-- A draw of at least one byte gives a token of at least two characters: the padding that
`rstrip` removes never reaches the first two. -/
theorem two_le_length_tokenUrlsafe {bs : List UInt8} (h : bs ≠ []) :
    2 ≤ (tokenUrlsafe bs).length := by
  obtain ⟨a, rest, rfl⟩ := List.exists_cons_of_ne_nil h
  obtain ⟨x, y, t, ht, hx, hy⟩ := b64encode_cons a rest
  have hne : ∀ c ∈ b64Table,
      ((if c = '+' then '-' else if c = '/' then '_' else c) == '=') = false := by decide
  simp only [tokenUrlsafe, urlsafeB64encode, ht, List.map_cons, List.reverse_cons,
    String.length, List.length_reverse, List.append_assoc, List.singleton_append]
  rw [List.dropWhile_append]
  split <;> simp [List.dropWhile_cons, hne x hx, hne y hy]

theorem IsToken.append {s t : String} (hs : IsToken s) (ht : IsToken t) : IsToken (s ++ t) := by
  intro c hc
  rw [String.data_append, List.mem_append] at hc
  exact hc.elim (hs c) (ht c)

end AntiRaid.Python.Base64
