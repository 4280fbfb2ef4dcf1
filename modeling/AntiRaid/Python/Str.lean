import Mathlib.Data.List.Infix
import Mathlib.Data.List.Basic

/-!
# Python `str` methods

The scripts rewrite bucket names, object keys and prompted values with `str.replace`, `in`,
`str.split`, `str.startswith`, `str.endswith` and `str.strip`, and name event constants with
`str.upper`. This module gives each of them
CPython's semantics over the characters of a Lean `String`, and proves the few facts about them
that the provisioning and migration modules use.
-/

namespace AntiRaid.Python.Str

/-! ## `str.replace` -/

/-- The left-to-right scan of `str.replace`. `skip` counts the characters of an occurrence that
has already been replaced; an empty `old` matches before every character and at the end. -/
def replaceGo (old new : List Char) : Nat → List Char → List Char
  | _, [] => if old = [] then new else []
  | skip + 1, _ :: cs => replaceGo old new skip cs
  | 0, c :: cs =>
    match old with
    | [] => new ++ c :: replaceGo old new 0 cs
    | o :: os =>
      if (o :: os).isPrefixOf (c :: cs) then new ++ replaceGo old new os.length cs
      else c :: replaceGo old new 0 cs

/-- `s.replace(old, new)`: every non-overlapping occurrence of `old`, scanning left to right. -/
def replace (s old new : String) : String :=
  ⟨replaceGo old.data new.data 0 s.data⟩

example : replace "antiraid-backup-2024.iblfile" ".iblfile" "" = "antiraid-backup-2024" := by
  decide

example : replace "aaa" "aa" "b" = "ba" := by decide

section Replace

variable {old new : List Char}

/-- Inside a replaced occurrence the scan only counts characters down. -/
theorem replaceGo_skip (xs ys : List Char) :
    replaceGo old new xs.length (xs ++ ys) = replaceGo old new 0 ys := by
  induction xs with
  | nil => rfl
  | cons x xs ih => exact ih

theorem replaceGo_old_append (hold : old ≠ []) (s : List Char) :
    replaceGo old new 0 (old ++ s) = new ++ replaceGo old new 0 s := by
  obtain ⟨o, os, rfl⟩ := List.exists_cons_of_ne_nil hold
  have hpre : (o :: os).isPrefixOf (o :: (os ++ s)) = true :=
    List.isPrefixOf_iff_prefix.mpr (List.prefix_append _ _)
  rw [List.cons_append, replaceGo, if_pos hpre, replaceGo_skip]

/-- Where `old` does not occur, `replace` changes nothing. -/
theorem replaceGo_of_not_infix (hold : old ≠ []) (s : List Char) (hs : ¬ old <:+: s) :
    replaceGo old new 0 s = s := by
  obtain ⟨o, os, rfl⟩ := List.exists_cons_of_ne_nil hold
  induction s with
  | nil => rfl
  | cons c cs ih =>
    have hpre : (o :: os).isPrefixOf (c :: cs) = false := by
      rw [Bool.eq_false_iff, ne_eq, List.isPrefixOf_iff_prefix]
      exact fun h => hs h.isInfix
    rw [replaceGo, hpre, if_neg Bool.false_ne_true, ih fun h => hs (List.infix_cons h)]

end Replace

/-- A prefix that occurs nowhere else is the only thing `replace` removes. -/
theorem replace_prefix_of_not_infix {p g : String} (hp : p ≠ "")
    (hg : ¬ p.data <:+: g.data) : replace (p ++ g) p "" = g := by
  have hdata : p.data ≠ [] := fun h => hp (String.ext h)
  apply String.ext
  simp only [replace, String.data_append]
  rw [replaceGo_old_append hdata, replaceGo_of_not_infix hdata _ hg]
  rfl

/-- Replacing one character by one character maps it. -/
theorem replaceGo_char (c d : Char) :
    ∀ s : List Char, replaceGo [c] [d] 0 s = s.map fun x => if x = c then d else x
  | [] => rfl
  | x :: xs => by
    by_cases hx : x = c
    · subst hx
      simp [replaceGo, replaceGo_char x d xs]
    · have hpre : [c].isPrefixOf (x :: xs) = false := by
        simp [List.isPrefixOf, Ne.symm hx]
      simp [replaceGo, hpre, replaceGo_char c d xs, hx]

/-! ## `str.upper` -/

/-- `s.upper()` on ASCII letters: `a` to `z` become `A` to `Z`. CPython maps the other letters
by the Unicode case tables, which are not modelled; every other character is kept. -/
def upper (s : String) : String := ⟨s.data.map Char.toUpper⟩

example : upper (replace "Message Reaction Add" " " "_") = "MESSAGE_REACTION_ADD" := by decide

/-! ## `in`, `str.split`, `str.startswith`, `str.endswith` and `str.strip` -/

/-- `s.split(sep)` for a one-character separator: the pieces between separators, empty pieces
included. -/
def split (s : String) (sep : Char) : List String :=
  (s.data.splitOn sep).map String.mk

/-- `sub in s`. -/
def contains (s sub : String) : Bool := decide (sub.data <:+: s.data)

/-- `s.startswith(prefix)`. -/
def startswith (s pre : String) : Bool := pre.data.isPrefixOf s.data

/-- `s.endswith(suffix)`. -/
def endswith (s suf : String) : Bool := suf.data.isSuffixOf s.data

/-- The characters `str.isspace` accepts: those Unicode classes as whitespace. -/
def isspace (c : Char) : Bool :=
  c.toNat ∈ [0x09, 0x0A, 0x0B, 0x0C, 0x0D, 0x1C, 0x1D, 0x1E, 0x1F, 0x20, 0x85, 0xA0, 0x1680,
    0x2000, 0x2001, 0x2002, 0x2003, 0x2004, 0x2005, 0x2006, 0x2007, 0x2008, 0x2009, 0x200A,
    0x2028, 0x2029, 0x202F, 0x205F, 0x3000]

/-- `s.strip()`: leading and trailing whitespace removed. -/
def strip (s : String) : String :=
  ⟨((s.data.dropWhile isspace).reverse.dropWhile isspace).reverse⟩

example : split "antiraid.guild.123" '.' = ["antiraid", "guild", "123"] := by decide

example : split "" ',' = [""] := by decide

theorem split_append_sep {c : Char} {a : List Char} (ha : c ∉ a) (b : List Char) :
    split ⟨a ++ c :: b⟩ c = ⟨a⟩ :: split ⟨b⟩ c := by
  have hsep : ∀ x ∈ a, ¬ (x == c) = true := fun x hx h => ha (beq_iff_eq.mp h ▸ hx)
  rw [split, split, List.splitOn, List.splitOn,
    List.splitOnP_first (· == c) a hsep c (beq_self_eq_true c)]
  rfl

theorem split_ne_nil (s : String) (c : Char) : split s c ≠ [] := by
  simpa [split] using List.splitOnP_ne_nil _ _

theorem split_cons (x : Char) (xs : List Char) (c : Char) :
    split ⟨x :: xs⟩ c =
      if x = c then "" :: split ⟨xs⟩ c else (split ⟨xs⟩ c).modifyHead fun p => ⟨x :: p.data⟩ := by
  rw [split, split, List.splitOn, List.splitOn, List.splitOnP_cons]
  by_cases hx : x = c
  · simp [hx]
  · obtain ⟨q, qs, hq⟩ := List.exists_cons_of_ne_nil (List.splitOnP_ne_nil (· == c) xs)
    simp [hx, hq]

/-- The first part of a split is the text up to the first separator. -/
theorem split_head (s : List Char) (c : Char) :
    (split ⟨s⟩ c).head? = some ⟨s.takeWhile (· != c)⟩ := by
  induction s with
  | nil => rfl
  | cons x xs ih =>
    rw [split_cons]
    by_cases hx : x = c
    · simp [hx]
    · obtain ⟨q, qs, hq⟩ := List.exists_cons_of_ne_nil (split_ne_nil ⟨xs⟩ c)
      rw [hq] at ih ⊢
      simp only [List.head?_cons, Option.some.injEq] at ih
      simp [hx, ih]

/-- The second part of a split is the text after the first separator up to the next one, and
there is one exactly when the text holds the separator. -/
theorem split_getElem_one (s : String) (c : Char) :
    (split s c)[1]? =
      if c ∈ s.data then some ⟨(s.data.dropWhile (· != c)).tail.takeWhile (· != c)⟩ else none := by
  obtain ⟨s⟩ := s
  induction s with
  | nil => rfl
  | cons x xs ih =>
    rw [split_cons]
    by_cases hx : x = c
    · subst hx
      obtain ⟨q, qs, hq⟩ := List.exists_cons_of_ne_nil (split_ne_nil ⟨xs⟩ x)
      have hhead := split_head xs x
      rw [hq] at hhead ⊢
      simp_all
    · obtain ⟨q, qs, hq⟩ := List.exists_cons_of_ne_nil (split_ne_nil ⟨xs⟩ c)
      rw [hq] at ih ⊢
      simp_all [Ne.symm hx]

/-! ## Text joined by a separator

The configuration templates are f-strings; their text is their lines joined by line breaks. -/

section Intercalate

variable (sep : String)

/-- The separator and a piece, for every piece after the first. -/
def sepPieces (ls : List String) : List Char := (ls.map fun l => sep.data ++ l.data).flatten

theorem intercalate_go_data :
    ∀ (acc : String) (ls : List String),
      (String.intercalate.go acc sep ls).data = acc.data ++ sepPieces sep ls
  | acc, [] => by simp [String.intercalate.go, sepPieces]
  | acc, l :: ls => by
    simp [String.intercalate.go, intercalate_go_data _ ls, sepPieces, List.append_assoc]

theorem intercalate_cons_data (a : String) (ls : List String) :
    (sep.intercalate (a :: ls)).data = a.data ++ sepPieces sep ls :=
  intercalate_go_data sep a ls

theorem intercalate_append {xs ys : List String} (hxs : xs ≠ []) (hys : ys ≠ []) :
    (sep.intercalate (xs ++ ys)).data =
      (sep.intercalate xs).data ++ sep.data ++ (sep.intercalate ys).data := by
  obtain ⟨x, xs, rfl⟩ := List.exists_cons_of_ne_nil hxs
  obtain ⟨y, ys, rfl⟩ := List.exists_cons_of_ne_nil hys
  simp [intercalate_cons_data, sepPieces, List.append_assoc]

/-- A piece that is itself a joined text splices in its pieces. -/
theorem intercalate_splice {xs ys zs : List String} (hxs : xs ≠ []) (hys : ys ≠ [])
    (hzs : zs ≠ []) :
    sep.intercalate (xs ++ [sep.intercalate ys] ++ zs) = sep.intercalate (xs ++ ys ++ zs) := by
  apply String.ext
  rw [List.append_assoc, intercalate_append sep hxs (by simp), List.append_assoc xs ys zs,
    intercalate_append sep hxs (by simp [hys]), intercalate_append sep (by simp) hzs,
    intercalate_append sep hys hzs]
  simp [intercalate_cons_data, sepPieces, List.append_assoc]

/-- Joining with an empty last piece ends the text with the separator. -/
theorem intercalate_snoc_empty (xs : List String) (y : String) :
    sep.intercalate (xs ++ [y, ""]) = sep.intercalate (xs ++ [""]) ++ (y ++ sep) := by
  apply String.ext
  cases xs with
  | nil => simp [intercalate_cons_data, sepPieces]
  | cons x xs => simp [intercalate_cons_data, sepPieces, List.append_assoc]

/-- A text of two pieces or more joined by a nonempty separator is not empty. -/
theorem intercalate_ne_empty {a b : String} (ls : List String) (hsep : sep ≠ "") :
    sep.intercalate (a :: b :: ls) ≠ "" := by
  intro h
  have hdata := congrArg String.data h
  rw [intercalate_cons_data] at hdata
  simp [sepPieces] at hdata
  exact hsep (String.ext hdata.2.1)

end Intercalate

/-- Splitting at the separator undoes the joining, when no piece holds the separator. -/
theorem split_intercalate {c : Char} :
    ∀ {ls : List String}, (∀ l ∈ ls, c ∉ l.data) → ls ≠ [] →
      split ((String.singleton c).intercalate ls) c = ls
  | [a], h, _ => by
    have ha : ∀ x ∈ a.data, ¬ (x == c) = true := fun x hx hxc =>
      h a (List.mem_singleton_self a) (beq_iff_eq.mp hxc ▸ hx)
    simp [String.intercalate, String.intercalate.go, split, List.splitOn,
      List.splitOnP_eq_single _ _ ha]
  | a :: b :: bs, h, _ => by
    rw [List.forall_mem_cons] at h
    have hdata : (String.singleton c).intercalate (a :: b :: bs) =
        ⟨a.data ++ c :: ((String.singleton c).intercalate (b :: bs)).data⟩ := by
      apply String.ext
      simp [intercalate_cons_data, sepPieces]
    rw [hdata, split_append_sep h.1, split_intercalate h.2 (List.cons_ne_nil _ _)]

/-- A string holding a character that is not whitespace does not strip to nothing. -/
theorem strip_ne_empty {s : String} {c : Char} (hc : c ∈ s.data) (hs : isspace c = false) :
    strip s ≠ "" := by
  intro h
  have hnil : (s.data.dropWhile isspace).reverse.dropWhile isspace = [] := by
    simpa [strip] using congrArg String.data h
  have hc' : c ∈ s.data.dropWhile isspace := by
    rw [← List.takeWhile_append_dropWhile isspace s.data] at hc
    rcases List.mem_append.mp hc with h' | h'
    · exact absurd (List.mem_takeWhile_imp h') (by simp [hs])
    · exact h'
  simpa [hs] using List.dropWhile_eq_nil_iff.mp hnil c (List.mem_reverse.mpr hc')

end AntiRaid.Python.Str
