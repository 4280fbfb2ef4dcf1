import Mathlib.Data.List.Infix
import AntiRaid.Python.Str
import AntiRaid.Python.Json

/-!
# `int()` and `json.loads`

`add_perm.py` and `add_perm_override.py` read the permissions typed at a prompt with
`json.loads`, and `add_perm.py` reads the index with `int()`. This module models both as
CPython 3.12 computes them. `int()` of a `str` is `PyLong_FromUnicodeObject`. `json.loads` is
`JSONDecoder.decode` over the C scanner of `_json` (`scan_once_unicode`, `scanstring_unicode`,
`_match_number_unicode`, `_parse_array_unicode`, `_parse_object_unicode`), with `strict=True`
and the default hooks.

A Python `str` may hold lone surrogates: `input()` decodes bytes that are not UTF-8 into them
(`surrogateescape`), and `json.loads` makes them from `\uXXXX` escapes. A string here is
therefore a list of code points (`PyStr`), each a `Char` or a surrogate, and both functions
read one.
-/

namespace AntiRaid.Python.Loads

open AntiRaid.Python.Json

/-! ## Python strings -/

/-- A code point of a Python `str`: a character, or a lone surrogate, which no `Char` is. -/
inductive CodePoint where
  | char (c : Char)
  | surrogate (n : Nat) (h : 0xd800 ≤ n ∧ n < 0xe000)
deriving DecidableEq

namespace CodePoint

/-- The number of a code point. -/
def val : CodePoint → Nat
  | char c => c.toNat
  | surrogate n _ => n

/-- The character a code point is; a surrogate is none. -/
def toChar? : CodePoint → Option Char
  | char c => some c
  | surrogate .. => none

/-- The code point a `\uXXXX` escape of `n < 0x10000` stands for. -/
def ofUnit (n : Nat) : CodePoint :=
  if h : 0xd800 ≤ n ∧ n < 0xe000 then surrogate n h else char (Char.ofNat n)

/-- `str.isspace` on one code point; no surrogate is whitespace. -/
def isspace : CodePoint → Bool
  | char c => Str.isspace c
  | surrogate .. => false

/-- `IS_WHITESPACE` of `_json`. -/
def isWs : CodePoint → Bool
  | char c => Json.isWs c
  | surrogate .. => false

/-- `Py_ISDIGIT`: an ASCII digit. -/
def isDigit : CodePoint → Bool
  | char c => c.isDigit
  | surrogate .. => false

end CodePoint

/-- A Python `str`. -/
abbrev PyStr := List CodePoint

/-- Characters as a Python `str`. -/
def ofChars (cs : List Char) : PyStr := cs.map .char

/-- A Lean string as a Python `str`. -/
def ofString (s : String) : PyStr := ofChars s.data

instance : Coe String PyStr := ⟨ofString⟩

/-- The characters of a `str` that holds no lone surrogate, which UTF-8 encodes
(`PyUnicode_AsUTF8AndSize`); `none` where a lone surrogate makes the encoding raise
`UnicodeEncodeError`. -/
def toChars? : PyStr → Option (List Char)
  | [] => some []
  | .char c :: s => (toChars? s).map (c :: ·)
  | .surrogate .. :: _ => none

/-- `s.strip()`: leading and trailing whitespace removed. -/
def strip (s : PyStr) : PyStr :=
  ((s.dropWhile CodePoint.isspace).reverse.dropWhile CodePoint.isspace).reverse

/-! ## `int()` -/

/-- The code points of the Unicode decimal digits zero (Unicode 15.0, as in CPython 3.12). Each
starts a run of the ten digits of one script. -/
def decimalZeros : List Nat :=
  [0x30, 0x660, 0x6F0, 0x7C0, 0x966, 0x9E6, 0xA66, 0xAE6, 0xB66, 0xBE6, 0xC66, 0xCE6, 0xD66,
    0xDE6, 0xE50, 0xED0, 0xF20, 0x1040, 0x1090, 0x17E0, 0x1810, 0x1946, 0x19D0, 0x1A80, 0x1A90,
    0x1B50, 0x1BB0, 0x1C40, 0x1C50, 0xA620, 0xA8D0, 0xA900, 0xA9D0, 0xA9F0, 0xAA50, 0xABF0,
    0xFF10, 0x104A0, 0x10D30, 0x11066, 0x110F0, 0x11136, 0x111D0, 0x112F0, 0x11450, 0x114D0,
    0x11650, 0x116C0, 0x11730, 0x118E0, 0x11950, 0x11C50, 0x11D50, 0x11DA0, 0x11F50, 0x16A60,
    0x16AC0, 0x16B50, 0x1D7CE, 0x1D7D8, 0x1D7E2, 0x1D7EC, 0x1D7F6, 0x1E140, 0x1E2F0, 0x1E4F0,
    0x1E950, 0x1FBF0]

/-- `Py_UNICODE_TODECIMAL`: the value of a decimal digit of any script. -/
def toDecimal (c : Char) : Option Nat :=
  (decimalZeros.find? fun z => z ≤ c.toNat && c.toNat < z + 10).map (c.toNat - ·)

/-- `_PyUnicode_TransformDecimalAndSpaceToASCII` on one code point: a character below 127 is
kept, Unicode whitespace becomes a space and a decimal digit its ASCII digit. `none` stands for
the `?` written in place of anything else, a surrogate among them, where the transformation
stops. -/
def toAscii : CodePoint → Option Char
  | .char c =>
    if c.toNat < 127 then some c
    else if Str.isspace c then some ' '
    else (toDecimal c).map fun d => Char.ofNat (48 + d)
  | .surrogate .. => none

/-- `_PyUnicode_TransformDecimalAndSpaceToASCII`. -/
def transformDecimalAndSpaceToAscii : PyStr → List Char
  | [] => []
  | c :: cs =>
    match toAscii c with
    | some a => a :: transformDecimalAndSpaceToAscii cs
    | none => ['?']

/-- `Py_ISSPACE`: ASCII whitespace. -/
def isAsciiSpace (c : Char) : Bool :=
  c = ' ' || c = '\t' || c = '\n' || c = '\x0b' || c = '\x0c' || c = '\r'

/-- `sys.int_info.default_max_str_digits`. -/
def maxStrDigits : Nat := 4300

/-- Why `int()` raises `ValueError`. -/
inductive IntError
  /-- `invalid literal for int() with base 10: ...`; the `repr` of the text it ends with is not
  modelled. -/
  | invalidLiteral
  /-- More digits than `maxStrDigits`. -/
  | exceedsLimit (digits : Nat)
deriving DecidableEq, Repr

/-- The message of `ValueError` for too many digits. -/
def exceedsLimitMessage (digits : Nat) : String :=
  s!"Exceeds the limit ({maxStrDigits} digits) for integer string conversion: " ++
    s!"value has {digits} digits; use sys.set_int_max_str_digits() to increase the limit"

/-- What `PyLong_FromString` scans in base 10: digits and underscores. -/
def isDigitOrUnderscore (c : Char) : Bool := c.isDigit || c = '_'

/-- The sign `PyLong_FromString` reads: whether the number is negative, and the text after the
sign. -/
def readSign : List Char → Bool × List Char
  | '+' :: r => (false, r)
  | '-' :: r => (true, r)
  | t => (false, t)

/-- `PyLong_FromString(text, 10)`, with the check of `PyLong_FromUnicodeObject` that it read the
whole text: leading ASCII whitespace, a sign, digits with single underscores between them,
trailing ASCII whitespace. A doubled or trailing underscore is rejected before the digits are
counted, and too many digits before anything after them is looked at. -/
def longFromString (text : List Char) : Except IntError Int :=
  let (negative, t) := readSign (text.dropWhile isAsciiSpace)
  let run := t.takeWhile isDigitOrUnderscore
  let digits := run.filter Char.isDigit
  if t.head? = some '_' ∨ ['_', '_'] <:+: run ∨ run.getLast? = some '_' then .error .invalidLiteral
  else if maxStrDigits < digits.length then .error (.exceedsLimit digits.length)
  else if digits = [] ∨ (t.dropWhile isDigitOrUnderscore).dropWhile isAsciiSpace ≠ [] then
    .error .invalidLiteral
  else .ok (if negative then -(digitsValue digits : Int) else digitsValue digits)

/-- `int(s)` for a `str`. -/
def int (s : PyStr) : Except IntError Int :=
  longFromString (transformDecimalAndSpaceToAscii s)

/-! ## Python objects -/

/-- What `json.loads` returns: `None`, a `bool`, an `int`, a `float` (by the text `float()` is
applied to), a `str`, a `list`, and a `dict` by its items in insertion order. -/
inductive Obj where
  | none
  | bool (b : Bool)
  | int (n : Int)
  | float (text : String)
  | str (s : PyStr)
  | list (xs : List Obj)
  | dict (kvs : List (PyStr × Obj))

/-- What `json.loads` raises. -/
inductive Raised where
  /-- `JSONDecodeError(msg, doc, pos)`. -/
  | decodeError (msg : String) (pos : Nat)
  /-- `ValueError(msg)`, from an integer of too many digits. -/
  | valueError (msg : String)
  /-- `RecursionError(msg)`, from containers nested deeper than the interpreter allows. -/
  | recursionError (msg : String)
deriving DecidableEq, Repr

/-- `ValueError` of `int()` as the scanner raises it. -/
def IntError.toRaised : IntError → Raised
  | .invalidLiteral => .valueError "invalid literal for int() with base 10"
  | .exceedsLimit digits => .valueError (exceedsLimitMessage digits)

/-! ## The scanner -/

section Scanner

-- `len` is the length of the text being read: an error's position is where the text left at
-- the error starts.
variable (len : Nat)

/-- `raise_errmsg(msg, pystr, idx)`, `idx` being where the text `cs` starts. -/
def errorAt (msg : String) (cs : PyStr) : Raised := .decodeError msg (len - cs.length)

/-- `Py_UNICODE_JOIN_SURROGATES`. -/
def joinSurrogates (hi lo : Nat) : CodePoint :=
  .char (Char.ofNat ((((hi &&& 0x3ff) <<< 10) ||| (lo &&& 0x3ff)) + 0x10000))

/-- The code unit of the four hexadecimal digits of a `\uXXXX` escape; a surrogate is no
digit. -/
def hexUnit : CodePoint → CodePoint → CodePoint → CodePoint → Option Nat
  | .char a, .char b, .char c, .char d => hexValue a b c d
  | _, _, _, _ => none

/-- What one pass of the loop of `scanstring_unicode` reads at the head of the text left in a
string: the closing quote, one code point, or an error. -/
inductive Piece where
  | close (rest : PyStr)
  | code (c : CodePoint) (rest : PyStr)
  | fail (e : Raised)

/-- One pass of the loop of `scanstring_unicode` with `strict=True`, in a string opened at
`begin`. A code point below `0x20` is refused; any other, a lone surrogate too, is taken as it
is. A `\uXXXX` escape needs a code point after it, and a high surrogate is joined with a
`\uXXXX` low surrogate after it when seven code points follow. -/
def stringPiece (begin : Nat) : PyStr → Piece
  | [] => .fail (.decodeError "Unterminated string starting at" begin)
  | c :: cs =>
    if c = .char '"' then .close cs
    else if c = .char '\\' then
      match cs with
      | [] => .fail (.decodeError "Unterminated string starting at" begin)
      | e :: r =>
        if e = .char 'u' then
          match r with
          | a :: b :: c' :: d :: x :: rest =>
            match hexUnit a b c' d with
            | none => .fail (errorAt len "Invalid \\uXXXX escape" cs)
            | some hi =>
              if isHigh hi then
                match x :: rest with
                | .char '\\' :: .char 'u' :: e' :: f :: g :: h :: y :: rest' =>
                  match hexUnit e' f g h with
                  | none => .fail (errorAt len "Invalid \\uXXXX escape"
                      (.char 'u' :: e' :: f :: g :: h :: y :: rest'))
                  | some lo =>
                    if isLow lo then .code (joinSurrogates hi lo) (y :: rest')
                    else .code (.ofUnit hi) (x :: rest)
                | _ => .code (.ofUnit hi) (x :: rest)
              else .code (.ofUnit hi) (x :: rest)
          | _ => .fail (errorAt len "Invalid \\uXXXX escape" cs)
        else
          match e.toChar?.bind backslash.lookup with
          | some ch => .code (.char ch) r
          | none => .fail (errorAt len "Invalid \\escape" (c :: cs))
    else if c.val ≤ 0x1f then .fail (errorAt len "Invalid control character at" (c :: cs))
    else .code c cs

/-- `scanstring_unicode` after the opening quote at `begin`: the code points of the string and
the text after its closing quote. `fuel` bounds the passes of the loop; `scanOnce` gives more
than there are code points. -/
def scanString (begin : Nat) : Nat → PyStr → Except Raised (PyStr × PyStr)
  | 0, _ => .error (.decodeError "Unterminated string starting at" begin)
  | fuel + 1, cs =>
    match stringPiece len begin cs with
    | .close r => .ok ([], r)
    | .code c r => (scanString begin fuel r).map fun (s, r) => (c :: s, r)
    | .fail e => .error e

/-- A run of ASCII digits and what follows it. -/
def digitRun (cs : PyStr) : PyStr × PyStr :=
  (cs.takeWhile CodePoint.isDigit, cs.dropWhile CodePoint.isDigit)

/-- The integer part of a number: `0`, or a digit `1`–`9` and the digits after it. -/
def matchIntPart : PyStr → Option (PyStr × PyStr)
  | [] => none
  | c :: r =>
    if c = .char '0' then some ([c], r)
    else if c.isDigit then some (c :: (digitRun r).1, (digitRun r).2)
    else none

/-- A fraction: `.` and at least one digit; otherwise nothing is read. -/
def matchFrac : PyStr → PyStr × PyStr
  | .char '.' :: d :: r =>
    if d.isDigit then (.char '.' :: d :: (digitRun r).1, (digitRun r).2)
    else ([], .char '.' :: d :: r)
  | r => ([], r)

/-- A sign from `signs` at the head of `cs`, if one is there, and the text after it. -/
def matchSign (signs : List Char) : PyStr → PyStr × PyStr
  | c :: r => if c ∈ ofChars signs then ([c], r) else ([], c :: r)
  | [] => ([], [])

/-- An exponent: `e` or `E`, a sign, and at least one digit; otherwise the scanner backs off to
the `e`. -/
def matchExp : PyStr → PyStr × PyStr
  | e :: r =>
    if e = .char 'e' ∨ e = .char 'E' then
      let (sign, r') := matchSign ['+', '-'] r
      match digitRun r' with
      | ([], _) => ([], e :: r)
      | (ds, r'') => (e :: sign ++ ds, r'')
    else ([], e :: r)
  | [] => ([], [])

/-- `_match_number_unicode`: the text of the number at the head of `cs`, whether it is a
`float` (it has a fraction or an exponent), and the text after it. -/
def matchNumber (cs : PyStr) : Option (PyStr × Bool × PyStr) :=
  let (sign, r) := matchSign ['-'] cs
  (matchIntPart r).map fun (ip, r) =>
    let (frac, r) := matchFrac r
    let (exp, r) := matchExp r
    (sign ++ ip ++ frac ++ exp, !(frac.isEmpty && exp.isEmpty), r)

/-- The bytes `_match_number_unicode` copies a number's text into, a `(char)` cast of each code
point; the text is ASCII. -/
def numberText (text : PyStr) : List Char := text.map fun c => Char.ofNat c.val

/-- `PyDict_SetItem`: a new key goes last; a key already there keeps its place and takes the new
value. -/
def setItem (kvs : List (PyStr × Obj)) (k : PyStr) (v : Obj) : List (PyStr × Obj) :=
  match kvs.lookup k with
  | some _ => kvs.map fun p => if p.1 = k then (k, v) else p
  | none => kvs ++ [(k, v)]

/-- The loop of `_parse_array_unicode`: an item read with `value`, whitespace, then `]`, or `,`
and whitespace before the next item. `fuel` bounds the number of items; `parseArray` gives more
than there can be. -/
def parseItems (value : PyStr → Except Raised (Obj × PyStr)) :
    Nat → PyStr → Except Raised (List Obj × PyStr)
  | 0, cs => .error (errorAt len "Expecting value" cs)
  | fuel + 1, cs =>
    match value cs with
    | .error e => .error e
    | .ok (v, r) =>
      match r.dropWhile CodePoint.isWs with
      | .char ']' :: r' => .ok ([v], r')
      | .char ',' :: r' =>
        (parseItems value fuel (r'.dropWhile CodePoint.isWs)).map fun (vs, r'') => (v :: vs, r'')
      | r' => .error (errorAt len "Expecting ',' delimiter" r')

/-- `_parse_array_unicode` after the `[`. -/
def parseArray (value : PyStr → Except Raised (Obj × PyStr)) (cs : PyStr) :
    Except Raised (Obj × PyStr) :=
  match cs.dropWhile CodePoint.isWs with
  | .char ']' :: r => .ok (.list [], r)
  | r => (parseItems len value (r.length + 1) r).map fun (xs, r) => (.list xs, r)

/-- The loop of `_parse_object_unicode`, with the items read so far: a key, whitespace, `:`,
whitespace, a value read with `value`, whitespace, then `}`, or `,` and whitespace before the
next key. `fuel` bounds the number of items; `parseObject` gives more than there can be. -/
def parseEntries (value : PyStr → Except Raised (Obj × PyStr)) :
    Nat → List (PyStr × Obj) → PyStr → Except Raised (List (PyStr × Obj) × PyStr)
  | 0, _, cs => .error (errorAt len "Expecting property name enclosed in double quotes" cs)
  | fuel + 1, kvs, cs =>
    match cs with
    | .char '"' :: r =>
      match scanString len (len - cs.length) (r.length + 1) r with
      | .error e => .error e
      | .ok (k, r) =>
        match r.dropWhile CodePoint.isWs with
        | .char ':' :: r =>
          match value (r.dropWhile CodePoint.isWs) with
          | .error e => .error e
          | .ok (v, r) =>
            match r.dropWhile CodePoint.isWs with
            | .char '}' :: r' => .ok (setItem kvs k v, r')
            | .char ',' :: r' =>
              parseEntries value fuel (setItem kvs k v) (r'.dropWhile CodePoint.isWs)
            | r' => .error (errorAt len "Expecting ',' delimiter" r')
        | r' => .error (errorAt len "Expecting ':' delimiter" r')
    | _ => .error (errorAt len "Expecting property name enclosed in double quotes" cs)

/-- `_parse_object_unicode` after the `{`. -/
def parseObject (value : PyStr → Except Raised (Obj × PyStr)) (cs : PyStr) :
    Except Raised (Obj × PyStr) :=
  match cs.dropWhile CodePoint.isWs with
  | .char '}' :: r => .ok (.dict [], r)
  | r => (parseEntries len value (r.length + 1) [] r).map fun (kvs, r) => (.dict kvs, r)

/-- `_match_number_unicode` and the conversion it ends with: the `int` or `float` at the head of
`cs`, or `StopIteration` (`Expecting value`) where no number starts. -/
def scanNumber (cs : PyStr) : Except Raised (Obj × PyStr) :=
  match matchNumber cs with
  | none => .error (errorAt len "Expecting value" cs)
  | some (text, true, r) => .ok (.float ⟨numberText text⟩, r)
  | some (text, false, r) =>
    match longFromString (numberText text) with
    | .ok n => .ok (.int n, r)
    | .error e => .error e.toRaised

/-- `scan_once_unicode`, given how it reads the values inside a container: `none` when the
interpreter lets it open no more, and it raises `RecursionError` at a container. The value at the
head of `cs`, and the text after it. -/
def scanValue (inner : Option (PyStr → Except Raised (Obj × PyStr))) :
    PyStr → Except Raised (Obj × PyStr)
  | [] => .error (errorAt len "Expecting value" [])
  | c :: r =>
    if c = .char '"' then
      (scanString len (len - (r.length + 1)) (r.length + 1) r).map fun (s, r) => (.str s, r)
    else if c = .char '{' then
      match inner with
      | none => .error (.recursionError
          "maximum recursion depth exceeded while decoding a JSON object from a unicode string")
      | some value => parseObject len value r
    else if c = .char '[' then
      match inner with
      | none => .error (.recursionError
          "maximum recursion depth exceeded while decoding a JSON array from a unicode string")
      | some value => parseArray len value r
    else if (ofString "null").isPrefixOf (c :: r) then .ok (.none, r.drop 3)
    else if (ofString "true").isPrefixOf (c :: r) then .ok (.bool true, r.drop 3)
    else if (ofString "false").isPrefixOf (c :: r) then .ok (.bool false, r.drop 4)
    else if (ofString "NaN").isPrefixOf (c :: r) then .ok (.float "NaN", r.drop 2)
    else if (ofString "Infinity").isPrefixOf (c :: r) then .ok (.float "Infinity", r.drop 7)
    else if (ofString "-Infinity").isPrefixOf (c :: r) then .ok (.float "-Infinity", r.drop 8)
    else scanNumber len (c :: r)

/-- `scan_once_unicode` where the interpreter lets it open `budget` more containers. -/
def scanOnce : Nat → PyStr → Except Raised (Obj × PyStr)
  | 0 => scanValue len none
  | budget + 1 => scanValue len (some (scanOnce budget))

end Scanner

/-- `json.loads(s)`, where the interpreter lets the scanner open `budget` containers: a `str`
starting with a byte order mark is refused, then whitespace, one value, and nothing but
whitespace after it. -/
def loads (budget : Nat) (s : PyStr) : Except Raised Obj :=
  if (ofString "\uFEFF").isPrefixOf s then
    .error (.decodeError "Unexpected UTF-8 BOM (decode using utf-8-sig)" 0)
  else
    match scanOnce s.length budget (s.dropWhile CodePoint.isWs) with
    | .error e => .error e
    | .ok (v, r) =>
      match r.dropWhile CodePoint.isWs with
      | [] => .ok v
      | r' => .error (errorAt s.length "Extra data" r')

/-! ## Writing strings -/

/-- `ascii_escape_unichar` and `S_CHAR` of `_json`, on a code point: what `json.dumps` writes for
a character (`Json.escapeChar`), and `\uXXXX` for a surrogate. -/
def escapeCode : CodePoint → List Char
  | .char c => escapeChar c
  | .surrogate n _ => '\\' :: 'u' :: hex4 n

/-- `json.dumps(s)` for a `str`. -/
def encodeStr (s : PyStr) : List Char := '"' :: s.flatMap escapeCode ++ ['"']

/-- No high surrogate right before a low one. `json.loads` joins such a pair of escapes into one
code point, so the strings it reads from a text without lone surrogates never hold one
(`scanString_joined`), and exactly those strings read back from what `json.dumps` writes
(`scanString_encodeStr`). -/
def Joined (s : PyStr) : Prop := s.Chain' fun a b => ¬ (isHigh a.val = true ∧ isLow b.val = true)

/-- No lone surrogate: a `str` made of characters, as every text `json.dumps` writes is. -/
def NoSurrogate (cs : PyStr) : Prop := ∀ c ∈ cs, ∃ ch, c = .char ch

/-- Whether a pass of the loop after a `\uXXXX` high surrogate leaves it lone, the text after
it being `t`: `t` does not start with a `\uXXXX` escape of a low surrogate or of bad digits with
a code point after it. -/
def keepsHighLone : PyStr → Bool
  | .char '\\' :: .char 'u' :: e :: f :: g :: h :: _ :: _ =>
    (hexUnit e f g h).any fun lo => !isLow lo
  | _ => true

/-! ## Characters among code points -/

@[simp] theorem ofChars_nil : ofChars [] = [] := rfl

@[simp] theorem ofChars_cons (c : Char) (cs : List Char) :
    ofChars (c :: cs) = .char c :: ofChars cs := rfl

@[simp] theorem ofChars_append (a b : List Char) : ofChars (a ++ b) = ofChars a ++ ofChars b :=
  List.map_append _ _ _

@[simp] theorem length_ofChars (cs : List Char) : (ofChars cs).length = cs.length :=
  List.length_map _ _

@[simp] theorem val_char (c : Char) : (CodePoint.char c).val = c.toNat := rfl

theorem ofString_eq_nil {s : String} : ofString s = [] ↔ s = "" := by
  rw [ofString, ofChars, List.map_eq_nil_iff]
  exact ⟨fun h => String.ext h, fun h => h ▸ rfl⟩

/-- `strip` of a Lean string's code points is `Str.strip` of it. -/
theorem strip_ofString (s : String) : strip (ofString s) = ofString (Str.strip s) := by
  have hp : CodePoint.isspace ∘ CodePoint.char = Str.isspace := rfl
  rw [strip, ofString, ofChars, List.dropWhile_map, hp, ← List.map_reverse, List.dropWhile_map,
    hp, ← List.map_reverse]
  rfl

theorem toChars?_eq_some : ∀ {s : PyStr} {cs : List Char}, toChars? s = some cs ↔ s = ofChars cs
  | [], cs => by
    cases cs <;> simp [toChars?]
  | .char c :: s, cs => by
    rw [toChars?]
    cases cs with
    | nil => simp
    | cons d cs =>
      simp only [Option.map_eq_some', toChars?_eq_some, ofChars_cons, List.cons.injEq,
        CodePoint.char.injEq]
      constructor
      · rintro ⟨_, rfl, rfl, rfl⟩
        exact ⟨rfl, rfl⟩
      · rintro ⟨rfl, rfl⟩
        exact ⟨_, rfl, rfl, rfl⟩
  | .surrogate .. :: s, cs => by
    cases cs <;> simp [toChars?]

theorem noSurrogate_ofChars (cs : List Char) : NoSurrogate (ofChars cs) := fun _ hc => by
  obtain ⟨ch, -, rfl⟩ := List.mem_map.mp hc
  exact ⟨ch, rfl⟩

theorem NoSurrogate.suffix {a b : PyStr} (h : a <:+ b) (hb : NoSurrogate b) : NoSurrogate a :=
  fun c hc => hb c (h.subset hc)

theorem toNat_lt (c : Char) : c.toNat < 0x110000 := by
  have hv : c.toNat < 0xd800 ∨ (0xdfff < c.toNat ∧ c.toNat < 0x110000) := c.valid
  omega

theorem toNat_ofNat {n : Nat} (h : n.isValidChar) : (Char.ofNat n).toNat = n := by
  rw [Char.ofNat, dif_pos h]
  rfl

theorem isHigh_toNat (c : Char) : isHigh c.toNat = false := by
  have hv : c.toNat < 0xd800 ∨ (0xdfff < c.toNat ∧ c.toNat < 0x110000) := c.valid
  simp only [isHigh, Bool.and_eq_false_iff, decide_eq_false_iff_not]
  omega

theorem isLow_toNat (c : Char) : isLow c.toNat = false := by
  have hv : c.toNat < 0xd800 ∨ (0xdfff < c.toNat ∧ c.toNat < 0x110000) := c.valid
  simp only [isLow, Bool.and_eq_false_iff, decide_eq_false_iff_not]
  omega

theorem ofUnit_surrogate {n : Nat} (h : 0xd800 ≤ n ∧ n < 0xe000) :
    CodePoint.ofUnit n = .surrogate n h :=
  dif_pos h

theorem ofUnit_toNat (c : Char) : CodePoint.ofUnit c.toNat = .char c := by
  have hv : c.toNat < 0xd800 ∨ (0xdfff < c.toNat ∧ c.toNat < 0x110000) := c.valid
  rw [CodePoint.ofUnit, dif_neg (by omega), Char.ofNat_toNat]

theorem val_ofUnit {n : Nat} (hn : n < 0x10000) : (CodePoint.ofUnit n).val = n := by
  unfold CodePoint.ofUnit
  split_ifs with h
  · rfl
  · exact toNat_ofNat (by unfold Nat.isValidChar; omega)

theorem and_low_bits {a x : Nat} (hx : x < 1024) : (1024 * a + x) &&& 0x3ff = x := by
  rw [show 0x3ff = 2 ^ 10 - 1 from rfl, Nat.and_pow_two_sub_one_eq_mod]
  omega

@[simp] theorem hexUnit_char (a b c d : Char) :
    hexUnit (.char a) (.char b) (.char c) (.char d) = hexValue a b c d := rfl

theorem joinSurrogates_pair {m : Nat} (hm : m < 0x100000) :
    joinSurrogates (0xd800 + m / 1024) (0xdc00 + m % 1024) = .char (Char.ofNat (m + 0x10000)) := by
  rw [joinSurrogates, show 0xd800 = 1024 * 54 from rfl, show 0xdc00 = 1024 * 55 from rfl,
    and_low_bits (by omega), and_low_bits (by omega), combine_surrogates]

theorem joinSurrogates_val (hi lo : Nat) :
    (joinSurrogates hi lo).val = 1024 * (hi &&& 0x3ff) + (lo &&& 0x3ff) + 0x10000 := by
  have h₁ : hi &&& 0x3ff < 1024 := Nat.lt_succ_of_le Nat.and_le_right
  have h₂ : lo &&& 0x3ff < 1024 := Nat.lt_succ_of_le Nat.and_le_right
  rw [joinSurrogates, val_char, Nat.shiftLeft_eq, Nat.mul_comm, show 2 ^ 10 = 1024 from rfl,
    or_eq_add h₂]
  exact toNat_ofNat (by unfold Nat.isValidChar; omega)

theorem hexVal_lt {x : Char} {k : Nat} (h : hexVal x = some k) : k < 16 := by
  unfold hexVal at h
  split_ifs at h with h₁ h₂ h₃ <;> cases h
  · have : x.toNat ≤ 57 := h₁.2
    omega
  · have : 97 ≤ x.toNat := h₂.1
    have : x.toNat ≤ 102 := h₂.2
    omega
  · have : 65 ≤ x.toNat := h₃.1
    have : x.toNat ≤ 70 := h₃.2
    omega

theorem hexUnit_lt {a b c d : CodePoint} {n : Nat} (h : hexUnit a b c d = some n) :
    n < 0x10000 := by
  unfold hexUnit at h
  split at h
  · simp only [hexValue, Option.pure_def, Option.bind_eq_bind, Option.bind_eq_some,
      Option.some.injEq] at h
    obtain ⟨a', ha, b', hb, c', hc, d', hd, rfl⟩ := h
    have := hexVal_lt ha
    have := hexVal_lt hb
    have := hexVal_lt hc
    have := hexVal_lt hd
    omega
  · cases h

/-! ## Reading back a written string -/

section Pieces

variable {len begin : Nat}

theorem stringPiece_printable {c : Char} (t : PyStr) (hp : ' ' ≤ c ∧ c ≤ '~') (hq : c ≠ '"')
    (hb : c ≠ '\\') : stringPiece len begin (.char c :: t) = .code (.char c) t := by
  have h32 : ¬ c.toNat ≤ 0x1f := by
    have : (32 : Nat) ≤ c.toNat := hp.1
    omega
  simp only [stringPiece, CodePoint.char.injEq, if_neg hq, if_neg hb, val_char, if_neg h32]

theorem stringPiece_named {c e : Char} (t : PyStr) (hu : e ≠ 'u')
    (he : backslash.lookup e = some c) :
    stringPiece len begin (.char '\\' :: .char e :: t) = .code (.char c) t := by
  simp only [stringPiece, CodePoint.char.injEq, if_neg (show '\\' ≠ '"' by decide), if_true,
    if_neg hu, CodePoint.toChar?, Option.some_bind, he]

/-- A `\uXXXX` escape of a code unit that does not start a pair, with a code point after it. -/
theorem stringPiece_hex4 {n : Nat} {t : PyStr} (hn : n < 0x10000) (hhi : isHigh n = false)
    (ht : t ≠ []) :
    stringPiece len begin (ofChars ('\\' :: 'u' :: hex4 n) ++ t) = .code (.ofUnit n) t := by
  obtain ⟨x, rest, rfl⟩ := List.exists_cons_of_ne_nil ht
  simp only [hex4, ofChars_cons, ofChars_nil, List.cons_append, List.nil_append, stringPiece,
    CodePoint.char.injEq, if_neg (show '\\' ≠ '"' by decide), if_true, hexUnit_char,
    hexValue_hex4 hn, hhi, Bool.false_eq_true, if_false]

/-- A lone high surrogate's escape, before a text that keeps it lone. -/
theorem stringPiece_high {n : Nat} {t : PyStr} (hn : n < 0x10000) (hhi : isHigh n = true)
    (ht : t ≠ []) (hkeep : keepsHighLone t = true) :
    stringPiece len begin (ofChars ('\\' :: 'u' :: hex4 n) ++ t) = .code (.ofUnit n) t := by
  obtain ⟨x, rest, rfl⟩ := List.exists_cons_of_ne_nil ht
  simp only [hex4, ofChars_cons, ofChars_nil, List.cons_append, List.nil_append, stringPiece,
    CodePoint.char.injEq, if_neg (show '\\' ≠ '"' by decide), if_true, hexUnit_char,
    hexValue_hex4 hn, hhi]
  split
  · next e' f g h y rest' heq =>
    rw [heq, keepsHighLone] at hkeep
    cases hv : hexUnit e' f g h with
    | none => simp [hv] at hkeep
    | some lo =>
      simp only [hv, Option.any_some, Bool.not_eq_true'] at hkeep
      simp only [hkeep, Bool.false_eq_true, if_false, heq]
  · rfl

/-- A pair of escapes of a high and a low surrogate, with a code point after it. -/
theorem stringPiece_surrogates {hi lo : Nat} {t : PyStr} (hhi : hi < 0x10000)
    (hlo : lo < 0x10000) (hh : isHigh hi = true) (hl : isLow lo = true) (ht : t ≠ []) :
    stringPiece len begin (ofChars ('\\' :: 'u' :: hex4 hi ++ '\\' :: 'u' :: hex4 lo) ++ t) =
      .code (joinSurrogates hi lo) t := by
  obtain ⟨y, rest, rfl⟩ := List.exists_cons_of_ne_nil ht
  simp only [hex4, ofChars_cons, ofChars_nil, List.cons_append, List.nil_append, stringPiece,
    CodePoint.char.injEq, if_neg (show '\\' ≠ '"' by decide), if_true, hexUnit_char,
    hexValue_hex4 hhi, hexValue_hex4 hlo, hh, hl]

/-- A code point above `0xFFFF`, written as a pair of escapes. -/
theorem stringPiece_pair {c : Char} {t : PyStr} (hc : ¬ c.toNat < 0x10000) (ht : t ≠ []) :
    stringPiece len begin
        (ofChars ('\\' :: 'u' :: hex4 (0xd800 ||| (((c.toNat - 0x10000) >>> 10) &&& 0x3ff)) ++
          '\\' :: 'u' :: hex4 (0xdc00 ||| ((c.toNat - 0x10000) &&& 0x3ff))) ++ t) =
      .code (.char c) t := by
  have hm : c.toNat - 0x10000 < 0x100000 := by have := toNat_lt c; omega
  rw [high_surrogate hm, low_surrogate, stringPiece_surrogates (by omega) (by omega)
    (by simp [isHigh]; omega) (by simp [isLow]; omega) ht, joinSurrogates_pair hm,
    Nat.sub_add_cancel (Nat.le_of_not_lt hc), Char.ofNat_toNat]

theorem stringPiece_escapeChar (c : Char) {t : PyStr} (ht : t ≠ []) :
    stringPiece len begin (ofChars (escapeChar c) ++ t) = .code (.char c) t := by
  unfold escapeChar
  cases he : escapeDct.lookup c with
  | some e =>
    obtain ⟨l₁, l₂, hl, -⟩ := List.lookup_eq_some_iff.mp he
    obtain ⟨hu, hb⟩ :=
      backslash_escapeDct (c, e) (hl ▸ List.mem_append_right _ (List.mem_cons_self _ _))
    exact stringPiece_named t hu hb
  | none =>
    have hne : c ≠ '\\' ∧ c ≠ '"' := by
      simp only [List.lookup_eq_none_iff, escapeDct, List.mem_cons] at he
      exact ⟨fun h => by simp [h] at he, fun h => by simp [h] at he⟩
    dsimp only
    by_cases hp : ' ' ≤ c ∧ c ≤ '~'
    · rw [if_pos hp]
      exact stringPiece_printable t hp hne.2 hne.1
    · rw [if_neg hp]
      by_cases hb : c.toNat < 0x10000
      · rw [if_pos hb, stringPiece_hex4 hb (isHigh_toNat c) ht, ofUnit_toNat]
      · rw [if_neg hb]
        exact stringPiece_pair hb ht

/-- One written code point reads back, when what follows it is not empty, and keeps a lone high
surrogate lone. -/
theorem stringPiece_escapeCode (c : CodePoint) {t : PyStr} (ht : t ≠ [])
    (hkeep : isHigh c.val = true → keepsHighLone t = true) :
    stringPiece len begin (ofChars (escapeCode c) ++ t) = .code c t := by
  cases c with
  | char c => exact stringPiece_escapeChar c ht
  | surrogate n h =>
    have hn : n < 0x10000 := by omega
    cases hhi : isHigh n
    · rw [escapeCode, stringPiece_hex4 hn hhi ht, ofUnit_surrogate h]
    · rw [escapeCode, stringPiece_high hn hhi ht (hkeep hhi), ofUnit_surrogate h]

theorem keepsHighLone_hex4 {n : Nat} (hn : n < 0x10000) (hlo : isLow n = false) (t : PyStr) :
    keepsHighLone (ofChars ('\\' :: 'u' :: hex4 n) ++ t) = true := by
  cases t with
  | nil => rfl
  | cons y t =>
    simp only [hex4, ofChars_cons, ofChars_nil, List.cons_append, List.nil_append, keepsHighLone,
      hexUnit_char, hexValue_hex4 hn, Option.any_some, hlo, Bool.not_false]

theorem keepsHighLone_cons {c : CodePoint} (hc : c ≠ .char '\\') (t : PyStr) :
    keepsHighLone (c :: t) = true := by
  unfold keepsHighLone
  split
  · exact absurd (List.cons.inj ‹_›).1 hc
  · rfl

/-- What follows a written code point that is not a low surrogate keeps a high surrogate before
it lone. -/
theorem keepsHighLone_escapeCode {d : CodePoint} (hd : isLow d.val = false) (t : PyStr) :
    keepsHighLone (ofChars (escapeCode d) ++ t) = true := by
  cases d with
  | surrogate n h => exact keepsHighLone_hex4 (n := n) (by omega) hd t
  | char c =>
    show keepsHighLone (ofChars (escapeChar c) ++ t) = true
    unfold escapeChar
    split
    · next e he =>
      obtain ⟨l₁, l₂, hl, -⟩ := List.lookup_eq_some_iff.mp he
      obtain ⟨hu, -⟩ :=
        backslash_escapeDct (_, e) (hl ▸ List.mem_append_right _ (List.mem_cons_self _ _))
      unfold keepsHighLone
      split
      · next heq =>
        simp only [ofChars_cons, ofChars_nil, List.cons_append, List.nil_append,
          List.cons.injEq, CodePoint.char.injEq] at heq
        exact absurd heq.2.1 hu
      · rfl
    · next he =>
      dsimp only
      split_ifs with hp hb
      · refine keepsHighLone_cons (fun h => ?_) t
        rw [CodePoint.char.injEq] at h
        rw [h] at he
        simp [escapeDct] at he
      · exact keepsHighLone_hex4 hb (isLow_toNat _) t
      · have hm : c.toNat - 0x10000 < 0x100000 := by have := toNat_lt c; omega
        rw [high_surrogate hm, ofChars_append, List.append_assoc]
        exact keepsHighLone_hex4 (by omega) (by simp [isLow]; omega) _

/-- What a pass of the loop reads when it reads a code point: a code point as it stands, a
character behind a backslash, a `\uXXXX` escape with a code point after it, keeping a high
surrogate lone, or a pair of such escapes of a high and a low surrogate. -/
theorem stringPiece_eq_code {cs t : PyStr} {c : CodePoint}
    (h : stringPiece len begin cs = .code c t) :
    cs = c :: t ∨
    (∃ ch e, c = .char ch ∧ cs = .char '\\' :: e :: t) ∨
    (∃ a b c' d hi, cs = .char '\\' :: .char 'u' :: a :: b :: c' :: d :: t ∧ t ≠ [] ∧
      hexUnit a b c' d = some hi ∧ c = .ofUnit hi ∧
      (isHigh hi = true → keepsHighLone t = true)) ∨
    (∃ hi lo, isHigh hi = true ∧ isLow lo = true ∧ c = joinSurrogates hi lo ∧
      ∃ p : PyStr, cs = p ++ t ∧ p.length = 12) := by
  match cs, h with
  | c₀ :: cs, h =>
    by_cases hq : c₀ = .char '"'
    · simp [stringPiece, hq] at h
    by_cases hb : c₀ = .char '\\'
    · subst hb
      simp only [stringPiece, if_neg hq, if_true] at h
      split at h
      · cases h
      · next e r =>
        split_ifs at h with hu
        · subst hu
          split at h
          · next a b c' d x rest =>
            split at h
            · cases h
            · next hi hhex =>
              split_ifs at h with hhi
              · split at h
                · next e' f g h' y rest' heq =>
                  split at h
                  · cases h
                  · next lo hlo =>
                    split_ifs at h with hl
                    · simp only [Piece.code.injEq] at h
                      obtain ⟨rfl, rfl⟩ := h
                      exact .inr (.inr (.inr ⟨hi, lo, hhi, hl, rfl,
                        [.char '\\', .char 'u', a, b, c', d, .char '\\', .char 'u', e', f, g, h'],
                        by rw [heq]; rfl, rfl⟩))
                    · cases h
                      refine .inr (.inr (.inl ⟨a, b, c', d, hi, rfl, List.cons_ne_nil _ _, hhex,
                        rfl, fun _ => ?_⟩))
                      rw [heq, keepsHighLone, hlo]
                      simpa using hl
                · next hne =>
                  cases h
                  refine .inr (.inr (.inl ⟨a, b, c', d, hi, rfl, List.cons_ne_nil _ _, hhex, rfl,
                    fun _ => ?_⟩))
                  unfold keepsHighLone
                  split
                  · next e' f g h' y rest' heq => exact absurd heq (hne e' f g h' y rest')
                  · rfl
              · cases h
                exact .inr (.inr (.inl ⟨a, b, c', d, hi, rfl, List.cons_ne_nil _ _, hhex, rfl,
                  fun h => absurd h hhi⟩))
          · cases h
        · split at h
          · next ch _ =>
            cases h
            exact .inr (.inl ⟨ch, e, rfl, rfl⟩)
          · cases h
    by_cases hctl : c₀.val ≤ 0x1f
    · simp [stringPiece, hq, hb, hctl] at h
    · simp only [stringPiece, hq, hb, hctl, if_false, Piece.code.injEq] at h
      obtain ⟨rfl, rfl⟩ := h
      exact .inl rfl

/-- The text left after a code point is a suffix of the text it was read from. -/
theorem stringPiece_suffix {cs t : PyStr} {c : CodePoint}
    (h : stringPiece len begin cs = .code c t) : t <:+ cs := by
  rcases stringPiece_eq_code h with rfl | ⟨ch, e, -, rfl⟩ | ⟨a, b, c', d, hi, rfl, -⟩ |
    ⟨hi, lo, -, -, -, p, rfl, -⟩
  · exact List.suffix_cons _ _
  · exact (List.suffix_cons _ _).trans (List.suffix_cons _ _)
  · exact ⟨[.char '\\', .char 'u', a, b, c', d], rfl⟩
  · exact List.suffix_append p t

/-- From a text without lone surrogates, a pass of the loop reads a low surrogate only from a
`\uXXXX` escape of it. -/
theorem stringPiece_low {cs t : PyStr} {d : CodePoint} (hcs : NoSurrogate cs)
    (h : stringPiece len begin cs = .code d t) (hd : isLow d.val = true) :
    ∃ a b c' e y rest, cs = .char '\\' :: .char 'u' :: a :: b :: c' :: e :: y :: rest ∧
      hexUnit a b c' e = some d.val := by
  rcases stringPiece_eq_code h with rfl | ⟨ch, e, rfl, -⟩ |
    ⟨a, b, c', e, hi, rfl, ht, hhex, rfl, -⟩ | ⟨hi, lo, -, -, rfl, -⟩
  · obtain ⟨ch, rfl⟩ := hcs d (List.mem_cons_self d t)
    rw [val_char, isLow_toNat] at hd
    cases hd
  · rw [val_char, isLow_toNat] at hd
    cases hd
  · obtain ⟨y, rest, rfl⟩ := List.exists_cons_of_ne_nil ht
    exact ⟨a, b, c', e, y, rest, rfl, by rw [val_ofUnit (hexUnit_lt hhex)]; exact hhex⟩
  · rw [joinSurrogates_val] at hd
    simp only [isLow, Bool.and_eq_true, decide_eq_true_eq] at hd
    omega

/-- From a text without lone surrogates, a pass of the loop that reads a high surrogate leaves a
text that keeps it lone. -/
theorem stringPiece_high_lone {cs t : PyStr} {c : CodePoint} (hcs : NoSurrogate cs)
    (h : stringPiece len begin cs = .code c t) (hc : isHigh c.val = true) :
    keepsHighLone t = true := by
  rcases stringPiece_eq_code h with rfl | ⟨ch, e, rfl, -⟩ |
    ⟨a, b, c', e, hi, -, -, hhex, rfl, hkeep⟩ | ⟨hi, lo, -, -, rfl, -⟩
  · obtain ⟨ch, rfl⟩ := hcs c (List.mem_cons_self c t)
    rw [val_char, isHigh_toNat] at hc
    cases hc
  · rw [val_char, isHigh_toNat] at hc
    cases hc
  · exact hkeep (by rwa [val_ofUnit (hexUnit_lt hhex)] at hc)
  · rw [joinSurrogates_val] at hc
    simp only [isHigh, Bool.and_eq_true, decide_eq_true_eq] at hc
    omega

theorem stringPiece_close {cs r : PyStr} (h : stringPiece len begin cs = .close r) :
    cs = .char '"' :: r := by
  match cs, h with
  | c₀ :: cs, h =>
    simp only [stringPiece] at h
    rcases ite_eq_iff.mp h with ⟨rfl, h⟩ | ⟨-, h⟩
    · cases h
      rfl
    · rcases ite_eq_iff.mp h with ⟨-, h⟩ | ⟨-, h⟩
      · repeat' split at h
        all_goals cases h
      · split at h <;> cases h

theorem scanString_eq_ok {fuel : Nat} {cs : PyStr} {s : PyStr} {r : PyStr}
    (h : scanString len begin (fuel + 1) cs = .ok (s, r)) :
    (stringPiece len begin cs = .close r ∧ s = []) ∨
    ∃ c t s₁, stringPiece len begin cs = .code c t ∧ scanString len begin fuel t = .ok (s₁, r) ∧
      s = c :: s₁ := by
  unfold scanString at h
  split at h
  · next r' hp =>
    cases h
    exact .inl ⟨hp, rfl⟩
  · next c t hp =>
    cases hs : scanString len begin fuel t with
    | error e => rw [hs] at h; cases h
    | ok p =>
      rw [hs] at h
      cases h
      exact .inr ⟨c, t, p.1, hp, hs, rfl⟩
  · cases h

/-- The text after a string is a suffix of the text it was read from. -/
theorem scanString_suffix : ∀ {fuel : Nat} {cs s r : PyStr},
    scanString len begin fuel cs = .ok (s, r) → r <:+ cs
  | 0, _, _, _, h => by cases h
  | fuel + 1, cs, s, r, h => by
    rcases scanString_eq_ok h with ⟨hp, -⟩ | ⟨c, t, s₁, hc, hs₁, -⟩
    · rw [stringPiece_close hp]
      exact List.suffix_cons _ _
    · exact (scanString_suffix hs₁).trans (stringPiece_suffix hc)

/-- The body of a written string reads back as the string, when it is `Joined`. -/
theorem scanString_encodeStr : ∀ {s : PyStr}, Joined s → ∀ (r : PyStr) (fuel : Nat),
    s.length < fuel →
      scanString len begin fuel (ofChars (s.flatMap escapeCode) ++ .char '"' :: r) = .ok (s, r)
  | [], _, r, fuel + 1, _ => by simp [scanString, stringPiece]
  | c :: s, hs, r, fuel + 1, hf => by
    rw [Joined, List.chain'_cons'] at hs
    have hkeep : isHigh c.val = true →
        keepsHighLone (ofChars (s.flatMap escapeCode) ++ .char '"' :: r) = true := fun hc => by
      cases s with
      | nil => exact keepsHighLone_cons (by decide) r
      | cons d s =>
        have hd : isLow d.val = false := by simpa [hc] using hs.1 d rfl
        rw [List.flatMap_cons, ofChars_append, List.append_assoc]
        exact keepsHighLone_escapeCode hd _
    rw [List.flatMap_cons, ofChars_append, List.append_assoc, scanString,
      stringPiece_escapeCode c (by simp) hkeep]
    dsimp only
    rw [scanString_encodeStr hs.2 r fuel (by simpa using hf)]
    rfl

/-- The strings `json.loads` reads from a text without lone surrogates hold no high surrogate
right before a low one. -/
theorem scanString_joined : ∀ {fuel : Nat} {cs s r : PyStr}, NoSurrogate cs →
    scanString len begin fuel cs = .ok (s, r) → Joined s
  | 0, _, _, _, _, h => by cases h
  | fuel + 1, cs, s, r, hcs, h => by
    rcases scanString_eq_ok h with ⟨-, rfl⟩ | ⟨c, t, s₁, hc, hs₁, rfl⟩
    · exact List.chain'_nil
    · have ht := hcs.suffix (stringPiece_suffix hc)
      refine List.chain'_cons'.mpr ⟨fun d hd ⟨hhi, hlo⟩ => ?_, scanString_joined ht hs₁⟩
      obtain ⟨s₂, rfl⟩ : ∃ s₂, s₁ = d :: s₂ := ⟨s₁.tail, by cases s₁ <;> simp_all⟩
      cases fuel with
      | zero => cases hs₁
      | succ fuel =>
        rcases scanString_eq_ok hs₁ with ⟨-, h'⟩ | ⟨d', t', s₃, hd, -, hds⟩
        · cases h'
        · cases hds
          obtain ⟨a, b, c', e, y, rest, rfl, hhex⟩ := stringPiece_low ht hd hlo
          have hkeep := stringPiece_high_lone hcs hc hhi
          simp [keepsHighLone, hhex, hlo] at hkeep

end Pieces
/-! ## Reading back a written integer -/

/-- What may follow a written number: nothing that would extend it, that is no digit, and no
`.`, `e` or `E` that would start a fraction or an exponent. -/
def NumberStop (r : PyStr) : Prop :=
  ∀ c ∈ r.head?, c.isDigit = false ∧ c ≠ .char '.' ∧ c ≠ .char 'e' ∧ c ≠ .char 'E'

/-- An integer that `int()` writes back from at most `maxStrDigits` digits. -/
def Fits (n : Int) : Prop := (natRepr n.natAbs).length ≤ maxStrDigits

theorem numberStop_cons {c : Char} (hc : c.isDigit = false) (hd : c ≠ '.') (he : c ≠ 'e')
    (hE : c ≠ 'E') (r : PyStr) : NumberStop (.char c :: r) := by
  rintro d ⟨⟩
  exact ⟨hc, mt CodePoint.char.inj hd, mt CodePoint.char.inj he, mt CodePoint.char.inj hE⟩

theorem matchFrac_of_stop {r : PyStr} (hr : NumberStop r) : matchFrac r = ([], r) := by
  unfold matchFrac
  split
  · exact absurd rfl (hr _ rfl).2.1
  · rfl

theorem matchExp_of_stop {r : PyStr} (hr : NumberStop r) : matchExp r = ([], r) := by
  cases r with
  | nil => rfl
  | cons e r =>
    have he := hr e rfl
    simp only [matchExp]
    rw [if_neg (by rintro (rfl | rfl) <;> simp at he)]

/-- A run of written digits, before a text that does not start with a digit. -/
theorem digitRun_ofChars {ds : List Char} (hds : ∀ d ∈ ds, d.isDigit = true) {r : PyStr}
    (hr : ∀ c ∈ r.head?, c.isDigit = false) : digitRun (ofChars ds ++ r) = (ofChars ds, r) := by
  have hall : ∀ c ∈ ofChars ds, c.isDigit = true := fun c hc => by
    obtain ⟨d, hd, rfl⟩ := List.mem_map.mp hc
    exact hds d hd
  have hnil : r.takeWhile CodePoint.isDigit = [] ∧ r.dropWhile CodePoint.isDigit = r := by
    cases r with
    | nil => exact ⟨rfl, rfl⟩
    | cons c r => simp [hr c rfl]
  rw [digitRun, List.takeWhile_append_of_pos hall, List.dropWhile_append_of_pos hall, hnil.1,
    hnil.2, List.append_nil]

theorem matchIntPart_natRepr (m : Nat) {r : PyStr} (hr : ∀ c ∈ r.head?, c.isDigit = false) :
    matchIntPart (ofChars (natRepr m) ++ r) = some (ofChars (natRepr m), r) := by
  by_cases hm : m = 0
  · subst hm
    rfl
  · obtain ⟨c, cs, hcs, hc0⟩ := natRepr_cons hm
    have hdig : ∀ x ∈ natRepr m, x.isDigit = true := fun _ => isDigit_of_mem_natRepr
    have hc : (CodePoint.char c).isDigit = true := hdig c (hcs ▸ List.mem_cons_self c cs)
    rw [hcs, ofChars_cons, List.cons_append, matchIntPart, if_neg (mt CodePoint.char.inj hc0),
      if_pos hc, digitRun_ofChars (fun x hx => hdig x (hcs ▸ List.mem_cons_of_mem c hx)) hr]

theorem matchNumber_intRepr (n : Int) {r : PyStr} (hr : NumberStop r) :
    matchNumber (ofChars (intRepr n) ++ r) = some (ofChars (intRepr n), false, r) := by
  have hend : ∀ c ∈ r.head?, c.isDigit = false := fun c hc => (hr c hc).1
  obtain ⟨c, cs, hcs⟩ := List.exists_cons_of_ne_nil (natRepr_ne_nil n.natAbs)
  have hc : c.isDigit = true := isDigit_of_mem_natRepr (hcs ▸ List.mem_cons_self c cs)
  have hsign : matchSign ['-'] (ofChars (intRepr n) ++ r) =
      (ofChars (if n < 0 then ['-'] else []), ofChars (natRepr n.natAbs) ++ r) := by
    unfold intRepr
    split_ifs
    · simp [matchSign]
    · have hc' : c ≠ '-' := by
        rintro rfl
        contradiction
      simp [matchSign, hcs, hc']
  unfold matchNumber
  rw [hsign]
  simp only [matchIntPart_natRepr _ hend, Option.map_some', matchFrac_of_stop hr,
    matchExp_of_stop hr, List.append_nil, intRepr, ofChars_append]
  rfl

theorem isAsciiSpace_of_isDigit {c : Char} (hc : c.isDigit = true) : isAsciiSpace c = false := by
  rw [Bool.eq_false_iff]
  intro h
  simp only [isAsciiSpace, Bool.or_eq_true, decide_eq_true_eq] at h
  rcases h with ((((rfl | rfl) | rfl) | rfl) | rfl) | rfl <;> revert hc <;> decide

theorem readSign_of_isDigit {c : Char} (hc : c.isDigit = true) (cs : List Char) :
    readSign (c :: cs) = (false, c :: cs) := by
  unfold readSign
  split
  · next r h => exact absurd ((List.cons.inj h).1 ▸ hc) (by decide)
  · next r h => exact absurd ((List.cons.inj h).1 ▸ hc) (by decide)
  · rfl

theorem longFromString_natRepr (m : Nat) (negative : Bool)
    (hm : (natRepr m).length ≤ maxStrDigits) :
    longFromString ((if negative then ['-'] else []) ++ natRepr m) =
      .ok (if negative then -(m : Int) else m) := by
  have hdig : ∀ x ∈ natRepr m, x.isDigit = true := fun _ => isDigit_of_mem_natRepr
  obtain ⟨c, cs, hcs⟩ := List.exists_cons_of_ne_nil (natRepr_ne_nil m)
  have hc := hdig c (hcs ▸ List.mem_cons_self c cs)
  have hrun : (natRepr m).takeWhile isDigitOrUnderscore = natRepr m :=
    List.takeWhile_eq_self_iff.mpr fun x hx => by simp [isDigitOrUnderscore, hdig x hx]
  have hdrop : (natRepr m).dropWhile isDigitOrUnderscore = [] :=
    List.dropWhile_eq_nil_iff.mpr fun x hx => by simp [isDigitOrUnderscore, hdig x hx]
  have hfilter : (natRepr m).filter Char.isDigit = natRepr m := List.filter_eq_self.mpr hdig
  have hus : ¬ ((natRepr m).head? = some '_' ∨ ['_', '_'] <:+: natRepr m ∨
      (natRepr m).getLast? = some '_') := by
    rintro (h | h | h)
    · rw [hcs] at h
      cases h
      exact absurd hc (by decide)
    · exact absurd (hdig '_' (h.subset (List.mem_cons_self _ _))) (by decide)
    · exact absurd (hdig '_' (List.mem_of_getLast?_eq_some h)) (by decide)
  have hsign : readSign ((natRepr m).dropWhile isAsciiSpace) = (false, natRepr m) := by
    rw [hcs, List.dropWhile_cons_of_neg (by simp [isAsciiSpace_of_isDigit hc]),
      readSign_of_isDigit hc]
  have hvalue := digitsValue_natRepr m
  cases negative
  · simp only [Bool.false_eq_true, if_false, List.nil_append, longFromString, hsign, hrun, hdrop,
      hfilter, if_neg hus, if_neg (Nat.not_lt.mpr hm), natRepr_ne_nil, List.dropWhile_nil,
      ne_eq, not_true_eq_false, or_self, hvalue]
  · simp only [if_true, List.singleton_append, longFromString,
      List.dropWhile_cons_of_neg (show ¬ isAsciiSpace '-' = true by decide), readSign, hrun,
      hdrop, hfilter, if_neg hus, if_neg (Nat.not_lt.mpr hm), natRepr_ne_nil, List.dropWhile_nil,
      ne_eq, not_true_eq_false, or_self, hvalue, if_false]

/-- `int()` reads back what `str()` writes of an integer of at most `maxStrDigits` digits. -/
theorem longFromString_intRepr {n : Int} (hn : Fits n) : longFromString (intRepr n) = .ok n := by
  unfold intRepr
  split_ifs with hneg
  · have := longFromString_natRepr n.natAbs true hn
    simp only [if_true] at this
    rw [this, Int.ofNat_natAbs_of_nonpos (Int.le_of_lt hneg), Int.neg_neg]
  · have := longFromString_natRepr n.natAbs false hn
    simp only [Bool.false_eq_true, if_false] at this
    rw [this, Int.natAbs_of_nonneg (Int.not_lt.mp hneg)]

theorem digitsValue_lt {ds : List Char} (hds : ∀ d ∈ ds, d.isDigit = true) :
    digitsValue ds < 10 ^ ds.length := by
  suffices h : ∀ acc, ds.foldl (fun acc d => 10 * acc + (d.toNat - 48)) acc <
      (acc + 1) * 10 ^ ds.length by simpa using h 0
  induction ds with
  | nil => simp
  | cons d ds ih =>
    intro acc
    have hd : d.toNat - 48 < 10 := by
      have h := hds d (List.mem_cons_self d ds)
      simp only [Char.isDigit, Bool.and_eq_true, decide_eq_true_eq] at h
      have : d.toNat ≤ 57 := h.2
      omega
    calc _ < (10 * acc + (d.toNat - 48) + 1) * 10 ^ ds.length :=
          ih (fun e he => hds e (List.mem_cons_of_mem d he)) _
      _ ≤ (acc + 1) * 10 * 10 ^ ds.length := Nat.mul_le_mul_right _ (by omega)
      _ = (acc + 1) * 10 ^ (ds.length + 1) := by rw [pow_succ]; ring

/-- The value of a run of digits needs no more digits than the run has. -/
theorem length_natRepr_digitsValue {ds : List Char} (hds : ∀ d ∈ ds, d.isDigit = true)
    (hne : ds ≠ []) : (natRepr (digitsValue ds)).length ≤ ds.length := by
  have hlt := digitsValue_lt hds
  unfold natRepr
  split_ifs with h0
  · exact List.length_pos.mpr hne
  · rw [List.length_map, List.length_reverse]
    have hpow := Nat.base_pow_length_digits_le 10 _ (by norm_num) h0
    have : 10 ^ (Nat.digits 10 (digitsValue ds)).length < 10 ^ (ds.length + 1) := by
      rw [pow_succ]
      omega
    exact Nat.lt_succ_iff.mp ((Nat.pow_lt_pow_iff_right (by norm_num)).mp this)

/-- What `PyLong_FromString` accepts has at most `maxStrDigits` digits. -/
theorem longFromString_fits {text : List Char} {n : Int} (h : longFromString text = .ok n) :
    Fits n := by
  unfold longFromString at h
  generalize readSign (text.dropWhile isAsciiSpace) = p at h
  obtain ⟨negative, t⟩ := p
  dsimp only at h
  split_ifs at h with h₁ h₂ h₃ <;> cases h <;>
  · have hlen := length_natRepr_digitsValue (fun d hd => (List.mem_filter.mp hd).2)
      fun h => h₃ (Or.inl h)
    simp only [Fits, Int.natAbs_neg, Int.natAbs_ofNat]
    omega

/-- Every integer `int()` returns has at most `maxStrDigits` digits. -/
theorem int_fits {s : PyStr} {n : Int} (h : int s = .ok n) : Fits n := longFromString_fits h

theorem transformDecimalAndSpaceToAscii_of_ascii :
    ∀ {cs : List Char}, (∀ c ∈ cs, c.toNat < 127) →
      transformDecimalAndSpaceToAscii (ofChars cs) = cs
  | [], _ => rfl
  | c :: cs, h => by
    have hc : toAscii (.char c) = some c := if_pos (h c (List.mem_cons_self c cs))
    have ih := transformDecimalAndSpaceToAscii_of_ascii fun x hx => h x (List.mem_cons_of_mem c hx)
    rw [ofChars_cons, transformDecimalAndSpaceToAscii, hc, ih]

/-- `int(str(n)) == n` for every integer of at most `maxStrDigits` digits. -/
theorem int_intRepr {n : Int} (hn : Fits n) : int (ofChars (intRepr n)) = .ok n := by
  have hascii : ∀ c ∈ intRepr n, c.toNat < 127 := by
    intro c hc
    unfold intRepr at hc
    rcases List.mem_append.mp hc with h | h
    · split_ifs at h <;> simp_all
    · have hd := isDigit_of_mem_natRepr h
      simp only [Char.isDigit, Bool.and_eq_true, decide_eq_true_eq] at hd
      have : c.toNat ≤ 57 := hd.2
      omega
  rw [int, transformDecimalAndSpaceToAscii_of_ascii hascii, longFromString_intRepr hn]

theorem numberText_ofChars (cs : List Char) : numberText (ofChars cs) = cs := by
  simp [numberText, ofChars, Function.comp_def]

/-! ## Reading back written values -/

section Values

variable {len : Nat}

/-- `value` reads the text `t` back as `o`, whatever follows it that does not extend a number,
and `t` starts with a character that is neither whitespace nor a closing bracket. -/
def ReadsAs (value : PyStr → Except Raised (Obj × PyStr)) (t : List Char) (o : Obj) : Prop :=
  (∃ c cs, t = c :: cs ∧ isWs c = false ∧ c ≠ ']' ∧ c ≠ '}') ∧
    ∀ r, NumberStop r → value (ofChars t ++ r) = .ok (o, r)

/-- Items after the first, each behind a comma and the whitespace `sep`. -/
def writeItems (sep : List Char) : List (List Char) → List Char
  | [] => []
  | t :: ts => ',' :: sep ++ t ++ writeItems sep ts

/-- Entries after the first, each behind a comma and the whitespace `sep`. -/
def writeEntries (sep : List Char) : List (PyStr × List Char) → List Char
  | [] => []
  | (k, t) :: es => ',' :: sep ++ encodeStr k ++ ':' :: ' ' :: t ++ writeEntries sep es

theorem dropWhile_ofChars_ws {ws : List Char} (hws : AllWs ws) (cs : PyStr) :
    (ofChars ws ++ cs).dropWhile CodePoint.isWs = cs.dropWhile CodePoint.isWs :=
  List.dropWhile_append_of_pos fun c hc => by
    obtain ⟨d, hd, rfl⟩ := List.mem_map.mp hc
    exact hws d hd

theorem numberStop_ws_close {tws : List Char} (htws : AllWs tws) {c : Char}
    (hc : c.isDigit = false) (hd : c ≠ '.') (he : c ≠ 'e') (hE : c ≠ 'E') (r : PyStr) :
    NumberStop (ofChars tws ++ .char c :: r) := by
  cases tws with
  | nil => exact numberStop_cons hc hd he hE r
  | cons d ds =>
    rintro e ⟨⟩
    have hd := htws d (List.mem_cons_self d ds)
    revert hd
    simp only [isWs, Bool.or_eq_true, decide_eq_true_eq]
    rintro (((rfl | rfl) | rfl) | rfl) <;> decide

theorem dropWhile_readsAs {value : PyStr → Except Raised (Obj × PyStr)} {t : List Char}
    {o : Obj} (h : ReadsAs value t o) (r : PyStr) :
    (ofChars t ++ r).dropWhile CodePoint.isWs = ofChars t ++ r := by
  obtain ⟨⟨c, cs, rfl, hc, -⟩, -⟩ := h
  rw [ofChars_cons, List.cons_append, List.dropWhile_cons,
    show (CodePoint.char c).isWs = false from hc]
  rfl

/-- Written items read back one after another up to the closing bracket. -/
theorem parseItems_writeItems {value : PyStr → Except Raised (Obj × PyStr)}
    {sep tws : List Char} {r : PyStr} (hsep : AllWs sep) (htws : AllWs tws) :
    ∀ (items : List (List Char × Obj)) (t : List Char) (o : Obj) (k : Nat),
      ReadsAs value t o → (∀ p ∈ items, ReadsAs value p.1 p.2) → items.length < k →
      parseItems len value k (ofChars t ++ (ofChars (writeItems sep (items.map Prod.fst)) ++
          (ofChars tws ++ .char ']' :: r))) =
        .ok (o :: items.map Prod.snd, r)
  | [], t, o, k + 1, ht, _, _ => by
    rw [List.map_nil, writeItems, ofChars_nil, List.nil_append, parseItems,
      ht.2 _ (numberStop_ws_close htws (by decide) (by decide) (by decide) (by decide) r)]
    simp only [dropWhile_ofChars_ws htws,
      List.dropWhile_cons_of_neg (show ¬ CodePoint.isWs (.char ']') = true by decide)]
    rfl
  | (t', o') :: items, t, o, k + 1, ht, hitems, hk => by
    have ht' := hitems (t', o') (List.mem_cons_self _ _)
    simp only [List.map_cons, writeItems, parseItems, ofChars_cons, ofChars_append,
      List.cons_append, List.append_assoc]
    rw [ht.2 _ (numberStop_cons (by decide) (by decide) (by decide) (by decide) _)]
    simp only [List.dropWhile_cons_of_neg (show ¬ CodePoint.isWs (.char ',') = true by decide)]
    rw [dropWhile_ofChars_ws hsep, dropWhile_readsAs ht',
      parseItems_writeItems hsep htws items t' o' k ht'
        (fun p hp => hitems p (List.mem_cons_of_mem _ hp)) (by simpa using hk)]
    rfl

theorem setItem_of_not_mem {kvs : List (PyStr × Obj)} {k : PyStr} (h : k ∉ kvs.map Prod.fst)
    (v : Obj) : setItem kvs k v = kvs ++ [(k, v)] := by
  have hnone : kvs.lookup k = none := by
    rw [List.lookup_eq_none_iff]
    intro p hp
    exact bne_iff_ne.mpr fun hk => h (hk ▸ List.mem_map_of_mem Prod.fst hp)
  rw [setItem, hnone]

theorem escapeCode_ne_nil (c : CodePoint) : escapeCode c ≠ [] := by
  cases c with
  | char c => exact escapeChar_ne_nil c
  | surrogate => exact List.cons_ne_nil _ _

theorem length_le_flatMap_escapeCode (s : PyStr) : s.length ≤ (s.flatMap escapeCode).length := by
  induction s with
  | nil => exact Nat.le_refl 0
  | cons c s ih =>
    have := List.length_pos_of_ne_nil (escapeCode_ne_nil c)
    rw [List.flatMap_cons, List.length_append, List.length_cons]
    omega

/-- A written key reads back, with the fuel `parseEntries` gives. -/
theorem scanString_key {s : PyStr} (hs : Joined s) (begin : Nat) (r : PyStr) :
    scanString len begin ((ofChars (s.flatMap escapeCode) ++ .char '"' :: r).length + 1)
      (ofChars (s.flatMap escapeCode) ++ .char '"' :: r) = .ok (s, r) :=
  scanString_encodeStr hs r _ (by
    have := length_le_flatMap_escapeCode s
    simp only [List.length_append, List.length_cons, length_ofChars]
    omega)

/-- Written entries read back one after another up to the closing brace, when their keys are
distinct from each other and from those read before. -/
theorem parseEntries_writeEntries {value : PyStr → Except Raised (Obj × PyStr)}
    {sep tws : List Char} {r : PyStr} (hsep : AllWs sep) (htws : AllWs tws) :
    ∀ (entries : List (PyStr × List Char × Obj)) (acc : List (PyStr × Obj)) (k : PyStr)
      (t : List Char) (o : Obj) (fuel : Nat),
      Joined k → ReadsAs value t o → (∀ e ∈ entries, Joined e.1 ∧ ReadsAs value e.2.1 e.2.2) →
      (acc.map Prod.fst ++ k :: entries.map Prod.fst).Nodup → entries.length < fuel →
      parseEntries len value fuel acc (ofChars (encodeStr k) ++ .char ':' :: .char ' ' ::
          (ofChars t ++ (ofChars (writeEntries sep (entries.map fun e => (e.1, e.2.1))) ++
            (ofChars tws ++ .char '}' :: r)))) =
        .ok (acc ++ (k, o) :: entries.map (fun e => (e.1, e.2.2)), r)
  | [], acc, k, t, o, fuel + 1, hk, ht, _, hnodup, _ => by
    have hnew : k ∉ acc.map Prod.fst := fun h => (List.nodup_append.mp hnodup).2.2 h
      (List.mem_cons_self k _)
    simp only [encodeStr, ofChars_cons, ofChars_append, ofChars_nil, List.cons_append,
      List.append_assoc, List.singleton_append, parseEntries, scanString_key hk,
      List.dropWhile_cons_of_neg (show ¬ CodePoint.isWs (.char ':') = true by decide),
      List.map_nil, writeEntries, List.nil_append]
    rw [List.dropWhile_cons_of_pos (show CodePoint.isWs (.char ' ') = true by decide),
      dropWhile_readsAs ht,
      ht.2 _ (numberStop_ws_close htws (by decide) (by decide) (by decide) (by decide) r)]
    simp only [dropWhile_ofChars_ws htws,
      List.dropWhile_cons_of_neg (show ¬ CodePoint.isWs (.char '}') = true by decide),
      setItem_of_not_mem hnew]
  | (k', t', o') :: entries, acc, k, t, o, fuel + 1, hk, ht, hentries, hnodup, hlen => by
    have hnew : k ∉ acc.map Prod.fst := fun h => (List.nodup_append.mp hnodup).2.2 h
      (List.mem_cons_self k _)
    obtain ⟨hk', ht'⟩ := hentries (k', t', o') (List.mem_cons_self _ _)
    simp only [encodeStr, ofChars_cons, ofChars_append, ofChars_nil, List.cons_append,
      List.append_assoc, List.singleton_append, parseEntries, scanString_key hk, List.nil_append,
      List.dropWhile_cons_of_neg (show ¬ CodePoint.isWs (.char ':') = true by decide),
      List.map_cons, writeEntries]
    rw [List.dropWhile_cons_of_pos (show CodePoint.isWs (.char ' ') = true by decide),
      dropWhile_readsAs ht,
      ht.2 _ (numberStop_cons (by decide) (by decide) (by decide) (by decide) _)]
    simp only [List.dropWhile_cons_of_neg (show ¬ CodePoint.isWs (.char ',') = true by decide),
      dropWhile_ofChars_ws hsep,
      List.dropWhile_cons_of_neg (show ¬ CodePoint.isWs (.char '"') = true by decide),
      setItem_of_not_mem hnew]
    have := @parseEntries_writeEntries value sep tws r hsep htws entries (acc ++ [(k, o)]) k'
      t' o' fuel hk' ht' (fun e he => hentries e (List.mem_cons_of_mem _ he))
      (by simpa using hnodup) (by simpa using hlen)
    simp only [encodeStr, ofChars_cons, ofChars_append, ofChars_nil, List.cons_append,
      List.append_assoc, List.singleton_append, List.nil_append] at this
    rw [this]

theorem length_le_writeItems (sep : List Char) :
    ∀ ts : List (List Char), ts.length ≤ (writeItems sep ts).length
  | [] => Nat.le_refl 0
  | t :: ts => by
    have := length_le_writeItems sep ts
    simp only [writeItems, List.length_append, List.length_cons]
    omega

theorem length_le_writeEntries (sep : List Char) :
    ∀ es : List (PyStr × List Char), es.length ≤ (writeEntries sep es).length
  | [] => Nat.le_refl 0
  | (k, t) :: es => by
    have := length_le_writeEntries sep es
    simp only [writeEntries, List.length_append, List.length_cons]
    omega

theorem scanValue_quote (inner : Option (PyStr → Except Raised (Obj × PyStr))) (r : PyStr) :
    scanValue len inner (.char '"' :: r) =
      (scanString len (len - (r.length + 1)) (r.length + 1) r).map fun (s, r) => (.str s, r) := by
  simp only [scanValue, if_true]

theorem scanOnce_quote (budget : Nat) (r : PyStr) :
    scanOnce len budget (.char '"' :: r) =
      (scanString len (len - (r.length + 1)) (r.length + 1) r).map fun (s, r) => (.str s, r) := by
  cases budget <;> exact scanValue_quote _ r

theorem scanOnce_bracket (budget : Nat) (r : PyStr) :
    scanOnce len (budget + 1) (.char '[' :: r) = parseArray len (scanOnce len budget) r := by
  rw [scanOnce, scanValue, if_neg (show CodePoint.char '[' ≠ .char '"' by decide),
    if_neg (show CodePoint.char '[' ≠ .char '{' by decide), if_pos rfl]

theorem scanOnce_brace (budget : Nat) (r : PyStr) :
    scanOnce len (budget + 1) (.char '{' :: r) = parseObject len (scanOnce len budget) r := by
  rw [scanOnce, scanValue, if_neg (show CodePoint.char '{' ≠ .char '"' by decide), if_pos rfl]

theorem readsAs_str (budget : Nat) {s : PyStr} (hs : Joined s) :
    ReadsAs (scanOnce len budget) (encodeStr s) (.str s) := by
  refine ⟨⟨'"', _, rfl, rfl, by decide, by decide⟩, fun r _ => ?_⟩
  simp only [encodeStr, ofChars_cons, ofChars_append, ofChars_nil, List.cons_append,
    List.append_assoc, List.singleton_append]
  rw [scanOnce_quote, scanString_key hs]
  rfl

theorem digit_ne {d : Char} (hd : d.isDigit = true) :
    '"' ≠ d ∧ '{' ≠ d ∧ '[' ≠ d ∧ 'n' ≠ d ∧ 't' ≠ d ∧ 'f' ≠ d ∧ 'N' ≠ d ∧ 'I' ≠ d ∧ '-' ≠ d := by
  refine ⟨?_, ?_, ?_, ?_, ?_, ?_, ?_, ?_, ?_⟩ <;> (rintro rfl; revert hd; decide)

theorem scanValue_digit (inner : Option (PyStr → Except Raised (Obj × PyStr))) {d : Char}
    (hd : d.isDigit = true) (r : PyStr) :
    scanValue len inner (.char d :: r) = scanNumber len (.char d :: r) := by
  obtain ⟨h1, h2, h3, h4, h5, h6, h7, h8, h9⟩ := digit_ne hd
  simp [scanValue, ofString, ofChars, List.isPrefixOf_cons₂, h1.symm, h2.symm, h3.symm, h4, h5,
    h6, h7, h8, h9]

theorem scanValue_minus (inner : Option (PyStr → Except Raised (Obj × PyStr))) {d : Char}
    (hd : d.isDigit = true) (r : PyStr) :
    scanValue len inner (.char '-' :: .char d :: r) =
      scanNumber len (.char '-' :: .char d :: r) := by
  obtain ⟨-, -, -, -, -, -, -, h8, -⟩ := digit_ne hd
  simp [scanValue, ofString, ofChars, List.isPrefixOf_cons₂, h8]

theorem scanNumber_intRepr {n : Int} (hn : Fits n) {r : PyStr} (hr : NumberStop r) :
    scanNumber len (ofChars (intRepr n) ++ r) = .ok (.int n, r) := by
  rw [scanNumber, matchNumber_intRepr n hr]
  simp only [numberText_ofChars, longFromString_intRepr hn]

theorem scanValue_intRepr (inner : Option (PyStr → Except Raised (Obj × PyStr)))
    {n : Int} (hn : Fits n) {r : PyStr} (hr : NumberStop r) :
    scanValue len inner (ofChars (intRepr n) ++ r) = .ok (.int n, r) := by
  rw [← @scanNumber_intRepr len n hn r hr]
  unfold intRepr
  obtain ⟨d, ds, hds⟩ := List.exists_cons_of_ne_nil (natRepr_ne_nil n.natAbs)
  have hd : d.isDigit = true := isDigit_of_mem_natRepr (hds ▸ List.mem_cons_self d ds)
  split_ifs
  · rw [hds, List.singleton_append, ofChars_cons, ofChars_cons, List.cons_append,
      List.cons_append, scanValue_minus _ hd]
  · rw [List.nil_append, hds, ofChars_cons, List.cons_append, scanValue_digit _ hd]

theorem readsAs_int (budget : Nat) {n : Int} (hn : Fits n) :
    ReadsAs (scanOnce len budget) (intRepr n) (.int n) := by
  obtain ⟨c, cs, h, hc⟩ := intRepr_head n
  have hws : isWs c = false := by
    rcases hc with rfl | hc
    · rfl
    · exact isWs_of_isDigit hc
  refine ⟨⟨c, cs, h, hws, ?_, ?_⟩, fun r hr => ?_⟩
  · rintro rfl
    rcases hc with hc | hc <;> revert hc <;> decide
  · rintro rfl
    rcases hc with hc | hc <;> revert hc <;> decide
  · cases budget <;> exact scanValue_intRepr _ hn hr

theorem parseArray_items {value : PyStr → Except Raised (Obj × PyStr)} {cs t : PyStr}
    (h : cs.dropWhile CodePoint.isWs = t) (hc : t.head? ≠ some (.char ']')) :
    parseArray len value cs =
      (parseItems len value (t.length + 1) t).map fun (xs, r) => (.list xs, r) := by
  unfold parseArray
  rw [h]
  split
  · exact absurd rfl hc
  · rfl

theorem parseObject_entries {value : PyStr → Except Raised (Obj × PyStr)} {cs t : PyStr}
    (h : cs.dropWhile CodePoint.isWs = t) (hc : t.head? ≠ some (.char '}')) :
    parseObject len value cs =
      (parseEntries len value (t.length + 1) [] t).map fun (kvs, r) => (.dict kvs, r) := by
  unfold parseObject
  rw [h]
  split
  · exact absurd rfl hc
  · rfl

theorem dropWhile_encodeStr (s r : PyStr) :
    (ofChars (encodeStr s) ++ r).dropWhile CodePoint.isWs = ofChars (encodeStr s) ++ r := by
  rw [encodeStr, List.cons_append, ofChars_cons, List.cons_append,
    List.dropWhile_cons_of_neg (by decide)]

/-- An empty list reads back. -/
theorem readsAs_nil (budget : Nat) : ReadsAs (scanOnce len (budget + 1)) ['[', ']'] (.list []) :=
  ⟨⟨'[', _, rfl, rfl, by decide, by decide⟩, fun r _ => by
    rw [ofChars_cons, List.cons_append, scanOnce_bracket]
    rfl⟩

/-- An empty dict reads back. -/
theorem readsAs_empty (budget : Nat) : ReadsAs (scanOnce len (budget + 1)) ['{', '}'] (.dict []) :=
  ⟨⟨'{', _, rfl, rfl, by decide, by decide⟩, fun r _ => by
    rw [ofChars_cons, List.cons_append, scanOnce_brace]
    rfl⟩

/-- A written list reads back, its items read with the budget left inside it. -/
theorem readsAs_list (budget : Nat) {op cl sep : List Char} (hop : AllWs op) (hcl : AllWs cl)
    (hsep : AllWs sep) {t : List Char} {o : Obj} (items : List (List Char × Obj))
    (ht : ReadsAs (scanOnce len budget) t o)
    (hitems : ∀ p ∈ items, ReadsAs (scanOnce len budget) p.1 p.2) :
    ReadsAs (scanOnce len (budget + 1))
      ('[' :: (op ++ t ++ writeItems sep (items.map Prod.fst) ++ cl ++ [']']))
      (.list (o :: items.map Prod.snd)) := by
  refine ⟨⟨'[', _, rfl, rfl, by decide, by decide⟩, fun r _ => ?_⟩
  obtain ⟨c, cs, hcs, -, hc, -⟩ := ht.1
  have hlen := length_le_writeItems sep (items.map Prod.fst)
  rw [List.length_map] at hlen
  simp only [ofChars_cons, ofChars_append, ofChars_nil, List.cons_append, List.append_assoc,
    List.singleton_append, List.nil_append]
  rw [scanOnce_bracket, parseArray_items ((dropWhile_ofChars_ws hop _).trans
    (dropWhile_readsAs ht _)) (by simp [hcs, hc]),
    parseItems_writeItems hsep hcl items t o _ ht hitems (by simp; omega)]
  rfl

/-- A written dict reads back, its values read with the budget left inside it, when its keys
are distinct. -/
theorem readsAs_dict (budget : Nat) {op cl sep : List Char} (hop : AllWs op) (hcl : AllWs cl)
    (hsep : AllWs sep) {k : PyStr} {t : List Char} {o : Obj}
    (entries : List (PyStr × List Char × Obj)) (hk : Joined k)
    (ht : ReadsAs (scanOnce len budget) t o)
    (hentries : ∀ e ∈ entries, Joined e.1 ∧ ReadsAs (scanOnce len budget) e.2.1 e.2.2)
    (hnodup : (k :: entries.map Prod.fst).Nodup) :
    ReadsAs (scanOnce len (budget + 1))
      ('{' :: (op ++ encodeStr k ++ ':' :: ' ' :: t ++
        writeEntries sep (entries.map fun e => (e.1, e.2.1)) ++ cl ++ ['}']))
      (.dict ((k, o) :: entries.map fun e => (e.1, e.2.2))) := by
  refine ⟨⟨'{', _, rfl, rfl, by decide, by decide⟩, fun r _ => ?_⟩
  have hlen := length_le_writeEntries sep (entries.map fun e => (e.1, e.2.1))
  rw [List.length_map] at hlen
  simp only [ofChars_cons, ofChars_append, ofChars_nil, List.cons_append, List.append_assoc,
    List.singleton_append, List.nil_append]
  rw [scanOnce_brace, parseObject_entries ((dropWhile_ofChars_ws hop _).trans
    (dropWhile_encodeStr k _)) (by simp [encodeStr]),
    parseEntries_writeEntries hsep hcl entries [] k t o _ hk ht hentries
      (by rwa [List.map_nil, List.nil_append]) (by simp; omega)]
  rfl

/-- `json.loads` returns what the scanner reads from the start of a text that does not start
with a byte order mark. -/
theorem loads_of_readsAs {budget : Nat} {s : List Char} {o : Obj}
    (hbom : s.head? ≠ some '\uFEFF') (h : ReadsAs (scanOnce s.length budget) s o) :
    loads budget (ofChars s) = .ok o := by
  obtain ⟨⟨c, cs, hcs, hws, -⟩, hread⟩ := h
  have hs := hread [] (by simp [NumberStop])
  rw [List.append_nil] at hs
  have hc : c ≠ '\uFEFF' := fun h => hbom (by rw [hcs, h]; rfl)
  have hstart : (ofString "\uFEFF").isPrefixOf (ofChars s) = false := by
    simp [ofString, hcs, List.isPrefixOf_cons₂, Ne.symm hc]
  rw [loads, hstart, if_neg Bool.false_ne_true, length_ofChars, hcs, ofChars_cons,
    List.dropWhile_cons, show (CodePoint.char c).isWs = false from hws]
  simp only [Bool.false_eq_true, if_false]
  rw [← ofChars_cons, ← hcs, hs]
  rfl

theorem joined_of_not_high {s : PyStr} (h : ∀ c ∈ s, isHigh c.val = false) : Joined s := by
  induction s with
  | nil => exact List.chain'_nil
  | cons c s ih =>
    refine List.chain'_cons'.mpr ⟨fun d _ hd => ?_, ih fun x hx => h x (List.mem_cons_of_mem c hx)⟩
    rw [h c (List.mem_cons_self c s)] at hd
    exact Bool.false_ne_true hd.1

/-- A Lean string holds no surrogate. -/
theorem joined_ofString (s : String) : Joined (ofString s) :=
  joined_of_not_high fun c hc => by
    obtain ⟨ch, -, rfl⟩ := List.mem_map.mp hc
    exact isHigh_toNat ch

/-! ## The scanner reads forward

Each part of the scanner leaves a suffix of the text it was given, so a property of the whole
input that its suffixes keep (no lone surrogate) holds of every text a nested call reads. -/

theorem matchIntPart_suffix {cs ip r : PyStr} (h : matchIntPart cs = some (ip, r)) : r <:+ cs := by
  match cs, h with
  | c :: cs, h =>
    simp only [matchIntPart] at h
    split_ifs at h <;> cases h
    · exact List.suffix_cons _ _
    · exact (List.dropWhile_suffix _).trans (List.suffix_cons _ _)

theorem matchFrac_suffix (cs : PyStr) : (matchFrac cs).2 <:+ cs := by
  unfold matchFrac
  split
  · split_ifs
    · exact (List.dropWhile_suffix _).trans ((List.suffix_cons _ _).trans (List.suffix_cons _ _))
    · exact List.suffix_refl _
  · exact List.suffix_refl _

theorem matchSign_suffix (signs : List Char) (cs : PyStr) : (matchSign signs cs).2 <:+ cs := by
  unfold matchSign
  split
  · split_ifs
    · exact List.suffix_cons _ _
    · exact List.suffix_refl _
  · exact List.suffix_refl _

theorem matchExp_suffix (cs : PyStr) : (matchExp cs).2 <:+ cs := by
  match cs with
  | [] => exact List.suffix_refl _
  | e :: r =>
    rw [matchExp]
    split_ifs
    · have hs := matchSign_suffix ['+', '-'] r
      generalize matchSign ['+', '-'] r = p at hs ⊢
      obtain ⟨sign, r'⟩ := p
      dsimp only at hs ⊢
      split
      · exact List.suffix_refl _
      · next ds r'' _ heq =>
        have hr'' : r'' = (digitRun r').2 := by rw [heq]
        rw [hr'']
        exact ((List.dropWhile_suffix _).trans hs).trans (List.suffix_cons _ _)
    · exact List.suffix_refl _

theorem matchNumber_suffix {cs text r : PyStr} {b : Bool}
    (h : matchNumber cs = some (text, b, r)) : r <:+ cs := by
  unfold matchNumber at h
  have hs := matchSign_suffix ['-'] cs
  generalize matchSign ['-'] cs = p at hs h
  obtain ⟨sign, r₀⟩ := p
  obtain ⟨⟨ip, r₁⟩, hip, heq⟩ := Option.map_eq_some'.mp h
  cases heq
  exact ((matchExp_suffix _).trans (matchFrac_suffix _)).trans ((matchIntPart_suffix hip).trans hs)

theorem scanNumber_suffix {cs r : PyStr} {o : Obj} (h : scanNumber len cs = .ok (o, r)) :
    r <:+ cs := by
  unfold scanNumber at h
  split at h
  · cases h
  · next text r' hm =>
    cases h
    exact matchNumber_suffix hm
  · next text r' hm =>
    split at h <;> cases h
    exact matchNumber_suffix hm

end Values

end AntiRaid.Python.Loads
