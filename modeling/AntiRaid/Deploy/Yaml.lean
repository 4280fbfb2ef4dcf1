import Mathlib.Data.List.Infix
import AntiRaid.Python.Str

/-!
# Reading the YAML the setup scripts write

The configurations are block YAML: mappings and sequences laid out by indentation, plain and
double-quoted scalars, empty flow collections, and comments. This reader takes that subset and
gives, for every key and sequence item, its path from the top of the document and the scalar on
its line. On any text outside the subset (a tab, a quoted scalar with an escape, a key in
quotes, an indentation that opens no block, a duplicated key) it gives nothing, so a value it
reads is the value a YAML parser reads.

A document is read in two passes: `lexLine` reads each line on its own, and `build` lays the
lines out by indentation. `build` looks only at the shape of each line, never at its scalar
(`build_map`), which is what lets a template be read once with placeholders and then with every
value the placeholders stand for.
-/

namespace AntiRaid.Deploy.Yaml

open AntiRaid.Python

/-- A step of a path into a document: a mapping key, or a sequence index. -/
inductive Seg
  | key (k : String)
  | idx (i : Nat)
deriving DecidableEq, Repr

/-- A value written on the line of its key or item. -/
inductive Scalar
  | str (s : String)
  | flowMap (keys : List String)
  | flowSeq (items : List String)
deriving DecidableEq, Repr

/-- What a line holds past its indentation: `key: value`, `- value`, or `- key: value`, the
value missing when the line ends after the key or the dash. -/
inductive Item (α : Type)
  | entry (key : String) (value : Option α)
  | item (value : Option α)
  | itemEntry (key : String) (value : Option α)
deriving DecidableEq, Repr

/-- A line that is not blank: its indentation and what it holds. -/
structure Line (α : Type) where
  indent : Nat
  item : Item α
deriving DecidableEq, Repr

def Item.map {α β : Type} (f : α → β) : Item α → Item β
  | .entry k v => .entry k (v.map f)
  | .item v => .item (v.map f)
  | .itemEntry k v => .itemEntry k (v.map f)

def Line.map {α β : Type} (f : α → β) (l : Line α) : Line β := ⟨l.indent, l.item.map f⟩

/-! ## Lines -/

/-- Printable ASCII, the only characters the reader takes. -/
def printable (c : Char) : Bool := 0x20 ≤ c.toNat && c.toNat ≤ 0x7e

/-- Characters of the keys the configurations use. -/
def isKeyChar (c : Char) : Bool := c.isAlphanum || c == '_'

/-- Characters that cannot start a plain scalar: `[ ] { } , # & * ! | > ' " % @` and the
backquote. -/
def isIndicator (c : Char) : Bool :=
  [91, 93, 123, 125, 44, 35, 38, 42, 33, 124, 62, 39, 34, 37, 64, 96].contains c.toNat

/-- Whether the pair `a b` occurs in a text. -/
def hasPair (a b : Char) : List Char → Bool
  | [] => false
  | c :: cs => (c == a && cs.head? == some b) || hasPair a b cs

/-- What follows a value on its line: nothing but spaces, or a comment after a space. -/
def restIsComment : List Char → Bool
  | [] => true
  | c :: cs =>
    c == ' ' &&
      match cs.dropWhile (· == ' ') with
      | [] => true
      | d :: _ => d == '#'

/-- A plain scalar's text: up to a comment. -/
def plainText : List Char → List Char
  | [] => []
  | c :: cs => if c == ' ' && cs.head? == some '#' then [] else c :: plainText cs

/-- The text without trailing spaces. -/
def rstrip (cs : List Char) : List Char := (cs.reverse.dropWhile (· == ' ')).reverse

/-- A plain scalar that stays one: it starts with no indicator, a `-`, `?` or `:` at its start
is followed by more text and not by a space, and no `:` in it ends a key. -/
def plainOk : List Char → Bool
  | [] => false
  | c :: cs =>
    !isIndicator c && (!(c == '-' || c == '?' || c == ':') || cs != [] && cs.head? != some ' ') &&
      !hasPair ':' ' ' (c :: cs) && (c :: cs).getLast? != some ':'

/-- The words of an empty or one-line flow collection. -/
def flowWords (cs : List Char) : Option (List String) :=
  let ws := (cs.splitOn ',').map fun w => rstrip (w.dropWhile (· == ' '))
  if ws = [[]] then some []
  else if ws.all fun w => w != [] && w.all isKeyChar then some (ws.map String.mk)
  else none

/-- The value after `key:` or `- `, to the end of the line. -/
def lexValue (cs : List Char) : Option (Option Scalar) :=
  match cs.dropWhile (· == ' ') with
  | [] => some none
  | c :: r =>
    if c == '#' then some none
    else if c == '"' then
      match r.span (· != '"') with
      | (s, _ :: tail) =>
        if s.contains '\\' || !restIsComment tail then none else some (some (.str ⟨s⟩))
      | (_, []) => none
    else if c.toNat == 123 then
      match r.span (·.toNat != 125) with
      | (s, _ :: tail) =>
        if restIsComment tail then (flowWords s).map fun ws => some (.flowMap ws) else none
      | (_, []) => none
    else if c == '[' then
      match r.span (· != ']') with
      | (s, _ :: tail) =>
        if restIsComment tail then (flowWords s).map fun ws => some (.flowSeq ws) else none
      | (_, []) => none
    else
      let t := rstrip (plainText (c :: r))
      if plainOk t then some (some (.str ⟨t⟩)) else none

/-- A key at the start of `cs`, and what follows its colon. -/
def keyOf (cs : List Char) : Option (String × List Char) :=
  match cs.dropWhile isKeyChar with
  | c :: r =>
    if c == ':' && cs.takeWhile isKeyChar != [] && (r.isEmpty || r.head? == some ' ') then
      some (⟨cs.takeWhile isKeyChar⟩, r)
    else none
  | [] => none

/-- The line past the dash of a sequence item. -/
def lexItem (n : Nat) : List Char → Option (Option (Line Scalar))
  | [] => some (some ⟨n, .item none⟩)
  | c :: r =>
    if c == ' ' then
      match keyOf r with
      | some (k, v) => (lexValue v).map fun v => some ⟨n, .itemEntry k v⟩
      | none => (lexValue r).map fun v => some ⟨n, .item v⟩
    else none

/-- One line: nothing when it is blank or a comment, a `Line` when it holds a key or an item;
`none` when the reader does not take it. -/
def lexLine (l : String) : Option (Option (Line Scalar)) :=
  if !l.data.all printable then none
  else
    let n := (l.data.takeWhile (· == ' ')).length
    match l.data.dropWhile (· == ' ') with
    | [] => some none
    | c :: r =>
      if c == '#' then some none
      else if c == '-' then lexItem n r
      else (keyOf (c :: r)).bind fun (k, v) => (lexValue v).map fun v => some ⟨n, .entry k v⟩

/-- Every line of a text, blank ones left out. -/
def lexLines : List String → Option (List (Line Scalar))
  | [] => some []
  | l :: ls =>
    match lexLine l, lexLines ls with
    | some none, some ts => some ts
    | some (some t), some ts => some (t :: ts)
    | _, _ => none

/-! ## Blocks -/

/-- A block being read: one more than the indentation of the line that opened it (the document
is opened at 0 and closes last), its path, the indentation of its lines and whether they are
sequence items, once the first is read, the keys read in it so far, and the index of its next
item. -/
structure Frame where
  level : Nat
  path : List Seg
  child : Option (Nat × Bool)
  keys : List String
  next : Nat
deriving DecidableEq, Repr

/-- A block opened by a line at indentation `i`. -/
def Frame.opened (i : Nat) (path : List Seg) : Frame := ⟨i + 1, path, none, [], 0⟩

/-- The block a line at indentation `i` belongs to, once the blocks it closes are closed: the
lines of a block share one indentation, deeper than the line that opened it, and are all keys
or all items. -/
def place (i : Nat) (seq : Bool) (stack : List Frame) : Option (Frame × List Frame) :=
  match stack.dropWhile (i < ·.level) with
  | [] => none
  | f :: fs =>
    match f.child with
    | none => if f.level ≤ i then some ({ f with child := some (i, seq) }, fs) else none
    | some (j, s) => if i = j ∧ s = seq then some (f, fs) else none

/-- The blocks open after a key or item with path `p` at indentation `i`: one more, opened by
it, when nothing follows it on its line. -/
def openIfBlock {α : Type} (v : Option α) (i : Nat) (p : List Seg) (stack : List Frame) :
    List Frame :=
  if v.isNone then Frame.opened i p :: stack else stack

/-- One line read against the open blocks: the path it gives its value, and the blocks open
after it. A key already read in its mapping stops the reading. -/
def step {α : Type} (stack : List Frame) (l : Line α) :
    Option ((List Seg × Option α) × List Frame) :=
  match l.item with
  | .entry k v =>
    (place l.indent false stack).bind fun (f, fs) =>
      if k ∈ f.keys then none
      else
        let p := f.path ++ [.key k]
        some ((p, v), openIfBlock v l.indent p ({ f with keys := k :: f.keys } :: fs))
  | .item v =>
    (place l.indent true stack).map fun (f, fs) =>
      let p := f.path ++ [.idx f.next]
      ((p, v), openIfBlock v l.indent p ({ f with next := f.next + 1 } :: fs))
  | .itemEntry k v =>
    (place l.indent true stack).map fun (f, fs) =>
      let q := f.path ++ [.idx f.next]
      let p := q ++ [.key k]
      ((p, v), openIfBlock v (l.indent + 2) p
        (⟨l.indent + 1, q, some (l.indent + 2, false), [k], 0⟩ ::
          { f with next := f.next + 1 } :: fs))

/-- Every line read in turn: the entries they give, and the blocks open after the last. -/
def run {α : Type} :
    List Frame → List (Line α) → Option (List (List Seg × Option α) × List Frame)
  | stack, [] => some ([], stack)
  | stack, l :: ls =>
    (step stack l).bind fun (e, stack') => (run stack' ls).map fun (es, st) => (e :: es, st)

/-- The document at the start: one block, open at indentation 0. -/
def root : List Frame := [⟨0, [], none, [], 0⟩]

/-- The document's entries: every key and item by its path. -/
def build {α : Type} (ls : List (Line α)) : Option (List (List Seg × Option α)) :=
  (run root ls).map Prod.fst

/-- A text read as YAML. -/
def readText (text : String) : Option (List (List Seg × Option Scalar)) :=
  (lexLines (Str.split text '\n')).bind build

/-- The value at a path: `some none` for a key or item with nothing on its line. -/
def valueAt {α : Type} (doc : List (List Seg × Option α)) (path : List Seg) : Option (Option α) :=
  doc.lookup path

/-- The path of nested keys. -/
def keys (ks : List String) : List Seg := ks.map .key

/-- What a text read as YAML holds under a path of keys: `some v` when it reads and the path
holds `v`. -/
def yamlAt (text : String) (path : List String) : Option (Option Scalar) :=
  (readText text).bind (valueAt · (keys path))

/-- A scalar's values, replaced. -/
def mapEntries {α β : Type} (f : α → β) (es : List (List Seg × Option α)) :
    List (List Seg × Option β) :=
  es.map fun e => (e.1, e.2.map f)

theorem step_map {α β : Type} (f : α → β) (stack : List Frame) (l : Line α) :
    step stack (l.map f) = (step stack l).map fun (e, st) => ((e.1, e.2.map f), st) := by
  obtain ⟨n, ⟨k, v⟩ | v | ⟨k, v⟩⟩ := l <;>
    cases v <;> simp [step, Line.map, Item.map, openIfBlock, Option.map_map, Function.comp_def]
  all_goals
    cases place n false stack <;> simp only [Option.none_bind, Option.map_none', Option.some_bind]
    split <;> simp

theorem run_map {α β : Type} (f : α → β) :
    ∀ (stack : List Frame) (ls : List (Line α)),
      run stack (ls.map (Line.map f)) = (run stack ls).map fun (es, st) => (mapEntries f es, st)
  | _, [] => rfl
  | stack, l :: ls => by
    rw [List.map_cons, run, run, step_map]
    cases step stack l with
    | none => rfl
    | some r =>
      simp only [Option.map_some', Option.some_bind, run_map f r.2 ls, Option.map_map]
      rfl

/-- Reading never looks at a scalar: replacing the scalars of the lines replaces the values of
the document, and nothing else. -/
theorem build_map {α β : Type} (f : α → β) (ls : List (Line α)) :
    build (ls.map (Line.map f)) = (build ls).map (mapEntries f) := by
  rw [build, build, run_map, Option.map_map, Option.map_map]
  rfl

/-- Lines read one block after another. -/
theorem run_append {α : Type} :
    ∀ (stack : List Frame) (ls₁ ls₂ : List (Line α)),
      run stack (ls₁ ++ ls₂) = (run stack ls₁).bind fun (es₁, st₁) =>
        (run st₁ ls₂).map fun (es₂, st₂) => (es₁ ++ es₂, st₂)
  | stack, [], ls₂ => by simp [run]
  | stack, l :: ls₁, ls₂ => by
    rw [List.cons_append, run, run]
    cases step stack l with
    | none => rfl
    | some r =>
      simp only [Option.some_bind, run_append r.2 ls₁ ls₂]
      cases run r.2 ls₁ <;> simp [Option.map_map, Function.comp_def]

/-- A line at a shallower indentation closes the innermost block before it is read. -/
theorem run_close {α : Type} {f : Frame} {stack : List Frame} {l : Line α}
    (hl : l.indent < f.level) (ls : List (Line α)) :
    run (f :: stack) (l :: ls) = run stack (l :: ls) := by
  have hplace : ∀ seq, place l.indent seq (f :: stack) = place l.indent seq stack := by
    intro seq
    simp only [place, List.dropWhile_cons, hl, decide_True, if_true]
  obtain ⟨n, ⟨k, v⟩ | v | ⟨k, v⟩⟩ := l <;> simp only [run, step, hplace]

theorem place_item {f : Frame} {i : Nat} (hlev : f.level ≤ i)
    (hchild : f.child = none ∨ f.child = some (i, true)) (stack : List Frame) :
    place i true (f :: stack) = some ({ f with child := some (i, true) }, stack) := by
  have hd : (f :: stack).dropWhile (i < ·.level) = f :: stack := by
    simp [List.dropWhile_cons, Nat.not_lt.mpr hlev]
  rcases hchild with h | h
  · simp [place, hd, h, hlev]
  · cases f
    simp_all [place]

/-- Sequence items at one indentation, each with its value on its line, extend the innermost
block: each takes the block's next index, and the block stays innermost. -/
theorem run_items {α : Type} {i : Nat} (stack : List Frame) :
    ∀ (vs : List α) {f : Frame}, f.level ≤ i → (f.child = none ∨ f.child = some (i, true)) →
      ∃ f', f'.level = f.level ∧
        run (f :: stack) (vs.map fun v => ⟨i, .item (some v)⟩) =
          some ((vs.enumFrom f.next).map fun (m, v) => (f.path ++ [.idx m], some v), f' :: stack)
  | [], f, _, _ => ⟨f, rfl, rfl⟩
  | v :: vs, f, hlev, hchild => by
    obtain ⟨f', hf', hrun⟩ :=
      run_items stack vs (f := { f with child := some (i, true), next := f.next + 1 }) hlev
        (.inr rfl)
    refine ⟨f', hf', ?_⟩
    simp only [List.map_cons, run, step, place_item hlev hchild stack, Option.map_some',
      openIfBlock, Option.isNone_some, Bool.false_eq_true, if_false, Option.some_bind, hrun]
    rfl

theorem valueAt_mapEntries {α β : Type} (f : α → β) (es : List (List Seg × Option α))
    (path : List Seg) : valueAt (mapEntries f es) path = (valueAt es path).map (·.map f) := by
  induction es with
  | nil => rfl
  | cons e es ih =>
    obtain ⟨p, v⟩ := e
    by_cases h : path = p
    · subst h
      simp [valueAt, mapEntries, List.lookup_cons]
    · have hf : (path == p) = false := beq_false_of_ne h
      simpa [valueAt, mapEntries, List.lookup_cons, hf] using ih

end AntiRaid.Deploy.Yaml
