import AntiRaid.Python.Str
import AntiRaid.Python.Json

/-!
# `events_extract.py`

The script reads the table of Gateway events from a saved page of the Discord documentation,
keeps for each row the link text of its first cell and the text of its second, and prints a Rust
constant `EVENT_LIST` naming every event but seven, each as its link text with spaces turned
into underscores and in upper case, `Message Create` becoming `MESSAGE`.

BeautifulSoup's reading of the page is not modelled: the model starts from the list `events`.
Read back line by line (`readDecl`), the declaration the script prints declares as many entries
as it lists, and lists the constant name of every kept event in order
(`readDecl_rustArraydef`), as long as the event names are ASCII with no quote, backslash or line
break (`str.upper` is modelled on ASCII letters only) and no description holds a line break.
-/

namespace AntiRaid.Deploy.Events

open AntiRaid.Python

/-- An entry of `events`: the stripped link text of a row's first cell and the stripped text of
its second cell. -/
structure Event where
  name : String
  description : String
deriving DecidableEq, Repr

/-- The events the list leaves out. -/
def skippedNames : List String :=
  ["Hello", "Ready", "Resumed", "Reconnect", "Invalid Session", "Guild Create", "Guild Delete"]

/-- `event["name"]` after the rename of `Message Create`. -/
def renamed (name : String) : String := if name = "Message Create" then "Message" else name

/-- `event["name"].replace(" ", "_").upper()`, after the rename. -/
def constName (name : String) : String := Str.upper (Str.replace (renamed name) " " "_")

/-- What the conversion loop carries: `rust_def_str` and `num_events`. -/
structure State where
  rustDefStr : String
  numEvents : Nat
deriving DecidableEq, Repr

/-- The body of the conversion loop. -/
def addEvent (st : State) (event : Event) : State :=
  if event.name ∈ skippedNames then st
  else
    ⟨st.rustDefStr ++ "  \"" ++ constName event.name ++ "\", // " ++ event.description ++ "\n",
      st.numEvents + 1⟩

/-- `rust_arraydef`, the text the script prints last. -/
def rustArraydef (events : List Event) : String :=
  let st := events.foldl addEvent ⟨"[\n", 0⟩
  "pub const EVENT_LIST: [&str; " ++ toString st.numEvents ++ "] = " ++ (st.rustDefStr ++ "];\n")

/-- Three rows of the Gateway events table. -/
def gatewayEvents : List Event :=
  [⟨"Hello", "Sent on connect"⟩, ⟨"Message Create", "Message was created"⟩,
    ⟨"Guild Member Add", "New user joined a guild"⟩]

example :
    rustArraydef gatewayEvents =
    "pub const EVENT_LIST: [&str; 2] = [\n  \"MESSAGE\", // Message was created\n" ++
      "  \"GUILD_MEMBER_ADD\", // New user joined a guild\n];\n" := by decide

/-! ## The loop -/

/-- The events the list keeps. -/
def kept (events : List Event) : List Event := events.filter fun e => e.name ∉ skippedNames

/-- The line of a kept event, without its line break. -/
def entryText (e : Event) : String := "  \"" ++ constName e.name ++ "\", // " ++ e.description

/-- The first line of the declaration. -/
def headerText (n : Nat) : String := "pub const EVENT_LIST: [&str; " ++ toString n ++ "] = ["

theorem foldl_addEvent : ∀ (events : List Event) (st : State),
    (events.foldl addEvent st).rustDefStr.data =
        st.rustDefStr.data ++ ((kept events).map fun e => (entryText e).data ++ ['\n']).flatten ∧
      (events.foldl addEvent st).numEvents = st.numEvents + (kept events).length
  | [], st => by simp [kept]
  | e :: events, st => by
    obtain ⟨hstr, hnum⟩ := foldl_addEvent events (addEvent st e)
    rw [List.foldl_cons, hstr, hnum]
    by_cases he : e.name ∈ skippedNames
    · simp [addEvent, kept, he]
    · simp [addEvent, kept, he, entryText, List.append_assoc]
      omega

theorem cons_flatten_map_snoc {α : Type} (c : Char) (f : α → List Char) (r : List Char) :
    ∀ xs : List α, c :: ((xs.map fun x => f x ++ [c]).flatten ++ r) =
      (xs.map fun x => c :: f x).flatten ++ c :: r
  | [] => rfl
  | x :: xs => by simp [cons_flatten_map_snoc c f r xs]

/-- The printed declaration is its header, one line per kept event and the closing `];`, each
ended by a line break. -/
theorem rustArraydef_eq (events : List Event) :
    rustArraydef events = (String.singleton '\n').intercalate
      (headerText (kept events).length :: ((kept events).map entryText ++ ["];", ""])) := by
  obtain ⟨hstr, hnum⟩ := foldl_addEvent events ⟨"[\n", 0⟩
  have hsep : (String.singleton '\n').data = ['\n'] := rfl
  apply String.ext
  rw [Str.intercalate_cons_data, rustArraydef]
  simp only [String.data_append, hstr, hnum, headerText, Str.sepPieces, List.map_append,
    List.map_map, List.flatten_append, hsep, Function.comp_def, Nat.zero_add]
  simp [List.append_assoc, cons_flatten_map_snoc]

/-! ## Reading the declaration back -/

/-- The header line `pub const EVENT_LIST: [&str; N] = [`, read as `N`. -/
def readHeader (line : String) : Option Nat :=
  let pre := "pub const EVENT_LIST: [&str; ".data
  if pre.isPrefixOf line.data then
    let rest := line.data.drop pre.length
    if rest.takeWhile Char.isDigit ≠ [] ∧ rest.dropWhile Char.isDigit = "] = [".data then
      some (Json.digitsValue (rest.takeWhile Char.isDigit))
    else none
  else none

/-- A character that stands for itself in a Rust string literal and does not end it. -/
def literalChar (c : Char) : Bool := c != '"' && c != '\\'

/-- An entry line `  "NAME", // ...`, read as `NAME`; an entry whose literal holds a backslash
is not read. -/
def readEntry (line : String) : Option String :=
  let pre := "  \"".data
  if pre.isPrefixOf line.data then
    let rest := line.data.drop pre.length
    if "\", // ".data.isPrefixOf (rest.dropWhile literalChar) then
      some ⟨rest.takeWhile literalChar⟩
    else none
  else none

/-- The declaration read line by line: the header, the entries, and `];` on a line of its own at
the end of the text. -/
def readDecl (text : String) : Option (Nat × List String) :=
  match Str.split text '\n' with
  | [] => none
  | header :: lines =>
    match lines.reverse with
    | "" :: "];" :: entries => do
      let n ← readHeader header
      let names ← entries.reverse.mapM readEntry
      pure (n, names)
    | _ => none

theorem digitChar_spec :
    ∀ d < 10, (Nat.digitChar d).isDigit ∧ (Nat.digitChar d).toNat - 48 = d := by
  decide

/-- The digits `Nat.toDigits` writes, ahead of what it was given, read back as the number. -/
theorem toDigitsCore_digits : ∀ (fuel n : Nat) (ds : List Char), n < fuel →
    ∃ xs, Nat.toDigitsCore 10 fuel n ds = xs ++ ds ∧ xs ≠ [] ∧ (∀ c ∈ xs, c.isDigit) ∧
      Json.digitsValue xs = n
  | 0, n, _, h => absurd h (Nat.not_lt_zero n)
  | fuel + 1, n, ds, h => by
    have hd := digitChar_spec (n % 10) (Nat.mod_lt _ (by decide))
    simp only [Nat.toDigitsCore]
    split
    · refine ⟨[Nat.digitChar (n % 10)], rfl, List.cons_ne_nil _ _, by simpa using hd.1, ?_⟩
      simp only [Json.digitsValue, List.foldl_cons, List.foldl_nil, hd.2]
      omega
    · obtain ⟨xs, hxs, -, hdig, hval⟩ :=
        toDigitsCore_digits fuel (n / 10) (Nat.digitChar (n % 10) :: ds) (by omega)
      refine ⟨xs ++ [Nat.digitChar (n % 10)], by rw [hxs, List.append_assoc]; rfl, by simp, ?_, ?_⟩
      · simpa [or_imp, forall_and] using ⟨hdig, hd.1⟩
      · rw [Json.digitsValue, List.foldl_append, ← Json.digitsValue, hval]
        simp only [List.foldl_cons, List.foldl_nil, hd.2]
        omega

theorem toString_digits (n : Nat) :
    (toString n).data ≠ [] ∧ (∀ c ∈ (toString n).data, c.isDigit) ∧
      Json.digitsValue (toString n).data = n := by
  obtain ⟨xs, hxs, hne, hdig, hval⟩ := toDigitsCore_digits (n + 1) n [] (by omega)
  have : (toString n).data = xs := (hxs.trans (List.append_nil xs) :)
  exact this ▸ ⟨hne, hdig, hval⟩

theorem readHeader_headerText (n : Nat) : readHeader (headerText n) = some n := by
  obtain ⟨hne, hdig, hval⟩ := toString_digits n
  simp only [readHeader, headerText, String.data_append, List.append_assoc]
  rw [if_pos (List.isPrefixOf_iff_prefix.mpr (List.prefix_append _ _)), List.drop_left,
    List.takeWhile_append_of_pos hdig, List.dropWhile_append_of_pos hdig]
  simp [hne, hval]

/-- `str.upper` keeps every character it does not map to an upper-case letter. -/
theorem toUpper_eq_self {d : Char} (hd : ¬(65 ≤ d.toUpper.toNat ∧ d.toUpper.toNat ≤ 90)) :
    d.toUpper = d := by
  unfold Char.toUpper at hd ⊢
  dsimp only at hd ⊢
  split_ifs at hd ⊢ with h
  · obtain ⟨h1, h2⟩ := h
    generalize d.toNat = k at h1 h2 hd
    interval_cases k <;> exact absurd (by decide) hd
  · rfl

theorem toUpper_ne {d x : Char} (hd : d ≠ x) (hx : ¬(65 ≤ x.toNat ∧ x.toNat ≤ 90)) :
    d.toUpper ≠ x := fun h => hd ((toUpper_eq_self (by rw [h]; exact hx)).symm.trans h)

theorem toUpper_toNat_lt {d : Char} (hd : d.toNat < 128) : d.toUpper.toNat < 128 := by
  by_cases h : 65 ≤ d.toUpper.toNat ∧ d.toUpper.toNat ≤ 90
  · omega
  · rwa [toUpper_eq_self h]

/-- Each character of a constant name is a character of the renamed event name, a space turned
into an underscore, then upper-cased. -/
theorem mem_constName {name : String} {x : Char} (hx : x ∈ (constName name).data) :
    ∃ c ∈ (renamed name).data, (if c = ' ' then '_' else c).toUpper = x := by
  have hrepl : (Str.replace (renamed name) " " "_").data =
      (renamed name).data.map fun c => if c = ' ' then '_' else c :=
    Str.replaceGo_char ' ' '_' _
  simpa only [constName, Str.upper, hrepl, List.map_map, List.mem_map, Function.comp_apply]
    using hx

/-- An ASCII name with no quote, backslash or line break: `str.upper` is modelled exactly on it,
and its constant stays one literal on one line. -/
def PlainName (name : String) : Prop :=
  ∀ c ∈ name.data, c.toNat < 128 ∧ c ≠ '"' ∧ c ≠ '\\' ∧ c ≠ '\n'

instance (name : String) : Decidable (PlainName name) :=
  inferInstanceAs (Decidable (∀ c ∈ name.data, c.toNat < 128 ∧ c ≠ '"' ∧ c ≠ '\\' ∧ c ≠ '\n'))

theorem plainName_constName {name : String} (h : PlainName name) : PlainName (constName name) := by
  have hren : PlainName (renamed name) := by
    unfold renamed
    split_ifs
    · decide
    · exact h
  intro x hx
  obtain ⟨c, hc, rfl⟩ := mem_constName hx
  obtain ⟨hasc, hq, hb, hn⟩ := hren c hc
  split_ifs
  · decide
  · exact ⟨toUpper_toNat_lt hasc, toUpper_ne hq (by decide), toUpper_ne hb (by decide),
      toUpper_ne hn (by decide)⟩

theorem readEntry_entryText {e : Event} (hname : PlainName (constName e.name)) :
    readEntry (entryText e) = some (constName e.name) := by
  have hlit : ∀ c ∈ (constName e.name).data, literalChar c = true := fun c hc => by
    simp [literalChar, (hname c hc).2.1, (hname c hc).2.2.1]
  have hdrop : ∀ r, ("\", // ".data ++ r).dropWhile literalChar = "\", // ".data ++ r :=
    fun _ => rfl
  have htake : ∀ r, ("\", // ".data ++ r).takeWhile literalChar = [] := fun _ => rfl
  simp only [readEntry, entryText, String.data_append, List.append_assoc]
  rw [if_pos (List.isPrefixOf_iff_prefix.mpr (List.prefix_append _ _)), List.drop_left,
    List.dropWhile_append_of_pos hlit, hdrop,
    if_pos (List.isPrefixOf_iff_prefix.mpr (List.prefix_append _ _)),
    List.takeWhile_append_of_pos hlit, htake, List.append_nil]

theorem mapM_readEntry : ∀ es : List Event, (∀ e ∈ es, PlainName (constName e.name)) →
    (es.map entryText).mapM readEntry = some (es.map fun e => constName e.name)
  | [], _ => rfl
  | e :: es, h => by
    rw [List.map_cons, List.mapM_cons, readEntry_entryText (h e (List.mem_cons_self _ _)),
      mapM_readEntry es fun e he => h e (List.mem_cons_of_mem _ he)]
    rfl

theorem newline_not_mem_headerText (n : Nat) : '\n' ∉ (headerText n).data := by
  obtain ⟨-, hdig, -⟩ := toString_digits n
  simp only [headerText, String.data_append, List.mem_append]
  rintro ((h | h) | h)
  · exact absurd h (by decide)
  · exact absurd (hdig _ h) (by decide)
  · exact absurd h (by decide)

theorem newline_not_mem_entryText {e : Event} (hname : PlainName (constName e.name))
    (hdesc : '\n' ∉ e.description.data) : '\n' ∉ (entryText e).data := by
  simp only [entryText, String.data_append, List.mem_append]
  rintro (((h | h) | h) | h)
  · exact absurd h (by decide)
  · exact (hname _ h).2.2.2 rfl
  · exact absurd h (by decide)
  · exact hdesc h

/-- With plain names and one-line descriptions, the printed text splits into its lines. -/
theorem split_rustArraydef {events : List Event}
    (hname : ∀ e ∈ kept events, PlainName (constName e.name))
    (hdesc : ∀ e ∈ kept events, '\n' ∉ e.description.data) :
    Str.split (rustArraydef events) '\n' =
      headerText (kept events).length :: ((kept events).map entryText ++ ["];", ""]) := by
  rw [rustArraydef_eq]
  refine Str.split_intercalate ?_ (List.cons_ne_nil _ _)
  intro l hl
  simp only [List.mem_cons, List.mem_append, List.mem_map, List.not_mem_nil, or_false] at hl
  rcases hl with rfl | ⟨e, he, rfl⟩ | rfl | rfl
  · exact newline_not_mem_headerText _
  · exact newline_not_mem_entryText (hname e he) (hdesc e he)
  · decide
  · decide

/-- Read line by line, the declaration the script prints declares as many entries as it lists,
and lists the constant names of the kept events in order, when the event names are plain and no
description holds a line break. -/
theorem readDecl_rustArraydef {events : List Event} (hname : ∀ e ∈ events, PlainName e.name)
    (hdesc : ∀ e ∈ events, '\n' ∉ e.description.data) :
    readDecl (rustArraydef events) =
      some ((kept events).length, (kept events).map fun e => constName e.name) := by
  have hkname : ∀ e ∈ kept events, PlainName (constName e.name) :=
    fun e he => plainName_constName (hname e (List.mem_of_mem_filter he))
  rw [readDecl, split_rustArraydef hkname fun e he => hdesc e (List.mem_of_mem_filter he)]
  simp only [List.reverse_append, List.reverse_cons, List.reverse_nil, List.nil_append,
    List.singleton_append, List.cons_append, List.reverse_reverse]
  rw [readHeader_headerText, mapM_readEntry _ hkname]
  rfl

theorem readDecl_rustArraydef_gateway :
    readDecl (rustArraydef gatewayEvents) = some (2, ["MESSAGE", "GUILD_MEMBER_ADD"]) :=
  (readDecl_rustArraydef (by decide) (by decide)).trans (by decide)

/-- A quote in a name ends the literal early, and the line is not an entry. -/
example : (readDecl <| rustArraydef [⟨"Say \"Hi\"", "Quoted"⟩]) = none := by decide

end AntiRaid.Deploy.Events
