import AntiRaid.Deploy.Yaml

/-!
# Configuration templates

The setup scripts write each configuration from one f-string: fixed lines, with the prompted
and generated values spliced in. A template here is that f-string cut at its line breaks, each
line with its parts named (`TLine`), and a part is either fixed text or a placeholder
(`Part.hole`). `renderAll σ` gives the f-string's text once every placeholder `h` is replaced by
`σ h`.

`read_renderAll` reads a rendered template back through the line structure alone: when every
part is text the reader takes as it is (`TLine.ok`), reading the text gives the document that
`build` lays out from the template's own lines, with `σ` applied to its scalars. The fixed text
of a template is then checked once, line by line, and what a configuration holds at a path is
computed with its placeholders left symbolic.
-/

namespace AntiRaid.Deploy.Template

open AntiRaid.Deploy.Yaml

/-- Text of a template: written out, or the value of a placeholder. -/
inductive Part (ι : Type)
  | lit (s : String)
  | hole (h : ι)
deriving DecidableEq, Repr

/-- The value a template line writes after its key or dash. -/
inductive TValue (ι : Type)
  | none
  | quoted (p : Part ι)
  | plain (p : Part ι)
  | flowMap (inner : String)
  | flowSeq (inner : String)
deriving DecidableEq, Repr

/-- A line of a template: blank, `key: value`, `- value` or `- key: value` at its indentation,
followed by `rest` (spaces, or a comment). -/
inductive TLine (ι : Type)
  | blank
  | entry (indent : Nat) (key : String) (value : TValue ι) (rest : String)
  | item (indent : Nat) (value : TValue ι) (rest : String)
  | itemEntry (indent : Nat) (key : String) (value : TValue ι) (rest : String)
deriving DecidableEq, Repr

/-- A scalar whose text may still be a placeholder. -/
inductive TScalar (ι : Type)
  | str (p : Part ι)
  | flowMap (keys : List String)
  | flowSeq (items : List String)
deriving DecidableEq, Repr

/-! ## Rendering -/

section Render

variable {ι : Type} (σ : ι → String)

def Part.text : Part ι → String
  | .lit s => s
  | .hole h => σ h

def TValue.render : TValue ι → List Char
  | .none => []
  | .quoted p => ' ' :: '"' :: ((p.text σ).data ++ ['"'])
  | .plain p => ' ' :: (p.text σ).data
  | .flowMap s => ' ' :: Char.ofNat 123 :: (s.data ++ [Char.ofNat 125])
  | .flowSeq s => ' ' :: '[' :: (s.data ++ [']'])

def TLine.render : TLine ι → List Char
  | .blank => []
  | .entry n k v r => List.replicate n ' ' ++ k.data ++ ':' :: (v.render σ ++ r.data)
  | .item n v r => List.replicate n ' ' ++ '-' :: (v.render σ ++ r.data)
  | .itemEntry n k v r =>
    List.replicate n ' ' ++ '-' :: ' ' :: (k.data ++ ':' :: (v.render σ ++ r.data))

/-- The template's text: its lines joined by line breaks. -/
def renderAll (tls : List (TLine ι)) : String :=
  "\n".intercalate (tls.map fun tl => ⟨tl.render σ⟩)

def TScalar.subst : TScalar ι → Scalar
  | .str p => .str (p.text σ)
  | .flowMap ks => .flowMap ks
  | .flowSeq ks => .flowSeq ks

end Render

/-! ## Reading a template by its structure -/

section Lex

variable {ι : Type}

def TValue.lex : TValue ι → Option (Option (TScalar ι))
  | .none => some Option.none
  | .quoted p | .plain p => some (some (.str p))
  | .flowMap s => (flowWords s.data).map fun ws => some (.flowMap ws)
  | .flowSeq s => (flowWords s.data).map fun ws => some (.flowSeq ws)

def TLine.lex : TLine ι → Option (Option (Line (TScalar ι)))
  | .blank => some none
  | .entry n k v _ => v.lex.map fun v => some ⟨n, .entry k v⟩
  | .item n v _ => v.lex.map fun v => some ⟨n, .item v⟩
  | .itemEntry n k v _ => v.lex.map fun v => some ⟨n, .itemEntry k v⟩

/-- `lexLines` over a template's structure. -/
def lexAll : List (TLine ι) → Option (List (Line (TScalar ι)))
  | [] => some []
  | tl :: tls =>
    match tl.lex, lexAll tls with
    | some none, some ts => some ts
    | some (some t), some ts => some (t :: ts)
    | _, _ => none

end Lex

/-! ## Text the reader takes as it is -/

/-- A key the reader takes: a nonempty run of key characters. -/
def keyOk (k : List Char) : Bool := k != [] && k.all fun c => isKeyChar c && printable c

/-- The text of a double-quoted scalar that needs no escape. -/
def quotedOk (s : List Char) : Bool := s.all fun c => printable c && c != '"' && c != '\\'

/-- The text of a plain scalar that reads back as itself. -/
def plainSafe (s : List Char) : Bool :=
  plainOk s && s.all printable && !hasPair ' ' '#' s && s.head? != some ' ' &&
    s.getLast? != some ' '

/-- The inside of a one-line flow collection closed by `close`. -/
def flowOk (close : Nat) (s : List Char) : Bool :=
  s.all (fun c => printable c && c.toNat != close) && (flowWords s).isSome

/-- What follows the value: spaces or a comment, in printable characters. -/
def restOk (r : List Char) : Bool := restIsComment r && r.all printable

section Ok

/-- Where a placeholder stands: in double quotes or plain, and whether after a dash. -/
structure Place where
  quoted : Bool
  afterDash : Bool
deriving DecidableEq, Repr

/-- Text the reader takes as it is at its place; after a dash, a plain value must not read as
a key. -/
def Place.ok (pl : Place) (s : List Char) : Bool :=
  if pl.quoted then quotedOk s else plainSafe s && (!pl.afterDash || (keyOf s).isNone)

variable {ι : Type} (σ : ι → String)

def TValue.ok (afterDash : Bool) : TValue ι → Bool
  | .none => true
  | .quoted p => Place.ok ⟨true, afterDash⟩ (p.text σ).data
  | .plain p => Place.ok ⟨false, afterDash⟩ (p.text σ).data
  | .flowMap s => flowOk 125 s.data
  | .flowSeq s => flowOk 93 s.data

def TLine.ok : TLine ι → Bool
  | .blank => true
  | .entry _ k v r | .itemEntry _ k v r => keyOk k.data && v.ok σ false && restOk r.data
  | .item _ v r => v.ok σ true && restOk r.data

end Ok

/-! ## Character-level lemmas -/

section Chars

variable {s r : List Char}

theorem takeWhile_spaces (n : Nat) {c : Char} (hc : c ≠ ' ') (cs : List Char) :
    (List.replicate n ' ' ++ c :: cs).takeWhile (· == ' ') = List.replicate n ' ' := by
  rw [List.takeWhile_append_of_pos (by simp)]
  simp [List.takeWhile_cons, hc]

theorem dropWhile_spaces (n : Nat) {c : Char} (hc : c ≠ ' ') (cs : List Char) :
    (List.replicate n ' ' ++ c :: cs).dropWhile (· == ' ') = c :: cs := by
  rw [List.dropWhile_append_of_pos (by simp)]
  simp [List.dropWhile_cons, hc]

theorem restIsComment_head (h : restIsComment r = true) : r = [] ∨ r.head? = some ' ' := by
  cases r with
  | nil => exact .inl rfl
  | cons c cs =>
    simp only [restIsComment, Bool.and_eq_true, beq_iff_eq] at h
    exact .inr (by rw [h.1]; rfl)

theorem lexValue_space (cs : List Char) : lexValue (' ' :: cs) = lexValue cs := by
  simp [lexValue, List.dropWhile_cons]

theorem lexValue_rest (h : restIsComment r = true) : lexValue r = some none := by
  cases r with
  | nil => rfl
  | cons c cs =>
    simp only [restIsComment, Bool.and_eq_true, beq_iff_eq] at h
    rw [h.1, lexValue_space, lexValue]
    split
    · rfl
    · rename_i hd
      rw [hd] at h
      simp only [beq_iff_eq] at h
      simp [h.2]

theorem plainText_spaces {d : List Char} (hd : d = [] ∨ d.head? = some '#') :
    ∀ m, ∃ j, plainText (' ' :: (List.replicate m ' ' ++ d)) = List.replicate j ' '
  | 0 => by
    rcases hd with rfl | hd
    · exact ⟨1, rfl⟩
    · exact ⟨0, by simp [plainText, hd]⟩
  | m + 1 => by
    obtain ⟨j, hj⟩ := plainText_spaces hd m
    refine ⟨j + 1, ?_⟩
    rw [List.replicate_succ, List.cons_append, plainText, if_neg (by simp), hj]
    rfl

/-- The spaces a comment leaves of a plain scalar's text. -/
theorem plainText_rest (h : restIsComment r = true) : ∃ j, plainText r = List.replicate j ' ' := by
  cases r with
  | nil => exact ⟨0, rfl⟩
  | cons c cs =>
    simp only [restIsComment, Bool.and_eq_true, beq_iff_eq] at h
    obtain ⟨rfl, h⟩ := h
    have hsp : cs.takeWhile (· == ' ') = List.replicate (cs.takeWhile (· == ' ')).length ' ' :=
      List.eq_replicate_iff.mpr ⟨rfl, fun b hb => by simpa using List.mem_takeWhile_imp hb⟩
    have hd : cs.dropWhile (· == ' ') = [] ∨ (cs.dropWhile (· == ' ')).head? = some '#' := by
      revert h
      cases cs.dropWhile (· == ' ') with
      | nil => exact fun _ => .inl rfl
      | cons d t => simp
    rw [← List.takeWhile_append_dropWhile (· == ' ') cs, hsp]
    exact plainText_spaces hd _

theorem plainText_append (hs : hasPair ' ' '#' s = false) (hr : r = [] ∨ r.head? = some ' ') :
    plainText (s ++ r) = s ++ plainText r := by
  induction s with
  | nil => rfl
  | cons c s ih =>
    simp only [hasPair, Bool.or_eq_false_iff] at hs
    have hcond : (c == ' ' && (s ++ r).head? == some '#') = false := by
      cases s with
      | nil => rcases hr with rfl | hr <;> simp_all
      | cons => simpa using hs.1
    rw [List.cons_append, plainText, hcond, if_neg Bool.false_ne_true, ih hs.2, List.cons_append]

theorem rstrip_append_spaces (hs : s.getLast? ≠ some ' ') (j : Nat) :
    rstrip (s ++ List.replicate j ' ') = s := by
  rw [rstrip, List.reverse_append, List.reverse_replicate,
    List.dropWhile_append_of_pos (by simp)]
  cases h : s.reverse with
  | nil => simp_all
  | cons c cs =>
    have hc : (c == ' ') = false := by
      rw [← List.head?_reverse, h] at hs
      simpa using hs
    rw [List.dropWhile_cons_of_neg (by simp [hc]), ← h, List.reverse_reverse]

end Chars

/-! ## Values -/

section Values

variable {s r : List Char}

theorem isIndicator_false {c : Char} (h : isIndicator c = false) :
    c ≠ '#' ∧ c ≠ '"' ∧ c.toNat ≠ 123 ∧ c ≠ '[' := by
  simp only [isIndicator, List.contains_eq_any_beq, List.any_eq_false, List.mem_cons,
    List.mem_singleton, beq_iff_eq] at h
  refine ⟨?_, ?_, fun hc => h 123 (by simp) hc, ?_⟩ <;> rintro rfl <;> simp at h

theorem takeWhile_append_stop {p : Char → Bool} {c : Char} (hs : ∀ x ∈ s, p x = true)
    (hc : p c = false) (r : List Char) : (s ++ c :: r).takeWhile p = s := by
  rw [List.takeWhile_append_of_pos hs]
  simp [List.takeWhile_cons, hc]

theorem dropWhile_append_stop {p : Char → Bool} {c : Char} (hs : ∀ x ∈ s, p x = true)
    (hc : p c = false) (r : List Char) : (s ++ c :: r).dropWhile p = c :: r := by
  rw [List.dropWhile_append_of_pos hs]
  simp [List.dropWhile_cons, hc]

theorem lexValue_quoted (hs : quotedOk s = true) (hr : restIsComment r = true) :
    lexValue ('"' :: (s ++ '"' :: r)) = some (some (.str ⟨s⟩)) := by
  simp only [quotedOk, List.all_eq_true, Bool.and_eq_true, bne_iff_ne, ne_eq] at hs
  have hq : ∀ x ∈ s, (x != '"') = true := fun x hx => by simpa using (hs x hx).1.2
  have hb : '\\' ∉ s := fun h => (hs _ h).2 rfl
  simp [lexValue, takeWhile_append_stop hq (bne_self_eq_false '"'),
    dropWhile_append_stop hq (bne_self_eq_false '"'), hb, hr]

theorem lexValue_flowMap (hs : flowOk 125 s = true) (hr : restIsComment r = true) :
    lexValue (Char.ofNat 123 :: (s ++ Char.ofNat 125 :: r)) =
      (flowWords s).map fun ws => some (.flowMap ws) := by
  simp only [flowOk, Bool.and_eq_true, List.all_eq_true] at hs
  have hp : ∀ x ∈ s, (x.toNat != 125) = true := fun x hx => by simpa using (hs.1 x hx).2
  have hc : ((Char.ofNat 125).toNat != 125) = false := rfl
  simp [lexValue, takeWhile_append_stop hp hc, dropWhile_append_stop hp hc, hr]

theorem lexValue_flowSeq (hs : flowOk 93 s = true) (hr : restIsComment r = true) :
    lexValue ('[' :: (s ++ ']' :: r)) = (flowWords s).map fun ws => some (.flowSeq ws) := by
  simp only [flowOk, Bool.and_eq_true, List.all_eq_true] at hs
  have hp : ∀ x ∈ s, (x != ']') = true := fun x hx => by
    have h93 := (hs.1 x hx).2
    simp only [bne_iff_ne, ne_eq] at h93 ⊢
    rintro rfl
    exact h93 rfl
  simp [lexValue, takeWhile_append_stop hp (bne_self_eq_false ']'),
    dropWhile_append_stop hp (bne_self_eq_false ']'), hr]

theorem lexValue_plain (hs : plainSafe s = true) (hr : restIsComment r = true) :
    lexValue (s ++ r) = some (some (.str ⟨s⟩)) := by
  simp only [plainSafe, Bool.and_eq_true, Bool.not_eq_true', bne_iff_ne, ne_eq] at hs
  obtain ⟨⟨⟨⟨hok, -⟩, hpair⟩, hhead⟩, hlast⟩ := hs
  obtain ⟨c, cs, rfl⟩ : ∃ c cs, s = c :: cs := by
    cases s with
    | nil => simp [plainOk] at hok
    | cons c cs => exact ⟨c, cs, rfl⟩
  have hind : isIndicator c = false := by simp_all [plainOk]
  obtain ⟨h1, h2, h3, h4⟩ := isIndicator_false hind
  have hc : c ≠ ' ' := fun h => hhead (by simp [h])
  obtain ⟨j, hj⟩ := plainText_rest hr
  have htext : rstrip (plainText (c :: (cs ++ r))) = c :: cs := by
    rw [← List.cons_append, plainText_append hpair (restIsComment_head hr), hj,
      rstrip_append_spaces hlast]
  simp [lexValue, List.dropWhile_cons, hc, h1, h2, h3, h4, htext, hok]

end Values

/-! ## Keys -/

section Keys

variable {s r : List Char}

theorem keyOf_key (hk : keyOk s = true) (hr : r = [] ∨ r.head? = some ' ') :
    keyOf (s ++ ':' :: r) = some (⟨s⟩, r) := by
  simp only [keyOk, Bool.and_eq_true, bne_iff_ne, List.all_eq_true] at hk
  have hs : ∀ c ∈ s, isKeyChar c = true := fun c hc => (hk.2 c hc).1
  have hcolon : isKeyChar ':' = false := by decide
  rw [keyOf, List.dropWhile_append_of_pos hs, List.takeWhile_append_of_pos hs]
  rcases hr with rfl | hr
  · simp [List.dropWhile_cons, hcolon, hk.1]
  · simp [List.dropWhile_cons, hcolon, hk.1, hr]

theorem keyOf_cons_of_not_key {c : Char} (hc : isKeyChar c = false) (cs : List Char) :
    keyOf (c :: cs) = none := by
  simp [keyOf, List.dropWhile_cons, List.takeWhile_cons, hc]

/-- A text that holds no key still holds none once a space or nothing follows it. -/
theorem keyOf_append_of_none (hs : keyOf s = none) (hr : r = [] ∨ r.head? = some ' ') :
    keyOf (s ++ r) = none := by
  by_cases hall : ∀ c ∈ s, isKeyChar c = true
  · rw [keyOf, List.dropWhile_append_of_pos hall]
    rcases hr with rfl | hr
    · rfl
    · cases r with
      | nil => rfl
      | cons d t =>
        cases Option.some.inj hr
        rfl
  · push_neg at hall
    obtain ⟨x, hx, hxk⟩ := hall
    have hd : s.dropWhile isKeyChar ≠ [] := by
      intro h
      exact hxk (by simpa using List.dropWhile_eq_nil_iff.mp h x hx)
    have hlen : (s.takeWhile isKeyChar).length ≠ s.length := by
      have := congrArg List.length (List.takeWhile_append_dropWhile isKeyChar s)
      rw [List.length_append] at this
      have : (s.dropWhile isKeyChar).length ≠ 0 := by simpa using hd
      omega
    have hdrop : (s ++ r).dropWhile isKeyChar = s.dropWhile isKeyChar ++ r := by
      rw [List.dropWhile_append]
      simp [List.isEmpty_iff, hd]
    obtain ⟨d, t, hdt⟩ := List.exists_cons_of_ne_nil hd
    unfold keyOf at hs ⊢
    rw [List.takeWhile_append, if_neg hlen, hdrop, hdt]
    rw [hdt] at hs
    cases t <;> simp_all

end Keys

/-! ## A rendered line reads as its structure -/

section Read

variable {ι : Type} (σ : ι → String)

theorem isKeyChar_ne {c : Char} (h : isKeyChar c = true) : c ≠ ' ' ∧ c ≠ '#' ∧ c ≠ '-' := by
  refine ⟨?_, ?_, ?_⟩ <;> rintro rfl <;> exact absurd h (by decide)

theorem keyOf_of_rest {cs : List Char} (h : restIsComment (' ' :: cs) = true) :
    keyOf cs = none := by
  cases cs with
  | nil => rfl
  | cons x t =>
    by_cases hx : x = ' '
    · subst hx
      exact keyOf_cons_of_not_key (by decide) t
    · have hx' : x = '#' := by simpa [restIsComment, List.dropWhile_cons, hx] using h
      subst hx'
      exact keyOf_cons_of_not_key (by decide) t

theorem lexLine_indent (n : Nat) {c : Char} (hc : c ≠ ' ') (cs : List Char)
    (hp : (List.replicate n ' ' ++ c :: cs).all printable = true) :
    lexLine ⟨List.replicate n ' ' ++ c :: cs⟩ =
      if c == '#' then some none
      else if c == '-' then lexItem n cs
      else (keyOf (c :: cs)).bind fun (k, v) => (lexValue v).map fun v => some ⟨n, .entry k v⟩ := by
  simp only [lexLine, hp, Bool.not_true, Bool.false_eq_true, if_false, takeWhile_spaces n hc,
    dropWhile_spaces n hc, List.length_replicate]

variable {σ}

theorem render_rest {v : TValue ι} {r : List Char} (hr : restIsComment r = true) :
    v.render σ ++ r = [] ∨ (v.render σ ++ r).head? = some ' ' := by
  cases v with
  | none => exact restIsComment_head hr
  | _ => exact .inr rfl

theorem lexValue_render {v : TValue ι} {b : Bool} (hv : v.ok σ b = true) {r : List Char}
    (hr : restIsComment r = true) :
    lexValue (v.render σ ++ r) = v.lex.map (Option.map (TScalar.subst σ)) := by
  cases v with
  | none => exact lexValue_rest hr
  | quoted p =>
    simp only [TValue.render, List.cons_append, lexValue_space, List.append_assoc,
      List.singleton_append]
    exact lexValue_quoted (by simpa [TValue.ok, Place.ok] using hv) hr
  | plain p =>
    simp only [TValue.ok, Place.ok, Bool.false_eq_true, if_false, Bool.and_eq_true] at hv
    simp only [TValue.render, List.cons_append, lexValue_space]
    exact lexValue_plain hv.1 hr
  | flowMap s =>
    simp only [TValue.render, List.cons_append, List.nil_append, lexValue_space,
      List.append_assoc, lexValue_flowMap hv hr, TValue.lex, Option.map_map]
    rfl
  | flowSeq s =>
    simp only [TValue.render, List.cons_append, List.nil_append, lexValue_space,
      List.append_assoc, lexValue_flowSeq hv hr, TValue.lex, Option.map_map]
    rfl

/-- Past a dash, a value is never read as a key. -/
theorem keyOf_after_dash {v : TValue ι} (hv : v.ok σ true = true) {r : List Char}
    (hr : restIsComment r = true) {cs : List Char} (hcs : v.render σ ++ r = ' ' :: cs) :
    keyOf cs = none := by
  cases v with
  | none =>
    simp only [TValue.render, List.nil_append] at hcs
    exact keyOf_of_rest (hcs ▸ hr)
  | quoted p =>
    cases hcs
    exact keyOf_cons_of_not_key (c := '"') (by decide) _
  | plain p =>
    cases hcs
    simp only [TValue.ok, Place.ok, Bool.false_eq_true, if_false, Bool.and_eq_true,
      Bool.not_true, Bool.false_or, Option.isNone_iff_eq_none] at hv
    exact keyOf_append_of_none hv.2 (restIsComment_head hr)
  | flowMap s =>
    cases hcs
    exact keyOf_cons_of_not_key (c := Char.ofNat 123) (by decide) _
  | flowSeq s =>
    cases hcs
    exact keyOf_cons_of_not_key (c := '[') (by decide) _

theorem lexItem_render {v : TValue ι} (hv : v.ok σ true = true) {r : List Char}
    (hr : restIsComment r = true) (n : Nat) :
    lexItem n (v.render σ ++ r) =
      (v.lex.map (Option.map (TScalar.subst σ))).map fun v => some ⟨n, .item v⟩ := by
  rw [← lexValue_render hv hr]
  rcases h : v.render σ ++ r with _ | ⟨c, cs⟩
  · rfl
  · have hc : c = ' ' := by
      simpa [h] using (render_rest (v := v) (σ := σ) hr).resolve_left (by simp [h])
    subst hc
    simp [lexItem, keyOf_after_dash hv hr h, lexValue_space]

theorem value_printable {v : TValue ι} {b : Bool} (hv : v.ok σ b = true) :
    (v.render σ).all printable = true := by
  cases v <;>
    simp_all [TValue.render, TValue.ok, Place.ok, quotedOk, plainSafe, flowOk, List.all_eq_true] <;>
    decide

theorem keyOk_cons {k : List Char} (hk : keyOk k = true) :
    ∃ c cs, k = c :: cs ∧ isKeyChar c = true ∧ k.all printable = true := by
  simp only [keyOk, Bool.and_eq_true, bne_iff_ne, List.all_eq_true] at hk
  obtain ⟨c, cs, rfl⟩ := List.exists_cons_of_ne_nil hk.1
  exact ⟨c, cs, rfl, (hk.2 c (List.mem_cons_self _ _)).1,
    List.all_eq_true.mpr fun x hx => (hk.2 x hx).2⟩

theorem line_printable {tl : TLine ι} (h : tl.ok σ = true) :
    (tl.render σ).all printable = true := by
  cases tl with
  | blank => rfl
  | entry n k v r | itemEntry n k v r =>
    simp only [TLine.ok, restOk, Bool.and_eq_true] at h
    obtain ⟨-, -, -, -, hkp⟩ := keyOk_cons h.1.1
    simp [TLine.render, List.all_append, hkp, value_printable h.1.2, h.2.2, printable]
  | item n v r =>
    simp only [TLine.ok, restOk, Bool.and_eq_true] at h
    simp [TLine.render, List.all_append, value_printable h.1, h.2.2, printable]

/-- A rendered template line reads as the line the template describes. -/
theorem lexLine_render {tl : TLine ι} (h : tl.ok σ = true) :
    lexLine ⟨tl.render σ⟩ = tl.lex.map (Option.map (Line.map (TScalar.subst σ))) := by
  have hp := line_printable h
  cases tl with
  | blank => rfl
  | entry n k v r =>
    simp only [TLine.ok, restOk, Bool.and_eq_true] at h
    obtain ⟨⟨hk, hv⟩, hr, -⟩ := h
    obtain ⟨c, cs, hkc, hc, -⟩ := keyOk_cons hk
    obtain ⟨hsp, hhash, hdash⟩ := isKeyChar_ne hc
    simp only [TLine.render, hkc, List.append_assoc, List.cons_append] at hp ⊢
    rw [lexLine_indent n hsp _ hp]
    simp only [beq_iff_eq, hhash, hdash, if_false]
    rw [← List.cons_append, ← hkc, keyOf_key hk (render_rest hr), Option.some_bind,
      lexValue_render hv hr]
    simp only [TLine.lex]
    cases v.lex <;> rfl
  | item n v r =>
    simp only [TLine.ok, restOk, Bool.and_eq_true] at h
    simp only [TLine.render] at hp ⊢
    rw [lexLine_indent n (by decide) _ hp, if_neg (by decide), if_pos (beq_self_eq_true _),
      lexItem_render h.1 h.2.1]
    simp only [TLine.lex]
    cases v.lex <;> rfl
  | itemEntry n k v r =>
    simp only [TLine.ok, restOk, Bool.and_eq_true] at h
    obtain ⟨⟨hk, hv⟩, hr, -⟩ := h
    simp only [TLine.render] at hp ⊢
    rw [lexLine_indent n (by decide) _ hp, if_neg (by decide), if_pos (beq_self_eq_true _)]
    simp only [lexItem, if_pos (beq_self_eq_true _), keyOf_key hk (render_rest hr),
      lexValue_render hv hr]
    simp only [TLine.lex]
    cases v.lex <;> rfl

theorem lexLines_render {tls : List (TLine ι)} (h : ∀ tl ∈ tls, tl.ok σ = true) :
    lexLines (tls.map fun tl => ⟨tl.render σ⟩) =
      (lexAll tls).map (List.map (Line.map (TScalar.subst σ))) := by
  induction tls with
  | nil => rfl
  | cons tl tls ih =>
    rw [List.forall_mem_cons] at h
    rw [List.map_cons, lexLines, lexAll, lexLine_render h.1, ih h.2]
    rcases tl.lex with _ | _ | t <;> cases lexAll tls <;> rfl

theorem split_renderAll {tls : List (TLine ι)} (h : ∀ tl ∈ tls, tl.ok σ = true)
    (hne : tls ≠ []) :
    Python.Str.split (renderAll σ tls) '\n' = tls.map fun tl => ⟨tl.render σ⟩ := by
  have hnl : ∀ l ∈ tls.map (fun tl => (⟨tl.render σ⟩ : String)), '\n' ∉ l.data := by
    simp only [List.mem_map]
    rintro _ ⟨tl, htl, rfl⟩ hmem
    have := List.all_eq_true.mp (line_printable (h tl htl)) _ hmem
    revert this
    decide
  exact Python.Str.split_intercalate hnl (by simpa using hne)

/-- Reading a rendered template: the document the template's own lines lay out, with every
placeholder replaced by its text. -/
theorem read_renderAll {tls : List (TLine ι)} (h : ∀ tl ∈ tls, tl.ok σ = true)
    (hne : tls ≠ []) :
    readText (renderAll σ tls) = ((lexAll tls).bind build).map (mapEntries (TScalar.subst σ)) := by
  rw [readText, split_renderAll h hne, lexLines_render h]
  cases lexAll tls with
  | none => rfl
  | some ls => exact build_map _ ls

/-- What a rendered template holds at a path: what its own lines hold there, with every
placeholder replaced by its text. -/
theorem valueAt_renderAll {tls : List (TLine ι)} (h : ∀ tl ∈ tls, tl.ok σ = true)
    (hne : tls ≠ []) (path : List Seg) :
    (readText (renderAll σ tls)).bind (valueAt · path) =
      (((lexAll tls).bind build).bind (valueAt · path)).map (Option.map (TScalar.subst σ)) := by
  rw [read_renderAll h hne]
  cases (lexAll tls).bind build with
  | none => rfl
  | some doc => exact valueAt_mapEntries _ doc path

/-- A path's value in a rendered template, from its value in the template's own lines. -/
theorem yamlAt_renderAll {tls : List (TLine ι)} (h : ∀ tl ∈ tls, tl.ok σ = true)
    (hne : tls ≠ []) {path : List String} {v : TScalar ι}
    (hv : ((lexAll tls).bind build).bind (valueAt · (keys path)) = some (some v)) :
    yamlAt (renderAll σ tls) path = some (some (v.subst σ)) := by
  rw [yamlAt, valueAt_renderAll h hne, hv]
  rfl

end Read

/-! ## Fixed text and placeholders -/

section Holes

variable {ι : Type}

def TValue.holes (afterDash : Bool) : TValue ι → List (ι × Place)
  | .quoted (.hole h) => [(h, ⟨true, afterDash⟩)]
  | .plain (.hole h) => [(h, ⟨false, afterDash⟩)]
  | _ => []

/-- The placeholders of a line, with their places. -/
def TLine.holes : TLine ι → List (ι × Place)
  | .blank => []
  | .entry _ _ v _ | .itemEntry _ _ v _ => v.holes false
  | .item _ v _ => v.holes true

/-- A line whose fixed text the reader takes as it is: checked with every placeholder standing
for a text that reads back at any place. -/
def TLine.litOk (tl : TLine ι) : Bool := tl.ok fun _ => "x"

theorem Place.ok_probe : ∀ pl : Place, pl.ok ['x'] = true := by
  rintro ⟨_ | _, _ | _⟩ <;> decide

theorem TValue.ok_iff (σ : ι → String) (b : Bool) (v : TValue ι) :
    v.ok σ b = true ↔ v.ok (fun _ => "x") b = true ∧
      ∀ x ∈ v.holes b, x.2.ok (σ x.1).data = true := by
  rcases v with _ | ⟨_ | _⟩ | ⟨_ | _⟩ | _ | _ <;>
    simp [TValue.ok, TValue.holes, Part.text, Place.ok_probe]

theorem TLine.ok_iff (σ : ι → String) (tl : TLine ι) :
    tl.ok σ = true ↔ tl.litOk = true ∧ ∀ x ∈ tl.holes, x.2.ok (σ x.1).data = true := by
  cases tl <;> simp [TLine.litOk, TLine.ok, TLine.holes, TValue.ok_iff σ] <;> tauto

/-- A template reads as its structure when its fixed text does and each placeholder's text
reads back at its place. -/
theorem ok_of_holes {σ : ι → String} {tls : List (TLine ι)} (hlit : tls.all TLine.litOk = true)
    (hholes : ∀ x ∈ tls.flatMap TLine.holes, x.2.ok (σ x.1).data = true) :
    ∀ tl ∈ tls, tl.ok σ = true := by
  intro tl htl
  rw [TLine.ok_iff]
  exact ⟨List.all_eq_true.mp hlit tl htl,
    fun x hx => hholes x (List.mem_flatMap.mpr ⟨tl, htl, hx⟩)⟩

theorem ok_of_no_holes {σ : ι → String} {tls : List (TLine ι)}
    (hlit : tls.all TLine.litOk = true) (hnil : tls.flatMap TLine.holes = []) :
    ∀ tl ∈ tls, tl.ok σ = true :=
  ok_of_holes hlit (by simp [hnil])

end Holes

/-! ## Text that reads back at any place -/

section SafeText

/-- A character that never ends a plain scalar, starts a comment or needs an escape. -/
def safeChar (c : Char) : Bool :=
  printable c && !isIndicator c && c != ' ' && c != ':' && c != '"' && c != '\\'

theorem hasPair_of_not_mem {a b : Char} : ∀ {s : List Char}, a ∉ s → hasPair a b s = false
  | [], _ => rfl
  | c :: cs, h => by
    simp only [List.mem_cons, not_or] at h
    simp [hasPair, Ne.symm h.1, hasPair_of_not_mem h.2]

theorem keyOf_of_colon_not_mem {s : List Char} (h : ':' ∉ s) : keyOf s = none := by
  unfold keyOf
  split
  · rename_i c r hcr
    have hc : c ∈ s := (List.dropWhile_suffix isKeyChar).subset (hcr ▸ List.mem_cons_self c r)
    simp [show c ≠ ':' from fun hc' => h (hc' ▸ hc)]
  · rfl

/-- Text of at least two safe characters reads back as itself at any place. -/
theorem Place.ok_of_safe {s : List Char} (hs : ∀ c ∈ s, safeChar c = true) (hlen : 2 ≤ s.length)
    (pl : Place) : pl.ok s = true := by
  simp only [safeChar, Bool.and_eq_true, Bool.not_eq_true', bne_iff_ne, ne_eq] at hs
  obtain ⟨c, d, t, rfl⟩ : ∃ c d t, s = c :: d :: t := by
    match s, hlen with
    | c :: d :: t, _ => exact ⟨c, d, t, rfl⟩
  have hsp : ' ' ∉ c :: d :: t := fun h => (hs _ h).1.1.1.2 rfl
  have hco : ':' ∉ c :: d :: t := fun h => (hs _ h).1.1.2 rfl
  have hlast : (c :: d :: t).getLast? ≠ some ' ' ∧ (c :: d :: t).getLast? ≠ some ':' :=
    ⟨fun h => hsp (List.mem_of_getLast?_eq_some h), fun h => hco (List.mem_of_getLast?_eq_some h)⟩
  have hc := hs c (List.mem_cons_self _ _)
  have hd := hs d (List.mem_cons_of_mem _ (List.mem_cons_self _ _))
  rcases pl with ⟨_ | _, _ | _⟩ <;>
    simp_all [Place.ok, quotedOk, plainSafe, plainOk, hasPair_of_not_mem, keyOf_of_colon_not_mem]

end SafeText

/-! ## Reading a template in pieces -/

theorem lexAll_cons_line {ι : Type} {tl : TLine ι} {l : Line (TScalar ι)}
    (h : tl.lex = some (some l)) (tls : List (TLine ι)) :
    lexAll (tl :: tls) = (lexAll tls).map (l :: ·) := by
  rw [lexAll, h]
  cases lexAll tls <;> rfl

theorem lexAll_blank {ι : Type} (tls : List (TLine ι)) : lexAll (.blank :: tls) = lexAll tls := by
  rw [lexAll, TLine.lex]
  cases lexAll tls <;> rfl

/-- Lines that each read as one line read as those lines. -/
theorem lexAll_map {ι β : Type} {f : β → TLine ι} {g : β → Line (TScalar ι)}
    (h : ∀ x, (f x).lex = some (some (g x))) : ∀ xs : List β, lexAll (xs.map f) = some (xs.map g)
  | [] => rfl
  | x :: xs => by rw [List.map_cons, lexAll_cons_line (h x), lexAll_map h xs]; rfl

theorem lexAll_append {ι : Type} :
    ∀ (a b : List (TLine ι)), lexAll (a ++ b) = (lexAll a).bind fun la => (lexAll b).map (la ++ ·)
  | [], b => by simp [lexAll]
  | tl :: a, b => by
    rw [List.cons_append, lexAll, lexAll, lexAll_append a b]
    rcases tl.lex with _ | _ | t <;> cases lexAll a <;> cases lexAll b <;> rfl

end AntiRaid.Deploy.Template
