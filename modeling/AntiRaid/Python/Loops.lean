import Mathlib.Data.List.Basic

/-!
# `for` loops that may raise

A Python `for` loop whose body may raise is a `List.foldlM` in `Except`. The scripts nest such
loops over paginated listings; the lemmas here flatten the nesting, so that a run is one loop
over the items the pages list together.

The database scripts run each statement on its own, outside any transaction, so an exception
keeps what the statements before it committed. `Run` carries both: the committed state and the
exception that ended the run, if one did.
-/

namespace AntiRaid.Python.Loops

variable {ε α β γ : Type}

/-- What a completed `bind` did: its first computation completed too. -/
theorem bind_eq_ok {x : Except ε α} {f : α → Except ε β} {b : β} (h : x >>= f = .ok b) :
    ∃ a, x = .ok a ∧ f a = .ok b := by
  cases x with
  | error e => cases h
  | ok a => exact ⟨a, rfl, h⟩

section Fold

variable (f : β → α → Except ε β)

theorem foldlM_flatten : ∀ (L : List (List α)) (b : β),
    L.flatten.foldlM f b = L.foldlM (fun b l => l.foldlM f b) b
  | [], _ => rfl
  | l :: L, b => by
    rw [List.flatten_cons, List.foldlM_append, List.foldlM_cons]
    exact congrArg _ (funext fun b' => foldlM_flatten L b')

theorem foldlM_flatMap (g : γ → List α) : ∀ (l : List γ) (b : β),
    (l.flatMap g).foldlM f b = l.foldlM (fun b x => (g x).foldlM f b) b
  | [], _ => rfl
  | x :: l, b => by
    rw [List.flatMap_cons, List.foldlM_append, List.foldlM_cons]
    exact congrArg _ (funext fun b' => foldlM_flatMap g l b')

theorem foldlM_filter (p : α → Bool) : ∀ (l : List α) (b : β),
    (l.filter p).foldlM f b = l.foldlM (fun b x => if p x then f b x else pure b) b
  | [], _ => rfl
  | x :: l, b => by
    by_cases hx : p x
    · rw [List.filter_cons_of_pos hx, List.foldlM_cons, List.foldlM_cons, if_pos hx]
      exact congrArg _ (funext fun b' => foldlM_filter p l b')
    · rw [List.filter_cons_of_neg hx, List.foldlM_cons, if_neg hx, pure_bind]
      exact foldlM_filter p l b

theorem foldlM_congr {g : β → α → Except ε β} :
    ∀ {l : List α}, (∀ b, ∀ x ∈ l, f b x = g b x) → ∀ b, l.foldlM f b = l.foldlM g b
  | [], _, _ => rfl
  | x :: l, h, b => by
    rw [List.foldlM_cons, List.foldlM_cons, h b x (List.mem_cons_self x l)]
    exact congrArg _
      (funext fun b' => foldlM_congr (fun b y hy => h b y (List.mem_cons_of_mem x hy)) b')

/-- What every completed step keeps, a completed loop keeps. -/
theorem foldlM_invariant (P : β → Prop) (hstep : ∀ b x b', P b → f b x = .ok b' → P b') :
    ∀ (l : List α) (b b' : β), P b → l.foldlM f b = .ok b' → P b'
  | [], _, _, hb, h => by cases h; exact hb
  | x :: l, b, b', hb, h => by
    obtain ⟨b₁, h₁, h⟩ := bind_eq_ok h
    exact foldlM_invariant P hstep l b₁ b' (hstep b x b₁ hb h₁) h

end Fold

/-! ## Two loops in step -/

/-- Two results that raise the same exception, or end in states related by `R`. -/
def ResultRel {σ τ : Type} (R : σ → τ → Prop) : Except ε σ → Except ε τ → Prop
  | .error e, .error e' => e = e'
  | .ok s, .ok t => R s t
  | _, _ => False

/-- Two loops over the same items, whose bodies raise alike and keep `R` between their states,
raise alike and keep `R` to the end. -/
theorem foldlM_resultRel {σ τ : Type} {R : σ → τ → Prop} {f : σ → α → Except ε σ}
    {g : τ → α → Except ε τ} (hstep : ∀ s t x, R s t → ResultRel R (f s x) (g t x)) :
    ∀ (xs : List α) (s : σ) (t : τ), R s t → ResultRel R (xs.foldlM f s) (xs.foldlM g t)
  | [], _, _, h => h
  | x :: xs, s, t, h => by
    have hx := hstep s t x h
    rw [List.foldlM_cons, List.foldlM_cons]
    cases hf : f s x <;> cases hg : g t x <;> rw [hf, hg] at hx
    · exact hx
    · exact hx.elim
    · exact hx.elim
    · exact foldlM_resultRel hstep xs _ _ hx

/-- A script run so far: the state its statements committed, and the exception that ended it,
if one did. -/
structure Run (σ ε : Type) where
  state : σ
  raised : Option ε

namespace Run

variable {σ ε : Type}

/-- The next statement, which runs only if nothing has been raised, and commits or raises on
its own. -/
def andThen (r : Run σ ε) (stmt : σ → Except ε σ) : Run σ ε :=
  match r.raised with
  | some _ => r
  | none =>
    match stmt r.state with
    | .ok s => ⟨s, none⟩
    | .error e => ⟨r.state, some e⟩

/-- A `for` loop whose body commits or raises, item by item. -/
def forIn (r : Run σ ε) (xs : List α) (body : σ → α → Except ε σ) : Run σ ε :=
  xs.foldl (fun r x => r.andThen (body · x)) r

theorem andThen_raised {r : Run σ ε} {e : ε} (h : r.raised = some e) (stmt : σ → Except ε σ) :
    r.andThen stmt = r := by
  rw [andThen, h]

theorem andThen_ok {s s' : σ} {stmt : σ → Except ε σ} (h : stmt s = .ok s') :
    (⟨s, none⟩ : Run σ ε).andThen stmt = ⟨s', none⟩ := by
  simp [andThen, h]

theorem andThen_error {s : σ} {e : ε} {stmt : σ → Except ε σ} (h : stmt s = .error e) :
    (⟨s, none⟩ : Run σ ε).andThen stmt = ⟨s, some e⟩ := by
  simp [andThen, h]

theorem forIn_raised {r : Run σ ε} {e : ε} (h : r.raised = some e) (body : σ → α → Except ε σ) :
    ∀ xs : List α, r.forIn xs body = r
  | [] => rfl
  | x :: xs => by
    rw [forIn, List.foldl_cons, andThen_raised h]
    exact forIn_raised h body xs

theorem forIn_cons (r : Run σ ε) (x : α) (xs : List α) (body : σ → α → Except ε σ) :
    r.forIn (x :: xs) body = (r.andThen (body · x)).forIn xs body := rfl

end Run

end AntiRaid.Python.Loops
