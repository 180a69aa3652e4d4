/-!
# Computations that can fail

What is known of the parts of a computation that came to a value, of the computations of a list one by
one, and of two computations that run side by side.
-/

namespace NesMachine

variable {ε δ α β : Type} {x : Except ε α} {a : α}

theorem bind_ok {f : α → Except ε β} {b : β} (h : x >>= f = .ok b) :
    ∃ a, x = .ok a ∧ f a = .ok b := by
  cases x with
  | error e => cases h
  | ok a => exact ⟨a, rfl, h⟩

/-- Another error is no value. -/
theorem of_mapError_ok {f : ε → δ} (h : x.mapError f = .ok a) : x = .ok a := by
  cases x with
  | error e => cases h
  | ok a' =>
    cases h
    rfl

/-! ## Lists and vectors -/

theorem toList_mapM {n : Nat} (f : α → Except ε β) (xs : Vector α n) :
    (xs.mapM f).map (·.toList) = xs.toList.mapM f := by
  have h : Array.toList <$> Vector.toArray <$> xs.mapM f = xs.toArray.toList.mapM f := by
    rw [Vector.toArray_mapM, Array.toList_mapM]
  rw [Functor.map_map] at h
  exact h

section Keeps

variable {γ : Type} {f : α → Except ε β} {before : α → γ} {after : β → γ}

theorem listMapM_keeps (hf : ∀ a b, f a = .ok b → after b = before a) {xs : List α} {ys : List β}
    (h : xs.mapM f = .ok ys) : ys.map after = xs.map before := by
  induction xs generalizing ys with
  | nil =>
    cases h
    rfl
  | cons a xs ih =>
    rw [List.mapM_cons] at h
    obtain ⟨b, hb, h⟩ := bind_ok h
    obtain ⟨bs, hbs, h⟩ := bind_ok h
    cases h
    rw [List.map_cons, List.map_cons, hf a b hb, ih hbs]

/-- What is kept of every element is kept of a vector of them. -/
theorem mapM_keeps {n : Nat} (hf : ∀ a b, f a = .ok b → after b = before a) {xs : Vector α n}
    {ys : Vector β n} (h : xs.mapM f = .ok ys) : ys.toList.map after = xs.toList.map before := by
  refine listMapM_keeps hf ?_
  rw [← toList_mapM, h]
  rfl

end Keeps

/-! ## Two computations -/

section Alike

variable {α' β' : Type} {R : α → α' → Prop} {S : β → β' → Prop} {x : Except ε α} {y : Except ε α'}

/-- They fail with the same error, or come to related values. -/
inductive Alike (R : α → α' → Prop) : Except ε α → Except ε α' → Prop where
  | ok {a : α} {b : α'} : R a b → Alike R (.ok a) (.ok b)
  | error (e : ε) : Alike R (.error e) (.error e)

namespace Alike

theorem bind {f : α → Except ε β} {g : α' → Except ε β'} (h : Alike R x y)
    (hf : ∀ a b, R a b → Alike S (f a) (g b)) : Alike S (x >>= f) (y >>= g) := by
  cases h with
  | ok hab => exact hf _ _ hab
  | error e => exact .error e

theorem map {f : α → β} {g : α' → β'} (h : Alike R x y) (hf : ∀ a b, R a b → S (f a) (g b)) :
    Alike S (x.map f) (y.map g) := by
  cases h with
  | ok hab => exact .ok (hf _ _ hab)
  | error e => exact .error e

theorem mapError (f : ε → δ) (h : Alike R x y) : Alike R (x.mapError f) (y.mapError f) := by
  cases h with
  | ok hab => exact .ok hab
  | error e => exact .error (f e)

end Alike

end Alike

end NesMachine
