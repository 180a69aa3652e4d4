import Mathlib.Algebra.Group.Int.Defs
import NesMachine.Proofs.Outcome

/-!
# Checked arithmetic

A debug build stops where a number leaves its type, where a shift is as wide as what it shifts, and
where an index is outside. Its operators are those of a release build with these checks in front.
-/

namespace NesMachine.Checked

/-- How a checked computation ends early: by its arithmetic, or by a fault that it has without checks
as well. -/
inductive Panic (ε : Type) where
  | arithmetic
  | fault (e : ε)

variable {ε δ α β : Type} {n : Nat}

/-- A computation that has no arithmetic to check. -/
def lift (x : Except ε α) : Except (Panic ε) α := x.mapError .fault

@[simp] theorem lift_ok (a : α) : lift (.ok a : Except ε α) = .ok a := rfl

@[simp] theorem ok_bind (a : α) (f : α → Except δ β) : (Except.ok a >>= f) = f a := rfl

theorem lift_bind (x : Except ε α) (f : α → Except ε β) :
    lift (x >>= f) = lift x >>= fun a => lift (f a) := by
  cases x <;> rfl

/-- Checked computations agree if their parts do, on every value that the first part can have. -/
theorem bind_eq_lift {x : Except ε α} {y : Except (Panic ε) α} {f : α → Except ε β}
    {g : α → Except (Panic ε) β} (hy : y = lift x) (hg : ∀ a, x = .ok a → g a = lift (f a)) :
    y >>= g = lift (x >>= f) := by
  rw [hy]
  cases x with
  | error e => rfl
  | ok a => exact hg a rfl

theorem listMapM_lift (f : α → Except ε β) (xs : List α) :
    xs.mapM (fun a => lift (f a)) = lift (xs.mapM f) := by
  induction xs with
  | nil => rfl
  | cons a xs ih =>
    rw [List.mapM_cons, List.mapM_cons, ih, lift_bind]
    refine congrArg _ (funext fun b => ?_)
    rw [lift_bind]
    rfl

/-- Two computations of a vector are equal if they are as computations of its list. -/
theorem eq_of_toList_eq {x y : Except δ (Vector β n)}
    (h : x.map (·.toList) = y.map (·.toList)) : x = y := by
  cases x with
  | error e =>
    cases y with
    | error e' => cases h; rfl
    | ok w => cases h
  | ok v =>
    cases y with
    | error e => cases h
    | ok w => rw [Vector.toList_inj.mp (Except.ok.inj h)]

theorem mapM_lift (f : α → Except ε β) (xs : Vector α n) :
    xs.mapM (fun a => lift (f a)) = lift (xs.mapM f) := by
  apply eq_of_toList_eq
  rw [toList_mapM, listMapM_lift, ← toList_mapM]
  cases xs.mapM f <;> rfl

/-- A value, if a condition holds. -/
def require (p : Prop) [Decidable p] (a : α) : Except (Panic ε) α :=
  if p then .ok a else .error .arithmetic

theorem require_ok {p : Prop} [Decidable p] (h : p) (a : α) :
    (require p a : Except (Panic ε) α) = .ok a := if_pos h

/-! ## Numbers in a type -/

/-- A number that has to be below a limit. -/
def below (limit n : Nat) : Except (Panic ε) Nat := require (n < limit) n

/-- A number that has to fit into a signed type. -/
def signed (bits : Nat) (n : Int) : Except (Panic ε) Int :=
  require (-2 ^ (bits - 1) ≤ n ∧ n < 2 ^ (bits - 1)) n

theorem below_ok {limit n : Nat} (h : n < limit) : (below limit n : Except (Panic ε) Nat) = .ok n :=
  require_ok h n

/-! ## Operators -/

def add16 (a b : UInt16) : Except (Panic ε) UInt16 := require (a.toNat + b.toNat < 65536) (a + b)

def sub16 (a b : UInt16) : Except (Panic ε) UInt16 := require (b.toNat ≤ a.toNat) (a - b)

def mul16 (a b : UInt16) : Except (Panic ε) UInt16 := require (a.toNat * b.toNat < 65536) (a * b)

def shr16 (a b : UInt16) : Except (Panic ε) UInt16 := require (b.toNat < 16) (a >>> b)

def sub8 (a b : UInt8) : Except (Panic ε) UInt8 := require (b.toNat ≤ a.toNat) (a - b)

def shr8 (a b : UInt8) : Except (Panic ε) UInt8 := require (b.toNat < 8) (a >>> b)

theorem add16_ok {a b : UInt16} (h : a.toNat + b.toNat < 65536) :
    (add16 a b : Except (Panic ε) UInt16) = .ok (a + b) := require_ok h _

theorem sub16_ok {a b : UInt16} (h : b.toNat ≤ a.toNat) :
    (sub16 a b : Except (Panic ε) UInt16) = .ok (a - b) := require_ok h _

theorem mul16_ok {a b : UInt16} (h : a.toNat * b.toNat < 65536) :
    (mul16 a b : Except (Panic ε) UInt16) = .ok (a * b) := require_ok h _

theorem shr16_ok (a : UInt16) {b : UInt16} (h : b.toNat < 16) :
    (shr16 a b : Except (Panic ε) UInt16) = .ok (a >>> b) := require_ok h _

theorem sub8_ok {a b : UInt8} (h : b.toNat ≤ a.toNat) :
    (sub8 a b : Except (Panic ε) UInt8) = .ok (a - b) := require_ok h _

theorem shr8_ok (a : UInt8) {b : UInt8} (h : b.toNat < 8) :
    (shr8 a b : Except (Panic ε) UInt8) = .ok (a >>> b) := require_ok h _

/-! ## Indices -/

def get (v : Vector α n) (i : Nat) : Except (Panic ε) α :=
  if h : i < n then .ok v[i] else .error .arithmetic

def set (v : Vector α n) (i : Nat) (a : α) : Except (Panic ε) (Vector α n) :=
  if h : i < n then .ok (v.set i a h) else .error .arithmetic

theorem get_fin (v : Vector α n) (i : Fin n) :
    (get v i.val : Except (Panic ε) α) = .ok (v.get i) := dif_pos i.isLt

theorem set_fin (v : Vector α n) (i : Fin n) (a : α) :
    (set v i.val a : Except (Panic ε) (Vector α n)) = .ok (v.set i.val a i.isLt) := dif_pos i.isLt

end NesMachine.Checked
