import NesMachine.Cartridge

/-!
# Loading a game

Whether a load gives a game is settled by the bytes of the ROM file alone, before anything is done: a
load reads the file, and then puts the game in or does nothing at all.

* `load_eq`, `loadBytes_eq`: a load as a verdict and what follows from it, on any computer.
* `load_error`, `loadBytes_error`: a load that fails did nothing.
-/

namespace NesMachine.Cartridge

open Digest (Bytes)

/-- The game in a ROM file, by the answer to a read of it. -/
def gameOf (path : Path) : Except Files.Error Bytes → Except LoadFailure Board
  | .ok bytes => boardOf bytes
  | .error .notFound => .error (.refused (.notFound path))
  | .error e => .error (.refused (.unreadable path e))

section Verdict

variable {μ : Type → Type} [Monad μ] [Host μ]

/-- What follows from the verdict on a game. -/
def settle (c : Cartridge) (saveFile : Option Path) :
    Except LoadFailure Board → μ (Except LoadFailure Cartridge)
  | .ok board => do return .ok (← c.insert board saveFile)
  | .error failure => return .error failure

theorem loadBytes_eq (c : Cartridge) (bytes : Bytes) (saveFile : Option Path) :
    (c.loadBytes bytes saveFile : μ (Except LoadFailure Cartridge)) =
      c.settle saveFile (boardOf bytes) := by
  unfold loadBytes
  cases boardOf bytes <;> rfl

/-- **A load is a read, a verdict, and what follows from it.** -/
theorem load_eq (c : Cartridge) (path : Path) :
    (c.load path : μ (Except LoadFailure Cartridge)) = (Host.readFile path >>= fun answer =>
      c.settle (some (savePathFor c.saveDir path)) (gameOf path answer)) := by
  unfold load
  congr 1
  funext answer
  cases answer with
  | ok bytes => exact loadBytes_eq c bytes _
  | error e => cases e <;> rfl

end Verdict

section Failure

variable {σ : Type} [Host (StateM σ)] {c : Cartridge} {path : Path} {saveFile : Option Path}
  {bytes : Bytes} {game : Except LoadFailure Board} {failure : LoadFailure} {s s' : σ}

theorem settle_error (h : (c.settle saveFile game : StateM σ _) s = (.error failure, s')) :
    game = .error failure ∧ s' = s := by
  cases game with
  | ok board => cases h
  | error failure' =>
    cases h
    exact ⟨rfl, rfl⟩

theorem loadBytes_error (h : (c.loadBytes bytes saveFile : StateM σ _) s = (.error failure, s')) :
    s' = s := by
  rw [loadBytes_eq] at h
  exact (settle_error h).2

/-- **A load that fails did nothing**, on a computer on which reading a file changes nothing. -/
theorem load_error (hread : ∀ path s, ((Host.readFile path : StateM σ _) s).2 = s)
    (h : (c.load path : StateM σ _) s = (.error failure, s')) : s' = s := by
  rw [load_eq] at h
  exact (settle_error h).2.trans (hread path s)

end Failure

end NesMachine.Cartridge
