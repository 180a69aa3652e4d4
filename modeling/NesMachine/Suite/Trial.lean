import NesMachine.Console.Basic
import NesMachine.Digest.Base64
import NesMachine.Suite.Test

/-!
# Trials

A trial runs a game of a suite and compares the picture with the digest that the suite expects. The
digest may be one of all bytes of the picture or one of its colours alone.
-/

namespace NesMachine.Suite

open Digest (sha1Base64 sha1Base64OfColours)

/-- What a game shows when its frames have run. -/
structure Observation where
  digest : String
  /-- The digest of the colours without opacity. -/
  colourDigest : String
  pc : UInt16
  cycles : Nat
  ctrl : UInt8
  mask : UInt8
  status : UInt8
  scanline : Int
  dot : Nat
  board : String
  deriving DecidableEq, Repr

/-- What a console shows now. -/
def Observation.ofConsole (c : Console) : Observation :=
  let { cpu, ppu, .. } := c.machine
  { digest := sha1Base64 ppu.frame.bytes
    colourDigest := sha1Base64OfColours ppu.frame.bytes
    pc := cpu.registers.pc
    cycles := cpu.cycles
    ctrl := ppu.ctrl
    mask := ppu.mask
    status := ppu.status
    scanline := ppu.beam.scanline
    dot := ppu.beam.dot
    board := c.boardState }

/-- How a picture compares with what was expected. -/
inductive Verdict where
  | same
  /-- The colours agree. -/
  | sameColours
  | different
  deriving DecidableEq, Repr

/-- Judges a picture by the digest that was expected. -/
def Observation.verdict (o : Observation) (expected : String) : Verdict :=
  if o.digest = expected then .same
  else if o.colourDigest = expected then .sameColours
  else .different

/-- The frames that a test runs; their number does not pass 32 bits. -/
def Test.totalFrames (t : Test) (extra : UInt32) : Nat :=
  min (t.frames.toNat + extra.toNat) 0xFFFFFFFF

/-- The settings for a test. -/
def Test.settings (t : Test) (settings : Settings) : Settings :=
  if t.isPal then { settings with tv := some .pal } else settings

variable {m : Type → Type} [Monad m] [Host m]

/-- Runs a test: loads its game, runs its frames and looks at the picture. The game is saved at the
end. -/
def Test.run (t : Test) (settings : Settings) (games : Path) (extra : UInt32) :
    ExceptT Wreck m (Except LoadError Observation) := do
  let c ← Console.ofSettings (t.settings settings)
  let (loaded, c) ← c.loadFile (games.join ⟨t.file⟩)
  match loaded with
  | .error e => return .error e
  | .ok () =>
    let c ← c.runFrames (t.totalFrames extra)
    let observation := Observation.ofConsole c
    c.cartridge.persist
    return .ok observation

end NesMachine.Suite
