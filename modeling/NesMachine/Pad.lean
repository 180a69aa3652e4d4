/-!
# The controller pad

A pad reports eight buttons over one wire. While the strobe is high it keeps showing the first
button; when the strobe falls the state of that moment stays latched and each read shifts out the
next button, then ones.
-/

namespace NesMachine

/-- A pad and its shift register. -/
structure Pad where
  /-- The buttons held down, A in bit 0, then B, Select, Start, Up, Down, Left, Right. -/
  buttons : UInt8 := 0
  shift : UInt8 := 0
  strobe : Bool := false
  deriving DecidableEq, Repr, Inhabited

namespace Pad

/-- Lines that no button drives read as the last value on the bus. -/
def openBus : UInt8 := 0x40

/-- Sets which buttons are held. -/
def setButtons (pad : Pad) (buttons : UInt8) : Pad :=
  { pad with buttons, shift := if pad.strobe then buttons else pad.shift }

/-- A write to the pad: bit 0 drives the strobe. -/
def writeStrobe (pad : Pad) (value : UInt8) : Pad :=
  if value &&& 1 = 0 then { pad with strobe := false }
  else { pad with strobe := true, shift := pad.buttons }

/-- The value that the next read returns. -/
def peek (pad : Pad) : UInt8 :=
  openBus ||| ((if pad.strobe then pad.buttons else pad.shift) &&& 1)

/-- A read of the pad. -/
def read (pad : Pad) : UInt8 × Pad :=
  if pad.strobe then (openBus ||| (pad.buttons &&& 1), pad)
  else (openBus ||| (pad.shift &&& 1), { pad with shift := (pad.shift >>> 1) ||| 0x80 })

end Pad

end NesMachine
