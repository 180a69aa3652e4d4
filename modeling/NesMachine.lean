import NesMachine.Board.Basic
import NesMachine.Board.Fault
import NesMachine.Board.Mmc1
import NesMachine.Board.Slot
import NesMachine.Cartridge
import NesMachine.Cli.Command
import NesMachine.Cli.Debugger
import NesMachine.Cli.Failure
import NesMachine.Cli.Runner
import NesMachine.Cli.Tracer
import NesMachine.Console.Basic
import NesMachine.Console.Disassembly
import NesMachine.Cpu.Effect
import NesMachine.Cpu.Opcode
import NesMachine.Cpu.Registers
import NesMachine.Cpu.State
import NesMachine.Digest.Base64
import NesMachine.Digest.Sha1
import NesMachine.Files.Error
import NesMachine.Files.Path
import NesMachine.Files.Tree
import NesMachine.Host
import NesMachine.Json.Token
import NesMachine.Json.Value
import NesMachine.Machine.Bus
import NesMachine.Machine.Clock
import NesMachine.Machine.Execute
import NesMachine.Machine.State
import NesMachine.Main
import NesMachine.Pad
import NesMachine.Ppu.Beam
import NesMachine.Ppu.Dot
import NesMachine.Ppu.Memory
import NesMachine.Ppu.Palette
import NesMachine.Ppu.Register
import NesMachine.Ppu.Scroll
import NesMachine.Ppu.Sprite
import NesMachine.Ppu.State
import NesMachine.Rom.Header
import NesMachine.Rom.Image
import NesMachine.Settings.Basic
import NesMachine.Settings.Json
import NesMachine.Simulation
import NesMachine.Suite.Reading
import NesMachine.Suite.Test
import NesMachine.Suite.Trial
import NesMachine.Terminal
import NesMachine.Text.Blank
import NesMachine.Text.Casing
import NesMachine.Text.Integer
import NesMachine.Text.Lowercase
import NesMachine.Text.Radix
import NesMachine.Trace
import NesMachine.TvSystem
import NesMachine.Xml.Event
import NesMachine.Xml.Reference
import NesMachine.Xml.Tag
import NesMachine.Proofs.Board.Access
import NesMachine.Proofs.Board.Banks
import NesMachine.Proofs.Board.Mirror
import NesMachine.Proofs.Board.Serial
import NesMachine.Proofs.Cartridge.Loading
import NesMachine.Proofs.Cartridge.RomFile
import NesMachine.Proofs.Cartridge.Saves
import NesMachine.Proofs.Cartridge.Shelf
import NesMachine.Proofs.Cartridge.WorkMemory
import NesMachine.Proofs.Cpu.Arithmetic
import NesMachine.Proofs.Cpu.Carry
import NesMachine.Proofs.Cpu.Manual
import NesMachine.Proofs.Files.Frail
import NesMachine.Proofs.Files.Path
import NesMachine.Proofs.Files.Reading
import NesMachine.Proofs.Files.Tree
import NesMachine.Proofs.Json.Token
import NesMachine.Proofs.Json.Value
import NesMachine.Proofs.Outcome
import NesMachine.Proofs.Pad
import NesMachine.Proofs.Rom.Format
import NesMachine.Proofs.Ppu.Background
import NesMachine.Proofs.Ppu.Course
import NesMachine.Proofs.Ppu.DataPort
import NesMachine.Proofs.Ppu.Dot
import NesMachine.Proofs.Ppu.Faults
import NesMachine.Proofs.Ppu.Flags
import NesMachine.Proofs.Ppu.Holdings
import NesMachine.Proofs.Ppu.Objects
import NesMachine.Proofs.Ppu.Picture
import NesMachine.Proofs.Ppu.Pipeline
import NesMachine.Proofs.Ppu.Position
import NesMachine.Proofs.Ppu.Range
import NesMachine.Proofs.Ppu.Raster
import NesMachine.Proofs.Ppu.Renderer
import NesMachine.Proofs.Ppu.Scan
import NesMachine.Proofs.Ppu.Scroll
import NesMachine.Proofs.Ppu.Settling
import NesMachine.Proofs.Ppu.Slots
import NesMachine.Proofs.Ppu.Sprites
import NesMachine.Proofs.Ppu.Torus
import NesMachine.Proofs.Ppu.Vblank
import NesMachine.Proofs.Machine.Acts
import NesMachine.Proofs.Machine.Budget
import NesMachine.Proofs.Machine.Code
import NesMachine.Proofs.Machine.Crash
import NesMachine.Proofs.Machine.Handler
import NesMachine.Proofs.Machine.Instructions
import NesMachine.Proofs.Machine.Length
import NesMachine.Proofs.Machine.Margin
import NesMachine.Proofs.Machine.Memory
import NesMachine.Proofs.Machine.Parts
import NesMachine.Proofs.Machine.Progress
import NesMachine.Proofs.Machine.Range
import NesMachine.Proofs.Machine.Semantics
import NesMachine.Proofs.Machine.Settling
import NesMachine.Proofs.Machine.Stack
import NesMachine.Proofs.Machine.Status
import NesMachine.Proofs.Machine.Step
import NesMachine.Proofs.Machine.Subroutine
import NesMachine.Proofs.Machine.Timing
import NesMachine.Proofs.Machine.Transfer
import NesMachine.Proofs.Machine.Unseen
import NesMachine.Proofs.Console.Budget
import NesMachine.Proofs.Console.Calls
import NesMachine.Proofs.Console.Handler
import NesMachine.Proofs.Console.Interrupt
import NesMachine.Proofs.Console.Listing
import NesMachine.Proofs.Console.Lockstep
import NesMachine.Proofs.Console.Message
import NesMachine.Proofs.Console.Operations
import NesMachine.Proofs.Console.Pace
import NesMachine.Proofs.Console.Peek
import NesMachine.Proofs.Console.Peers
import NesMachine.Proofs.Console.Progress
import NesMachine.Proofs.Console.Reachable
import NesMachine.Proofs.Console.Refusal
import NesMachine.Proofs.Console.Reproducible
import NesMachine.Proofs.Console.Twins
import NesMachine.Proofs.Checked.Background
import NesMachine.Proofs.Checked.Basic
import NesMachine.Proofs.Checked.Board
import NesMachine.Proofs.Checked.Bus
import NesMachine.Proofs.Checked.Console
import NesMachine.Proofs.Checked.Dot
import NesMachine.Proofs.Checked.Game
import NesMachine.Proofs.Checked.Machine
import NesMachine.Proofs.Checked.Memory
import NesMachine.Proofs.Checked.Operation
import NesMachine.Proofs.Checked.Program
import NesMachine.Proofs.Checked.Rom
import NesMachine.Proofs.Checked.Sprites
import NesMachine.Proofs.Settings
import NesMachine.Proofs.Suite.Document
import NesMachine.Proofs.Suite.Reader
import NesMachine.Proofs.Text.Number
import NesMachine.Proofs.Text.Search
import NesMachine.Proofs.Trace
import NesMachine.Proofs.Xml.Event
import NesMachine.Proofs.Xml.Reference
import NesMachine.Proofs.Xml.Tag
