import NesMachine.Files.Tree
import NesMachine.Terminal

/-!
# A modelled computer

A file tree, a stopped clock, and a terminal that keeps what is printed. It gives the services of a
host and of a terminal as pure functions.
-/

namespace NesMachine

open Digest (Bytes)

/-- A modelled computer. -/
structure Simulation where
  tree : Files.Tree := {}
  /-- Milliseconds since the start of 1970. -/
  time : Nat := 0
  /-- The least important level the journal shows. -/
  verbosity : Level := .warn
  /-- What was printed. -/
  output : String := ""
  /-- What was printed as errors: the journal and a program's last words. -/
  errors : String := ""

/-- A run on a modelled computer. -/
abbrev Simulated := StateM Simulation

namespace Simulation

/-- A file operation that changes the tree, or fails and changes nothing. -/
def change (f : Files.Tree → Except Files.Error Files.Tree) : Simulated (Except Files.Error Unit) :=
  modifyGet fun s =>
    match f s.tree with
    | .ok tree => (.ok (), { s with tree })
    | .error e => (.error e, s)

instance : Host Simulated where
  readFile path := return (← get).tree.read path
  writeFile path bytes := change (·.write path bytes)
  appendFile path bytes := change (·.append path bytes)
  createDirs path := modifyGet fun s =>
    let (result, tree) := s.tree.createDirs path
    (result, { s with tree })
  clock := return (← get).time
  note entry := modify fun s =>
    if entry.level.shownAt s.verbosity then { s with errors := s.errors ++ entry.line ++ "\n" }
    else s

instance : Terminal Simulated where
  print text := modify fun s => { s with output := s.output ++ text }
  printError text := modify fun s => { s with errors := s.errors ++ text }
  showUpTo verbosity := modify fun s => { s with verbosity }

end Simulation

end NesMachine
