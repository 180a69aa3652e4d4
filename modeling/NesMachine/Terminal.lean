import NesMachine.Host

/-!
# The terminal

Where a program talks to its user: what it prints, what it prints as errors, and how much of the
journal it shows.
-/

namespace NesMachine

/-- A terminal. -/
class Terminal (m : Type → Type) where
  /-- Prints text. -/
  print : String → m Unit
  /-- Prints text among the errors. -/
  printError : String → m Unit
  /-- Sets the least important level of the journal that is shown. -/
  showUpTo : Level → m Unit

/-- A computation that can fail has the terminal of the one it is built on. -/
instance {ε : Type} {m : Type → Type} [Monad m] [Terminal m] : Terminal (ExceptT ε m) where
  print text := ExceptT.lift (Terminal.print text)
  printError text := ExceptT.lift (Terminal.printError text)
  showUpTo level := ExceptT.lift (Terminal.showUpTo level)

/-- Prints a line. -/
def Terminal.printLine {m : Type → Type} [Terminal m] (line : String) : m Unit :=
  print (line ++ "\n")

end NesMachine
