import NesMachine.Proofs.Console.Calls
import NesMachine.Proofs.Files.Tree

/-!
# Messages of the console

A console that cannot load a game says so: in the journal, on its error log and among its events. What
it is told changes nothing else, on the console or on the computer.

* `recordFailure_run`: one more message on the error log.
* `finishLoad_run`: a load that fails, on the console and on the computer.
-/

namespace NesMachine

open Digest (Bytes)
open Files (Key Tree)

/-! ## Error logs -/

namespace ErrorLog

/-- The line of a message in a log file. -/
def line (time : Nat) (text : String) : Bytes :=
  ("[" ++ toString (time / 1000) ++ "] " ++ text ++ "\n").toUTF8.data

/-- An error log with one more message. -/
def recorded (text : String) : ErrorLog → ErrorLog
  | .memory messages => .memory (text :: messages)
  | log => log

/-- The files of a computer behind one more message. -/
def recordedIn (text : String) (s : Simulation) : ErrorLog → Tree
  | .file path => s.tree.extended path (line s.time text)
  | _ => s.tree

variable {log : ErrorLog} {text : String} {s : Simulation} {key : Key}

/-- Every file but the log's is as it was. -/
theorem file?_recordedIn (h : ∀ path, log = .file path → s.tree.fileKey path ≠ .ok key) :
    (log.recordedIn text s).file? key = s.tree.file? key := by
  cases log with
  | off => rfl
  | memory messages => rfl
  | file path => exact Tree.file?_extended_ne (h path rfl)

theorem dirs_recordedIn : (log.recordedIn text s).dirs = s.tree.dirs := by
  cases log with
  | off => rfl
  | memory messages => rfl
  | file path => exact Tree.dirs_extended

end ErrorLog

namespace Console

variable {c c' : Console} {s s' : Simulation}

/-! ## What a console is told -/

/-- A console that was told that nothing was loaded. -/
def told (c : Console) (text : String) : Console :=
  { c with
    errorLog := c.errorLog.recorded text
    events := (text :: c.events).take c.settings.eventCapacity.toNat }

/-- A computer on which a console was told so. The journal may say so, too. -/
structure Told (c : Console) (text : String) (s s' : Simulation) : Prop where
  tree : s'.tree = c.errorLog.recordedIn text s
  others : s' = { s with tree := s'.tree, errors := s'.errors }

/-- A journal entry changes nothing but what was printed. -/
theorem note_run (entry : JournalEntry) (s : Simulation) :
    ∃ errors, (Host.note entry : ExceptT Wreck Simulated Unit) s =
      (.ok (), { s with errors }) := by
  have hnote : (Host.note entry : ExceptT Wreck Simulated Unit) s =
      (.ok (), if entry.level.shownAt s.verbosity then
        { s with errors := s.errors ++ entry.line ++ "\n" } else s) := rfl
  rw [hnote]
  split_ifs
  · exact ⟨_, rfl⟩
  · exact ⟨s.errors, rfl⟩

/-- Bytes go to the end of a file, or the computer stays as it is. -/
theorem appendFile_run (path : Path) (bytes : Bytes) (s : Simulation) :
    ∃ result, (Host.appendFile path bytes : ExceptT Wreck Simulated (Except Files.Error Unit)) s =
      (.ok result, { s with tree := s.tree.extended path bytes }) := by
  obtain ⟨result, hchange⟩ : ∃ result, (Host.appendFile path bytes : Simulated _) s =
      (result, { s with tree := s.tree.extended path bytes }) := by
    simp only [Host.appendFile, Simulation.change, modifyGet, MonadStateOf.modifyGet,
      StateT.modifyGet, Tree.extended]
    cases s.tree.append path bytes with
    | ok tree => exact ⟨_, rfl⟩
    | error e => exact ⟨_, rfl⟩
  have hlift : (Host.appendFile path bytes : ExceptT Wreck Simulated (Except Files.Error Unit)) s =
      (.ok ((Host.appendFile path bytes : Simulated _) s).1,
        ((Host.appendFile path bytes : Simulated _) s).2) := rfl
  exact ⟨result, by rw [hlift, hchange]⟩

theorem recordFailure_run (c : Console) (text : String) (s : Simulation) :
    ∃ s', (c.recordFailure text : ExceptT Wreck Simulated Console) s =
      (.ok { c with errorLog := c.errorLog.recorded text }, s') ∧ c.Told text s s' := by
  obtain ⟨machine, saveDir, saveFile, settings, tv, log, events, screen⟩ := c
  cases log with
  | off => exact ⟨s, rfl, rfl, rfl⟩
  | memory messages => exact ⟨s, rfl, rfl, rfl⟩
  | file path =>
    have hclock : (Host.clock : ExceptT Wreck Simulated Nat) s = (.ok s.time, s) := rfl
    obtain ⟨result, happend⟩ := appendFile_run path (ErrorLog.line s.time text) s
    unfold ErrorLog.line at happend
    unfold recordFailure
    simp only
    rw [bind_run hclock, bind_run happend]
    cases result with
    | ok done => exact ⟨_, rfl, rfl, rfl⟩
    | error e =>
      obtain ⟨errors, hnote⟩ := note_run ⟨.warn, .errorLog,
        "could not append to " ++ path.text ++ ": " ++ e.message⟩
        { s with tree := s.tree.extended path (ErrorLog.line s.time text) }
      exact ⟨_, bind_run hnote, rfl, rfl⟩

theorem refuse_run (c : Console) (source : String) (error : LoadError) (s : Simulation) :
    ∃ s', (c.refuse source error : ExceptT Wreck Simulated Console) s =
      (.ok (c.told ("failed to load " ++ source ++ ": " ++ error.message)), s') ∧
        c.Told ("failed to load " ++ source ++ ": " ++ error.message) s s' := by
  obtain ⟨errors, hnote⟩ := note_run ⟨.error, .console,
    "failed to load " ++ source ++ ": " ++ error.message⟩ s
  obtain ⟨s', hrecord, htold⟩ := c.recordFailure_run
    ("failed to load " ++ source ++ ": " ++ error.message) { s with errors }
  refine ⟨s', (bind_run hnote).trans (bind_run hrecord), htold.tree, htold.others⟩

theorem finishLoad_run {source : String} {outcome : Except LoadFailure Cartridge} {error : LoadError}
    (h : (c.finishLoad source outcome : ExceptT Wreck Simulated _) s = (.ok (.error error, c'), s')) :
    outcome = .error (.refused error) ∧
      c' = c.told ("failed to load " ++ source ++ ": " ++ error.message) ∧
        c.Told ("failed to load " ++ source ++ ": " ++ error.message) s s' := by
  cases outcome with
  | ok cartridge =>
    obtain ⟨c₁, s₁, -, h⟩ := of_bind_run h
    cases h
  | error failure =>
    cases failure with
    | sectionPastEnd => cases h
    | refused e =>
      obtain ⟨s₁, hrefuse, htold⟩ := c.refuse_run source e s
      obtain ⟨c₂, s₂, hrefused, h⟩ := of_bind_run h
      cases hrefuse.symm.trans hrefused
      cases h
      exact ⟨rfl, rfl, htold⟩

end Console

end NesMachine
