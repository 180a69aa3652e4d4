import NesMachine.Proofs.Cartridge.Loading
import NesMachine.Proofs.Console.Twins

/-!
# Loads that fail

A load that fails leaves one message and nothing else: on the error log and among the events. Whatever
runs then runs as if nobody had tried.

* `attempt_error`: what a failed load leaves behind, on the console and on the computer.
* `Reachable.tidy`: a console never remembers more events than it was set to.
* `failed_load`: a failed load changes nothing else, and no run tells.
-/

namespace NesMachine

open Digest (Bytes)
open Files (Key Tree)

namespace Console

variable {c c' : Console} {s s' : Simulation}

/-! ## Attempts -/

/-- A way to load a game. -/
inductive Attempt where
  | fromFile (path : Path)
  | fromBytes (bytes : Bytes) (name : String)

namespace Attempt

/-- What a game is loaded from, in messages. -/
def source : Attempt → String
  | .fromFile path => path.text
  | .fromBytes _ name => name

end Attempt

/-- Attempts to load a game. -/
def attempt (c : Console) : Attempt → ExceptT Wreck Simulated (Except LoadError Unit × Console)
  | .fromFile path => c.loadFile path
  | .fromBytes bytes name => c.loadBytes bytes name

theorem settle_run {cartridge : Cartridge} {saveFile : Option Path}
    {game : Except LoadFailure Board} {failure : LoadFailure}
    (h : (cartridge.settle saveFile game : ExceptT Wreck Simulated _) s = (.ok (.error failure), s')) :
    s' = s := by
  cases game with
  | ok board =>
    obtain ⟨loaded, s₁, -, h⟩ := of_bind_run h
    cases h
  | error failure' =>
    cases h
    rfl

/-- **What a failed load leaves behind.** -/
theorem attempt_error {a : Attempt} {error : LoadError}
    (h : c.attempt a s = (.ok (.error error, c'), s')) :
    c' = c.told ("failed to load " ++ a.source ++ ": " ++ error.message) ∧
      c.Told ("failed to load " ++ a.source ++ ": " ++ error.message) s s' := by
  cases a with
  | fromFile path =>
    obtain ⟨outcome, s₁, hload, h⟩ := of_bind_run h
    obtain ⟨rfl, htold⟩ := finishLoad_run h
    have hread : (Host.readFile path : ExceptT Wreck Simulated _) s =
        (.ok (s.tree.read path), s) := rfl
    rw [Cartridge.load_eq, bind_run hread] at hload
    cases settle_run hload
    exact htold
  | fromBytes bytes name =>
    obtain ⟨outcome, s₁, hload, h⟩ := of_bind_run h
    obtain ⟨rfl, htold⟩ := finishLoad_run h
    rw [Cartridge.loadBytes_eq] at hload
    cases settle_run hload
    exact htold

/-- Bytes that are no game are refused. -/
theorem loadBytes_refused {bytes : Bytes} {error : LoadError} (c : Console) (name : String)
    (s : Simulation) (h : Cartridge.boardOf bytes = .error (.refused error)) :
    ∃ c' s', c.attempt (.fromBytes bytes name) s = (.ok (.error error, c'), s') := by
  have hload : (c.cartridge.loadBytes bytes none : ExceptT Wreck Simulated _) s =
      (.ok (.error (.refused error)), s) := by
    rw [Cartridge.loadBytes_eq, h]
    rfl
  obtain ⟨s', hrefuse, -⟩ := c.refuse_run name error s
  exact ⟨_, s', (bind_run hload).trans (bind_run hrefuse)⟩

/-! ## Events -/

/-- A console remembers no more than it was set to. -/
def Tidy (c : Console) : Prop := c.events.length ≤ c.settings.eventCapacity.toNat

theorem Reachable.tidy (h : c.Reachable) : Tidy c := by
  refine Lasting.reachable ⟨?_, fun _ _ => List.length_take_le _ _⟩ ?_ h
  · intro c c' hc hsettings _ hevents
    unfold Tidy
    rwa [hsettings, hevents]
  · intro settings c hnew
    unfold Console.ofSettings at hnew
    split_ifs at hnew
    cases hnew
    exact Nat.zero_le _

/-- Without room for events, a message is not kept and nothing is forgotten. -/
theorem told_events (text : String) (h : c.Reachable) (hroom : c.settings.eventCapacity.toNat = 0) :
    (c.told text).events = c.events := by
  have hnone : c.events = [] := List.eq_nil_of_length_eq_zero
    (Nat.eq_zero_of_le_zero (hroom ▸ h.tidy))
  unfold told
  rw [hroom, hnone]
  rfl

/-! ## Loads that fail -/

/-- **A load that fails changes nothing.** A cartridge does nothing on the computer but read a file; a
console records one message and remembers one event, the game and the files are as they were, and what
it is asked for afterwards comes out as if nobody had tried. -/
theorem failed_load :
    (∀ (σ : Type) [Host (StateM σ)] (cartridge : Cartridge) (s s' : σ) (failure : LoadFailure),
      (∀ bytes saveFile, (cartridge.loadBytes bytes saveFile : StateM σ _) s =
          (.error failure, s') → s' = s) ∧
        ((∀ path s, ((Host.readFile path : StateM σ _) s).2 = s) → ∀ path,
          (cartridge.load path : StateM σ _) s = (.error failure, s') → s' = s)) ∧
      ∀ (c c' : Console) (s s' : Simulation) (a : Attempt) (error : LoadError),
        c.attempt a s = (.ok (.error error, c'), s') →
          c' = c.told ("failed to load " ++ a.source ++ ": " ++ error.message) ∧
          (c.Reachable → c.settings.eventCapacity.toNat = 0 → c'.events = c.events) ∧
          c.Told ("failed to load " ++ a.source ++ ": " ++ error.message) s s' ∧
          (∀ path key, c.errorLog = .file path → s.tree.fileKey path = .ok key →
            key ≠ Files.nullDevice →
            s'.tree.file? key = some ((s.tree.file? key).getD #[] ++ ErrorLog.line s.time
              ("failed to load " ++ a.source ++ ": " ++ error.message))) ∧
          (∀ key, (∀ path, c.errorLog = .file path → s.tree.fileKey path ≠ .ok key) →
            s'.tree.file? key = s.tree.file? key) ∧
          s'.tree.dirs = s.tree.dirs ∧
          ∀ ops, Mirrors TwinsBehind (c.performAll ops) (c'.performAll ops) := by
  refine ⟨fun σ _ cartridge s s' failure => ⟨fun bytes saveFile h => Cartridge.loadBytes_error h,
    fun hread path h => Cartridge.load_error hread h⟩, fun c c' s s' a error h => ?_⟩
  obtain ⟨rfl, htold⟩ := attempt_error h
  have htwins : Twins c (c.told ("failed to load " ++ a.source ++ ": " ++ error.message)) := rfl
  refine ⟨rfl, fun hc => told_events _ hc, htold, fun path key hlog hkey hnull => ?_,
    fun key hkey => ?_, ?_, fun ops => ?_⟩
  · rw [htold.tree, hlog]
    exact Tree.file?_extended_self hkey hnull
  · rw [htold.tree]
    exact ErrorLog.file?_recordedIn hkey
  · rw [htold.tree]
    exact ErrorLog.dirs_recordedIn
  · exact htwins.performAll ops

/-- No bytes are no game, and a console that plays one goes on. -/
theorem failed_load_empty : ∃ (c c' : Console) (s' : Simulation), c.Reachable ∧
    c.hasGame = true ∧
    c.attempt (.fromBytes #[] "nothing") {} = (.ok (.error (.invalid (.badMagic [])), c'), s') ∧
    c' = c.told "failed to load nothing: invalid iNES header magic [], expected NES<EOF>" ∧
    c'.errorLog = .memory ["failed to load nothing: invalid iNES header magic [], expected NES<EOF>"] ∧
    s'.tree.dirs = ({} : Simulation).tree.dirs ∧
    ∀ ops, Mirrors TwinsBehind (c.performAll ops) (c'.performAll ops) := by
  obtain ⟨c₀, c, bytes, name, hc, -, hload, hgame⟩ := exists_loaded
  have hrefused : Cartridge.boardOf #[] = .error (.refused (.invalid (.badMagic []))) := rfl
  obtain ⟨c', s', hattempt⟩ :=
    loadBytes_refused { c with errorLog := .memory [] } "nothing" {} hrefused
  obtain ⟨htold, -, -, -, -, hdirs, hlater⟩ := failed_load.2 _ _ _ _ _ _ hattempt
  refine ⟨_, c', s', (hc.loadBytes hload).setErrorLog (.memory []), hasGame_of_whole hgame, hattempt,
    htold, ?_, hdirs, hlater⟩
  rw [htold]
  rfl

end Console

end NesMachine
