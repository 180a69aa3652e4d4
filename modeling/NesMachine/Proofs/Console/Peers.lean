import NesMachine.Proofs.Console.Twins

/-!
# Peers

Consoles with the same machine, the same settings and no file between them, of which one may have a
screen and the other none. Whatever is asked of them from then on, short of naming a file, they answer
alike; while both have a screen, the screens are handed the same pictures.

* `peers_simulate`: peers run alike.
* `Peers.serveAll`: they answer the same requests with the same answers, or break down alike.
-/

namespace NesMachine

open Digest (Bytes)

/-- A screen that has seen some more pictures; they are given newest first. -/
def Screen.showing (s : Screen) (shown : List Frame) : Screen :=
  ⟨s.pictures + shown.length, shown.head?.or s.last⟩

theorem Screen.showing_showing (s : Screen) (older newer : List Frame) :
    (s.showing older).showing newer = s.showing (newer ++ older) := by
  unfold showing
  rw [List.length_append, List.head?_append, Option.or_assoc, Nat.add_assoc,
    Nat.add_comm newer.length]

/-- Two screens that were handed the same pictures since they were `first` and `first'`, or in all. -/
def Screen.SameSince (first first' s s' : Screen) : Prop :=
  s' = s ∨ ∃ shown, s = first.showing shown ∧ s' = first'.showing shown

theorem Screen.SameSince.showing {first first' s s' : Screen} (h : SameSince first first' s s')
    (shown : List Frame) : SameSince first first' (s.showing shown) (s'.showing shown) := by
  rcases h with rfl | ⟨older, rfl, rfl⟩
  · exact .inl rfl
  · exact .inr ⟨shown ++ older, showing_showing .., showing_showing ..⟩

namespace Console

open Machine (Blind)

variable {α : Type} {c c' : Console} {first first' : Screen}

/-! ## Peers -/

/-- Consoles that differ in what they remember and in their screens only. Screens that are attached to
both were handed the same since they were `first` and `first'`. -/
structure Peers (first first' : Screen) (c c' : Console) : Prop where
  machine : c'.machine = { c.machine with screen := c'.machine.screen }
  shown : c.machine.shown = []
  settings : c'.settings = c.settings
  tv : c'.tv = c.tv
  saveDir : c'.saveDir = c.saveDir
  saveFile : c'.saveFile = c.saveFile
  pictures : c.machine.screen = true → c'.machine.screen = true →
    Screen.SameSince first first' c.screen c'.screen

theorem Peers.unseen (h : Peers first first' c c') : c'.machine.unseen = c.machine.unseen := by
  rw [h.machine]
  rfl

theorem Peers.hasGame (h : Peers first first' c c') : c'.hasGame = c.hasGame := by
  unfold Console.hasGame
  rw [h.machine]

theorem Peers.cartridge (h : Peers first first' c c') : c'.cartridge = c.cartridge := by
  unfold Console.cartridge
  rw [h.saveDir, h.saveFile, h.machine]

/-- Where both have a screen, they have the same machine. -/
theorem Peers.same (h : Peers first first' c c') (hscreen : c.machine.screen = true)
    (hscreen' : c'.machine.screen = true) : c'.machine = c.machine := by
  rw [h.machine, hscreen', ← hscreen]

/-- Peers behind runs that come to the same. -/
theorem Peers.behind {m m' : Machine} (h : Peers first first' c c') (hunseen : m'.unseen = m.unseen)
    (hpictures : m.screen = true → m'.screen = true →
      c.machine.screen = true ∧ c'.machine.screen = true ∧ m'.shown = m.shown) :
    Peers first first' (c.behind m) (c'.behind m') where
  machine := Machine.eq_of_unseen (congrArg (fun m => { m with notices := [] }) hunseen) rfl
  shown := rfl
  settings := h.settings
  tv := h.tv
  saveDir := h.saveDir
  saveFile := h.saveFile
  pictures hscreen hscreen' := by
    obtain ⟨hbefore, hbefore', hshown⟩ := hpictures hscreen hscreen'
    have hsame := (h.pictures hbefore hbefore').showing m.shown
    unfold Console.behind
    rw [hshown]
    exact hsame

theorem Peers.run {part : Machine.Run α} (hpart : Blind part) (h : Peers first first' c c') :
    Mirrors (Behind (Peers first first')) (run part c) (run part c') := by
  rw [run_eq, run_eq]
  rcases hpart.alike h.unseen with ⟨crash, hrun, hrun'⟩ | ⟨a, m, m', hrun, hrun', hunseen⟩
  · rw [hrun, hrun', h.saveDir, h.saveFile]
    exact .bind (.always (noteAll_always _) (noteAll_always _)) fun _ _ _ _ _ => .error _
  · rw [hrun, hrun']
    refine .bind (.always (noteAll_always _) (noteAll_always _)) fun _ _ _ =>
      .pure ⟨rfl, h.behind hunseen fun hscreen hscreen' => ?_⟩
    rw [hpart.screen _ _ _ hrun] at hscreen
    rw [hpart.screen _ _ _ hrun'] at hscreen'
    rw [h.same hscreen hscreen', hrun] at hrun'
    cases hrun'
    exact ⟨hscreen, hscreen', rfl⟩

/-- **Peers cannot be told apart.** -/
theorem peers_simulate (first first' : Screen) : Simulates (Peers first first') where
  hasGame h := h.hasGame
  cycles h := by rw [h.machine]
  peek addr h := by
    unfold peek
    rw [h.cartridge, h.machine]
    rfl
  run hpart h := h.run hpart
  remember _ _ h := ⟨h.machine, h.shown, h.settings, h.tv, h.saveDir, h.saveFile, h.pictures⟩
  input f g h := by
    refine ⟨?_, h.shown, h.settings, h.tv, h.saveDir, h.saveFile, h.pictures⟩
    simp only
    rw [h.machine]

/-! ## Requests -/

/-- What can be asked of a console without naming the file of a game. -/
inductive Request where
  | operation (op : Operation)
  | loadBytes (bytes : Bytes) (name : String)
  | unload
  | attachScreen
  | detachScreen
  | setErrorLog (log : ErrorLog)

/-- What a console answers. -/
inductive Answer where
  | value (n : Nat)
  | loaded (result : Except LoadError Unit)
  | done

/-- Does what is asked. -/
def serve (c : Console) : Request → ExceptT Wreck Simulated (Answer × Console)
  | .operation op => do
    let (n, c) ← c.perform op
    return (.value n, c)
  | .loadBytes bytes name => do
    let (result, c) ← c.loadBytes bytes name
    return (.loaded result, c)
  | .unload => do return (.done, ← c.unload)
  | .attachScreen => return (.done, c.attachScreen)
  | .detachScreen => return (.done, { c with machine := { c.machine with screen := false } })
  | .setErrorLog log => return (.done, { c with errorLog := log })

/-- Does all that is asked, in order. -/
def serveAll (c : Console) : List Request → ExceptT Wreck Simulated (List Answer × Console)
  | [] => return ([], c)
  | request :: requests => do
    let (answer, c) ← c.serve request
    let (answers, c) ← c.serveAll requests
    return (answer :: answers, c)

theorem Peers.switchedOn (h : Peers first first' c c') (cartridge : Cartridge) :
    Peers first first' (c.switchedOn cartridge) (c'.switchedOn cartridge) := by
  unfold Console.switchedOn
  refine ⟨?_, h.shown, h.settings, ?_, h.saveDir, rfl, h.pictures⟩
  · simp only
    rw [h.settings, h.machine]
  · simp only
    rw [h.settings]

theorem refuse_always (c : Console) (source : String) (error : LoadError) :
    Always (c.refuse source error : ExceptT Wreck Simulated Console)
      (· = c.told ("failed to load " ++ source ++ ": " ++ error.message)) := by
  intro s
  obtain ⟨s', hrun, -⟩ := c.refuse_run source error s
  exact ⟨_, s', hrun, rfl⟩

theorem Peers.finishLoad (h : Peers first first' c c') (source : String)
    (outcome : Except LoadFailure Cartridge) :
    Mirrors (Behind (Peers first first'))
      (c.finishLoad source outcome : ExceptT Wreck Simulated (Except LoadError Unit × Console))
      (c'.finishLoad source outcome) := by
  have hpeers := peers_simulate first first'
  unfold Console.finishLoad
  split
  · rename_i cartridge
    have hinstall : Mirrors (Peers first first')
        (c.install source cartridge : ExceptT Wreck Simulated Console)
        (c'.install source cartridge) :=
      .bind (hpeers.reset (h.switchedOn cartridge)) fun _ _ hreset =>
        .pure (hpeers.remember _ _ hreset)
    exact .bind hinstall fun _ _ hinstalled => .pure ⟨rfl, hinstalled⟩
  · refine .bind (.always (refuse_always c source _) (refuse_always c' source _)) ?_
    rintro _ _ ⟨rfl, rfl⟩
    exact .pure ⟨rfl, h.machine, h.shown, h.settings, h.tv, h.saveDir, h.saveFile, h.pictures⟩
  · rw [h.cartridge]
    exact fun _ _ => .error _

theorem Peers.loadBytes (h : Peers first first' c c') (bytes : Bytes) (name : String) :
    Mirrors (Behind (Peers first first'))
      (c.loadBytes bytes name : ExceptT Wreck Simulated (Except LoadError Unit × Console))
      (c'.loadBytes bytes name) := by
  unfold Console.loadBytes
  rw [h.cartridge]
  refine .bind (.always (game_always _ bytes) (game_always _ bytes)) ?_
  rintro _ _ ⟨rfl, rfl⟩
  exact h.finishLoad name _

theorem Peers.unload (h : Peers first first' c c') :
    Mirrors (Peers first first') (c.unload : ExceptT Wreck Simulated Console) c'.unload := by
  unfold Console.unload
  rw [h.cartridge]
  refine .bind (.always (unload_always _) (unload_always _)) ?_
  rintro _ _ ⟨rfl, rfl⟩
  refine .pure ((peers_simulate first first').remember _ _
    ⟨?_, h.shown, h.settings, h.tv, h.saveDir, rfl, h.pictures⟩)
  simp only
  rw [h.machine]

theorem Peers.serve (h : Peers first first' c c') (request : Request) :
    Mirrors (Behind (Peers first first')) (c.serve request) (c'.serve request) := by
  cases request with
  | operation op =>
    refine .bind ((peers_simulate first first').perform h op) ?_
    rintro ⟨n, c₁⟩ ⟨n', c₁'⟩ ⟨rfl, hpeers⟩
    exact .pure ⟨rfl, hpeers⟩
  | loadBytes bytes name =>
    refine .bind (h.loadBytes bytes name) ?_
    rintro ⟨result, c₁⟩ ⟨result', c₁'⟩ ⟨rfl, hpeers⟩
    exact .pure ⟨rfl, hpeers⟩
  | unload => exact .bind h.unload fun _ _ hpeers => .pure ⟨rfl, hpeers⟩
  | attachScreen =>
    refine .pure ⟨rfl, ?_, h.shown, h.settings, h.tv, h.saveDir, h.saveFile, fun _ _ => .inl rfl⟩
    unfold Console.attachScreen
    rw [h.machine]
  | detachScreen =>
    refine .pure ⟨rfl, ?_, h.shown, h.settings, h.tv, h.saveDir, h.saveFile, fun hscreen => ?_⟩
    · simp only
      rw [h.machine]
    · cases hscreen
  | setErrorLog log =>
    exact .pure ⟨rfl, h.machine, h.shown, h.settings, h.tv, h.saveDir, h.saveFile, h.pictures⟩

/-- **Peers answer alike, whatever is asked of them.** -/
theorem Peers.serveAll (h : Peers first first' c c') (requests : List Request) :
    Mirrors (Behind (Peers first first')) (c.serveAll requests) (c'.serveAll requests) := by
  induction requests generalizing c c' with
  | nil => exact .pure ⟨rfl, h⟩
  | cons request requests ih =>
    refine .bind (h.serve request) ?_
    rintro ⟨answer, c₁⟩ ⟨answer', c₁'⟩ ⟨hanswer, hpeers⟩
    cases hanswer
    refine .bind (ih hpeers) ?_
    rintro ⟨answers, c₂⟩ ⟨answers', c₂'⟩ ⟨hanswers, hpeers⟩
    cases hanswers
    exact .pure ⟨rfl, hpeers⟩

end Console

end NesMachine
