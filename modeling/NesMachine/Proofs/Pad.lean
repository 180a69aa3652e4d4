import Mathlib.Data.List.Induction
import NesMachine.Pad

/-!
# Histories of a pad

What a pad shows depends on four things that happened to it: the buttons set last, the level of the
strobe, the buttons at the moment from which the strobe is low, and the reads since then.

* `held`, `raised`, `Latched`: these four, said of a history of calls alone.
* `follows_afterAll`: the pad after any history has the first two; while the strobe is high its shift
  register has the buttons as well.
* `Serial.perform`: with a low strobe, no call but a read moves the buttons on.
* `serialises`: so each read and each peek of any history shows the button whose turn it is.
-/

namespace NesMachine.Pad

/-- What can happen to a pad. -/
inductive Call where
  | setButtons (buttons : UInt8)
  | writeStrobe (value : UInt8)
  | read
  | peek
  deriving DecidableEq, Repr

/-- Makes a call, which delivers a value or none. -/
def perform (pad : Pad) : Call → Option UInt8 × Pad
  | .setButtons buttons => (none, pad.setButtons buttons)
  | .writeStrobe value => (none, pad.writeStrobe value)
  | .read => (some pad.read.1, pad.read.2)
  | .peek => (some pad.peek, pad)

/-- The pad after some calls. -/
def afterAll (pad : Pad) (calls : List Call) : Pad :=
  calls.foldl (fun pad call => (pad.perform call).2) pad

/-- What some calls deliver, one after the other. -/
def answers (pad : Pad) : List Call → List (Option UInt8)
  | [] => []
  | call :: calls => (pad.perform call).1 :: answers (pad.perform call).2 calls

theorem afterAll_append (pad : Pad) (calls calls' : List Call) :
    pad.afterAll (calls ++ calls') = (pad.afterAll calls).afterAll calls' :=
  List.foldl_append

theorem answers_append (pad : Pad) (calls calls' : List Call) :
    pad.answers (calls ++ calls') = pad.answers calls ++ (pad.afterAll calls).answers calls' := by
  induction calls generalizing pad with
  | nil => rfl
  | cons call calls ih => exact congrArg _ (ih _)

theorem length_answers (pad : Pad) (calls : List Call) :
    (pad.answers calls).length = calls.length := by
  induction calls generalizing pad with
  | nil => rfl
  | cons call calls ih => exact congrArg (· + 1) (ih _)

/-- The answer to a call in the middle of others. -/
theorem answers_getElem? (pad : Pad) (earlier later : List Call) (call : Call) :
    (pad.answers (earlier ++ call :: later))[earlier.length]? =
      some ((pad.afterAll earlier).perform call).1 := by
  rw [answers_append, List.getElem?_append_right (Nat.le_of_eq (length_answers ..)), length_answers,
    Nat.sub_self]
  rfl

/-! ## Histories -/

/-- The buttons that a call sets. -/
def Call.buttons? : Call → Option UInt8
  | setButtons buttons => some buttons
  | _ => none

/-- The level that a call gives to the strobe: bit 0 of what is written to it. -/
def Call.level? : Call → Option Bool
  | writeStrobe value => some (value.toNat.testBit 0)
  | _ => none

/-- The buttons held after a history: those set last. -/
def held (history : List Call) : UInt8 := (history.reverse.findSome? Call.buttons?).getD 0

/-- Whether the strobe is high after a history. -/
def raised (history : List Call) : Bool := (history.reverse.findSome? Call.level?).getD false

/-- A history ends at a moment at which the buttons are latched: the strobe falls, or nothing has
happened yet. -/
def Falls (history : List Call) (buttons : UInt8) : Prop :=
  history = [] ∧ buttons = 0 ∨
    ∃ earlier value, history = earlier ++ [.writeStrobe value] ∧ raised earlier = true ∧
      value.toNat.testBit 0 = false ∧ held earlier = buttons

/-- The strobe is low since buttons were latched, and so many reads came since. -/
def Latched (history : List Call) (buttons : UInt8) (reads : Nat) : Prop :=
  ∃ past since, history = past ++ since ∧ Falls past buttons ∧
    (∀ call ∈ since, call.level? ≠ some true) ∧ since.count .read = reads

/-- The button whose turn it is, A first; behind the last one there are only ones. -/
def button (buttons : UInt8) (turn : Nat) : Bool :=
  if turn < 8 then buttons.toNat.testBit turn else true

/-- A button on the wire. -/
def shown (pressed : Bool) : UInt8 := 0x40 + pressed.toUInt8

theorem held_concat (history : List Call) (call : Call) :
    held (history ++ [call]) = call.buttons?.getD (held history) := by
  unfold held
  rw [List.reverse_append]
  cases call <;> rfl

theorem raised_concat (history : List Call) (call : Call) :
    raised (history ++ [call]) = call.level?.getD (raised history) := by
  unfold raised
  rw [List.reverse_append]
  cases call <;> rfl

/-- Where the strobe is low, it is so since some moment. -/
theorem exists_latched {history : List Call} (h : raised history = false) :
    ∃ buttons reads, Latched history buttons reads := by
  induction history using List.reverseRecOn with
  | nil => exact ⟨0, 0, [], [], rfl, .inl ⟨rfl, rfl⟩, by simp, rfl⟩
  | append_singleton history call ih =>
    rw [raised_concat] at h
    by_cases hfall : raised history = true
    · -- The strobe was high: this call lets it fall.
      obtain ⟨value, rfl, hvalue⟩ : ∃ value, call = .writeStrobe value ∧
          value.toNat.testBit 0 = false := by
        cases call with
        | writeStrobe value => exact ⟨value, rfl, by simpa [Call.level?] using h⟩
        | _ => simp [Call.level?, hfall] at h
      exact ⟨held history, 0, _, [], (List.append_nil _).symm,
        .inr ⟨history, value, rfl, hfall, hvalue, rfl⟩, by simp, rfl⟩
    · obtain ⟨buttons, reads, past, since, rfl, hfalls, hlow, -⟩ := ih (by simpa using hfall)
      refine ⟨buttons, _, past, since ++ [call], (List.append_assoc ..), hfalls, ?_, rfl⟩
      intro call' hcall'
      rcases List.mem_append.mp hcall' with hmem | hmem
      · exact hlow call' hmem
      · rw [List.mem_singleton.mp hmem]
        intro hlevel
        simp [hlevel] at h

/-! ## The pad after a history -/

/-- What a pad has after a history. -/
structure Follows (pad : Pad) (history : List Call) : Prop where
  buttons : pad.buttons = held history
  strobe : pad.strobe = raised history
  shift : raised history = true → pad.shift = held history

/-- With a low strobe, the shift register holds the buttons from some turn on. -/
structure Serial (pad : Pad) (buttons : UInt8) (turn : Nat) : Prop where
  strobe : pad.strobe = false
  shift : ∀ i < 8, pad.shift.toNat.testBit i = button buttons (turn + i)

variable {pad : Pad} {history : List Call} {buttons : UInt8} {turn : Nat}

theorem and_one_eq (value : UInt8) : value &&& 1 = (value.toNat.testBit 0).toUInt8 := by
  rw [← UInt8.toNat_inj, UInt8.toNat_and, show UInt8.toNat 1 = 1 from rfl, Nat.and_one_is_mod,
    Nat.testBit_zero]
  rcases Nat.mod_two_eq_zero_or_one value.toNat with h | h <;> rw [h] <;> rfl

theorem writeStrobe_eq (pad : Pad) (value : UInt8) : pad.writeStrobe value =
    { pad with
      strobe := value.toNat.testBit 0
      shift := if value.toNat.testBit 0 then pad.buttons else pad.shift } := by
  unfold writeStrobe
  rw [and_one_eq]
  cases value.toNat.testBit 0 <;> rfl

/-- A value on the open bus shows its lowest bit. -/
theorem openBus_or (value : UInt8) : openBus ||| (value &&& 1) = shown (value.toNat.testBit 0) := by
  rw [and_one_eq]
  cases value.toNat.testBit 0 <;> rfl

theorem peek_eq (pad : Pad) : pad.peek =
    shown ((if pad.strobe then pad.buttons else pad.shift).toNat.testBit 0) :=
  openBus_or _

/-- A peek delivers what a read would. -/
theorem read_eq (pad : Pad) : pad.read.1 = pad.peek := by
  unfold read peek
  cases pad.strobe <;> rfl

/-- What the last call changes, and what was there before. -/
theorem Follows.concat {call : Call} (hbuttons : pad.buttons = call.buttons?.getD (held history))
    (hstrobe : pad.strobe = call.level?.getD (raised history))
    (hshift : call.level?.getD (raised history) = true →
      pad.shift = call.buttons?.getD (held history)) : pad.Follows (history ++ [call]) where
  buttons := by rwa [held_concat]
  strobe := by rwa [raised_concat]
  shift := by rwa [held_concat, raised_concat]

theorem Follows.perform (h : pad.Follows history) (call : Call) :
    (pad.perform call).2.Follows (history ++ [call]) := by
  obtain ⟨hbuttons, hstrobe, hshift⟩ := h
  cases call with
  | setButtons buttons =>
    exact .concat rfl hstrobe fun hraised => if_pos (hstrobe.trans hraised)
  | writeStrobe value =>
    simp only [Pad.perform, writeStrobe_eq]
    exact .concat hbuttons rfl fun hraised => (if_pos hraised).trans hbuttons
  | read =>
    simp only [Pad.perform, Pad.read]
    split
    · exact .concat hbuttons hstrobe hshift
    · rename_i hlow
      exact .concat hbuttons hstrobe fun hraised => absurd (hstrobe.trans hraised) hlow
  | peek => exact .concat hbuttons hstrobe hshift

theorem follows_afterAll (history : List Call) : (afterAll {} history).Follows history := by
  induction history using List.reverseRecOn with
  | nil => exact ⟨rfl, rfl, fun h => nomatch h⟩
  | append_singleton history call ih =>
    rw [afterAll_append]
    exact ih.perform call

/-! ## The shift register -/

/-- A read moves the buttons on, and brings a one in behind them. -/
theorem testBit_shifted (value : UInt8) {i : Nat} (h : i < 8) :
    ((value >>> 1) ||| 0x80).toNat.testBit i = if i < 7 then value.toNat.testBit (i + 1) else true := by
  have hone : UInt8.toNat 0x80 = 2 ^ 7 := rfl
  have hshift : (value >>> 1).toNat = value.toNat >>> 1 := rfl
  rw [UInt8.toNat_or, Nat.testBit_or, hone, hshift, Nat.testBit_shiftRight, Nat.testBit_two_pow]
  split_ifs with hi
  · simp [show ¬ 7 = i by omega, Nat.add_comm]
  · simp [show 7 = i by omega]

/-- With a low strobe, a call that leaves it low moves the buttons on only if it is a read. -/
theorem Serial.perform (h : pad.Serial buttons turn) {call : Call} (hlow : call.level? ≠ some true) :
    (pad.perform call).2.Serial buttons (turn + [call].count .read) := by
  obtain ⟨hstrobe, hshift⟩ := h
  cases call with
  | setButtons buttons' =>
    refine ⟨hstrobe, ?_⟩
    simpa [Pad.perform, Pad.setButtons, hstrobe] using hshift
  | writeStrobe value =>
    have hvalue : value.toNat.testBit 0 = false := by simpa [Call.level?] using hlow
    simp only [Pad.perform, writeStrobe_eq, hvalue]
    exact ⟨rfl, hshift⟩
  | read =>
    simp only [Pad.perform, Pad.read, hstrobe]
    refine ⟨rfl, fun i hi => ?_⟩
    show ((pad.shift >>> 1) ||| 0x80).toNat.testBit i = button buttons (turn + 1 + i)
    rw [testBit_shifted _ hi, Nat.add_right_comm]
    split_ifs with hlast
    · exact hshift (i + 1) (by omega)
    · exact (if_neg (by omega)).symm
  | peek => exact ⟨hstrobe, hshift⟩

theorem Serial.afterAll (h : pad.Serial buttons turn) {calls : List Call}
    (hlow : ∀ call ∈ calls, call.level? ≠ some true) :
    (pad.afterAll calls).Serial buttons (turn + calls.count .read) := by
  induction calls generalizing pad turn with
  | nil => exact h
  | cons call calls ih =>
    have hrest := ih (h.perform (hlow call List.mem_cons_self))
      fun call' hmem => hlow call' (List.mem_cons_of_mem _ hmem)
    rwa [Nat.add_assoc, ← List.count_append] at hrest

/-- Where buttons are latched, their first turn is next. -/
theorem Falls.serial (h : Falls history buttons) : (afterAll {} history).Serial buttons 0 := by
  have hbits (value : UInt8) : ∀ i < 8, value.toNat.testBit i = button value (0 + i) :=
    fun i hi => by rw [Nat.zero_add, button, if_pos hi]
  rcases h with ⟨rfl, rfl⟩ | ⟨earlier, value, rfl, hraised, hvalue, rfl⟩
  · exact ⟨rfl, hbits 0⟩
  · have hpad := follows_afterAll earlier
    rw [afterAll_append]
    show ((afterAll {} earlier).writeStrobe value).Serial (held earlier) 0
    rw [writeStrobe_eq, hvalue]
    exact ⟨rfl, hpad.shift hraised ▸ hbits _⟩

theorem Latched.serial (h : Latched history buttons turn) :
    (afterAll {} history).Serial buttons turn := by
  obtain ⟨past, since, rfl, hfalls, hlow, rfl⟩ := h
  have hserial := hfalls.serial.afterAll hlow
  rwa [Nat.zero_add, ← afterAll_append] at hserial

/-! ## Answers -/

/-- **A pad shows the latched buttons one after the other.** Each read and each peek of any history
shows the first button held while the strobe is high, and while it is low the button whose turn it is
among those latched, whatever else happens in between. A peek shows what a read would show there, and
leaves the pad as it is. -/
theorem serialises (earlier later : List Call) {call : Call} (hcall : call ∈ [.read, .peek]) :
    ∃ value, (answers {} (earlier ++ call :: later))[earlier.length]? = some (some value) ∧
      (raised earlier = true → value = shown ((held earlier).toNat.testBit 0)) ∧
      (raised earlier = false → (∃ buttons reads, Latched earlier buttons reads) ∧
        ∀ buttons reads, Latched earlier buttons reads → value = shown (button buttons reads)) ∧
      (answers {} (earlier ++ [.read]))[earlier.length]? = some (some value) ∧
      afterAll {} (earlier ++ [.peek]) = afterAll {} earlier := by
  have hpad := follows_afterAll earlier
  refine ⟨(afterAll {} earlier).peek, ?_, ?_, ?_, ?_, afterAll_append ..⟩
  · rw [answers_getElem?]
    have hcases : call = .read ∨ call = .peek := by simpa using hcall
    rcases hcases with rfl | rfl
    · exact congrArg (some ∘ some) (read_eq _)
    · rfl
  · intro hraised
    rw [peek_eq, if_pos (hpad.strobe.trans hraised), hpad.buttons]
  · intro hlow
    refine ⟨exists_latched hlow, fun buttons reads hlatched => ?_⟩
    have hserial := hlatched.serial
    rw [peek_eq, hserial.strobe, if_neg Bool.false_ne_true, hserial.shift 0 (by decide),
      Nat.add_zero]
  · rw [answers_getElem?]
    exact congrArg (some ∘ some) (read_eq _)

/-- Right is held as the strobe falls and let go between two reads: the eighth read still shows it. -/
theorem serialises_frozen :
    let earlier : List Call := [.setButtons 0x88, .writeStrobe 1, .writeStrobe 0, .read, .read,
      .setButtons 0, .writeStrobe 2, .peek, .read, .read, .read, .read, .read]
    Latched earlier 0x88 7 ∧ (answers {} (earlier ++ [.read]))[earlier.length]? = some (some 0x41) := by
  intro earlier
  have hlatched : Latched earlier 0x88 7 :=
    ⟨earlier.take 3, earlier.drop 3, rfl,
      .inr ⟨earlier.take 2, 0, rfl, by decide, by decide, by decide⟩, by decide, by decide⟩
  obtain ⟨value, hanswer, -, hlow, -⟩ := serialises earlier [] List.mem_cons_self
  refine ⟨hlatched, ?_⟩
  rw [hanswer, (hlow (by decide)).2 _ _ hlatched]
  rfl

end NesMachine.Pad
