import NesMachine.Proofs.Json.Value
import NesMachine.Proofs.Text.Number
import NesMachine.Settings.Json

/-!
# Settings files are read back

A settings object may hold any of the settings, in any order and among members that mean nothing. What
it holds is chosen, `null` included, and everything else has its default.

* `set?_value`: a setting is read back from its value.
* `setMembers?_entries`: members are read into settings one after the other.
* `parse?_render`: settings are read back from their file.
* `chosen_or_default`: an object with some of the settings.
-/

namespace NesMachine.Settings

open Json (Delimited Spells Token tokenize tokenizeMembers)

/-! ## Values -/

/-- The value of an optional text. -/
def textValue : Option String → Json
  | some text => .string (some text)
  | none => .null

/-- The value of a setting. -/
def value (s : Settings) : Key → Json
  | .saveDir => textValue (s.saveDir.map Path.text)
  | .errorLog => textValue (s.errorLog.map Path.text)
  | .tv => textValue (s.tv.map TvSystem.keyword)
  | .eventCapacity => .number ⟨false, (toString s.eventCapacity.toNat).toList, true⟩

/-- Settings with one of them taken from others. -/
def put (s base : Settings) : Key → Settings
  | .saveDir => { base with saveDir := s.saveDir }
  | .errorLog => { base with errorLog := s.errorLog }
  | .tv => { base with tv := s.tv }
  | .eventCapacity => { base with eventCapacity := s.eventCapacity }

theorem readPath?_textValue (path : Option Path) :
    readPath? (textValue (path.map Path.text)) = some path := by
  cases path <;> rfl

theorem readTv?_textValue (tv : Option TvSystem) :
    readTv? (textValue (tv.map TvSystem.keyword)) = some tv := by
  cases tv with
  | none => rfl
  | some tv => exact congrArg (Option.map some) tv.ofKeyword?_keyword

/-- A setting is read back from its value. -/
theorem set?_value (s base : Settings) (key : Key) :
    base.set? key (s.value key) = some (s.put base key) := by
  cases key with
  | saveDir => simp only [set?, value, readPath?_textValue, Option.map_some, put]
  | errorLog => simp only [set?, value, readPath?_textValue, Option.map_some, put]
  | tv => simp only [set?, value, readTv?_textValue, Option.map_some, put]
  | eventCapacity =>
    have hread := (Integer.digits_toString s.eventCapacity.toNat).readUInt64
      (Integer.toString_ne_nil _)
    simp only [set?, value, readCount?, hread, Except.toOption, Option.map_some, put]

/-! ## Members -/

namespace Key

theorem ofName?_name (key : Key) : ofName? key.name = some key := by
  cases key <;> decide

theorem ofName?_eq_none {name : String} (h : ∀ key : Key, key.name ≠ name) :
    ofName? name = none :=
  List.find?_eq_none.mpr fun key _ => by simpa using h key

end Key

/-- A member of a settings object. -/
inductive Entry where
  /-- A setting with its value. -/
  | setting (key : Key)
  /-- A member that means nothing. -/
  | other (name : String) (value : Json) (unknown : ∀ key : Key, key.name ≠ name)

namespace Entry

/-- The key of a setting. -/
def key? : Entry → Option Key
  | setting key => some key
  | other .. => none

/-- The name and the value of an entry. -/
def member (s : Settings) : Entry → Option String × Json
  | setting key => (some key.name, s.value key)
  | other name value _ => (some name, value)

end Entry

/-- Settings, those of some keys taken from others. -/
def overlay (s base : Settings) (keys : List Key) : Settings where
  saveDir := if .saveDir ∈ keys then s.saveDir else base.saveDir
  errorLog := if .errorLog ∈ keys then s.errorLog else base.errorLog
  tv := if .tv ∈ keys then s.tv else base.tv
  eventCapacity := if .eventCapacity ∈ keys then s.eventCapacity else base.eventCapacity

theorem overlay_put (s base : Settings) (key : Key) (keys : List Key) :
    s.overlay (s.put base key) keys = s.overlay base (key :: keys) := by
  cases key <;> simp [overlay, put]

/-- Members are read into settings one after the other. -/
theorem setMembers?_entries (s base : Settings) (seen : List Key) (entries : List Entry)
    (hnodup : (entries.filterMap Entry.key?).Nodup)
    (hseen : ∀ key ∈ entries.filterMap Entry.key?, key ∉ seen) :
    setMembers? base seen (entries.map (Entry.member s)) =
      some (s.overlay base (entries.filterMap Entry.key?)) := by
  induction entries generalizing base seen with
  | nil => rfl
  | cons entry entries ih =>
    cases entry with
    | setting key =>
      have hkeys : ((Entry.setting key :: entries).filterMap Entry.key?) =
          key :: entries.filterMap Entry.key? := rfl
      rw [hkeys] at hnodup hseen ⊢
      obtain ⟨hkey, hnodup⟩ := List.nodup_cons.mp hnodup
      have hnew : seen.contains key = false := by simpa using hseen key List.mem_cons_self
      have hrest : ∀ key' ∈ entries.filterMap Entry.key?, key' ∉ key :: seen := by
        intro key' hkey'
        rw [List.mem_cons, not_or]
        exact ⟨fun h => hkey (h ▸ hkey'), hseen key' (List.mem_cons_of_mem _ hkey')⟩
      simp only [List.map_cons, Entry.member, setMembers?, Key.ofName?_name, hnew, set?_value,
        Bool.false_eq_true, if_false, Option.bind_eq_bind, Option.bind_some]
      rw [ih (s.put base key) (key :: seen) hnodup hrest, overlay_put]
    | other name value unknown =>
      simp only [List.map_cons, Entry.member, setMembers?, Key.ofName?_eq_none unknown]
      exact ih base seen hnodup hseen

/-- An object with some of the settings. -/
theorem ofJson?_entries (s : Settings) {entries : List Entry}
    (hnodup : (entries.filterMap Entry.key?).Nodup) :
    ofJson? (.object (entries.map (Entry.member s))) =
      some (s.overlay {} (entries.filterMap Entry.key?)) :=
  setMembers?_entries s {} [] entries hnodup fun _ _ => List.not_mem_nil

/-! ## Files -/

theorem toList_quote (text : String) : (Json.quote text).toList =
    (Token.string (some text)).text := by
  simp only [Json.quote, String.toList_append, String.toList_ofList, String.reduceToList, Token.text,
    List.cons_append, List.nil_append]

/-- A number in decimal is a number of a settings file. -/
theorem sound_toString (n : Nat) : Json.Number.Sound ⟨false, (toString n).toList, true⟩ where
  digits := by
    rw [Integer.toList_toString]
    exact fun c => Nat.isDigit_of_mem_toDigits (by decide) (by decide)
  nonempty := Integer.toString_ne_nil n
  zero := by
    rw [Integer.toList_toString]
    intro hhead
    rw [Integer.eq_zero_of_head?_toDigits (by decide) hhead]
    rfl

/-- The value of a setting is one token, with the text that the setting is written as. -/
theorem tokenize_value (s : Settings) (key : Key) : ∃ t : Token, tokenize (s.value key) = [t] ∧
    t.text = (s.write key).toList ∧ t.Sound := by
  have htext (text : Option String) : ∃ t : Token, tokenize (textValue text) = [t] ∧
      t.text = (writeText text).toList ∧ t.Sound := by
    cases text with
    | none => exact ⟨.null, rfl, by simp [Token.text, writeText], trivial⟩
    | some text => exact ⟨.string (some text), rfl, (toList_quote text).symm, trivial⟩
  cases key with
  | saveDir => exact htext _
  | errorLog => exact htext _
  | tv => exact htext _
  | eventCapacity =>
    refine ⟨_, rfl, ?_, ?_⟩
    · simp [Token.text, Json.Number.text, write]
    · exact sound_toString _

theorem ends_of_delimited (t : Token) {rest : List Char} (h : Delimited rest) : t.Ends rest := by
  cases t with
  | number _ => exact h
  | _ => trivial

/-- The text of a member. -/
def memberText (s : Settings) (key : Key) : List Char :=
  (Json.quote key.name ++ ":" ++ s.write key).toList

theorem spells_member (s : Settings) (key : Key) {rest : List Char} {ts : List Token}
    (hdelimited : Delimited rest) (hrest : Spells rest ts) :
    Spells (s.memberText key ++ rest)
      (.string (some key.name) :: .colon :: (tokenize (s.value key) ++ ts)) := by
  obtain ⟨t, htokens, htext, hsound⟩ := s.tokenize_value key
  have hvalue := hrest.token t hsound (ends_of_delimited t hdelimited)
  have hname := (hvalue.token .colon trivial trivial).token (.string (some key.name)) trivial trivial
  have hmember : s.memberText key ++ rest =
      (Token.string (some key.name)).text ++ (Token.colon.text ++ (t.text ++ rest)) := by
    have hcolon : ":".toList = Token.colon.text := rfl
    simp only [memberText, String.toList_append, toList_quote, htext, hcolon, List.append_assoc]
  rw [hmember, htokens]
  exact hname

/-- The members of an object, written one after the other. -/
theorem spells_members (s : Settings) (key : Key) (keys : List Key) :
    Spells ([','].intercalate ((key :: keys).map s.memberText) ++ ['}'])
      (.string (some key.name) :: .colon :: (tokenize (s.value key) ++
        tokenizeMembers (keys.map fun key => (some key.name, s.value key)))) := by
  induction keys generalizing key with
  | nil =>
    have hend : Spells ['}'] [.closeBrace] :=
      (Spells.blank (by simp : ∀ c ∈ [], Text.isSpace c = true)).token .closeBrace trivial trivial
    have hdelimited : Delimited ['}'] := by simp [Delimited]
    have hmember := s.spells_member key hdelimited hend
    rw [List.map_cons, List.map_nil, List.intercalate_singleton]
    exact hmember
  | cons next keys ih =>
    have hdelimited (rest : List Char) : Delimited (',' :: rest) := by simp [Delimited]
    have hmember := s.spells_member key (hdelimited _) ((ih next).token .comma trivial trivial)
    rw [List.map_cons, List.map_cons, List.intercalate_cons_cons, ← List.map_cons]
    simp only [List.append_assoc]
    exact hmember

/-- A settings file has the tokens of the object with all settings. -/
theorem spells_render (s : Settings) : Spells s.render.toList
    (tokenize (.object (Key.all.map fun key => (some key.name, s.value key)))) := by
  have hmembers := s.spells_members .saveDir [.errorLog, .tv, .eventCapacity]
  have hopen : "\x7b".toList = Token.openBrace.text := rfl
  have hclose : "\x7d".toList = ['}'] := rfl
  have hcomma : ",".toList = [','] := rfl
  have htext : s.render.toList =
      Token.openBrace.text ++ ([','].intercalate (Key.all.map s.memberText) ++ ['}']) := by
    simp only [render, String.toList_append, String.toList_intercalate, List.map_map, hopen, hclose,
      hcomma, List.append_assoc]
    rfl
  rw [htext]
  exact hmembers.token .openBrace trivial trivial

/-- Settings are read back from their file. -/
theorem parse?_render (s : Settings) : parse? s.render = some s := by
  have hread := s.ofJson?_entries (show ((Key.all.map Entry.setting).filterMap Entry.key?).Nodup by
    decide)
  rw [List.map_map] at hread
  rw [parse?, Json.parse?_of_spells s.spells_render]
  refine hread.trans ?_
  simp [overlay, Key.all, Entry.key?]

/-- Settings of which those of some keys are chosen, the others as they are by default. -/
def chosen (s : Settings) (keys : List Key) : Settings where
  saveDir := if .saveDir ∈ keys then s.saveDir else none
  errorLog := if .errorLog ∈ keys then s.errorLog else some ⟨"error.txt"⟩
  tv := if .tv ∈ keys then s.tv else none
  eventCapacity := if .eventCapacity ∈ keys then s.eventCapacity else 512

/-- **Settings are chosen key by key.** They are read back from the file they are written to. An object
with the members of some keys, in any order and among members of other names, gives what those members
say, where `null` is no path or system and never a default; the keys it does not have keep theirs. -/
theorem chosen_or_default (s : Settings) : parse? s.render = some s ∧
    ∀ entries : List Entry, (entries.filterMap Entry.key?).Nodup → ∀ text : String,
      (Json.parse? text = some (.object (entries.map (Entry.member s))) →
        parse? text = some (s.chosen (entries.filterMap Entry.key?))) ∧
      (Spells text.toList (tokenize (.object (entries.map (Entry.member s)))) →
        parse? text = some (s.chosen (entries.filterMap Entry.key?))) := by
  refine ⟨s.parse?_render, fun entries hnodup text => ?_⟩
  have hread (h : Json.parse? text = some (.object (entries.map (Entry.member s)))) :
      parse? text = some (s.chosen (entries.filterMap Entry.key?)) := by
    rw [parse?, h]
    exact s.ofJson?_entries hnodup
  exact ⟨hread, fun hspells => hread (Json.parse?_of_spells hspells)⟩

/-- No file of failures, though there is one by default; a member of another name holds a known one. -/
theorem chosen_or_default_null :
    let s : Settings := { errorLog := none, tv := some .pal }
    let nested : Json := .array [.object [(some "save_dir", .number ⟨true, ['1'], false⟩)]]
    let entries : List Entry :=
      [.setting .tv, .other "pad" nested (by rintro ⟨⟩ <;> decide), .setting .errorLog]
    let text := "\x7b \"tv_system\": \"pal\", \"pad\": [\x7b\"save_dir\": -1.5\x7d]," ++
      "\"error_log\" : null \x7d"
    (entries.filterMap Entry.key?).Nodup ∧
      Json.parse? text = some (.object (entries.map (Entry.member s))) ∧
        parse? text = some ⟨none, none, some .pal, 512⟩ := by
  intro s nested entries text
  have hnodup : (entries.filterMap Entry.key?).Nodup := by decide
  have hread : Json.parse? text = some (.object (entries.map (Entry.member s))) := by
    simp only [text, Json.parse?, String.toList_append, String.reduceToList]
    rfl
  exact ⟨hnodup, hread, ((chosen_or_default s).2 entries hnodup text).1 hread⟩

end NesMachine.Settings
