import NesMachine.Proofs.Json.Token

/-!
# JSON values are read back

A value has its tokens, and reading them gives the value. The reader keeps open arrays and objects on a
stack of its own, so the statement is about any stack and whatever comes behind.

* `foldlM_tokens`: the tokens of a value take a reader that waits for one to where it is finished.
* `parse?_of_spells`: a text with the tokens of a value spells the value.
-/

namespace NesMachine.Json

/-! ## Tokens of values -/

mutual

/-- The tokens of a value. -/
def tokenize : Json → List Token
  | .null => [.null]
  | .bool b => [.bool b]
  | .number n => [.number n]
  | .string s => [.string s]
  | .array [] => [.openBracket, .closeBracket]
  | .array (item :: items) => .openBracket :: (tokenize item ++ tokenizeItems items)
  | .object [] => [.openBrace, .closeBrace]
  | .object ((key, value) :: members) =>
    .openBrace :: .string key :: .colon :: (tokenize value ++ tokenizeMembers members)

/-- The tokens of an array behind an item. -/
def tokenizeItems : List Json → List Token
  | [] => [.closeBracket]
  | item :: items => .comma :: (tokenize item ++ tokenizeItems items)

/-- The tokens of an object behind a member. -/
def tokenizeMembers : List (Option String × Json) → List Token
  | [] => [.closeBrace]
  | (key, value) :: members =>
    .comma :: .string key :: .colon :: (tokenize value ++ tokenizeMembers members)

end

/-- No value begins with the end of an array: its first item is read like a later one. -/
theorem foldlM_itemOrEnd (v : Json) (stack : List Open) (rest : List Token) :
    (tokenize v ++ rest).foldlM Reader.take ⟨stack, .itemOrEnd⟩ =
      (tokenize v ++ rest).foldlM Reader.take ⟨stack, .value⟩ := by
  match v with
  | .null | .bool _ | .number _ | .string _ | .array [] | .array (_ :: _) | .object []
  | .object ((_, _) :: _) => rfl

mutual

/-- The tokens of a value take a reader that waits for one to where it is finished. -/
theorem foldlM_tokenize (v : Json) (stack : List Open) (rest : List Token) :
    (tokenize v ++ rest).foldlM Reader.take ⟨stack, .value⟩ =
      rest.foldlM Reader.take ⟨stack, .more v⟩ := by
  match v with
  | .null | .bool _ | .number _ | .string _ | .array [] | .object [] => rfl
  | .array (item :: items) =>
    have hfirst : (tokenize item ++ (tokenizeItems items ++ rest)).foldlM Reader.take
        ⟨.array [] :: stack, .itemOrEnd⟩ = _ :=
      (foldlM_itemOrEnd ..).trans (foldlM_tokenize item _ _)
    have hitems := foldlM_tokenizeItems items item [] stack rest
    rw [tokenize, List.cons_append, List.append_assoc]
    exact hfirst.trans hitems
  | .object ((key, value) :: members) =>
    have hfirst := foldlM_tokenize value (.object [] key :: stack) (tokenizeMembers members ++ rest)
    have hmembers := foldlM_tokenizeMembers members key value [] stack rest
    rw [tokenize]
    simp only [List.cons_append, List.append_assoc]
    exact hfirst.trans hmembers

theorem foldlM_tokenizeItems (items : List Json) (item : Json) (found : List Json)
    (stack : List Open) (rest : List Token) :
    (tokenizeItems items ++ rest).foldlM Reader.take ⟨.array found :: stack, .more item⟩ =
      rest.foldlM Reader.take ⟨stack, .more (.array (found.reverse ++ item :: items))⟩ := by
  match items with
  | [] => simp [tokenizeItems, Reader.take]
  | next :: items =>
    have hnext := foldlM_tokenize next (.array (item :: found) :: stack) (tokenizeItems items ++ rest)
    have hitems := foldlM_tokenizeItems items next (item :: found) stack rest
    rw [tokenizeItems, List.cons_append, List.append_assoc]
    refine (hnext.trans hitems).trans ?_
    simp

theorem foldlM_tokenizeMembers (members : List (Option String × Json)) (key : Option String)
    (value : Json) (found : List (Option String × Json)) (stack : List Open) (rest : List Token) :
    (tokenizeMembers members ++ rest).foldlM Reader.take ⟨.object found key :: stack, .more value⟩ =
      rest.foldlM Reader.take
        ⟨stack, .more (.object (found.reverse ++ (key, value) :: members))⟩ := by
  match members with
  | [] => simp [tokenizeMembers, Reader.take]
  | (key', value') :: members =>
    have hnext := foldlM_tokenize value' (.object ((key, value) :: found) key' :: stack)
      (tokenizeMembers members ++ rest)
    have hmembers := foldlM_tokenizeMembers members key' value' ((key, value) :: found) stack rest
    rw [tokenizeMembers]
    simp only [List.cons_append, List.append_assoc]
    refine (hnext.trans hmembers).trans ?_
    simp

end

/-- The tokens of a value spell it. -/
theorem ofTokens?_tokenize (v : Json) : ofTokens? (tokenize v) = some v := by
  have hrun := foldlM_tokenize v [] []
  rw [List.append_nil] at hrun
  rw [ofTokens?, hrun]
  rfl

/-- **A text with the tokens of a value spells the value.** -/
theorem parse?_of_spells {v : Json} {text : String} (h : Spells text.toList (tokenize v)) :
    parse? text = some v := by
  rw [parse?, h.tokens]
  exact ofTokens?_tokenize v

end NesMachine.Json
