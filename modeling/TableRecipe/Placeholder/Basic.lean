import TableRecipe.Error
import TableRecipe.Json.Printer
import TableRecipe.Text.Split

/-!
# Placeholders

A dollar sign and a name in braces stand for the value bound to the name. A text that is nothing
but a placeholder becomes the value itself; if that is a text which holds a list or mapping in
writing, it becomes what is written, with its own placeholders replaced. Inside of other text a
placeholder becomes the text of the value.

* `Placeholder.pieces` — a text as characters and placeholders;
* `Placeholder.whole?` — the name in a text that is nothing but a placeholder;
* `Value.replaceTexts` — a value with its texts replaced;
* `Placeholder.resolve` — a value with its placeholders replaced.
-/

namespace TableRecipe

namespace Placeholder

/-! ## Placeholders in texts -/

/-- whether a name may contain the character -/
def isNamePart (c : Char) : Bool := c ≠ '\x7b' && c ≠ '\x7d'

/-- the name in a placeholder at the front of a text, with what follows it -/
def read? : List Char → Option (List Char × List Char)
  | '$' :: '\x7b' :: rest =>
    match rest.takeWhile isNamePart, rest.dropWhile isNamePart with
    | c :: name, '\x7d' :: after => some (c :: name, after)
    | _, _ => none
  | _ => none

/-- the name in a text that is nothing but a placeholder -/
def whole? (cs : List Char) : Option (List Char) :=
  match read? cs with
  | some (name, []) => some name
  | _ => none

/-- a part of a text -/
inductive Piece where
  /-- a character -/
  | char (c : Char)
  /-- a placeholder -/
  | name (name : List Char)
  deriving DecidableEq, Repr

theorem length_read? {cs name after : List Char} (h : read? cs = some (name, after)) :
    after.length < cs.length := by
  unfold read? at h
  split at h
  · rename_i rest
    split at h
    · rename_i tail hd
      simp only [Option.some.injEq, Prod.mk.injEq] at h
      have := (List.dropWhile_sublist (l := rest) isNamePart).length_le
      rw [hd] at this
      simp only [List.length_cons, ← h.2] at this ⊢
      omega
    · simp at h
  · simp at h

/-- a text as characters and placeholders, found from left to right -/
def pieces (cs : List Char) : List Piece :=
  match _h : read? cs with
  | some (name, after) => .name name :: pieces after
  | none =>
    match cs with
    | [] => []
    | c :: rest => .char c :: pieces rest
termination_by cs.length
decreasing_by
  · exact length_read? _h
  · simp

/-- the text of a placeholder -/
def write (name : List Char) : List Char := '$' :: '\x7b' :: (name ++ ['\x7d'])

end Placeholder

/-! ## Texts in values -/

mutual
/-- a value with its texts replaced, those of names excepted; the first text that cannot be
replaced decides -/
def Value.replaceTexts (replace : String → Except Error Value) : Value → Except Error Value
  | .string text => replace text
  | .list items => return .list (← replaceInItems replace items)
  | .object entries => return .object (← replaceInEntries replace entries)
  | .null => return .null
  | .bool flag => return .bool flag
  | .number n => return .number n
/-- values with their texts replaced -/
def Value.replaceInItems (replace : String → Except Error Value) :
    List Value → Except Error (List Value)
  | [] => return []
  | item :: rest => return (← item.replaceTexts replace) :: (← replaceInItems replace rest)
/-- entries with their texts replaced -/
def Value.replaceInEntries (replace : String → Except Error Value) :
    List (String × Value) → Except Error (List (String × Value))
  | [] => return []
  | (name, value) :: rest =>
    return (name, ← value.replaceTexts replace) :: (← replaceInEntries replace rest)
end

namespace Placeholder

/-! ## Resolution -/

/-- reads a list or mapping in writing -/
abbrev Reading := String → Option Value

/-- whether a text may hold a list or mapping in writing -/
def looksStructured (cs : List Char) : Bool :=
  match Split.trimStart cs with
  | '\x7b' :: _ | '[' :: _ => true
  | _ => cs.contains ':' && cs.contains '\n'

/-- the list or mapping that a text holds in writing -/
def structure? (reading : Reading) (text : String) : Option Value :=
  if looksStructured text.toList then reading text else none

/-- the text of a piece; a name without value stays as it is if that is tolerated -/
def pieceText (bindings : Fields) (tolerant : Bool) : Piece → Except Error (List Char)
  | .char c => .ok [c]
  | .name name =>
    match Fields.find? (String.ofList name) bindings with
    | some value => .ok value.text.toList
    | none =>
      if tolerant then .ok (write name)
      else .error (.of (.unknownVariable (String.ofList name)))

/-- the text with its placeholders replaced by texts -/
def fill (bindings : Fields) (tolerant : Bool) (cs : List Char) : Except Error (List Char) :=
  return ((← (pieces cs).mapM (pieceText bindings tolerant))).flatten

/-- a text with its placeholders replaced; `expand` resolves a list or mapping that was bound to
a name in writing -/
def resolveText (reading : Reading) (bindings : Fields) (tolerant : Bool)
    (expand : String → Value → Except Error Value) (text : String) : Except Error Value :=
  match whole? text.toList with
  | some name =>
    let name := String.ofList name
    match Fields.find? name bindings with
    | some (.string inner) =>
      match structure? reading inner with
      | some parsed => expand name parsed
      | none => .ok (.string inner)
    | some value => .ok value
    | none =>
      if tolerant then .ok (.string text) else .error (.of (.unknownVariable name))
  | none => return .string (String.ofList (← fill bindings tolerant text.toList))

/-- the failure of a name that is bound to itself by way of others -/
def cycle (opened : List String) (name : String) : Error :=
  let chain := " -> ".intercalate (opened ++ [name])
  .validation s!"variable '{name}' refers to itself: {chain}"

/-- resolves the list or mapping bound to a name in writing, inside of those that are opened
already; `free` is how many names are left to be opened -/
def expand (reading : Reading) (bindings : Fields) (tolerant : Bool) :
    (free : Nat) → (opened : List String) → String → Value → Except Error Value
  | 0, opened, name, _ => .error (cycle opened name)
  | free + 1, opened, name, parsed =>
    if opened.contains name then .error (cycle opened name)
    else
      parsed.replaceTexts (resolveText reading bindings tolerant
        (expand reading bindings tolerant free (opened ++ [name])))

/-- a value with its placeholders replaced; names without a value stay as they are if that is
tolerated, else the first of them is a failure -/
def resolve (reading : Reading) (bindings : Fields) (tolerant : Bool) (node : Value) :
    Except Error Value :=
  node.replaceTexts (resolveText reading bindings tolerant
    (expand reading bindings tolerant bindings.length []))

end Placeholder

end TableRecipe
