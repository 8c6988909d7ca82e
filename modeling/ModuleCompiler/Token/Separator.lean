/-
  What may stand between tokens: blanks, which are the characters up to the space, and
  comments between `(*` and `*)`, which nest. What is left behind a comment or behind separators
  is told with the byte where it stands in the source.
-/
import ModuleCompiler.Diagnostic

namespace ModuleCompiler.Separator

/-- The character is a blank: a space or a control character before it. -/
def isBlank (c : Char) : Bool := c ≤ ' '

/-- A place in the source: the byte it is at, and the text from there on. -/
structure Place where
  byte : Nat
  rest : List Char
  deriving DecidableEq, Repr

/-- The place behind the comment whose opening was just read: at each point a closing is
tried first, then a comment inside, then any character is skipped. There is none if the
comment is never closed. -/
def closeComment (byte : Nat) (text : List Char) :
    Option { p : Place // p.rest.length < text.length } :=
  match text with
  | [] => none
  | '*' :: ')' :: rest => some ⟨⟨byte + 2, rest⟩, by simp only [List.length_cons]; omega⟩
  | '(' :: '*' :: rest =>
    match closeComment (byte + 2) rest with
    | none => none
    | some ⟨inner, hi⟩ =>
      match closeComment inner.byte inner.rest with
      | none => none
      | some ⟨outer, ho⟩ => some ⟨outer, by simp only [List.length_cons]; omega⟩
  | c :: rest =>
    match closeComment (byte + c.utf8Size) rest with
    | none => none
    | some ⟨p, h⟩ => some ⟨p, by simp only [List.length_cons]; omega⟩
termination_by text.length
decreasing_by all_goals simp only [List.length_cons]; omega

/-- The place behind all blanks and comments; none if a comment is never closed. -/
def skip (byte : Nat) (text : List Char) :
    Option { p : Place // p.rest.length ≤ text.length } :=
  match text with
  | [] => some ⟨⟨byte, []⟩, by simp⟩
  | '(' :: '*' :: rest =>
    match closeComment (byte + 2) rest with
    | none => none
    | some ⟨inner, hi⟩ =>
      match skip inner.byte inner.rest with
      | none => none
      | some ⟨p, h⟩ => some ⟨p, by simp only [List.length_cons]; omega⟩
  | c :: rest =>
    if isBlank c then
      match skip (byte + c.utf8Size) rest with
      | none => none
      | some ⟨p, h⟩ => some ⟨p, by simp only [List.length_cons]; omega⟩
    else some ⟨⟨byte, c :: rest⟩, by simp⟩
termination_by text.length
decreasing_by all_goals simp only [List.length_cons]; omega

/-- The text from the first opening of a comment on, if there is one. -/
def fromOpening? : List Char → Option (List Char)
  | [] => none
  | '(' :: '*' :: rest => some ('(' :: '*' :: rest)
  | _ :: rest => fromOpening? rest

/-- What a diagnostic quotes of separators with an unclosed comment: twelve characters from the
first opening on. -/
def unclosedText (text : List Char) : String :=
  match fromOpening? text with
  | some found => String.ofList (found.take 12)
  | none => "(*"

/-! ## Bytes -/

/-- The number of bytes of the characters. -/
def byteSize : List Char → Nat
  | [] => 0
  | c :: cs => c.utf8Size + byteSize cs

theorem byteSize_append (cs ds : List Char) :
    byteSize (cs ++ ds) = byteSize cs + byteSize ds := by
  induction cs with
  | nil => simp [byteSize]
  | cons c cs ih => simp [byteSize, ih, Nat.add_assoc]

end ModuleCompiler.Separator
