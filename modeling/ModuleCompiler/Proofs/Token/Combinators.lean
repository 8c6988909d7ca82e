/-
  Scanners put together from smaller ones. A scanner passes over the front of a text, or it
  refuses the text, and then another scanner may be tried, or it fails for good. `Combinators`
  are ways to make scanners, and `Lawful` says what each of them is to do, as far as scanners for
  comments and separators rely on it: what a repetition does that gets nowhere is left open.
  `standard` does all of it (`lawful_standard`).
-/

namespace ModuleCompiler.Separator

/-- How a scanner ends, with the text that it leaves. -/
inductive Scan where
  | accepted (rest : List Char)
  | refused (rest : List Char)
  | failed
  deriving DecidableEq, Repr

namespace Scan

/-- A refusal counts as a failure. -/
def hard : Scan → Scan
  | refused _ => failed
  | s => s

/-- What is left behind an accepted front. -/
def behind? : Scan → Option (List Char)
  | accepted rest => some rest
  | refused _ | failed => none

end Scan

/-- What passes over the front of a text. -/
abbrev Scanner : Type := List Char → Scan

/-- Ways to make scanners. -/
structure Combinators where
  /-- Passes over this word. -/
  literal : List Char → Scanner
  /-- Passes over the characters of a kind, of which there is at least one. -/
  run : (Char → Bool) → Scanner
  /-- Passes over one character. -/
  any : Scanner
  /-- Tries the second scanner, from the start, where the first refuses. -/
  alt : Scanner → Scanner → Scanner
  /-- Fails where the scanner refuses. -/
  cut : Scanner → Scanner
  /-- Repeats the scanner as long as it accepts. -/
  repeated : Scanner → Scanner
  /-- Repeats the first scanner up to where the second accepts, which is tried first. -/
  repeatedTill : Scanner → Scanner → Scanner

namespace Combinators

/-- What the ways to make scanners are to do. -/
structure Lawful (k : Combinators) : Prop where
  literal_hit : ∀ word rest, k.literal word (word ++ rest) = .accepted rest
  literal_miss : ∀ word text, ¬word <+: text → k.literal word text = .refused text
  run_hit : ∀ p c rest, p c = true → k.run p (c :: rest) = .accepted (rest.dropWhile p)
  run_miss : ∀ p text, (∀ c ∈ text.head?, p c = false) → k.run p text = .refused text
  any_hit : ∀ c rest, k.any (c :: rest) = .accepted rest
  any_miss : k.any [] = .refused []
  alt_next : ∀ a b text r, a text = .refused r → k.alt a b text = b text
  alt_first : ∀ a b text, (∀ r, a text ≠ .refused r) → k.alt a b text = a text
  cut_hard : ∀ a text, k.cut a text = (a text).hard
  repeated_more : ∀ a text rest, a text = .accepted rest → rest.length < text.length →
    k.repeated a text = k.repeated a rest
  repeated_last : ∀ a text r, a text = .refused r → k.repeated a text = .accepted text
  repeated_failed : ∀ a text, a text = .failed → k.repeated a text = .failed
  repeatedTill_end : ∀ a stop text rest, stop text = .accepted rest →
    k.repeatedTill a stop text = .accepted rest
  repeatedTill_more : ∀ a stop text r rest, stop text = .refused r → a text = .accepted rest →
    rest.length < text.length → k.repeatedTill a stop text = k.repeatedTill a stop rest
  repeatedTill_stuck : ∀ a stop text r, stop text = .refused r → (∀ rest, a text ≠ .accepted rest) →
    k.repeatedTill a stop text = a text

/-! ## Standard combinators -/

/-- The word and no other beginning is passed over. -/
def word (w : List Char) : Scanner := fun text =>
  if w <+: text then .accepted (text.drop w.length) else .refused text

/-- The characters of a kind are passed over, if there is one. -/
def span (p : Char → Bool) : Scanner
  | [] => .refused []
  | c :: rest => if p c then .accepted (rest.dropWhile p) else .refused (c :: rest)

/-- A character is passed over, if there is one. -/
def single : Scanner
  | [] => .refused []
  | _ :: rest => .accepted rest

/-- The second scanner is tried where the first refuses. -/
def either (a b : Scanner) : Scanner := fun text =>
  match a text with
  | .refused _ => b text
  | s => s

/-- Goes on as long as the scanner accepts; a repetition that gets nowhere fails. -/
def many (a : Scanner) (text : List Char) : Scan :=
  match a text with
  | .accepted rest => if rest.length < text.length then many a rest else .failed
  | .refused _ => .accepted text
  | .failed => .failed
termination_by text.length

/-- Goes on up to where the second scanner accepts; a repetition that gets nowhere fails. -/
def manyTill (a stop : Scanner) (text : List Char) : Scan :=
  match stop text with
  | .refused _ =>
    match a text with
    | .accepted rest => if rest.length < text.length then manyTill a stop rest else .failed
    | s => s
  | s => s
termination_by text.length

/-- The combinators as they are defined here. -/
def standard : Combinators where
  literal := word
  run := span
  any := single
  alt := either
  cut a text := (a text).hard
  repeated := many
  repeatedTill := manyTill

theorem lawful_standard : standard.Lawful where
  literal_hit w rest := by
    show word w (w ++ rest) = _
    rw [word, if_pos (List.prefix_append w rest), List.drop_left]
  literal_miss w text h := if_neg h
  run_hit p c rest h := if_pos h
  run_miss p text h := by
    cases text with
    | nil => rfl
    | cons c rest => exact if_neg (by simpa using h)
  any_hit c rest := rfl
  any_miss := rfl
  alt_next a b text r h := by
    show either a b text = _
    rw [either, h]
  alt_first a b text h := by
    show either a b text = _
    unfold either
    split
    · next r hr => exact absurd hr (h r)
    · rfl
  cut_hard a text := rfl
  repeated_more a text rest h hlt := by
    show many a text = many a rest
    rw [many, h]
    exact if_pos hlt
  repeated_last a text r h := by
    show many a text = _
    rw [many, h]
  repeated_failed a text h := by
    show many a text = _
    rw [many, h]
  repeatedTill_end a stop text rest h := by
    show manyTill a stop text = _
    rw [manyTill, h]
  repeatedTill_more a stop text r rest hstop h hlt := by
    show manyTill a stop text = manyTill a stop rest
    rw [manyTill, hstop, h]
    exact if_pos hlt
  repeatedTill_stuck a stop text r hstop h := by
    show manyTill a stop text = _
    rw [manyTill, hstop]
    dsimp only
    split
    · next rest hrest => exact absurd hrest (h rest)
    · rfl

end Combinators

end ModuleCompiler.Separator
