/-
  What a line of the log shows of its event. `Carries` says which texts an event has to tell of the
  table and of the output, each under a name. A layout of lines is good enough if it writes the
  fields of an event, each behind its name and a mark (`Labels`); then every text that an event
  carries is in its line, as it is or in quotes (`Labels.shows`). The plain line and the JSON line
  are laid out so (`standard_labels`).
-/
import ModuleCompiler.CommandLine.Tools

namespace ModuleCompiler

/-! ## Parts of a text -/

/-- The part stands in the text somewhere. -/
def Text.Occurs (part text : String) : Prop :=
  part.toList <:+: text.toList

namespace Text

variable {part text : String} {parts : List String}

theorem occurs_refl (text : String) : Occurs text text := List.infix_rfl

theorem Occurs.trans {whole : String} (h : Occurs part text) (h' : Occurs text whole) :
    Occurs part whole :=
  List.IsInfix.trans h h'

theorem Occurs.append_left (h : Occurs part text) (before : String) :
    Occurs part (before ++ text) := by
  refine List.IsInfix.trans h ?_
  rw [String.toList_append]
  exact (List.suffix_append _ _).isInfix

theorem Occurs.append_right (h : Occurs part text) (behind : String) :
    Occurs part (text ++ behind) := by
  refine List.IsInfix.trans h ?_
  rw [String.toList_append]
  exact (List.prefix_append _ _).isInfix

end Text

open Text

/-! ## What an event carries -/

/-- The texts that an event has to tell of the table and of the output, by their names. -/
inductive Event.Carries : Event → String → String → Prop where
  | module (name : String) : Carries (createdRoot name) "module" name
  | kind (kind path : String) : Carries (created kind path) "kind" kind
  | path (kind path : String) : Carries (created kind path) "path" path
  | name (name scope : String) : Carries (inserted name scope) "name" name
  | scope (name scope : String) : Carries (inserted name scope) "scope" scope
  | procedure (name returns : String) : Carries (emittedPrologue name returns) "procedure" name
  | returns (name returns : String) : Carries (emittedPrologue name returns) "returns" returns

/-- How a text is written in a line of the format. -/
inductive LogFormat.Writes : LogFormat → String → String → Prop where
  | bare (text : String) : Writes .pretty text text
  | quoted (text : String) : Writes .pretty text (doubleQuoted text)
  | json (text : String) : Writes .json text (jsonString text)

theorem Event.Value.writes_quoted (format : LogFormat) (text : String) :
    format.Writes text ((quoted text).text format) := by
  cases format
  · exact .quoted text
  · exact .json text

theorem Event.Value.writes_bare (format : LogFormat) (text : String) :
    format.Writes text ((bare text).text format) := by
  cases format
  · exact .bare text
  · exact .json text

/-- What an event carries is the value of one of its fields. -/
theorem Event.Carries.field {e : Event} {key text : String} (h : e.Carries key text) :
    ∃ value, (key, value) ∈ e.fields ∧
      ∀ format : LogFormat, format.Writes text (value.text format) := by
  cases h with
  | module | kind => exact ⟨.quoted text, by simp [fields], (Value.writes_quoted · text)⟩
  | path | name | scope | procedure | returns =>
    exact ⟨.bare text, by simp [fields], (Value.writes_bare · text)⟩

/-! ## Lines -/

/-- A line has the fields of its event, each with its name and behind that the format's mark and
the value. -/
def Tools.Labels (t : Tools) (mark : LogFormat → String) : Prop :=
  ∀ (format : LogFormat) (time : Nat) (e : Event), ∀ field ∈ e.fields,
    Occurs (field.1 ++ mark format ++ field.2.text format) (t.line format time e)

/-- A line shows all that its event carries. -/
def Event.ShownIn (e : Event) (mark : LogFormat → String) (format : LogFormat) (line : String) :
    Prop :=
  ∀ key text, e.Carries key text →
    ∃ written, format.Writes text written ∧ Occurs (key ++ mark format ++ written) line

theorem Tools.Labels.shows {t : Tools} {mark : LogFormat → String} (h : t.Labels mark)
    (format : LogFormat) (time : Nat) (e : Event) :
    e.ShownIn mark format (t.line format time e) := by
  intro key text hcarries
  obtain ⟨value, hfield, hwrites⟩ := hcarries.field
  exact ⟨value.text format, hwrites format, h format time e (key, value) hfield⟩

namespace Event

/-- What stands between the name of a field and its value. -/
def mark : LogFormat → String
  | .pretty => "="
  | .json => "\":"

end Event

end ModuleCompiler
