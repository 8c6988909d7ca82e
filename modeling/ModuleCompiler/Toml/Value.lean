/-
  TOML values, and the rules by which keys and headers build tables. A table may be grown
  later or not, depending on how it came to be; what may not be grown, and a key that is
  given twice, make a document malformed.
-/

namespace ModuleCompiler.Toml

/-- How a table came to be. -/
inductive Origin where
  /-- Written between braces, which is all of it. -/
  | inline
  /-- Named by a header of its own. -/
  | header
  /-- Named on the way of a header only. -/
  | implied
  /-- Named on the way of a dotted key. -/
  | dotted
  deriving DecidableEq, Repr

/-- A value of a document. Numbers with a fraction and dates are kept as written. -/
inductive Value where
  | string (text : String)
  | integer (n : Int)
  | float (text : String)
  | dateTime (text : String)
  | boolean (b : Bool)
  | array (items : List Value)
  | table (origin : Origin) (entries : List (String × Value))
  | tables (items : List (List (String × Value)))

/-- The keys of a table with their values, in the order in which they were written. -/
abbrev Entries := List (String × Value)

namespace Entries

/-- The entries with another value for one of the keys. -/
def replace (key : String) (value : Value) (es : Entries) : Entries :=
  es.map fun e => if e.1 = key then (key, value) else e

/-- Changes the table at the end of a path, making the tables on the way that are missing.
The way of a dotted key does not lead through a table with a header of its own. -/
def change (origin : Origin) (f : Origin → Entries → Option Entries) :
    List String → Origin → Entries → Option Entries
  | [], here, es => f here es
  | key :: path, _, es =>
    match es.lookup key with
    | none => do
      let inner ← change origin f path origin []
      return es ++ [(key, .table origin inner)]
    | some (.table there inner) => do
      if there = .inline ∨ (origin = .dotted ∧ there = .header) then none
      let inner ← change origin f path there inner
      return replace key (.table there inner) es
    | some (.tables items) => do
      let last ← items.getLast?
      let last ← change origin f path .header last
      return replace key (.tables (items.dropLast ++ [last])) es
    | some _ => none

/-- Gives a value to a dotted key, relative to the given table. All tables on its way and no
other are tables of dotted keys. -/
def assign (path : List String) (key : String) (value : Value) (here : Origin) (es : Entries) :
    Option Entries :=
  change .dotted (fun there es => do
    if there = .dotted ↔ path = [] then none
    if (es.lookup key).isSome then none
    return es ++ [(key, value)]) path here es

/-- Opens the table of a header: it is new, or was only implied before. -/
def openTable (key : String) (es : Entries) : Option Entries :=
  match es.lookup key with
  | none => some (es ++ [(key, .table .header [])])
  | some (.table .implied inner) => some (replace key (.table .header inner) es)
  | some _ => none

/-- Opens one more table of an array of tables. -/
def openElement (key : String) (es : Entries) : Option Entries :=
  match es.lookup key with
  | none => some (es ++ [(key, .tables [[]])])
  | some (.tables items) => some (replace key (.tables (items ++ [[]])) es)
  | some _ => none

end Entries

end ModuleCompiler.Toml
