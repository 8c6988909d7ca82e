/-
  TOML documents: lines of keys with values, under headers that name tables. A document is
  read to its end before anything is made of it; a fault anywhere makes it malformed.
-/
import ModuleCompiler.Toml.Number

namespace ModuleCompiler.Toml

/-! ## Values -/

/-- Reads items with commas between and possibly behind them, up to a closing bracket; line
breaks and comments may stand anywhere between. -/
def items (item : Reader Value) : (bound : Nat) → Reader (List Value)
  | 0, _ => none
  | bound + 1, s => do
    match ← skipLines s.length s with
    | ']' :: r => return ([], r)
    | s =>
      let (v, r) ← item s
      match ← skipLines r.length r with
      | ',' :: r =>
        let (vs, r) ← items item bound r
        return (v :: vs, r)
      | ']' :: r => return ([v], r)
      | _ => none

/-- Reads keys with their values and commas between them into a table, up to a closing
brace, all on one line. -/
def pairs (item : Reader Value) : (bound : Nat) → Entries → Reader Entries
  | 0, _, _ => none
  | bound + 1, es, s => do
    let ((path, key), r) ← key s
    let r ← expectWord ['='] r
    let (v, r) ← item (skipBlanks r)
    let es ← es.assign path key v .header
    match skipBlanks r with
    | ',' :: r => pairs item bound es r
    | '\x7d' :: r => return (es, r)
    | _ => none

/-- Reads a value in which arrays and tables nest at most `depth` deep. -/
def value : (depth : Nat) → Reader Value
  | depth, s =>
    match s with
    | '"' :: _ | '\'' :: _ => do
      let (text, r) ← string s
      return (.string text, r)
    | '[' :: r =>
      match depth with
      | 0 => none
      | depth + 1 => do
        let (vs, r) ← items (value depth) (r.length + 1) r
        return (.array vs, r)
    | '\x7b' :: r =>
      match depth with
      | 0 => none
      | depth + 1 =>
        match skipBlanks r with
        | '\x7d' :: r => some (.table .inline [], r)
        | _ => do
          let (es, r) ← pairs (value depth) (r.length + 1) [] r
          return (.table .inline es, r)
    | 't' :: _ => do return (.boolean true, ← expectWord ['t', 'r', 'u', 'e'] s)
    | 'f' :: _ => do return (.boolean false, ← expectWord ['f', 'a', 'l', 's', 'e'] s)
    | 'i' :: _ | 'n' :: _ => special s
    | _ => number s

/-! ## Lines -/

/-- What the lines so far have built, and the path of the table that the last header named. -/
structure Building where
  root : Entries
  current : List String

/-- Gives a value to a key of the current table. -/
def Building.assign (b : Building) (path : List String) (key : String) (v : Value) :
    Option Building := do
  let root ← b.root.change .implied (fun here es => es.assign path key v here) b.current .header
  return { b with root }

/-- Names the current table by a header; `openIt` opens it among its neighbours. -/
def Building.head (b : Building) (path : List String) (key : String)
    (openIt : String → Entries → Option Entries) : Option Building := do
  let root ← b.root.change .implied (fun _ es => openIt key es) path .header
  return ⟨root, path ++ [key]⟩

/-- Reads lines to the end of the text, each at least one character long. -/
def lines : (bound : Nat) → Building → List Char → Option Building
  | 0, _, _ => none
  | bound + 1, b, s => do
    match skipBlanks s with
    | [] => return b
    | '#' :: r => lines bound b (← lineEnd ('#' :: r))
    | '\n' :: r => lines bound b r
    | '\r' :: r => lines bound b (← newline? ('\r' :: r))
    | '[' :: '[' :: r =>
      let ((path, key), r) ← key r
      let r ← expectWord [']', ']'] r
      let r ← lineEnd r
      lines bound (← b.head path key Entries.openElement) r
    | '[' :: r =>
      let ((path, key), r) ← key r
      let r ← expectWord [']'] r
      let r ← lineEnd r
      lines bound (← b.head path key Entries.openTable) r
    | s =>
      let ((path, key), r) ← key s
      let r ← expectWord ['='] r
      let (v, r) ← value (depthLimit - 1) (skipBlanks r)
      let r ← lineEnd r
      lines bound (← b.assign path key v) r

/-- The text without a byte order mark at its start. -/
def skipMark : List Char → List Char
  | '\ufeff' :: r => r
  | s => s

/-- The entries of a document; none if it is malformed. -/
def parse (text : String) : Option Entries := do
  let s := skipMark text.toList
  let b ← lines (s.length + 1) ⟨[], []⟩ s
  return b.root

end ModuleCompiler.Toml
