/-
  The output of a compilation: a target line, then functions, each a header and a line
  that returns and closes it. The output only grows at its end, so it is kept as the list
  of what was written, and its text is the texts of these one after the other.
-/

namespace ModuleCompiler

/-- One piece of output, which is never split. -/
inductive IR.Piece where
  | target (triple : String)
  | header (representation name : String)
  | ret (representation : String) (value : Int32)
  | retVoid
  deriving DecidableEq, Repr

namespace IR.Piece

/-- The text of the piece, line ends included. -/
def text : IR.Piece → String
  | target triple => "target triple = \"" ++ triple ++ "\"\n\n"
  | header representation name =>
    "define " ++ representation ++ " @" ++ name ++ "() \x7b\nentry:\n"
  | ret representation value =>
    "\tret " ++ representation ++ " " ++ toString value.toInt ++ "\n\x7d\n\n"
  | retVoid => "\tret void\n\x7d\n\n"

end IR.Piece

/-- The pieces written so far, in order. -/
abbrev IR := List IR.Piece

namespace IR

/-- The whole text. -/
def text (ir : IR) : String :=
  String.join (ir.map Piece.text)

theorem join_foldl (acc : String) (ss : List String) :
    ss.foldl (· ++ ·) acc = acc ++ String.join ss := by
  unfold String.join
  induction ss generalizing acc with
  | nil => simp
  | cons s ss ih => rw [List.foldl_cons, ih, List.foldl_cons, ih ("" ++ s)]; simp [String.append_assoc]

theorem text_append (a b : IR) : IR.text (a ++ b) = a.text ++ b.text := by
  unfold IR.text
  rw [List.map_append, String.join, List.foldl_append, join_foldl]
  rfl

end IR

end ModuleCompiler
