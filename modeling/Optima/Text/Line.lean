/-!
# Lines

A text cut into its lines. A line ends with a line feed, a carriage return, or the two together; every end counts as
one line feed, and the last line may have none.
-/

namespace Optima.Text

/-- A text in which every line ends with a line feed alone. -/
def normalizeLines : List Char → List Char
  | [] => []
  | '\r' :: '\n' :: rest => '\n' :: normalizeLines rest
  | '\r' :: rest => '\n' :: normalizeLines rest
  | c :: rest => c :: normalizeLines rest

/-- The pieces of a text, each up to and with a line feed; `piece` holds the one being read. -/
def linesFrom (piece : List Char) : List Char → List (List Char)
  | [] => if piece.isEmpty then [] else [piece]
  | '\n' :: rest => (piece ++ ['\n']) :: linesFrom [] rest
  | c :: rest => linesFrom (piece ++ [c]) rest

/-- The lines of a text, each with its line feed. -/
def lines (s : List Char) : List (List Char) :=
  linesFrom [] (normalizeLines s)

end Optima.Text
