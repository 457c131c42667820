/-!
# Blank characters

The characters that stand for empty space, and the two operations that look at nothing else: `strip`, which drops
the blanks at both ends of a text, and `words`, which cuts a text at its runs of blanks. A text is cut in the same way
at characters of any other kind.
-/

namespace Optima.Text

/-- The characters of white space: the spaces of every width, the tabulators, and whatever ends a line, a paragraph
or a record. -/
def isBlank (c : Char) : Bool :=
  let n := c.toNat
  (9 ≤ n && n ≤ 13) || (28 ≤ n && n ≤ 32) || n == 133 || n == 160 || n == 5760 ||
    (8192 ≤ n && n ≤ 8202) || n == 8232 || n == 8233 || n == 8239 || n == 8287 || n == 12288

/-- The blanks a numeral written in ASCII may be surrounded by. -/
def isAsciiBlank (c : Char) : Bool :=
  let n := c.toNat
  (9 ≤ n && n ≤ 13) || n == 32

/-- What is left after its last character that is not in `p`. -/
def dropEndWhile (p : Char → Bool) (s : List Char) : List Char :=
  (s.reverse.dropWhile p).reverse

/-- The text between its first and its last character that is not blank. -/
def strip (s : List Char) : List Char :=
  dropEndWhile isBlank (s.dropWhile isBlank)

/-- The maximal runs of characters that are not in `p`, from left to right; `run` holds the run being read. -/
def runsFrom (p : Char → Bool) (run : List Char) : List Char → List (List Char)
  | [] => if run.isEmpty then [] else [run]
  | c :: rest =>
    if p c then
      if run.isEmpty then runsFrom p [] rest else run :: runsFrom p [] rest
    else runsFrom p (run ++ [c]) rest

/-- The pieces of a text between the characters in `p`, without the empty ones. -/
def runs (p : Char → Bool) (s : List Char) : List (List Char) :=
  runsFrom p [] s

/-- The words of a text: its maximal runs of characters that are not blank. -/
def words (s : List Char) : List (List Char) :=
  runs isBlank s

end Optima.Text
