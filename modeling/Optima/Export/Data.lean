import Optima.Value.Basic

/-!
# Plain data

Trees of plain values, and the text of a tree in which every item is on a line of its own, indented by two blanks for
each level. Characters outside of ASCII are written as escapes of their 16-bit units.
-/

namespace Optima

inductive Data (R : Type) where
  | nothing
  | flag (b : Bool)
  | integer (n : Int)
  | real (x : R)
  | text (s : String)
  | list (items : List (Data R))
  | record (fields : List (String × Data R))
deriving Repr, Inhabited

namespace Data

variable {R : Type} [Scalar R]

/-- A sum. -/
def ofTotal : Total R → Data R
  | .nothing => .integer 0
  | .scalar x => .real x

def unitEscape (n : Nat) : List Char :=
  '\\' :: 'u' :: Text.hex 4 n

/-- A character between double quotes. -/
def escapeChar (c : Char) : List Char :=
  let n := c.toNat
  if c == '"' || c == '\\' then ['\\', c]
  else if c == '\n' then ['\\', 'n']
  else if c == '\r' then ['\\', 'r']
  else if c == '\t' then ['\\', 't']
  else if n == 8 then ['\\', 'b']
  else if n == 12 then ['\\', 'f']
  else if 32 ≤ n && n < 127 then [c]
  else if n < 65536 then unitEscape n
  else unitEscape (55296 + (n - 65536) / 1024) ++ unitEscape (56320 + (n - 65536) % 1024)

/-- A text between double quotes. -/
def quoted (s : String) : String :=
  String.ofList ('"' :: s.toList.flatMap escapeChar ++ ['"'])

/-- A scalar; infinities and what is no number are words. -/
def scalarText (x : R) : String :=
  match Scalar.exact x with
  | .nan => "NaN"
  | .posInf => "Infinity"
  | .negInf => "-Infinity"
  | .rat _ => Scalar.text x

def newLine (level : Nat) : String :=
  "\n" ++ String.ofList (List.replicate (2 * level) ' ')

/-- Items between brackets, each on a line of its own. -/
def bracketed (opening closing : String) (level : Nat) (items : List String) : String :=
  if items.isEmpty then opening ++ closing
  else opening ++ newLine (level + 1) ++ (("," ++ newLine (level + 1)).intercalate items) ++ newLine level ++ closing

def textAt (level : Nat) : Data R → String
  | .nothing => "null"
  | .flag b => if b then "true" else "false"
  | .integer n => toString n
  | .real x => scalarText x
  | .text s => quoted s
  | .list items => bracketed "[" "]" level (listAt (level + 1) items)
  | .record fields => bracketed "\x7b" "\x7d" level (fieldsAt (level + 1) fields)
where
  /-- The texts of the items of a list. -/
  listAt (level : Nat) : List (Data R) → List String
    | [] => []
    | d :: rest => textAt level d :: listAt level rest
  /-- The texts of the fields of a record. -/
  fieldsAt (level : Nat) : List (String × Data R) → List String
    | [] => []
    | (name, d) :: rest => (quoted name ++ ": " ++ textAt level d) :: fieldsAt level rest

def toText (d : Data R) : String :=
  textAt 0 d

end Data

end Optima
