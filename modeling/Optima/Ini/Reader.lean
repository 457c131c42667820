import Optima.Ini.Document
import Optima.Text.Blank
import Optima.Text.Line

/-!
# Reading sections and options

A document is read line by line. A line is a comment when it starts with `#` or `;`, a section when it is in
brackets, and otherwise an option up to its first `=` or `:` with its value after it. A line that stands further to
the right than the line its option is on continues the option's value, and an empty line is a line of the value, too.

What is neither is remembered and reported when the whole text has been read; a section or an option that is there
already is reported at once.
-/

namespace Optima.Ini

/-- Options whose values are still lists of lines. -/
abbrev OpenOptions := List (String × List (List Char))

/-- What has been read so far. -/
structure Reading where
  defaults : OpenOptions
  sections : List (String × OpenOptions)
  /-- The section being read. -/
  current? : Option String
  /-- The option being read, if a line may continue its value. -/
  option? : Option String
  /-- How far to the right the section or option being read stands. -/
  indent : Nat
  /-- The lines that could not be read, with their numbers. -/
  unreadable : List (Nat × String)
deriving Repr

namespace Reading

def start : Reading := ⟨[], [], none, none, 0, []⟩

def options (r : Reading) : OpenOptions :=
  match r.current? with
  | none => []
  | some name => if name == defaultName then r.defaults else (r.sections.lookup name).getD []

/-- Changes the options of the section being read. -/
def mapOptions (r : Reading) (f : OpenOptions → OpenOptions) : Reading :=
  match r.current? with
  | none => r
  | some name =>
    if name == defaultName then { r with defaults := f r.defaults }
    else { r with sections := r.sections.map fun (n, o) => if n == name then (n, f o) else (n, o) }

def continueValue (r : Reading) (line : List Char) : Reading :=
  match r.option? with
  | none => r
  | some option => r.mapOptions fun o => o.map fun (n, v) => if n == option then (n, v ++ [line]) else (n, v)

def startSection (r : Reading) (file : String) (number : Nat) (name : String) : Except IniFault Reading :=
  if name == defaultName then .ok { r with current? := some name, option? := none }
  else if (r.sections.lookup name).isSome then .error (.repeatedSection file number name)
  else .ok { r with sections := r.sections ++ [(name, [])], current? := some name, option? := none }

/-- Starts an option with the first line of its value. An option without a name cannot be continued. -/
def startOption (r : Reading) (file : String) (number : Nat) (name : String) (value : List Char) :
    Except IniFault Reading :=
  if (r.options.lookup name).isSome then .error (.repeatedOption file number (r.current?.getD "") name)
  else .ok { r.mapOptions (· ++ [(name, [value])]) with option? := if name.isEmpty then none else some name }

def reject (r : Reading) (number : Nat) (line : List Char) : Reading :=
  { r with unreadable := r.unreadable ++ [(number, String.ofList line)] }

end Reading

/-- The name between the brackets of a line that starts with a section. -/
def sectionName? : List Char → Option String
  | '[' :: rest =>
    match rest.reverse.dropWhile (· != ']') with
    | _ :: c :: name => some (String.ofList (c :: name).reverse)
    | _ => none
  | _ => none

/-- Whether a character ends the name of an option. -/
def isDelimiter (c : Char) : Bool :=
  c == '=' || c == ':'

/-- The name of an option and the text after its delimiter. -/
def splitOption? (line : List Char) : Option (List Char × List Char) :=
  match line.dropWhile fun c => !isDelimiter c with
  | [] => none
  | _ :: value => some (Text.dropEndWhile Text.isBlank (line.takeWhile fun c => !isDelimiter c), Text.strip value)

/-- Whether a line without the blanks around it is a comment. -/
def isComment : List Char → Bool
  | '#' :: _ | ';' :: _ => true
  | _ => false

namespace Reading

/-- Reads a line that starts something: a section or an option. -/
def startLine (r : Reading) (file : String) (number : Nat) (line content : List Char) : Except IniFault Reading :=
  match sectionName? content with
  | some name => r.startSection file number name
  | none =>
    if r.current?.isNone then .error (.noSection file number (String.ofList line))
    else match splitOption? content with
      | none => .ok (r.reject number line)
      | some (name, value) =>
        let r := if name.isEmpty then r.reject number line else r
        r.startOption file number (String.ofList name) value

def addLine (r : Reading) (file : String) (number : Nat) (line : List Char) : Except IniFault Reading :=
  let content := Text.strip line
  if isComment content then .ok r
  else if content.isEmpty then .ok (r.continueValue [])
  else
    let indent := (line.takeWhile Text.isBlank).length
    if r.option?.isSome && r.indent < indent then .ok (r.continueValue content)
    else { r with indent := indent }.startLine file number line content

def addLines (r : Reading) (file : String) (number : Nat) : List (List Char) → Except IniFault Reading
  | [] => .ok r
  | line :: rest => do
    let r ← r.addLine file number line
    r.addLines file (number + 1) rest

/-- The options with their values put together from their lines. -/
def close (options : OpenOptions) : Options :=
  options.map fun (name, lines) =>
    (name, String.ofList (Text.dropEndWhile Text.isBlank (List.intercalate ['\n'] lines)))

def document (r : Reading) (file : String) : Except IniFault Document :=
  if r.unreadable.isEmpty then .ok ⟨close r.defaults, r.sections.map fun (name, o) => (name, close o)⟩
  else .error (.unreadable file r.unreadable)

end Reading

/-- Reads a document; `file` is what its faults call the text. -/
def Document.read (file text : String) : Except IniFault Document := do
  let r ← Reading.start.addLines file 1 (Text.lines text.toList)
  r.document file

end Optima.Ini
