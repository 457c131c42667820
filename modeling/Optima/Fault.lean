import Optima.Text.Quoted

/-!
# Faults

Everything that can go wrong, by cause, and the wording of each. A constructor carries what its wording needs and no
more; `Fault.message` is the only place where a fault is put into words.
-/

namespace Optima

/-- Why a file could not be used. -/
inductive FileFault where
  | missing (path : String)
  | isFolder (path : String)
  | notFolder (path : String)
  | alreadyThere (path : String)
  /-- A copy into a folder that is not there. -/
  | noSuchFolder (path : String)
  /-- A search that was to write a file and wrote none. -/
  | nothingWritten (suffix : String)
deriving DecidableEq, Repr

namespace FileFault

/-- The wording of a file fault: mostly the number and the reason the file system gives, with the path. -/
def message : FileFault → String
  | missing path => "[Errno 2] No such file or directory: " ++ Text.quote path
  | isFolder path => "[Errno 21] Is a directory: " ++ Text.quote path
  | notFolder path => "[Errno 20] Not a directory: " ++ Text.quote path
  | alreadyThere path => "[Errno 17] File exists: " ++ Text.quote path
  | noSuchFolder path => "Directory does not exist: " ++ path
  | nothingWritten suffix => "CBC produced no " ++ suffix ++ " file"

end FileFault

/-- What is wrong with a text of sections and options, or with a reference between options. -/
inductive IniFault where
  /-- A line that comes before the first section. -/
  | noSection (file : String) (line : Nat) (text : String)
  /-- Lines that are neither sections nor options, with their numbers. -/
  | unreadable (file : String) (lines : List (Nat × String))
  | repeatedSection (file : String) (line : Nat) (name : String)
  | repeatedOption (file : String) (line : Nat) (name option : String)
  /-- References that lead on after ten steps. -/
  | tooDeep (option name raw : String)
  /-- A reference to an option that is not there. -/
  | noOption (option name reference raw : String)
  /-- A percent sign that starts neither a reference nor another percent sign. -/
  | strayPercent (rest : String)
  /-- A reference that is not closed. -/
  | openReference (rest : String)
deriving DecidableEq, Repr

namespace IniFault

/-- A number filled up with blanks to two places. -/
def twoPlaces (n : Nat) : String :=
  if n < 10 then " " ++ toString n else toString n

def message : IniFault → String
  | noSection file line text =>
    "File contains no section headers.\nfile: " ++ Text.quote file ++ ", line: " ++ toString line ++ "\n"
      ++ Text.quote text
  | unreadable file lines =>
    lines.foldl (fun s (line, text) => s ++ "\n\t[line " ++ twoPlaces line ++ "]: " ++ Text.quote text)
      ("Source contains parsing errors: " ++ Text.quote file)
  | repeatedSection file line name =>
    "While reading from " ++ Text.quote file ++ " [line " ++ twoPlaces line ++ "]: section " ++ Text.quote name
      ++ " already exists"
  | repeatedOption file line name option =>
    "While reading from " ++ Text.quote file ++ " [line " ++ twoPlaces line ++ "]: option " ++ Text.quote option
      ++ " in section " ++ Text.quote name ++ " already exists"
  | tooDeep option name raw =>
    "Recursion limit exceeded in value substitution: option " ++ Text.quote option ++ " in section "
      ++ Text.quote name ++ " contains an interpolation key which cannot be substituted in 10 steps. Raw value: "
      ++ Text.quote raw
  | noOption option name reference raw =>
    "Bad value substitution: option " ++ Text.quote option ++ " in section " ++ Text.quote name
      ++ " contains an interpolation key " ++ Text.quote reference
      ++ " which is not a valid option name. Raw value: " ++ Text.quote raw
  | strayPercent rest => "'%' must be followed by '%' or '(', found: " ++ Text.quote rest
  | openReference rest => "bad interpolation variable reference " ++ Text.quote rest

end IniFault

/-- The causes of failure. -/
inductive Fault where
  /-- A value of a kind that the operation cannot work with. -/
  | wrongKind
  | notAReal (text : String)
  | notAnInteger (text : String)
  | notAFlag (text : String)
  /-- An integer beyond all finite scalars. -/
  | integerTooLarge
  /-- The integer part of something that is no number. -/
  | integerOfNaN
  | integerOfInfinity
  /-- A value that no member of an enumeration has. -/
  | notAMember (value enumeration : String)
  | unknownVid (vid : Int)
  | unknownKey (key : String)
  | rowNotVariable (vid : Int)
  | variableNotRow (vid : Int)
  | boundIsNaN (vid : Int)
  | boundsCrossed (vid : Int) (lower upper : String)
  | secondGoal
  | unknownProperty (name : String)
  | unknownSetting (name : String)
  | unknownFileKey (key : String)
  /-- A percent sign that a settings file could not give back, at a position of the value without its references. -/
  | unwritable (value : String) (position : Nat)
  | columnOutOfRange (column : Int) (count : Nat)
  | rowOutOfRange (row : Int) (count : Nat)
  | pastEnd
  | emptyModel
  /-- The factory gave no engine; it may have said why. -/
  | noEngineMade (reason : Option String)
  | notSolved
  | nothingToReport
  /-- A failure of an engine or of an observer, in its own words. -/
  | failed (text : String)
  | file (fault : FileFault)
  | ini (fault : IniFault)
  /-- The object asked for is not there. -/
  | absent
deriving DecidableEq, Repr

namespace Fault

def message : Fault → String
  | wrongKind => "the value is of the wrong kind"
  | notAReal text => "could not convert string to float: " ++ Text.quote text
  | notAnInteger text => "invalid literal for int() with base 10: " ++ Text.quote text
  | notAFlag text => "Not a boolean: " ++ text
  | integerTooLarge => "int too large to convert to float"
  | integerOfNaN => "cannot convert float NaN to integer"
  | integerOfInfinity => "cannot convert float infinity to integer"
  | notAMember value enumeration => value ++ " is not a valid " ++ enumeration
  | unknownVid vid => "Unknown vid " ++ toString vid
  | unknownKey key => "Unknown key " ++ key
  | rowNotVariable vid => "vid " ++ toString vid ++ " is a row, not a variable"
  | variableNotRow vid => "vid " ++ toString vid ++ " is a variable, not a row"
  | boundIsNaN vid => "Bounds of vid " ++ toString vid ++ " must not be NaN"
  | boundsCrossed vid lower upper =>
    "Lower bound " ++ lower ++ " exceeds upper bound " ++ upper ++ " for vid " ++ toString vid
  | secondGoal => "There is already a goal added to the model. Only one goal per model is allowed"
  | unknownProperty name => "Property " ++ Text.quote name ++ " is not supported"
  | unknownSetting name => "Engine setting " ++ Text.quote name ++ " is not supported"
  | unknownFileKey key => "Unknown params file key " ++ Text.quote key
  | unwritable value position =>
    "invalid interpolation syntax in " ++ Text.quote value ++ " at position " ++ toString position
  | columnOutOfRange column count => "Column " ++ toString column ++ " out of range 1.." ++ toString count
  | rowOutOfRange row count => "Row " ++ toString row ++ " out of range 1.." ++ toString count
  | pastEnd => "list index out of range"
  | emptyModel => "Cannot solve a model without variables"
  | noEngineMade none => "Could not create the LP engine"
  | noEngineMade (some reason) => "Could not create the LP engine: " ++ reason
  | notSolved => "The solver has no native model; call solve() first"
  | nothingToReport => "There is no solution to report on"
  | failed text => text
  | file fault => fault.message
  | ini fault => fault.message
  | absent => "there is no such object"

end Fault

/-- A computation on a state. It may stop with a fault, and what it has done to the state by then stays done. -/
abbrev Action (σ α : Type) := EStateM Fault σ α

namespace Action

/-- Runs an action on a part of a state. -/
def on {σ τ α : Type} (get : σ → τ) (set : τ → σ → σ) (act : Action τ α) : Action σ α := fun s =>
  match act (get s) with
  | .ok a part => .ok a (set part s)
  | .error fault part => .error fault (set part s)

/-- Runs `act`, and then `last` whether or not `act` stopped with a fault. -/
def finish {σ α : Type} (act : Action σ α) (last : σ → σ) : Action σ α := fun s =>
  match act s with
  | .ok a s => .ok a (last s)
  | .error fault s => .error fault (last s)

/-- The action that has this outcome and leaves the state alone. -/
def lift {σ α : Type} : Except Fault α → Action σ α
  | .ok a => pure a
  | .error fault => throw fault

end Action

end Optima
