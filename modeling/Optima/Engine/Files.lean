import Optima.Engine.Export
import Optima.Engine.Loading
import Optima.Ini.Reader
import Optima.Ini.Reference
import Optima.Ini.Writer

/-!
# Files of an engine

An engine writes its program through the search, its settings as sections and options, and its views. A file that
cannot be written is told to the journal and makes the answer false.
-/

namespace Optima.Engine

variable {R : Type} [Scalar R]

/-! ### Programs -/

/-- The file the search writes for `path`: what it is called after the path, and its text. -/
def writtenProgram (artefact : Artefact) (extension : String) (folder : Folder) (path : String) :
    Except FileFault Folder :=
  match artefact.suffix with
  | none => .error (.nothingWritten extension)
  | some suffix =>
    if (extension ++ suffix).endsWith ".gz" then folder.write path artefact.text else folder.copy path artefact.text

def writeProgram (path extension : String) : Work R Bool := do
  load
  let artefact := (← get).host.artefact
  outside (Host.tryFiles (fun folder => writtenProgram artefact extension folder path) ("Could not write " ++ path))

/-- Writes the program as a linear program. -/
def writeLp (path : String) : Work R Bool :=
  writeProgram path ".lp"

/-- Writes the program in rows and columns. There is one dialect only. -/
def writeMps (path : String) : Work R Bool :=
  writeProgram path ".mps"

/-! ### Settings -/

/-- The section that options name: the word after the first `-H`. -/
def sectionOf (options : String) : String :=
  match ((Text.words options.toList).map String.ofList).dropWhile (· != "-H") with
  | _ :: name :: _ => name
  | _ => "Default"

def settingOptions (e : Engine R) : Ini.Options :=
  Setting.all.map fun s => (s.fileKey, (e.settings.get s).written)

def writeSettings (path options : String) : Work R Bool := do
  let settings := (← get).engine.settingOptions
  settings.forM fun (_, value) =>
    match Ini.strayPercent? value with
    | some position => throw (.unwritable value position)
    | none => pure ()
  let text := (Ini.Document.ofSection (sectionOf options) settings).write
  outside (Host.tryFiles (fun folder => folder.write path text) ("Could not write params file " ++ path))

/-- Sets a setting as an option of a settings file says. -/
def applyOption (name : String) (options : Ini.Options) (option : String × String) : Build R Unit := do
  match Setting.ofFileKey? option.1 with
  | none => throw (.unknownFileKey option.1)
  | some s =>
    match options.value name option.1 option.2 with
    | .error fault => throw (.ini fault)
    | .ok value =>
      let v ← Action.lift (s.kind.read value)
      putSetting s v

/-- Reads settings from a file, out of the section that `options` name. The answer is whether there is such a file
with such a section. -/
def readSettings (path options : String) : Work R Bool := do
  match (← get).host.folder.read path with
  | .error _ => pure false
  | .ok text =>
    match Ini.Document.read path text with
    | .error fault => throw (.ini fault)
    | .ok document =>
      match document.optionsOf? (sectionOf options) with
      | none => pure false
      | some settings =>
        inside (settings.forM (applyOption (sectionOf options) settings))
        pure true

/-! ### Views -/

def writeListing (path : String) : Work R Bool := do
  let text := (← get).engine.listing
  outside (Host.tryFiles (fun folder => folder.write path text) ("Could not write debug dump " ++ path))

def writeData (path : String) (withResults : Bool) : Work R Bool := do
  let text := ((← get).engine.toData withResults).toText
  outside (Host.tryFiles (fun folder => folder.write path text) ("Could not write " ++ path))

/-! ### Exporters -/

/-- The exporters every engine knows. -/
inductive Exporter where
  | lp
  | mps
  | data
deriving DecidableEq, Repr

namespace Exporter

def name : Exporter → String
  | lp => "xli_CPLEX"
  | mps => "xli_MPS"
  | data => "xli_JSON"

def ofName? (s : String) : Option Exporter :=
  [lp, mps, data].find? fun x => x.name == s

end Exporter

def chooseExporter (name : String) : Work R Bool := do
  let s ← get
  if (s.host.exporters.lookup name).isSome || (Exporter.ofName? name).isSome then
    set { s with engine := { s.engine with exporter := some name } }
    pure true
  else pure false

/-- Runs an exporter that every engine knows. Options have to be something that can be looked into. -/
def runExporter (exporter : Exporter) (path : String) (options results : Value R) : Work R Bool :=
  match exporter, options with
  | .lp, _ => writeLp path
  | .data, _ => writeData path results.truth
  | .mps, .text _ | .mps, .list _ => writeMps path
  | .mps, _ => throw .wrongKind

/-- Writes the engine with the exporter that was chosen, and returns what the exporter returns. Exporters that were
registered come first. -/
def exportTo (path : String) (options results : Value R) : Work R (Value R) := do
  let s ← get
  match s.engine.exporter with
  | none => pure (.flag false)
  | some name =>
    match s.host.exporters.lookup name with
    | some value =>
      outside (Host.notify (.exported name path options results))
      pure value
    | none =>
      match Exporter.ofName? name with
      | none => pure (.flag false)
      | some exporter => Value.flag <$> runExporter exporter path options results

end Optima.Engine
