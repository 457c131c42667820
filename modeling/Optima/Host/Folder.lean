import Optima.Fault
import Optima.Text.Blank

/-!
# Folders of text files

A folder holds files and folders, and a path names one of them by the names on the way to it. Every operation walks
the path first; the walk fails at a name that is not there and at a file that more names follow.
-/

namespace Optima

/-- What a path leads to. -/
inductive Folder.Item where
  | folder
  | file (text : String)
deriving DecidableEq, Repr

/-- Everything in a folder, each item with the names on the way to it. -/
structure Folder where
  items : List (List String × Folder.Item)
deriving DecidableEq, Repr

namespace Folder

def empty : Folder := ⟨[]⟩

/-- The item at a place. The folder itself is at the place without names. -/
def item? (f : Folder) : List String → Option Item
  | [] => some .folder
  | place => f.items.lookup place

/-- Follows names from a place on. -/
def walk (f : Folder) (path : String) (place : List String) : List String → Except FileFault (List String)
  | [] => .ok place
  | name :: rest =>
    match f.item? place with
    | none => .error (.missing path)
    | some (.file _) => .error (.notFolder path)
    | some .folder =>
      if name == "." then f.walk path place rest
      else if name == ".." then f.walk path place.dropLast rest
      else f.walk path (place ++ [name]) rest

def names (path : String) : List String :=
  (Text.runs (· == '/') path.toList).map String.ofList

/-- The place a path leads to; there need not be an item. -/
def locate (f : Folder) (path : String) : Except FileFault (List String) :=
  if path.isEmpty then .error (.missing path) else f.walk path [] (names path)

def namesFolder (path : String) : Bool :=
  path.endsWith "/"

def read (f : Folder) (path : String) : Except FileFault String := do
  match f.item? (← f.locate path) with
  | none => throw (.missing path)
  | some .folder => throw (.isFolder path)
  | some (.file text) => if namesFolder path then throw (.notFolder path) else pure text

def put (f : Folder) (place : List String) (item : Item) : Folder :=
  ⟨(place, item) :: f.items.filter fun (p, _) => p != place⟩

/-- Changes the text of a file; a file that is not there is taken to be empty. -/
def update (f : Folder) (path : String) (g : String → String) : Except FileFault Folder := do
  let place ← f.locate path
  if namesFolder path then throw (.isFolder path)
  match f.item? place with
  | some .folder => throw (.isFolder path)
  | some (.file text) => pure (f.put place (.file (g text)))
  | none => pure (f.put place (.file (g "")))

def write (f : Folder) (path text : String) : Except FileFault Folder :=
  f.update path fun _ => text

/-- Writes at the end of a file. -/
def append (f : Folder) (path text : String) : Except FileFault Folder :=
  f.update path fun old => old ++ text

def copy (f : Folder) (path text : String) : Except FileFault Folder :=
  match f.write path text with
  | .error (.isFolder _) =>
    match f.item? (names path) with
    | some .folder => .error (.isFolder path)
    | _ => .error (.noSuchFolder path)
  | result => result

def makeFolder (f : Folder) (path : String) : Except FileFault Folder := do
  let place ← f.locate path
  if (f.item? place).isSome then throw (.alreadyThere path) else pure (f.put place .folder)

/-- The names of the items in the folder, in order. -/
def contents (f : Folder) : List String :=
  (f.items.filterMap fun (place, _) =>
    match place with
    | [name] => some name
    | _ => none).mergeSort fun a b => decide (a ≤ b)

end Folder

end Optima
