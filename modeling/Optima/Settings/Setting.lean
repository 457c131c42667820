import Optima.Value.Basic
import Optima.Settings.Choice

/-!
# Settings of an engine

Each setting has a name, a kind, and the value it starts from. The name is a row of words: an engine is asked for it
with the words in small letters joined by underscores, and a settings file writes the words side by side, each with a
capital letter.
-/

namespace Optima

inductive Setting where
  | antiDegen
  | basisCrash
  | depthLimit
  | floorFirst
  | branchRule
  | breakAtFirst
  | breakAtValue
  | debug
  | epsb
  | epsd
  | epsel
  | epsint
  | epsperturb
  | epspivot
  | improve
  | infinite
  | maxPivot
  | gapAbsolute
  | gapRelative
  | negrange
  | objectiveBound
  | objectiveInBasis
  | pivoting
  | presolve
  | presolveLoops
  | scaleLimit
  | scaling
  | simplexType
  | solutionLimit
  | timeout
  | trace
  | verbose
deriving DecidableEq, Repr

namespace Setting

/-- What a settings file may hold for a setting. -/
inductive Kind where
  | flag
  | whole
  | real
  | simplexType
  | branchMode
  | verbosity
deriving DecidableEq, Repr

def all : List Setting := [
  antiDegen, basisCrash, depthLimit, floorFirst, branchRule, breakAtFirst, breakAtValue, debug, epsb, epsd, epsel,
  epsint, epsperturb, epspivot, improve, infinite, maxPivot, gapAbsolute, gapRelative, negrange, objectiveBound,
  objectiveInBasis, pivoting, presolve, presolveLoops, scaleLimit, scaling, simplexType, solutionLimit, timeout,
  trace, verbose]

def words : Setting → List String
  | antiDegen => ["anti", "degen"]
  | basisCrash => ["basis", "crash"]
  | depthLimit => ["bb", "depth", "limit"]
  | floorFirst => ["bb", "floor", "first"]
  | branchRule => ["bb", "rule"]
  | breakAtFirst => ["break", "at", "first"]
  | breakAtValue => ["break", "at", "value"]
  | debug => ["debug"]
  | epsb => ["epsb"]
  | epsd => ["epsd"]
  | epsel => ["epsel"]
  | epsint => ["epsint"]
  | epsperturb => ["epsperturb"]
  | epspivot => ["epspivot"]
  | improve => ["improve"]
  | infinite => ["infinite"]
  | maxPivot => ["max", "pivot"]
  | gapAbsolute => ["mip", "gap", "abs"]
  | gapRelative => ["mip", "gap", "rel"]
  | negrange => ["negrange"]
  | objectiveBound => ["obj", "bound"]
  | objectiveInBasis => ["obj", "in", "basis"]
  | pivoting => ["pivoting"]
  | presolve => ["presolve"]
  | presolveLoops => ["presolve", "max", "loops"]
  | scaleLimit => ["scale", "limit"]
  | scaling => ["scaling"]
  | simplexType => ["simplex", "type"]
  | solutionLimit => ["solution", "limit"]
  | timeout => ["timeout"]
  | trace => ["trace"]
  | verbose => ["verbose"]

def name (s : Setting) : String :=
  "_".intercalate s.words

def fileKey (s : Setting) : String :=
  String.join (s.words.map String.capitalize)

def ofName? (name : String) : Option Setting :=
  all.find? fun s => s.name == name

def ofFileKey? (key : String) : Option Setting :=
  all.find? fun s => s.fileKey == key

def kind : Setting → Kind
  | breakAtFirst | debug | objectiveInBasis | trace => .flag
  | floorFirst => .branchMode
  | simplexType => .simplexType
  | verbose => .verbosity
  | breakAtValue | epsb | epsd | epsel | epsint | epsperturb | epspivot | infinite | gapAbsolute | gapRelative
  | negrange | objectiveBound | scaleLimit | timeout => .real
  | antiDegen | basisCrash | depthLimit | branchRule | improve | maxPivot | pivoting | presolve | presolveLoops
  | scaling | solutionLimit => .whole

variable {R : Type} [Scalar R]

/-- The size from which on a number counts as infinite, unless an engine is told otherwise. -/
def defaultInfinite : R :=
  Scalar.decimal 1 30

def start : Setting → Value R
  | antiDegen => .integer 37
  | basisCrash => .integer 0
  | depthLimit => .integer (-50)
  | floorFirst => .ofMember BranchMode.ceiling
  | branchRule => .integer 0
  | breakAtFirst => .flag false
  | breakAtValue => .real (-defaultInfinite)
  | debug => .flag false
  | epsb => .real (Scalar.decimal 1 (-10))
  | epsd => .real (Scalar.decimal 1 (-9))
  | epsel => .real (Scalar.decimal 1 (-12))
  | epsint => .real (Scalar.decimal 1 (-7))
  | epsperturb => .real (Scalar.decimal 1 (-5))
  | epspivot => .real (Scalar.decimal 2 (-7))
  | improve => .integer 6
  | infinite => .real defaultInfinite
  | maxPivot => .integer 250
  | gapAbsolute => .real (Scalar.decimal 1 (-11))
  | gapRelative => .real (Scalar.decimal 1 (-9))
  | negrange => .real (-Scalar.decimal 1 (-6))
  | objectiveBound => .real defaultInfinite
  | objectiveInBasis => .flag true
  | pivoting => .integer 34
  | presolve => .integer 0
  | presolveLoops => .integer (-1)
  | scaleLimit => .real (Scalar.decimal 5 0)
  | scaling => .integer 196
  | simplexType => .ofMember SimplexType.dualPrimal
  | solutionLimit => .integer 1
  | timeout => .real Scalar.zero
  | trace => .flag false
  | verbose => .ofMember Verbosity.critical

/-- The settings that are kept, reported and written to files, but that the search has no use for. -/
def unused : List Setting := [
  antiDegen, basisCrash, depthLimit, floorFirst, branchRule, breakAtValue, epsb, epsd, epsel, epsperturb, epspivot,
  improve, maxPivot, negrange, objectiveInBasis, pivoting, presolveLoops, scaleLimit, scaling, solutionLimit]

/-- The words of a flag in a settings file, in small letters. -/
def flagWords : List (String × Bool) := [
  ("1", true), ("yes", true), ("true", true), ("on", true),
  ("0", false), ("no", false), ("false", false), ("off", false)]

def readFlag (s : String) : Except Fault Bool :=
  match flagWords.lookup s.toLower with
  | some b => .ok b
  | none => .error (.notAFlag s)

def readMember (E : Type) [Enumeration E] (s : String) : Except Fault (Value R) := do
  let n ← Value.integerOfText s
  let e ← (Value.integer n : Value R).toMember E
  pure (.ofMember e)

def Kind.read (kind : Kind) (s : String) : Except Fault (Value R) :=
  match kind with
  | .flag => (readFlag s).map .flag
  | .whole => (Value.integerOfText s).map .integer
  | .real => ((Value.text s : Value R).toReal).map .real
  | .simplexType => readMember SimplexType s
  | .branchMode => readMember BranchMode s
  | .verbosity => readMember Verbosity s

end Setting

/-- What every setting is set to. The size from which on a number counts as infinite is a number; the other settings
hold whatever they were given. -/
structure Settings (R : Type) where
  sentinel : R
  /-- The settings other than `infinite`. -/
  others : Setting → Value R

namespace Settings

variable {R : Type} [Scalar R]

/-- The settings of a new engine. -/
def start : Settings R where
  sentinel := Setting.defaultInfinite
  others := Setting.start

def get (s : Settings R) : Setting → Value R
  | .infinite => .real s.sentinel
  | x => s.others x

def set (s : Settings R) (x : Setting) (v : Value R) : Except Fault (Settings R) :=
  match x with
  | .infinite => v.toReal.map fun y => { s with sentinel := y }
  | x => .ok { s with others := fun y => if y = x then v else s.others y }

def byName (s : Settings R) (name : String) : Except Fault (Value R) :=
  match Setting.ofName? name with
  | some x => .ok (s.get x)
  | none => .error (.unknownSetting name)

/-- The simplex algorithms that are set. -/
def simplexType (s : Settings R) : Except Fault SimplexType :=
  (s.get .simplexType).toMember SimplexType

end Settings

end Optima
