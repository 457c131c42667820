import Optima.Report.Details

/-!
# All enumerations

The members of all enumerations that a caller may name.
-/

namespace Optima

def membersOf (E : Type) [Enumeration E] : List Member :=
  (Enumeration.members (E := E)).map Enumeration.member

def allMembers : List Member :=
  membersOf SosType ++ membersOf ValueState ++ membersOf SimplexType ++ membersOf BranchMode ++ membersOf Verbosity
    ++ membersOf Relation ++ membersOf Verdict ++ membersOf Message ++ membersOf LinearResult
    ++ membersOf SolutionQuality ++ membersOf Phase ++ membersOf ReportKind ++ membersOf SimplexAlgorithm

/-- The member with this name, which is that of its enumeration, a point and its own. -/
def namedMember? (name : String) : Option Member :=
  allMembers.find? fun m => m.enumeration ++ "." ++ m.label == name

def memberOf {R : Type} [Scalar R] (enumeration : String) (v : Value R) : Except Fault Member :=
  match allMembers.find? fun m => m.enumeration == enumeration && (v.same (.member m) || v.same (.ofCode m.code)) with
  | some m => .ok m
  | none => .error (.notAMember v.shown enumeration)

/-- The label of what a value names in an enumeration. A mask of messages may be any whole number. -/
def labelOf {R : Type} [Scalar R] (enumeration : String) (v : Value R) : Except Fault (Option String) :=
  match enumeration == Enumeration.title Message, v.number? with
  | true, some (.rat q) =>
    if q.den = 1 then .ok (Message.maskLabel q.num) else .error (.notAMember v.shown enumeration)
  | _, _ => (memberOf enumeration v).map fun m => some m.label

end Optima
