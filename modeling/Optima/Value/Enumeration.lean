/-!
# Enumerations

A finite type whose members have names and codes. The codes of an enumeration are all numbers, and then a member may
stand wherever its number may, or all words.
-/

namespace Optima

/-- The code of a member of an enumeration. -/
inductive Code where
  | number (n : Int)
  | word (s : String)
deriving DecidableEq, Repr

structure Member where
  enumeration : String
  label : String
  code : Code
deriving DecidableEq, Repr

/-- A type with finitely many named members. -/
class Enumeration (E : Type) where
  title : String
  members : List E
  label : E → String
  code : E → Code

namespace Enumeration

def member {E : Type} [Enumeration E] (e : E) : Member :=
  ⟨title E, label e, code e⟩

end Enumeration

end Optima
