import Optima.Fault

/-!
# Texts of sections and options

A document has sections in order, each with its options in order. Options of the section `DEFAULT` belong to every
section that has no option of the same name, and are listed after the section's own.
-/

namespace Optima.Ini

/-- Options with their values, in order. -/
abbrev Options := List (String × String)

structure Document where
  defaults : Options
  sections : List (String × Options)
deriving DecidableEq, Repr

/-- The name of the section whose options belong to all. -/
def defaultName : String := "DEFAULT"

/-- The options of `own`, and after them those of `defaults` that `own` does not have. -/
def Options.inherit (own defaults : Options) : Options :=
  own ++ defaults.filter fun (name, _) => (own.lookup name).isNone

namespace Document

/-- The options of a section with those it inherits. -/
def optionsOf? (d : Document) (name : String) : Option Options :=
  if name == defaultName then some d.defaults
  else (d.sections.lookup name).map fun own => Options.inherit own d.defaults

def ofSection (name : String) (options : Options) : Document :=
  if name == defaultName then ⟨options, []⟩ else ⟨[], [(name, options)]⟩

end Document

end Optima.Ini
