import Optima.Ini.Document

/-!
# Writing sections and options

Each section starts with its name in brackets and ends with an empty line. Each option is on a line with its value,
and the further lines of a value are indented.
-/

namespace Optima.Ini

def indentLines (value : List Char) : List Char :=
  value.flatMap fun c => if c == '\n' then ['\n', '\t'] else [c]

def writeOption (name value : String) : List Char :=
  name.toList ++ " = ".toList ++ indentLines value.toList ++ ['\n']

def writeSection (name : String) (options : Options) : List Char :=
  '[' :: name.toList ++ "]\n".toList ++ options.flatMap (fun (n, v) => writeOption n v) ++ ['\n']

def Document.write (d : Document) : String :=
  String.ofList ((if d.defaults.isEmpty then [] else writeSection defaultName d.defaults)
    ++ d.sections.flatMap fun (name, options) => writeSection name options)

end Optima.Ini
