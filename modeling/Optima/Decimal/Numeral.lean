import Optima.Text.Blank
import Optima.Text.Digit

/-!
# Numerals

What a text has to look like to be read as a number. Blanks around it are dropped, the digits of any script count,
and a single underscore may stand between two digits. An integer is a run of digits with an optional sign; a real is
a decimal fraction with an optional exponent, or one of the words for infinity and for no number.
-/

namespace Optima.Decimal

/-- A real number as it is written. -/
inductive Numeral where
  | nan
  | infinity (negative : Bool)
  /-- `± digits * 10 ^ exponent` -/
  | decimal (negative : Bool) (digits : Nat) (exponent : Int)
deriving DecidableEq, Repr

namespace Numeral

/-- Brings the digits and blanks of all scripts to ASCII. A text that is in ASCII already is left as it is. -/
def normalize (s : List Char) : List Char :=
  if Text.isAscii s then s
  else s.map fun c =>
    match Text.digitValue? c with
    | some d => Text.digitChar d
    | none => if Text.isBlank c then ' ' else c

/-- Drops the blanks around a numeral. -/
def trimBlanks (s : List Char) : List Char :=
  Text.dropEndWhile Text.isAsciiBlank (s.dropWhile Text.isAsciiBlank)

/-- Drops the underscores of a text, each of which has to stand between two digits. The flag says whether the
character before was a digit. -/
def joinDigits? (afterDigit : Bool) : List Char → Option (List Char)
  | [] => some []
  | ['_'] => none
  | '_' :: c :: rest =>
    if afterDigit && (Text.asciiDigit? c).isSome then (joinDigits? true rest).map (c :: ·) else none
  | c :: rest => (joinDigits? (Text.asciiDigit? c).isSome rest).map (c :: ·)

/-- The number a run of digits stands for. -/
def valueOf (digits : List Char) : Nat :=
  digits.foldl (fun n c => 10 * n + (Text.asciiDigit? c).getD 0) 0

/-- Splits off the digits a text starts with. -/
def spanDigits (s : List Char) : List Char × List Char :=
  (s.takeWhile fun c => (Text.asciiDigit? c).isSome, s.dropWhile fun c => (Text.asciiDigit? c).isSome)

/-- Splits off a sign; the flag is set for a minus. -/
def splitSign : List Char → Bool × List Char
  | '-' :: rest => (true, rest)
  | '+' :: rest => (false, rest)
  | s => (false, s)

/-- Reads what follows the digits of a decimal fraction: nothing, or an exponent. -/
def readExponent? : List Char → Option Int
  | [] => some 0
  | e :: rest =>
    if e.toLower == 'e' then
      let (negative, digits) := splitSign rest
      match spanDigits digits with
      | ([], _) => none
      | (power, []) => some (if negative then -(valueOf power : Int) else valueOf power)
      | _ => none
    else none

/-- Reads an unsigned decimal fraction: digits, a point and digits, at least one digit in all, and an exponent. -/
def readFraction? (negative : Bool) (s : List Char) : Option Numeral :=
  let (whole, rest) := spanDigits s
  let (places, rest) := match rest with
    | '.' :: more => spanDigits more
    | _ => ([], rest)
  if whole.isEmpty && places.isEmpty then none
  else (readExponent? rest).map fun e => .decimal negative (valueOf (whole ++ places)) (e - places.length)

/-- Reads a real that is in ASCII and has neither blanks around it nor underscores. -/
def readPlain? (s : List Char) : Option Numeral :=
  let (negative, body) := splitSign s
  let word := String.ofList (body.map Char.toLower)
  if word == "inf" || word == "infinity" then some (.infinity negative)
  else if word == "nan" then some .nan
  else readFraction? negative body

/-- Reads a real number. -/
def read? (s : String) : Option Numeral :=
  (joinDigits? false (trimBlanks (normalize s.toList))).bind readPlain?

end Numeral

def readInteger? (s : String) : Option Int :=
  let (negative, body) := Numeral.splitSign (Numeral.trimBlanks (Numeral.normalize s.toList))
  match body with
  | [] => none
  | c :: _ =>
    if (Text.asciiDigit? c).isNone then none
    else match Numeral.joinDigits? false body with
      | none => none
      | some joined =>
        match Numeral.spanDigits joined with
        | (digits, []) => some (if negative then -(Numeral.valueOf digits : Int) else Numeral.valueOf digits)
        | _ => none

end Optima.Decimal
