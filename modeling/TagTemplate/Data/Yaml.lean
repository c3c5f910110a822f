import TagTemplate.Data
import TagTemplate.Data.YamlScalar

/-!
# Data in YAML

Data is written in block style. The fields of a record stand below each other in one column;
a record inside a record is indented by two, the items of a list stand in the column of the
key they belong to. Numbers are plain, a single character is always between single quotes, and
strings are written as `TagTemplate.Data.YamlScalar` says.
-/

namespace TagTemplate.Yaml

/-- Doubles in YAML: positional with at most sixteen digits in front of the point or at most four
zeros right behind it, otherwise with an exponent, which shows no plus sign. -/
def numberStyle : NumberStyle where
  tie := .even
  positional := fun point => decide (-5 < point) && decide (point ≤ 16)
  wholeSuffix := ".0"
  exponentPlus := ""
  nan := ".nan"
  infinity := ".inf"

/-- The indentation of a column. -/
def column (n : Nat) : String := String.ofList (blanks n)

mutual

/-- What stands behind the key or the dash of a value in a column, up to the end of its last
line. -/
def value (col : Nat) : Data → String
  | .null => " null\n"
  | .integer n => " " ++ Int.repr n ++ "\n"
  | .double x => " " ++ numberStyle.render x ++ "\n"
  | .char c => " '" ++ String.singleton c ++ "'\n"
  | .string s => " " ++ scalar (col + 2) s
  | .list [] => " []\n"
  | .list (x :: xs) => "\n" ++ column col ++ "-" ++ item col x ++ moreItems col xs
  | .record [] => " \x7b\x7d\n"
  | .record ((key, x) :: fields) =>
    "\n" ++ column (col + 2) ++ key ++ ":" ++ value (col + 2) x ++ moreFields (col + 2) fields

/-- What stands behind the dash of an item; a record begins right there. -/
def item (col : Nat) : Data → String
  | .record ((key, x) :: fields) =>
    " " ++ key ++ ":" ++ value (col + 2) x ++ moreFields (col + 2) fields
  | .record [] => " \x7b\x7d\n"
  | .list [] => " []\n"
  | .list (x :: xs) => " -" ++ item (col + 2) x ++ moreItems (col + 2) xs
  | .null => " null\n"
  | .integer n => " " ++ Int.repr n ++ "\n"
  | .double x => " " ++ numberStyle.render x ++ "\n"
  | .char c => " '" ++ String.singleton c ++ "'\n"
  | .string s => " " ++ scalar (col + 2) s

/-- The items of a list behind its first. -/
def moreItems (col : Nat) : List Data → String
  | [] => ""
  | x :: xs => column col ++ "-" ++ item col x ++ moreItems col xs

/-- The fields of a record behind its first. -/
def moreFields (col : Nat) : List (String × Data) → String
  | [] => ""
  | (key, x) :: fields => column col ++ key ++ ":" ++ value col x ++ moreFields col fields

end

/-- A record as a whole document. -/
def document (fields : List (String × Data)) : String := moreFields 0 fields

end TagTemplate.Yaml
