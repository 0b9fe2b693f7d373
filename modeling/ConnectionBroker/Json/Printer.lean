import ConnectionBroker.Json.Value

/-!
# Writing JSON

`Json.compact` writes a value without any blank, members in the order in which the object lists
them; `Json.pretty` writes one member or item a line, indented by two spaces a level. Both escape
the quotation mark, the backslash and the control characters below U+0020 and write every other
character as itself.
-/

namespace ConnectionBroker.Json

/-- A decimal whose point would stand further right than this is written with an exponent. -/
def maxPointPlace : Int := 16

/-- A decimal with this many zeros after its point, or more, is written with an exponent. -/
def minPointPlace : Int := -5

/-- The hexadecimal digits of a control character, two places. -/
def twoHexDigits (n : Nat) : List Char :=
  [Nat.digitChar (n / 16), Nat.digitChar (n % 16)]

/-- How one character of a string is written. -/
def escapeChar (c : Char) : List Char :=
  match c with
  | '"' => ['\\', '"']
  | '\\' => ['\\', '\\']
  | '\x08' => ['\\', 'b']
  | '\t' => ['\\', 't']
  | '\n' => ['\\', 'n']
  | '\x0c' => ['\\', 'f']
  | '\r' => ['\\', 'r']
  | c => if c.toNat < 0x20 then ['\\', 'u', '0', '0'] ++ twoHexDigits c.toNat else [c]

/-- A string between quotation marks. -/
def stringChars (s : String) : List Char :=
  '"' :: (s.toList.flatMap escapeChar ++ ['"'])

/-- The decimal digits of a whole number. -/
def intChars (n : Int) : List Char :=
  if n < 0 then '-' :: Nat.toDigits 10 n.natAbs else Nat.toDigits 10 n.natAbs

/-- The digits without the zeros at their end, and how many zeros those were. -/
def stripZeros (digits : List Char) : List Char × Nat :=
  let stripped := (digits.reverse.dropWhile (· == '0')).reverse
  (stripped, digits.length - stripped.length)

/-- A decimal without a sign. It keeps its point, so that it reads back as a decimal. -/
def decimalChars (digits : Nat) (scale : Int) : List Char :=
  if digits = 0 then ['0', '.', '0'] else
  let (cs, zeros) := stripZeros (Nat.toDigits 10 digits)
  let scale := scale + zeros
  let place := cs.length + scale
  if 0 ≤ scale && place ≤ maxPointPlace then
    cs ++ List.replicate scale.toNat '0' ++ ['.', '0']
  else if 0 < place && place ≤ maxPointPlace then
    cs.take place.toNat ++ '.' :: cs.drop place.toNat
  else if minPointPlace < place && place ≤ 0 then
    ['0', '.'] ++ List.replicate (-place).toNat '0' ++ cs
  else
    cs.take 1 ++ (if cs.length = 1 then [] else '.' :: cs.drop 1) ++ 'e' :: intChars (place - 1)

/-- A number. -/
def numberChars : Number → List Char
  | .int n => intChars n
  | .decimal negative digits scale =>
    if negative then '-' :: decimalChars digits scale else decimalChars digits scale

mutual

/-- The value without any blank. -/
def compactChars : Json → List Char
  | .null => ['n', 'u', 'l', 'l']
  | .bool true => ['t', 'r', 'u', 'e']
  | .bool false => ['f', 'a', 'l', 's', 'e']
  | .number n => numberChars n
  | .string s => stringChars s
  | .array [] => ['[', ']']
  | .array (v :: rest) => '[' :: (v.compactChars ++ compactItems rest)
  | .object [] => ['\x7b', '\x7d']
  | .object (m :: rest) => '\x7b' :: (compactMember m ++ compactMembers rest)
termination_by structural v => v

/-- The items after the first, each behind a comma, and the closing bracket. -/
def compactItems : List Json → List Char
  | [] => [']']
  | v :: rest => ',' :: (v.compactChars ++ compactItems rest)
termination_by structural items => items

/-- The members after the first, each behind a comma, and the closing brace. -/
def compactMembers : List (String × Json) → List Char
  | [] => ['\x7d']
  | m :: rest => ',' :: (compactMember m ++ compactMembers rest)
termination_by structural members => members

/-- One member. -/
def compactMember : String × Json → List Char
  | (name, v) => stringChars name ++ ':' :: v.compactChars
termination_by structural member => member

end

/-- A line break and the indentation of a level. -/
def newline (level : Nat) : List Char :=
  '\n' :: List.replicate (2 * level) ' '

mutual

/-- The value with one item or member a line. -/
def prettyChars : Nat → Json → List Char
  | _, .null => ['n', 'u', 'l', 'l']
  | _, .bool true => ['t', 'r', 'u', 'e']
  | _, .bool false => ['f', 'a', 'l', 's', 'e']
  | _, .number n => numberChars n
  | _, .string s => stringChars s
  | _, .array [] => ['[', ']']
  | level, .array (v :: rest) =>
    '[' :: (newline (level + 1) ++ prettyChars (level + 1) v ++ prettyItems level rest)
  | _, .object [] => ['\x7b', '\x7d']
  | level, .object (m :: rest) =>
    '\x7b' :: (newline (level + 1) ++ prettyMember (level + 1) m ++ prettyMembers level rest)
termination_by structural _ v => v

/-- The items after the first, each behind a comma on a line of its own, and the end. -/
def prettyItems : Nat → List Json → List Char
  | level, [] => newline level ++ [']']
  | level, v :: rest =>
    ',' :: (newline (level + 1) ++ prettyChars (level + 1) v ++ prettyItems level rest)
termination_by structural _ items => items

/-- The members after the first, each behind a comma on a line of its own, and the end. -/
def prettyMembers : Nat → List (String × Json) → List Char
  | level, [] => newline level ++ ['\x7d']
  | level, m :: rest =>
    ',' :: (newline (level + 1) ++ prettyMember (level + 1) m ++ prettyMembers level rest)
termination_by structural _ members => members

/-- One member, a space after its colon. -/
def prettyMember : Nat → String × Json → List Char
  | level, (name, v) => stringChars name ++ [':', ' '] ++ prettyChars level v
termination_by structural _ member => member

end

/-- The compact text of a value. -/
def compact (v : Json) : String :=
  String.ofList v.compactChars

/-- The indented text of a value, without a line break at its end. -/
def pretty (v : Json) : String :=
  String.ofList (prettyChars 0 v)

end ConnectionBroker.Json
