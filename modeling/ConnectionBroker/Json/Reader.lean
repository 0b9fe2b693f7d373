import ConnectionBroker.Json.Document

/-!
# Reading JSON

`Document.read` reads a text into a `Document`. The reader is a function on the characters that
are left: each part returns the node it found and what is left after it, or `none` where reading
stopped inside it. `Document.read` gives it two steps a character and two more, which is more than
any text can use, since every second step takes a character off the text.

Blanks are the space, the tab, the line feed and the carriage return. A number has no sign but a
minus, no zero before another digit, and a digit on either side of its point; it is an integer if
it has neither a fraction nor an exponent and fits 64 bits, signed or unsigned, and a decimal
otherwise, as is a zero with a minus.
-/

namespace ConnectionBroker.Json.Reader

/-- A character that may stand between the tokens. -/
def isSpace (c : Char) : Bool :=
  c = ' ' || c = '\t' || c = '\n' || c = '\r'

/-- The text without the blanks in front. -/
def skipSpace (cs : List Char) : List Char :=
  cs.dropWhile isSpace

/-! ## Strings -/

/-- A part of a string literal: a character, or a 16-bit unit given by its number. -/
inductive Piece where
  | char (c : Char)
  | unit (n : Nat)

/-- The value of a hexadecimal digit of either case. -/
def hexValue? (c : Char) : Option Nat :=
  if '0' ≤ c && c ≤ '9' then some (c.toNat - '0'.toNat)
  else if 'a' ≤ c && c ≤ 'f' then some (c.toNat - 'a'.toNat + 10)
  else if 'A' ≤ c && c ≤ 'F' then some (c.toNat - 'A'.toNat + 10)
  else none

/-- The number written by four hexadecimal digits. -/
def unit? (a b c d : Char) : Option Nat := do
  let a ← hexValue? a
  let b ← hexValue? b
  let c ← hexValue? c
  let d ← hexValue? d
  return ((a * 16 + b) * 16 + c) * 16 + d

/-- The character that a backslash and one letter stand for. -/
def escape? : Char → Option Char
  | '"' => some '"'
  | '\\' => some '\\'
  | '/' => some '/'
  | 'b' => some '\x08'
  | 'f' => some '\x0c'
  | 'n' => some '\n'
  | 'r' => some '\r'
  | 't' => some '\t'
  | _ => none

/-- The pieces up to the closing quotation mark, and what is left after it. -/
def pieces? : List Char → Option (List Piece × List Char)
  | [] => none
  | '"' :: rest => some ([], rest)
  | '\\' :: 'u' :: a :: b :: c :: d :: rest => do
    let n ← unit? a b c d
    let (ps, rest) ← pieces? rest
    return (.unit n :: ps, rest)
  | '\\' :: c :: rest => do
    let c ← escape? c
    let (ps, rest) ← pieces? rest
    return (.char c :: ps, rest)
  | c :: rest =>
    if c.toNat < 0x20 then none
    else do
      let (ps, rest) ← pieces? rest
      return (.char c :: ps, rest)

/-- The unit is the first of a surrogate pair. -/
def isHigh (n : Nat) : Bool :=
  0xd800 ≤ n && n < 0xdc00

/-- The unit is the second of a surrogate pair. -/
def isLow (n : Nat) : Bool :=
  0xdc00 ≤ n && n < 0xe000

/-- The characters of a literal, if every surrogate in it has its partner. -/
def join? : List Piece → Option (List Char)
  | [] => some []
  | .char c :: rest => (join? rest).map (c :: ·)
  | .unit high :: .unit low :: rest =>
    if isHigh high && isLow low then
      (join? rest).map
        (Char.ofNat (0x10000 + (high - 0xd800) * 0x400 + (low - 0xdc00)) :: ·)
    else if isHigh high || isLow high then none
    else (join? (.unit low :: rest)).map (Char.ofNat high :: ·)
  | .unit n :: rest =>
    if isHigh n || isLow n then none else (join? rest).map (Char.ofNat n :: ·)

/-- A string literal after its opening quotation mark. -/
def string (cs : List Char) : Node × Option (List Char) :=
  match pieces? cs with
  | none => (.broken, none)
  | some (ps, rest) =>
    match join? ps with
    | some s => (.string (String.ofList s), some rest)
    | none => (.unpaired, some rest)

/-! ## Numbers -/

/-- The digits in front, and what is left after them. -/
def digits (cs : List Char) : List Char × List Char :=
  (cs.takeWhile Char.isDigit, cs.dropWhile Char.isDigit)

/-- The whole number written by some digits. -/
def natOf (ds : List Char) : Nat :=
  Nat.ofDigitChars 10 ds 0

/-- An integer if the number fits 64 bits, and a decimal otherwise. -/
def wholeNumber (negative : Bool) (n : Nat) : Number :=
  if negative then
    if 0 < n && n ≤ Nat.pow 2 63 then .int (-(n : Int)) else .decimal true n 0
  else
    if n < Nat.pow 2 64 then .int n else .decimal false n 0

/-- The sign and the digits of an exponent after its letter. -/
def exponent? (cs : List Char) : Option (Int × List Char) :=
  let (negative, cs) :=
    match cs with
    | '+' :: rest => (false, rest)
    | '-' :: rest => (true, rest)
    | _ => (false, cs)
  let (ds, rest) := digits cs
  if ds.isEmpty then none
  else some (if negative then -(natOf ds : Int) else natOf ds, rest)

/-- What follows the digits before the point. -/
def fraction? (negative : Bool) (whole : List Char) (cs : List Char) :
    Option (Number × List Char) :=
  match cs with
  | '.' :: rest =>
    let (ds, rest) := digits rest
    if ds.isEmpty then none
    else
      match rest with
      | 'e' :: rest | 'E' :: rest =>
        (exponent? rest).map fun (e, rest) =>
          (.decimal negative (natOf (whole ++ ds)) (e - ds.length), rest)
      | _ => some (.decimal negative (natOf (whole ++ ds)) (-ds.length), rest)
  | 'e' :: rest | 'E' :: rest =>
    (exponent? rest).map fun (e, rest) => (.decimal negative (natOf whole) e, rest)
  | _ => some (wholeNumber negative (natOf whole), cs)

/-- A number after its sign. -/
def unsigned? (negative : Bool) (cs : List Char) : Option (Number × List Char) :=
  match digits cs with
  | ([], _) => none
  | ('0' :: _ :: _, _) => none
  | (whole, rest) => fraction? negative whole rest

/-- A number. -/
def number (cs : List Char) : Node × Option (List Char) :=
  let found :=
    match cs with
    | '-' :: rest => unsigned? true rest
    | _ => unsigned? false cs
  match found with
  | some (n, rest) => (.number n, some rest)
  | none => (.broken, none)

/-! ## Values -/

mutual

/-- One value, blanks in front of it included. -/
def value : Nat → List Char → Node × Option (List Char)
  | 0, _ => (.broken, none)
  | fuel + 1, cs =>
    match skipSpace cs with
    | 'n' :: 'u' :: 'l' :: 'l' :: rest => (.null, some rest)
    | 't' :: 'r' :: 'u' :: 'e' :: rest => (.bool true, some rest)
    | 'f' :: 'a' :: 'l' :: 's' :: 'e' :: rest => (.bool false, some rest)
    | '"' :: rest => string rest
    | '[' :: rest =>
      let (items, after) := firstItem fuel rest
      (.array items after.isSome, after)
    | '\x7b' :: rest =>
      let (members, after) := firstMember fuel rest
      (.object members after.isSome, after)
    | c :: rest => if c = '-' || c.isDigit then number (c :: rest) else (.broken, none)
    | [] => (.broken, none)

/-- The items after an opening bracket. -/
def firstItem : Nat → List Char → List Node × Option (List Char)
  | 0, _ => ([], none)
  | fuel + 1, cs =>
    match skipSpace cs with
    | ']' :: rest => ([], some rest)
    | rest => item fuel rest

/-- One item and those after it. -/
def item : Nat → List Char → List Node × Option (List Char)
  | 0, _ => ([], none)
  | fuel + 1, cs =>
    match value fuel cs with
    | (.broken, _) => ([], none)
    | (n, none) => ([n], none)
    | (n, some rest) =>
      match skipSpace rest with
      | ']' :: rest => ([n], some rest)
      | ',' :: rest =>
        let (ns, after) := item fuel rest
        (n :: ns, after)
      | _ => ([n], none)

/-- The members after an opening brace. -/
def firstMember : Nat → List Char → List (Node × Node) × Option (List Char)
  | 0, _ => ([], none)
  | fuel + 1, cs =>
    match skipSpace cs with
    | '\x7d' :: rest => ([], some rest)
    | rest => member fuel rest

/-- One member and those after it. Something else than a string where a name should stand is
taken as the name of a member without a value. -/
def member : Nat → List Char → List (Node × Node) × Option (List Char)
  | 0, _ => ([], none)
  | fuel + 1, cs =>
    match skipSpace cs with
    | '"' :: rest =>
      match string rest with
      | (name, some rest) =>
        match skipSpace rest with
        | ':' :: rest =>
          match value fuel rest with
          | (n, none) => ([(name, n)], none)
          | (n, some rest) =>
            match skipSpace rest with
            | '\x7d' :: rest => ([(name, n)], some rest)
            | ',' :: rest =>
              let (ms, after) := member fuel rest
              ((name, n) :: ms, after)
            | _ => ([(name, n)], none)
        | _ => ([(name, .broken)], none)
      | (name, none) => ([(name, .broken)], none)
    | rest => ([((value fuel rest).1, .broken)], none)

end

/-- Steps enough to read any text of this many characters. -/
def enough (length : Nat) : Nat :=
  4 * length + 4

end ConnectionBroker.Json.Reader

namespace ConnectionBroker.Document

open Json.Reader

/-- Reads a text. -/
def read (text : String) : Document :=
  let cs := text.toList
  match value (enough cs.length) cs with
  | (root, some rest) => ⟨root, !(skipSpace rest).isEmpty⟩
  | (root, none) => ⟨root, false⟩

end ConnectionBroker.Document
