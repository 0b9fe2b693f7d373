import ConnectionBroker.Text.Hidden

/-!
# Quoted text

Error messages and the descriptions of tunnels and endpoints show text between double quotation
marks, with quotation marks, backslashes and the usual control characters escaped by a backslash
and every other hidden character written as its hexadecimal code point in braces.
-/

namespace ConnectionBroker.Text

/-- The lower-case hexadecimal digits of a number. -/
def hex (n : Nat) : String :=
  String.ofList (Nat.toDigits 16 n)

/-- How one character is written between quotation marks. -/
def quoteChar (c : Char) : String :=
  match c with
  | '\x00' => "\\0"
  | '\t' => "\\t"
  | '\n' => "\\n"
  | '\r' => "\\r"
  | '"' => "\\\""
  | '\\' => "\\\\"
  | c => if isHidden c then "\\u\x7b" ++ hex c.toNat ++ "\x7d" else String.singleton c

/-- The text between quotation marks, with its escapes. -/
def quote (s : String) : String :=
  "\"" ++ String.join (s.toList.map quoteChar) ++ "\""

end ConnectionBroker.Text
