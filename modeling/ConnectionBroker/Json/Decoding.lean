import ConnectionBroker.Json.Reader
import ConnectionBroker.Text.Quoted

/-!
# Decoding records from JSON

A record type is decoded by its `Shape`: its title, the record with every default, and its fields
in order, each with a reader that turns a node into an update of the record. `Shape.ofNode` reads
an object by the names of its members or an array by position:

* in an object, members that no field knows are skipped if they are well formed, a field given
  twice is a fault, and a required field that is missing is found at the end;
* in an array, missing fields at the end keep their defaults, unless one of them is required.

The fault reported is the first one met when the text is read from left to right. `Fault` lists
the causes and `Fault.message` words them.
-/

namespace ConnectionBroker

/-- What a decoder found where it expected something else. -/
inductive Found where
  | null
  | bool (b : Bool)
  | integer (n : Int)
  | decimal
  | text (s : String)
  | sequence
  | map
  deriving DecidableEq, Repr

/-- Why a text or a value could not be decoded. -/
inductive Fault where
  | malformed
  | missing (field : String)
  | duplicate (field : String)
  | wrongType (found : Found) (expected : String)
  | wrongValue (found : Found) (expected : String)
  | wrongLength (length : Nat) (expected : String)
  | unknownVariant (name : String) (known : List String)
  deriving DecidableEq, Repr

/-- A name between backquotes. -/
def backquoted (name : String) : String :=
  "\x60" ++ name ++ "\x60"

/-- How a message names what was found. -/
def Found.describe : Found → String
  | .null => "null"
  | .bool b => "boolean " ++ backquoted (if b then "true" else "false")
  | .integer n => "integer " ++ backquoted (toString n)
  | .decimal => "floating point"
  | .text s => "string " ++ Text.quote s
  | .sequence => "sequence"
  | .map => "map"

/-- How a message lists the variants that would have been accepted. -/
def oneOf : List String → String
  | [] => "there are no variants"
  | [a] => "expected " ++ backquoted a
  | [a, b] => "expected " ++ backquoted a ++ " or " ++ backquoted b
  | names => "expected one of " ++ String.intercalate ", " (names.map backquoted)

/-- The wording of a fault. -/
def Fault.message : Fault → String
  | .malformed => "malformed JSON"
  | .missing field => "missing field " ++ backquoted field
  | .duplicate field => "duplicate field " ++ backquoted field
  | .wrongType found expected => "invalid type: " ++ found.describe ++ ", expected " ++ expected
  | .wrongValue found expected => "invalid value: " ++ found.describe ++ ", expected " ++ expected
  | .wrongLength n expected => "invalid length " ++ toString n ++ ", expected " ++ expected
  | .unknownVariant name known => "unknown variant " ++ backquoted name ++ ", " ++ oneOf known

/-- How many containers may lie inside each other in what a decoder looks at. -/
def nestingLimit : Nat := 127

namespace Node

/-- The fault of finding this node where something else was expected. A container is not looked
into; a node that no value comes from is a fault of the text. -/
def mismatch (n : Node) (expected : String) : Fault :=
  match n with
  | .broken => .malformed
  | .unpaired => .malformed
  | .null => .wrongType .null expected
  | .bool b => .wrongType (.bool b) expected
  | .number (.int i) => .wrongType (.integer i) expected
  | .number n => if n.tooLarge then .malformed else .wrongType .decimal expected
  | .string s => .wrongType (.text s) expected
  | .array _ _ => .wrongType .sequence expected
  | .object _ _ => .wrongType .map expected

/-- A string. -/
def text : Node → Except Fault String
  | .string s => .ok s
  | n => .error (n.mismatch "a string")

/-- An unsigned integer of 16 bits. -/
def word16 : Node → Except Fault UInt16
  | .number (.int i) =>
    if 0 ≤ i ∧ i < 65536 then .ok i.toNat.toUInt16 else .error (.wrongValue (.integer i) "u16")
  | n => .error (n.mismatch "u16")

/-- An unsigned integer of 64 bits. -/
def word64 : Node → Except Fault UInt64
  | .number (.int i) =>
    if 0 ≤ i ∧ i < 18446744073709551616 then .ok i.toNat.toUInt64
    else .error (.wrongValue (.integer i) "u64")
  | n => .error (n.mismatch "u64")

/-- One of the named variants, written as a string. -/
def variant {α : Type} (known : List (String × α)) : Node → Except Fault α
  | .string s =>
    match known.lookup s with
    | some a => .ok a
    | none => .error (.unknownVariant s (known.map (·.1)))
  | n => .error (n.mismatch "variant identifier")

/-- A variant without contents: its name as a string, or an object with the name as its only
member and null as the value. -/
def unitVariant {α : Type} (known : List (String × α)) : Nat → Node → Except Fault α
  | _, .string s => variant known (.string s)
  | _ + 1, .object ((name, v) :: rest) closed => do
    let a ← variant known name
    match v with
    | .null => if rest.isEmpty && closed then .ok a else .error .malformed
    | v => .error (v.mismatch "unit")
  | _, _ => .error .malformed

end Node

/-- One field of a record. -/
structure Field (ρ : Type) where
  name : String
  /-- Other names that a member of an object may have for this field. -/
  aliases : List String
  /-- The record has no default for this field. -/
  required : Bool
  /-- The update that a node asks for, with so many containers left to open. -/
  read : Nat → Node → Except Fault (ρ → ρ)

/-- How a record is decoded. -/
structure Shape (ρ : Type) where
  /-- The record as a message names it. -/
  title : String
  /-- The record before any field is read. -/
  blank : ρ
  fields : List (Field ρ)

namespace Field

/-- A field that the record has a default for. -/
def optional {ρ α : Type} (name : String) (read : Node → Except Fault α) (set : α → ρ → ρ) :
    Field ρ :=
  ⟨name, [], false, fun _ n => (read n).map set⟩

/-- A field that has to be given. -/
def needed {ρ α : Type} (name : String) (read : Node → Except Fault α) (set : α → ρ → ρ) :
    Field ρ :=
  ⟨name, [], true, fun _ n => (read n).map set⟩

/-- The field is meant by this name. -/
def knows {ρ : Type} (f : Field ρ) (key : String) : Bool :=
  f.name == key || f.aliases.contains key

end Field

namespace Shape

variable {ρ : Type}

/-- The field that a name means. -/
def field? (shape : Shape ρ) (key : String) : Option (Field ρ) :=
  shape.fields.find? (·.knows key)

/-- The shape as a message about an array of the wrong length names it. -/
def titleWithCount (shape : Shape ρ) : String :=
  let n := shape.fields.length
  shape.title ++ " with " ++ toString n ++ (if n = 1 then " element" else " elements")

/-- The record, once the members are read, if no required field is missing. -/
def finish (shape : Shape ρ) (seen : List String) (r : ρ) : Except Fault ρ :=
  match shape.fields.find? fun f => f.required && !seen.contains f.name with
  | some f => .error (.missing f.name)
  | none => .ok r

/-- Reads the members of an object over a record in which the fields `seen` are set. -/
def ofMembers (shape : Shape ρ) (depth : Nat) (closed : Bool) :
    List (Node × Node) → List String → ρ → Except Fault ρ
  | [], seen, r => if closed then shape.finish seen r else .error .malformed
  | (.string key, v) :: rest, seen, r =>
    match shape.field? key with
    | none => if v.whole then ofMembers shape depth closed rest seen r else .error .malformed
    | some f =>
      if seen.contains f.name then .error (.duplicate f.name)
      else do
        let set ← f.read depth v
        ofMembers shape depth closed rest (f.name :: seen) (set r)
  | _ :: _, _, _ => .error .malformed

/-- Reads the items of an array for the fields from the given position on. -/
def ofItems (shape : Shape ρ) (depth : Nat) (closed : Bool) :
    Nat → List (Field ρ) → List Node → ρ → Except Fault ρ
  | _, [], [], r => if closed then .ok r else .error .malformed
  | _, [], _ :: _, _ => .error .malformed
  | i, f :: fs, [], r =>
    if !closed then .error .malformed
    else if f.required then .error (.wrongLength i shape.titleWithCount)
    else ofItems shape depth closed (i + 1) fs [] r
  | i, f :: fs, n :: ns, r => do
    let set ← f.read depth n
    ofItems shape depth closed (i + 1) fs ns (set r)

/-- Decodes a node with so many containers left to open. -/
def ofNode (shape : Shape ρ) : Nat → Node → Except Fault ρ
  | depth + 1, .object members closed => shape.ofMembers depth closed members [] shape.blank
  | depth + 1, .array items closed => shape.ofItems depth closed 0 shape.fields items shape.blank
  | 0, .object _ _ => .error .malformed
  | 0, .array _ _ => .error .malformed
  | _, n => .error (n.mismatch shape.title)

/-- Decodes a text, which must hold nothing else. -/
def decode (shape : Shape ρ) (text : String) : Except Fault ρ := do
  let document := Document.read text
  let r ← shape.ofNode nestingLimit document.root
  if document.trailing then .error .malformed else .ok r

/-- Decodes a value. Unlike the text of an array, an array with more items than the record has
fields is taken for one of the wrong length, once its fields are read. -/
def ofValue (shape : Shape ρ) : Json → Except Fault ρ
  | .array items => do
    let n := shape.fields.length
    let r ← shape.ofNode nestingLimit (Node.ofValue (.array (items.take n)))
    if n < items.length then .error (.wrongLength items.length "fewer elements in array")
    else .ok r
  | v => shape.ofNode nestingLimit (Node.ofValue v)

end Shape

namespace Json

/-- Reads any value, objects in canonical form. -/
def parse (text : String) : Except Fault Json :=
  let document := Document.read text
  match document.root.value? nestingLimit with
  | some v => if document.trailing then .error .malformed else .ok v.normal
  | none => .error .malformed

end Json

end ConnectionBroker
