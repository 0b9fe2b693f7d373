import ConnectionBroker.Json.Value

/-!
# JSON documents, read as far as they go

A `Node` is what reading a JSON text finds, down to the place where the text stops being JSON.
There the node is `broken`, and every array and object around it is left unclosed, so that a
decoder that walks the node from left to right meets a fault of the text exactly where a reader
of the text would meet it.

Two things are read without complaint that no value can hold: a string literal with half of a
surrogate pair (`unpaired`) and a number too large for a double (`Number.tooLarge`). A member that
nobody asked for may hold them, as `Node.whole` says; `Node.value?` refuses them.
-/

namespace ConnectionBroker

/-- What was found at one place of a JSON text. -/
inductive Node where
  /-- Reading stopped here. -/
  | broken
  | null
  | bool (b : Bool)
  | number (n : Number)
  | string (s : String)
  /-- A string literal that names half of a surrogate pair. -/
  | unpaired
  /-- Items up to the closing bracket, or up to where reading stopped. -/
  | array (items : List Node) (closed : Bool)
  /-- Names and values up to the closing brace, or up to where reading stopped. -/
  | object (members : List (Node × Node)) (closed : Bool)
  deriving Repr

namespace Number

/-- The bit length up to which a double holds every whole number. -/
def doubleBits : Nat := 53

/-- The whole number rounded to a double, a tie to the even neighbour. -/
def roundToDouble (n : Nat) : Nat :=
  let shift := Nat.log2 n + 1 - doubleBits
  let unit := Nat.pow 2 shift
  let floor := n / unit
  let above := 2 * (n % unit)
  let up := unit < above || (above == unit && floor % 2 == 1)
  (if up then floor + 1 else floor) * unit

/-- The least whole number that rounds to infinity. -/
def firstInfinite : Nat := Nat.pow 2 1024 - Nat.pow 2 970

/-- No double is near the number: it would be infinite. -/
def tooLarge : Number → Bool
  | .int _ => false
  | .decimal _ digits scale =>
    let places := (Nat.toDigits 10 digits).length + scale
    if digits = 0 || places < 309 then false
    else if 310 < places then true
    else if 0 ≤ scale then
      firstInfinite ≤ roundToDouble digits * roundToDouble (Nat.pow 10 scale.toNat)
    else firstInfinite * Nat.pow 10 (-scale).toNat ≤ digits

end Number

namespace Node

mutual

/-- The text held a complete value here. -/
def whole : Node → Bool
  | .broken => false
  | .null => true
  | .bool _ => true
  | .number _ => true
  | .string _ => true
  | .unpaired => true
  | .array items closed => allWhole items && closed
  | .object members closed => membersWhole members && closed
termination_by structural n => n

/-- Every item is complete. -/
def allWhole : List Node → Bool
  | [] => true
  | n :: rest => n.whole && allWhole rest
termination_by structural items => items

/-- Every member is complete. -/
def membersWhole : List (Node × Node) → Bool
  | [] => true
  | m :: rest => memberWhole m && membersWhole rest
termination_by structural members => members

/-- The name and the value are complete. -/
def memberWhole : Node × Node → Bool
  | (name, v) => name.whole && v.whole
termination_by structural member => member

end

mutual

/-- The value of a node, if it has one with at most `depth` containers inside each other. -/
def value? : Nat → Node → Option Json
  | _, .broken => none
  | _, .null => some .null
  | _, .bool b => some (.bool b)
  | _, .number n => if n.tooLarge then none else some (.number n)
  | _, .string s => some (.string s)
  | _, .unpaired => none
  | 0, .array _ _ => none
  | depth + 1, .array items closed =>
    if closed then (itemValues? depth items).map .array else none
  | 0, .object _ _ => none
  | depth + 1, .object members closed =>
    if closed then (memberValues? depth members).map .object else none
termination_by structural _ n => n

/-- The values of the items. -/
def itemValues? : Nat → List Node → Option (List Json)
  | _, [] => some []
  | depth, n :: rest => do
    let v ← value? depth n
    let vs ← itemValues? depth rest
    return v :: vs
termination_by structural _ items => items

/-- The members, in the order of the text, several of one name included. -/
def memberValues? : Nat → List (Node × Node) → Option (List (String × Json))
  | _, [] => some []
  | depth, m :: rest => do
    let v ← memberValue? depth m
    let vs ← memberValues? depth rest
    return v :: vs
termination_by structural _ members => members

/-- One member, if its name is a string. -/
def memberValue? : Nat → Node × Node → Option (String × Json)
  | depth, (.string name, v) => (value? depth v).map (name, ·)
  | _, _ => none
termination_by structural _ member => member

end

mutual

/-- The node that the text of a value is read as. -/
def ofValue : Json → Node
  | .null => .null
  | .bool b => .bool b
  | .number n => .number n
  | .string s => .string s
  | .array items => .array (ofItems items) true
  | .object members => .object (ofMembers members) true
termination_by structural v => v

/-- The nodes of the items. -/
def ofItems : List Json → List Node
  | [] => []
  | v :: rest => ofValue v :: ofItems rest
termination_by structural items => items

/-- The nodes of the members. -/
def ofMembers : List (String × Json) → List (Node × Node)
  | [] => []
  | m :: rest => ofMember m :: ofMembers rest
termination_by structural members => members

/-- The nodes of one member. -/
def ofMember : String × Json → Node × Node
  | (name, v) => (.string name, ofValue v)
termination_by structural member => member

end

end Node

/-- A JSON text: the value it starts with, and whether anything but blanks follows that. -/
structure Document where
  root : Node
  trailing : Bool
  deriving Repr

end ConnectionBroker
