import ConnectionBroker.Errno
import ConnectionBroker.Files.Path

/-!
# Trees of files

A `Tree` holds files, directories and symbolic links by their location, the list of names that
leads to them from the root. `Tree.walk` follows a path to a location: link by link, up to
`maxLinks` of them, and with the error that a walk ends with when a name is missing or too long,
when a file is taken for a directory, or when links lead in a circle.

The operations are those of the system: `Tree.stat`, `Tree.makeDir`, `Tree.removeDir`,
`Tree.unlink`, `Tree.link`, and reading and writing a file. A path that ends in a slash, or in a
dot, is a directory to all of them.
-/

namespace ConnectionBroker.Files

/-- What is at a location. -/
inductive Node where
  | file (content : ByteArray)
  | dir
  /-- A symbolic link with the path that it stands for. -/
  | link (target : Path)

/-- The names that lead to something from the root. -/
abbrev Location := List String

/-- Files, directories and symbolic links. -/
structure Tree where
  /-- What is at each location but the root. -/
  nodes : List (Location × Node)
  /-- The directory where relative paths start. -/
  workingDir : Location

/-- Why an operation on files failed. -/
inductive FileError where
  | system (e : Errno)
  /-- The path holds a character that no path can hold. -/
  | nulByte
  /-- The content is not text. -/
  | notText
  deriving DecidableEq, Repr

/-- The wording of a failed operation. -/
def FileError.message : FileError → String
  | system e => e.message
  | nulByte => "file name contained an unexpected NUL byte"
  | notText => "stream did not contain valid UTF-8"

/-- The error says that there is nothing of that name. -/
def FileError.isAbsence : FileError → Bool
  | system e => e == .noEntry
  | _ => false

/-- The links that one walk may follow. -/
def maxLinks : Nat := 40

/-- The longest name, in bytes. -/
def maxName : Nat := 255

/-- The longest path, in bytes. -/
def maxPath : Nat := 4095

/-- What a walk does about a link under the last name. -/
inductive Follow where
  | never
  /-- It follows the link if the path ends in a slash. -/
  | ifSlash
  | always
  deriving DecidableEq, Repr

/-- The last name of a path. -/
inductive Last where
  | root
  | dot
  | up
  | name
  deriving DecidableEq, Repr

/-- Where a walk has led. -/
structure Spot where
  location : Location
  last : Last
  /-- The path ended in a slash. -/
  slash : Bool
  deriving DecidableEq, Repr

namespace Tree

/-- A tree with nothing in it but the working directory. -/
def empty (workingDir : Location) : Tree :=
  ⟨(List.range workingDir.length).map fun i => (workingDir.take (i + 1), .dir), workingDir⟩

/-- What is at a location. The root is a directory. -/
def get? (t : Tree) (l : Location) : Option Node :=
  if l.isEmpty then some .dir else t.nodes.lookup l

/-- Takes out what is at a location. -/
def erase (t : Tree) (l : Location) : Tree :=
  { t with nodes := t.nodes.filter (·.1 != l) }

/-- Puts something at a location, in place of what was there. -/
def put (t : Tree) (l : Location) (n : Node) : Tree :=
  { t with nodes := (t.erase l).nodes ++ [(l, n)] }

/-- One location lies below another. -/
def below (l m : Location) : Bool :=
  l.isPrefixOf m && l != m

/-- Takes out all that lies below a location. -/
def clear (t : Tree) (l : Location) : Tree :=
  { t with nodes := t.nodes.filter fun row => !below l row.1 }

/-- Something lies below a location. -/
def hasBelow (t : Tree) (l : Location) : Bool :=
  t.nodes.any fun row => below l row.1

/-! ## Walking -/

/-- Follows names from a directory, with so many links left to follow. `slash` says that the path
ends in a slash. -/
def walk (t : Tree) (follow : Follow) :
    Nat → Location → List String → Last → Bool → Except Errno Spot
  | _, dir, [], last, slash => .ok ⟨dir, last, slash⟩
  | links, dir, name :: rest, _, slash =>
    if name = "." then walk t follow links dir rest .dot slash
    else if name = ".." then walk t follow links dir.dropLast rest .up slash
    else if maxName < name.utf8ByteSize then .error .nameTooLong
    else
      let here := dir ++ [name]
      match t.get? here with
      | some (.link target) =>
        if rest.isEmpty && (follow == .never || (follow == .ifSlash && !slash)) then
          .ok ⟨here, .name, slash⟩
        else
          match links with
          | 0 => .error .tooManyLinks
          | links + 1 =>
            let start := if target.isAbsolute then [] else dir
            walk t follow links start (target.names ++ rest) .root
              (slash || (rest.isEmpty && target.endsInSlash))
      | some .dir =>
        if rest.isEmpty then .ok ⟨here, .name, slash⟩
        else walk t follow links here rest .name slash
      | some (.file _) =>
        if rest.isEmpty then .ok ⟨here, .name, slash⟩ else .error .notDirectory
      | none => if rest.isEmpty then .ok ⟨here, .name, slash⟩ else .error .noEntry
termination_by links _ names => (links, names.length)

/-- Follows a path. -/
def find (t : Tree) (follow : Follow) (p : Path) : Except FileError Spot :=
  if p.hasNul then .error .nulByte
  else if p = "" then .error (.system .noEntry)
  else if maxPath < p.utf8ByteSize then .error (.system .nameTooLong)
  else
    let start := if p.isAbsolute then [] else t.workingDir
    (walk t follow maxLinks start p.names .root p.endsInSlash).mapError .system

/-- What is at a spot. A path that ends in a slash is a directory. -/
def nodeAt (t : Tree) (s : Spot) : Except FileError Node :=
  match t.get? s.location with
  | none => .error (.system .noEntry)
  | some .dir => .ok .dir
  | some n => if s.slash then .error (.system .notDirectory) else .ok n

/-- What a path leads to; links are followed as asked. -/
def stat (t : Tree) (follow : Follow) (p : Path) : Except FileError (Spot × Node) := do
  let spot ← t.find follow p
  let node ← t.nodeAt spot
  return (spot, node)

/-- The path leads to a directory. -/
def isDir (t : Tree) (p : Path) : Bool :=
  match t.stat .always p with
  | .ok (_, .dir) => true
  | _ => false

/-! ## Changing -/

/-- Makes a directory. -/
def makeDir (t : Tree) (p : Path) : Except FileError Tree := do
  let spot ← t.find .never p
  match spot.last, t.get? spot.location with
  | .name, none => .ok (t.put spot.location .dir)
  | _, _ => .error (.system .alreadyThere)

/-- Makes a symbolic link. -/
def link (t : Tree) (target p : Path) : Except FileError Tree := do
  if target.hasNul then .error .nulByte
  else if target = "" then .error (.system .noEntry)
  else
    let spot ← t.find .never p
    match spot.last, t.get? spot.location with
    | .name, none =>
      if spot.slash then .error (.system .noEntry) else .ok (t.put spot.location (.link target))
    | _, _ => .error (.system .alreadyThere)

/-- Takes out an empty directory. -/
def removeDir (t : Tree) (p : Path) : Except FileError Tree := do
  let spot ← t.find .never p
  match spot.last with
  | .root => .error (.system .busy)
  | .dot => .error (.system .invalid)
  | .up => .error (.system .notEmpty)
  | .name =>
    match t.get? spot.location with
    | none => .error (.system .noEntry)
    | some .dir =>
      if t.hasBelow spot.location then .error (.system .notEmpty)
      else .ok (t.erase spot.location)
    | some _ => .error (.system .notDirectory)

/-- Takes out a file or a link. -/
def unlink (t : Tree) (p : Path) : Except FileError Tree := do
  let spot ← t.find .never p
  match spot.last, t.get? spot.location with
  | .name, none => .error (.system .noEntry)
  | .name, some .dir => .error (.system .isDirectory)
  | .name, some _ =>
    if spot.slash then .error (.system .notDirectory) else .ok (t.erase spot.location)
  | _, _ => .error (.system .isDirectory)

/-! ## Whole trees -/

/-- Makes a directory that may be there already. -/
def ensureDir (t : Tree) (p : Path) : Except FileError Unit × Tree :=
  match t.makeDir p with
  | .ok t => (.ok (), t)
  | .error e => (if t.isDir p then .ok () else .error e, t)

/-- Makes a directory and the directories above it that are missing; `fuel` exceeds the number of
names in the path. Those that were made stay even where the operation fails at last. -/
def makeDirsWith : Nat → Tree → Path → Except FileError Unit × Tree
  | 0, t, _ => (.error (.system .invalid), t)
  | fuel + 1, t, p =>
    if p = "" then (.ok (), t)
    else
      match t.makeDir p with
      | .ok t => (.ok (), t)
      | .error e =>
        match if e.isAbsence then p.parent? else none with
        | some parent =>
          match makeDirsWith fuel t parent with
          | (.ok (), t) => t.ensureDir p
          | (.error e, t) => (.error e, t)
        | none => (if t.isDir p then .ok () else .error e, t)

/-- Makes a directory and the directories above it that are missing. -/
def makeDirs (t : Tree) (p : Path) : Except FileError Unit × Tree :=
  makeDirsWith (p.names.length + 2) t p

/-- Takes out a directory with all that is below it; links are taken out and not followed. The
tree is changed even where the operation fails at last. -/
def removeAll (t : Tree) (p : Path) : Except FileError Unit × Tree :=
  match t.stat .ifSlash p with
  | .error e => (.error e, t)
  | .ok (_, .link _) =>
    match t.unlink p with
    | .ok t => (.ok (), t)
    | .error e => (.error e, t)
  | .ok (_, .file _) => (.error (.system .notDirectory), t)
  | .ok (spot, .dir) =>
    let t := t.clear spot.location
    match t.removeDir p with
    | .ok t => (.ok (), t)
    | .error e => (.error e, t)

/-! ## Contents -/

/-- Where a file that is to be written lies, or will lie. -/
def findForWriting (t : Tree) (p : Path) : Except FileError Location := do
  -- No link is followed for a path that can only be a directory.
  let spot ← t.find (if p.endsInSlash then .never else .always) p
  if spot.slash || spot.last != .name then .error (.system .isDirectory)
  else
    match t.get? spot.location with
    | some .dir => .error (.system .isDirectory)
    | _ => .ok spot.location

/-- Writes a file, in place of what was in it. -/
def write (t : Tree) (p : Path) (content : ByteArray) : Except FileError Tree := do
  let l ← t.findForWriting p
  return t.put l (.file content)

/-- The content of a file. -/
def read (t : Tree) (p : Path) : Except FileError ByteArray := do
  let (_, node) ← t.stat .always p
  match node with
  | .file content => .ok content
  | _ => .error (.system .isDirectory)

/-- The content of a file as text. -/
def readText (t : Tree) (p : Path) : Except FileError String := do
  let content ← t.read p
  match String.fromUTF8? content with
  | some s => .ok s
  | none => .error .notText

/-! ## Listing -/

/-- How something is listed: a directory with a slash, a link with an at sign. -/
def listed (relative : Location) (n : Node) : String :=
  String.intercalate "/" relative ++
    match n with
    | .file _ => ""
    | .dir => "/"
    | .link _ => "@"

/-- All that lies below the working directory, in order. -/
def listing (t : Tree) : List String :=
  let rows := t.nodes.filter fun row => below t.workingDir row.1
  let lines := rows.map fun row => listed (row.1.drop t.workingDir.length) row.2
  lines.mergeSort fun a b => a ≤ b

end Tree

end ConnectionBroker.Files
