/-!
# Paths

A path is a text; its names are what stands between its slashes. Where a path leads is for the
tree of files to say (`Files.Tree`); here is what can be read off the text alone.
-/

namespace ConnectionBroker.Files

/-- A path as a text. -/
abbrev Path := String

namespace Path

/-- The names of a path, from left to right. -/
def names (p : Path) : List String :=
  ((p.toList.splitOn '/').filter (!·.isEmpty)).map String.ofList

/-- The path starts at the root. -/
def isAbsolute (p : Path) : Bool :=
  p.toList.head? == some '/'

/-- The path ends in a slash after a name. -/
def endsInSlash (p : Path) : Bool :=
  p.toList.getLast? == some '/' && !p.names.isEmpty

/-- The path holds a character that no path can hold. -/
def hasNul (p : Path) : Bool :=
  p.toList.contains '\x00'

/-- The path goes up, or starts at the root, so that it may lead out of a directory. -/
def mayLeave (p : Path) : Bool :=
  p.isAbsolute || p.names.contains ".."

/-- The names that count: a dot counts only as the first name of a relative path. -/
def significant (p : Path) : List String :=
  match p.names with
  | [] => []
  | first :: rest =>
    let rest := rest.filter (· != ".")
    if first == "." && p.isAbsolute then rest else first :: rest

/-- The path without its last name; none if there is no name to leave out. -/
def parent? (p : Path) : Option Path :=
  match p.significant with
  | [] => none
  | names =>
    some ((if p.isAbsolute then "/" else "") ++ String.intercalate "/" names.dropLast)

/-- A name below a path. -/
def join (p : Path) (name : String) : Path :=
  if p.toList.getLast? == some '/' || p == "" then p ++ name else p ++ "/" ++ name

end Path

end ConnectionBroker.Files
