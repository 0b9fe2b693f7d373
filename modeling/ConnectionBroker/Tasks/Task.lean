import ConnectionBroker.Config.Codec

/-!
# Tasks

A `Task` is a job that was started through a service, as the job subsystem reports it. Beside its
id, kind and status it carries an `Extension`: members of any names and values, kept in canonical
form, so that the order in which they were given does not show. Two members name artifacts that
the job left behind, a directory and an archive (`Task.dirPath`, `Task.zipPath`).
-/

namespace ConnectionBroker

/-- What a task does. -/
inductive TaskKind where
  | imports
  | exports
  | sync
  | other
  deriving DecidableEq, Repr

/-- How a task fares. -/
inductive TaskStatus where
  | running
  | succeeded
  | failed
  | stopped
  deriving DecidableEq, Repr

/-- Members of any names and values, in canonical form. -/
structure Extension where
  members : List (String × Json)
  canonical : Json.Ascending members ∧ Json.CanonicalMembers members

/-- A job that was started through a service. -/
structure Task where
  id : String
  kind : TaskKind
  status : TaskStatus
  extend : Extension

namespace TaskKind

/-- The kinds by name. -/
def names : List (String × TaskKind) :=
  [("import", imports), ("export", exports), ("sync", sync), ("other", other)]

/-- The name of a kind. -/
def name : TaskKind → String
  | imports => "import"
  | exports => "export"
  | sync => "sync"
  | other => "other"

/-- The kind that a value names: a string, or an object with the name as its only member and null
as the value. -/
def ofValue : Json → Except Fault TaskKind
  | .string s => Node.variant names (.string s)
  | .object [(name, v)] => do
    let kind ← Node.variant names (.string name)
    match v with
    | .null => .ok kind
    | v => .error ((Node.ofValue v).mismatch "unit")
  | .object _ => .error (.wrongValue .map "map with a single key")
  | v => .error ((Node.ofValue v).mismatch "string or map")

end TaskKind

namespace TaskStatus

/-- The statuses by name. -/
def names : List (String × TaskStatus) :=
  [("running", running), ("succeeded", succeeded), ("failed", failed), ("stopped", stopped)]

/-- The name of a status. -/
def name : TaskStatus → String
  | running => "running"
  | succeeded => "succeeded"
  | failed => "failed"
  | stopped => "stopped"

end TaskStatus

namespace Extension

/-- No members. -/
def empty : Extension :=
  ⟨[], by simp [Json.Ascending], trivial⟩

/-- The members in canonical form; the last of several members of one name counts. -/
def ofMembers (members : List (String × Json)) : Extension :=
  ⟨Json.normalMembers members [],
    Json.canonicalMembers_normal members [] (by simp [Json.Ascending]) trivial⟩

/-- Sets one member. -/
def set (e : Extension) (name : String) (v : Json) : Extension :=
  ⟨Json.setMember name v.normal e.members,
    Json.ascending_setMember e.canonical.1,
    Json.canonicalMembers_setMember (Json.canonical_normal v) e.canonical.2⟩

/-- The value of the named member. -/
def get? (e : Extension) (name : String) : Option Json :=
  e.members.lookup name

/-- Reads an object with so many containers left to open. -/
def ofNode : Nat → Node → Except Fault Extension
  | depth + 1, .object members closed =>
    match (Node.object members closed).value? (depth + 1) with
    | some (.object members) => .ok (ofMembers members)
    | _ => .error .malformed
  | 0, .object _ _ => .error .malformed
  | _, n => .error (n.mismatch "a map")

/-- The members as an object. -/
def toJson (e : Extension) : Json :=
  .object e.members

end Extension

namespace Task

/-- A running task without extension. -/
def new (id : String) (kind : TaskKind) : Task :=
  ⟨id, kind, .running, .empty⟩

/-- The task with one member of its extension set. -/
def withExtend (t : Task) (name : String) (v : Json) : Task :=
  { t with extend := t.extend.set name v }

/-- The text of a member of the extension that names a path. -/
def pathOf (t : Task) (name : String) : Option String :=
  match (t.extend.get? name).bind Json.text? with
  | some path => if path = "" then none else some path
  | none => none

/-- The directory that the task wrote, to be removed with all that is in it. -/
def dirPath (t : Task) : Option String :=
  t.pathOf "dirPath"

/-- The archive that the task produced. -/
def zipPath (t : Task) : Option String :=
  t.pathOf "zipPath"

/-- How a task is decoded. -/
def shape : Shape Task where
  title := "struct Task"
  blank := new "" .other
  fields :=
    [.needed "taskId" Node.text fun v t => { t with id := v },
      ⟨"kind", [], true, fun depth n => (n.unitVariant TaskKind.names depth).map fun v t =>
        { t with kind := v }⟩,
      ⟨"status", [], true, fun depth n => (n.unitVariant TaskStatus.names depth).map fun v t =>
        { t with status := v }⟩,
      ⟨"extend", [], false, fun depth n => (Extension.ofNode depth n).map fun v t =>
        { t with extend := v }⟩]

/-- The value of a task. -/
def toJson (t : Task) : Json :=
  .object
    [("taskId", .string t.id), ("kind", .string t.kind.name), ("status", .string t.status.name),
      ("extend", t.extend.toJson)]

end Task

end ConnectionBroker
