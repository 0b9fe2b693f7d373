import ConnectionBroker.Tasks.Task

/-!
# The task table

The job subsystem's table of tasks, as far as cleaning up needs it: at most one task for each id.
-/

namespace ConnectionBroker

/-- A table of tasks with different ids, in the order in which the ids first came. -/
structure TaskStore where
  tasks : List Task

namespace TaskStore

/-- The table without a task. -/
def empty : TaskStore :=
  ⟨[]⟩

/-- The task of an id. -/
def get? (s : TaskStore) (id : String) : Option Task :=
  s.tasks.find? (·.id == id)

/-- Puts a task in the place of the one with its id. -/
def insertInto (t : Task) : List Task → List Task
  | [] => [t]
  | u :: rest => if u.id = t.id then t :: rest else u :: insertInto t rest

/-- Adds a task, or replaces the one with its id. -/
def insert (s : TaskStore) (t : Task) : TaskStore :=
  ⟨insertInto t s.tasks⟩

/-- Forgets a task. -/
def erase (s : TaskStore) (id : String) : TaskStore :=
  ⟨s.tasks.filter (·.id != id)⟩

/-- The table has a task of that id. -/
def contains (s : TaskStore) (id : String) : Bool :=
  (s.get? id).isSome

/-- The number of tasks. -/
def size (s : TaskStore) : Nat :=
  s.tasks.length

/-- There is no task. -/
def isEmpty (s : TaskStore) : Bool :=
  s.tasks.isEmpty

end TaskStore

end ConnectionBroker
