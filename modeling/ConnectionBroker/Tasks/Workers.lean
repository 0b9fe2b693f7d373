import ConnectionBroker.Files.Tree
import ConnectionBroker.Tasks.Store

/-!
# Workers and the clean-up of their tasks

A worker is a session of the user interface; it is associated with the tasks that it started. When
the session ends, the artifacts of these tasks are removed and the tasks are forgotten
(`Workspace.removeWorker`). Cleaning up never fails: what is not there any more, or cannot be
removed, is left as it is.

A `Workspace` is the task table, the associations and the files that the tasks have written.
-/

namespace ConnectionBroker

open Files (Tree)

/-- The tasks of each worker, in the order in which they were added. -/
structure Workers where
  rows : List (String × List String)

namespace Workers

/-- No worker. -/
def empty : Workers :=
  ⟨[]⟩

/-- The tasks of a worker. -/
def tasks (w : Workers) (worker : String) : List String :=
  (w.rows.lookup worker).getD []

/-- Adds a task to a list that does not have it. -/
def addOnce (task : String) (tasks : List String) : List String :=
  if tasks.contains task then tasks else tasks ++ [task]

/-- Adds a task to the row of a worker, made if there is none. -/
def addTo (worker task : String) : List (String × List String) → List (String × List String)
  | [] => [(worker, [task])]
  | (w, tasks) :: rest =>
    if w = worker then (w, addOnce task tasks) :: rest else (w, tasks) :: addTo worker task rest

/-- Associates a task with a worker. Doing so twice changes nothing. -/
def add (w : Workers) (worker task : String) : Workers :=
  ⟨addTo worker task w.rows⟩

/-- Forgets a worker. -/
def erase (w : Workers) (worker : String) : Workers :=
  ⟨w.rows.filter (·.1 != worker)⟩

/-- The workers that have a row. -/
def names (w : Workers) : List String :=
  w.rows.map (·.1)

/-- The number of workers. -/
def size (w : Workers) : Nat :=
  w.rows.length

end Workers

/-- Tasks, the workers that started them and the files that they have written. -/
structure Workspace where
  store : TaskStore
  workers : Workers
  files : Tree

namespace Workspace

/-- Removes the directory that a task wrote. -/
def removeDirectory (t : Task) (files : Tree) : Tree :=
  match t.dirPath with
  | some p => (files.removeAll p).2
  | none => files

/-- Removes the archive that a task produced. -/
def removeArchive (t : Task) (files : Tree) : Tree :=
  match t.zipPath with
  | some p =>
    match files.unlink p with
    | .ok files => files
    | .error _ => files
  | none => files

/-- Removes the artifacts of a task, as far as they are there. -/
def removeArtifacts (t : Task) (files : Tree) : Tree :=
  removeArchive t (removeDirectory t files)

/-- Removes a task and its artifacts; says whether the task was known. -/
def clean (w : Workspace) (task : String) : Bool × Workspace :=
  match w.store.get? task with
  | some t =>
    (true, { w with store := w.store.erase task, files := removeArtifacts t w.files })
  | none => (false, w)

/-- Cleans tasks one after the other; counts those that were known. -/
def cleanAll : List String → Workspace → Nat × Workspace
  | [], w => (0, w)
  | task :: rest, w =>
    match w.clean task with
    | (known, w) =>
      let (n, w) := cleanAll rest w
      (if known then n + 1 else n, w)

/-- Cleans the tasks of a worker and forgets the worker; counts the tasks that were known. -/
def removeWorker (w : Workspace) (worker : String) : Nat × Workspace :=
  cleanAll (w.workers.tasks worker) { w with workers := w.workers.erase worker }

/-- Removes workers one after the other; counts the tasks that were known. -/
def removeWorkers : List String → Workspace → Nat × Workspace
  | [], w => (0, w)
  | worker :: rest, w =>
    let (n, w) := w.removeWorker worker
    let (m, w) := removeWorkers rest w
    (n + m, w)

/-- Removes every worker; counts the tasks that were known. -/
def removeAll (w : Workspace) : Nat × Workspace :=
  removeWorkers w.workers.names w

end Workspace

end ConnectionBroker
