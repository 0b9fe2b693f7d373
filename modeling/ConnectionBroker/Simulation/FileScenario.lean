import ConnectionBroker.Config.SettingsFile
import ConnectionBroker.Tasks.Workers

/-!
# Scenarios with files

Settings files and the artifacts of tasks in an empty working directory, step by step.
-/

namespace ConnectionBroker.Simulation.FileScenario

open Files (Path Tree FileError)

/-- The working directory. -/
def workingDir : Files.Location := ["scratch-3f9c1d7e"]

/-- The path of the working directory. -/
def workingPath : Path :=
  "/" ++ String.intercalate "/" workingDir

/-- The home directory of the user's account. -/
def accountHome : Path := "/root"

/-- What the steps work on. -/
def begin : Workspace :=
  ⟨.empty, .empty, .empty workingDir⟩

/-- What one does with files beside the steps proper. -/
inductive FileStep where
  | mkdir (p : Path)
  | write (p : Path) (content : ByteArray)
  | symlink (p target : Path)
  | read (p : Path)
  | tree

/-- What a step shows. -/
inductive Reply where
  | flag (b : Bool)
  | count (n : Nat)
  | text (s : Option String)
  | texts (items : List String)
  | settings (s : BrokerSettings)
  | done
  | failed (e : BrokerError)
  | task (t : Option Task)
  | size (n : Nat)

/-- Whether a change succeeded. -/
def changed (w : Workspace) : Except FileError Tree → Reply × Workspace
  | .ok files => (.flag true, { w with files })
  | .error _ => (.flag false, w)

/-- One step with files. -/
def fileStep (w : Workspace) : FileStep → Reply × Workspace
  | .mkdir p =>
    let (r, files) := w.files.makeDirs p
    (.flag r.toBool, { w with files })
  | .write p content => changed w (w.files.write p content)
  | .symlink p target => changed w (w.files.link target p)
  | .read p => (.text (w.files.readText p).toOption, w)
  | .tree => (.texts w.files.listing, w)

/-- What one does with settings. -/
inductive SettingsStep where
  | files (x : FileStep)
  | default
  | validate (s : BrokerSettings)
  | load (p : Path)
  | save (s : BrokerSettings) (p : Path)
  | defaultPath (e : Environment)
  | loadDefault (e : Environment)

/-- Settings, or why there are none. -/
def settingsReply : Except BrokerError BrokerSettings → Reply
  | .ok s => .settings s
  | .error e => .failed e

/-- Nothing but success, or why it failed. -/
def doneReply : Except BrokerError Unit → Reply
  | .ok () => .done
  | .error e => .failed e

/-- One step with settings. -/
def settingsStep (w : Workspace) : SettingsStep → Reply × Workspace
  | .files x => fileStep w x
  | .default => (.settings .default, w)
  | .validate s => (doneReply s.validate, w)
  | .load p => (settingsReply (BrokerSettings.loadFrom w.files p), w)
  | .save s p =>
    let (r, files) := s.saveTo w.files p
    (doneReply r, { w with files })
  | .defaultPath e => (.text (some (BrokerSettings.defaultPath e)), w)
  | .loadDefault e => (settingsReply (BrokerSettings.load w.files e), w)

/-- What one does with tasks and workers. -/
inductive TaskStep where
  | files (x : FileStep)
  | insert (t : Task)
  | get (task : String)
  | clear (task : String)
  | store
  | add (worker task : String)
  | worker (worker : String)
  | workers
  | remove (worker : String)
  | clean (task : String)
  | removeAll

/-- One step with tasks and workers. -/
def taskStep (w : Workspace) : TaskStep → Reply × Workspace
  | .files x => fileStep w x
  | .insert t =>
    let store := w.store.insert t
    (.count store.size, { w with store })
  | .get task => (.task (w.store.get? task), w)
  | .clear task => (.flag (w.store.contains task), { w with store := w.store.erase task })
  | .store => (.size w.store.size, w)
  | .add worker task =>
    let workers := w.workers.add worker task
    (.texts (workers.tasks worker), { w with workers })
  | .worker worker => (.texts (w.workers.tasks worker), w)
  | .workers => (.count w.workers.size, w)
  | .remove worker =>
    let (n, w) := w.removeWorker worker
    (.count n, w)
  | .clean task =>
    let (known, w) := w.clean task
    (.flag known, w)
  | .removeAll =>
    let (n, w) := w.removeAll
    (.count n, w)

/-- What some steps show. -/
def run {σ : Type} (step : Workspace → σ → Reply × Workspace) : Workspace → List σ → List Reply
  | _, [] => []
  | w, x :: rest =>
    let (reply, w) := step w x
    reply :: run step w rest

end ConnectionBroker.Simulation.FileScenario
