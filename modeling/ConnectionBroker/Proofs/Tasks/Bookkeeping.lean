import Mathlib.Data.List.DropRight
import Mathlib.Data.List.Induction
import ConnectionBroker.Proofs.Tasks.Clearing

/-!
# The books of the workers

A run is any sequence of `Chore`s on a table and a registry that were empty at the start, while the
files may change in any way. What has been added to a worker since it was last removed is read off
the chores alone (`addedSince`), and it is what the registry has for the worker
(`tasks_of_reached`).

Removing all workers in any order counts each known task once, whichever workers share it, and
leaves nothing for a clean-up that follows (`clearsAll`). Both hold after every run (`bookkeeping`).
-/

namespace ConnectionBroker

variable {worker id : String} {w : Workspace} {chores : List Chore}

/-! ## Runs -/

/-- What is done with the table and the registry, and what others do to the files. -/
inductive Chore where
  | insert (t : Task)
  | clear (id : String)
  | add (worker id : String)
  | clean (id : String)
  | remove (worker : String)
  /-- All workers are removed, one after the other in this order. -/
  | removeAll (order : List String)
  | files (t : Files.Tree)

namespace Chore

/-- What a chore leaves. -/
def apply (w : Workspace) : Chore → Workspace
  | insert t => { w with store := w.store.insert t }
  | clear id => { w with store := w.store.erase id }
  | add worker id => { w with workers := w.workers.add worker id }
  | clean id => (w.clean id).2
  | remove worker => (w.removeWorker worker).2
  | removeAll order => (Workspace.removeWorkers order w).2
  | files t => { w with files := t }

/-- Removing all workers goes through those that there are, in any order. -/
def Suits (w : Workspace) : Chore → Prop
  | removeAll order => order.Perm w.workers.names
  | _ => True

/-- The chore removes a worker. -/
def removes (worker : String) : Chore → Bool
  | remove other => other == worker
  | removeAll _ => true
  | _ => false

/-- The task that the chore adds to a worker. -/
def added? (worker : String) : Chore → Option String
  | add other id => if other = worker then some id else none
  | _ => none

/-- The tasks that were added to a worker since it was last removed, in the order in which they were
first added. -/
def addedSince (worker : String) (chores : List Chore) : List String :=
  ((chores.rtakeWhile (!removes worker ·)).filterMap (added? worker)).eraseDups

end Chore

/-- The chores lead there from an empty table and an empty registry. -/
inductive Workspace.Reached : List Chore → Workspace → Prop where
  | start (files : Files.Tree) : Reached [] ⟨.empty, .empty, files⟩
  | step {chores : List Chore} {w : Workspace} (h : Reached chores w) (c : Chore) (hc : c.Suits w) :
    Reached (chores ++ [c]) (c.apply w)

/-! ## The tasks of a worker -/

namespace Workers

theorem lookup_addTo (rows : List (String × List String)) (worker id other : String) :
    ((addTo worker id rows).lookup other).getD [] =
      if other = worker then addOnce id ((rows.lookup other).getD [])
      else (rows.lookup other).getD [] := by
  induction rows with
  | nil =>
    by_cases heq : other = worker
    · simp [addTo, addOnce, heq]
    · simp [addTo, List.lookup_cons, beq_eq_false_iff_ne.2 heq, heq]
  | cons row rest ih =>
    obtain ⟨name, tasks⟩ := row
    by_cases hname : name = worker
    · by_cases heq : other = worker
      · simp [addTo, hname, heq]
      · simp [addTo, List.lookup_cons, hname, beq_eq_false_iff_ne.2 heq, heq]
    · by_cases heq : other = name
      · simp [addTo, hname, heq]
      · simpa [addTo, List.lookup_cons, hname, beq_eq_false_iff_ne.2 heq] using ih

theorem tasks_add (w : Workers) (worker id other : String) :
    (w.add worker id).tasks other =
      if other = worker then addOnce id (w.tasks other) else w.tasks other :=
  lookup_addTo w.rows worker id other

theorem tasks_empty (worker : String) : empty.tasks worker = [] := rfl

end Workers

/-- Adding a task once more does not move it. -/
theorem eraseDups_append_singleton (ids : List String) (id : String) :
    (ids ++ [id]).eraseDups = Workers.addOnce id ids.eraseDups := by
  rw [List.eraseDups_append, Workers.addOnce]
  by_cases hid : id ∈ ids <;> simp [List.removeAll, List.eraseDups_cons, hid]

theorem nodup_eraseDups (ids : List String) : ids.eraseDups.Nodup := by
  induction ids using List.reverseRecOn with
  | nil => exact List.nodup_nil
  | append_singleton ids id ih =>
    rw [eraseDups_append_singleton, Workers.addOnce]
    split_ifs with hid
    · exact ih
    · refine ih.append (List.nodup_singleton id) (List.disjoint_singleton.2 ?_)
      simpa using hid

namespace Workspace

theorem workers_removeWorkers (order : List String) (w : Workspace) :
    (removeWorkers order w).2.workers.rows = w.workers.rows.filter (·.1 ∉ order) := by
  induction order generalizing w with
  | nil => simp [removeWorkers]
  | cons name rest ih =>
    have hrest := ih (w.removeWorker name).2
    simp only [workers_removeWorker, Workers.erase, List.filter_filter] at hrest
    refine hrest.trans (List.filter_congr fun row _ => ?_)
    simp [bne, beq_eq_decide, Bool.and_comm]

/-- No worker is left when all were removed. -/
theorem workers_removeWorkers_all {order : List String} (h : order.Perm w.workers.names) :
    (removeWorkers order w).2.workers = .empty := by
  have hrows : (removeWorkers order w).2.workers.rows = [] := by
    rw [workers_removeWorkers, List.filter_eq_nil_iff]
    intro row hrow
    simpa using h.mem_iff.2 (List.mem_map_of_mem hrow)
  exact congrArg Workers.mk hrows

end Workspace

namespace Chore

theorem addedSince_append (worker : String) (chores : List Chore) (c : Chore) :
    addedSince worker (chores ++ [c]) =
      if c.removes worker then [] else
        match c.added? worker with
        | some id => Workers.addOnce id (addedSince worker chores)
        | none => addedSince worker chores := by
  cases hremoves : c.removes worker with
  | true => simp [addedSince, hremoves]
  | false =>
    cases hadded : c.added? worker with
    | none => simp [addedSince, hremoves, hadded]
    | some id => simp [addedSince, hremoves, hadded, ← eraseDups_append_singleton]

/-- What one chore does to the tasks of a worker. -/
theorem tasks_apply (c : Chore) (hc : c.Suits w) (worker : String) :
    (c.apply w).workers.tasks worker =
      if c.removes worker then [] else
        match c.added? worker with
        | some id => Workers.addOnce id (w.workers.tasks worker)
        | none => w.workers.tasks worker := by
  cases c with
  | add other id =>
    by_cases heq : other = worker
    · simp [apply, removes, added?, Workers.tasks_add, heq]
    · simp [apply, removes, added?, Workers.tasks_add, heq, Ne.symm heq]
  | remove other =>
    by_cases heq : other = worker
    · simp [apply, removes, Workspace.workers_removeWorker, Workers.tasks_erase, heq]
    · simp [apply, removes, added?, Workspace.workers_removeWorker, Workers.tasks_erase, heq,
        Ne.symm heq]
  | removeAll order =>
    simp [apply, removes, Workspace.workers_removeWorkers_all hc, Workers.tasks_empty]
  | clean id => simp [apply, removes, added?, Workspace.workers_clean]
  | insert t => rfl
  | clear id => rfl
  | files t => rfl

end Chore

namespace Workspace

/-- After every run, a worker has the tasks that were added to it since it was last removed. The
induction is on the run. -/
theorem tasks_of_reached (h : Reached chores w) (worker : String) :
    w.workers.tasks worker = Chore.addedSince worker chores := by
  induction h with
  | start files => rfl
  | step h c hc ih => rw [Chore.tasks_apply c hc, Chore.addedSince_append, ih]

/-! ## Removing all workers -/

/-- The tasks that belong to some worker. -/
def associated (w : Workspace) : Finset String :=
  (w.workers.names.flatMap w.workers.tasks).toFinset

/-- Going through the workers that there are, in any order, reaches the tasks of all of them. -/
theorem mem_tasks_of_order {order : List String} (h : order.Perm w.workers.names) :
    id ∈ order.flatMap w.workers.tasks ↔ ∃ worker, id ∈ w.workers.tasks worker := by
  rw [List.mem_flatMap]
  constructor
  · rintro ⟨worker, -, hid⟩
    exact ⟨worker, hid⟩
  · rintro ⟨worker, hid⟩
    exact ⟨worker, h.mem_iff.2 (Workers.mem_names hid), hid⟩

theorem mem_associated : id ∈ w.associated ↔ ∃ worker, id ∈ w.workers.tasks worker := by
  rw [associated, List.mem_toFinset, mem_tasks_of_order (.refl _)]

/-- All workers were removed, with that count, and there is nothing more to remove. -/
structure ClearsAll (w : Workspace) (count : Nat) (w' : Workspace) : Prop where
  count : count = (w.associated.filter (w.store.contains ·)).card
  store : w'.store = w.store.without w.associated
  workers : w'.workers = .empty
  settled : w'.removeAll = (0, w')
  settledFor : ∀ worker, w'.removeWorker worker = (0, w')

/-- Removing all workers in any order. -/
theorem clearsAll {order : List String} (h : order.Perm w.workers.names) :
    w.ClearsAll (removeWorkers order w).1 (removeWorkers order w).2 := by
  obtain ⟨store, count, -⟩ := clears_removeWorkers order w
  have hids : (order.flatMap w.workers.tasks).toFinset = w.associated := by
    ext id
    rw [List.mem_toFinset, mem_tasks_of_order h, mem_associated]
  have hworkers := workers_removeWorkers_all h
  refine ⟨hids ▸ count, hids ▸ store, hworkers, ?_, fun worker => ?_⟩
  · rw [removeAll, hworkers]
    rfl
  · generalize (removeWorkers order w).2 = w' at hworkers
    obtain ⟨store', workers', files'⟩ := w'
    obtain rfl : workers' = .empty := hworkers
    rfl

/-- After every run, a worker has just the tasks that were added to it since it was last removed,
each once and in the order in which they were first added. Removing all workers then, in any order,
counts the tasks that belong to a worker and are in the table, each once; the table forgets just
these, no worker is left, and removing any worker or all of them again counts none and changes
nothing. -/
theorem bookkeeping (h : Reached chores w) :
    (∀ worker, w.workers.tasks worker = Chore.addedSince worker chores ∧
      (w.workers.tasks worker).Nodup) ∧
    (∀ order : List String, order.Perm w.workers.names →
      w.ClearsAll (removeWorkers order w).1 (removeWorkers order w).2) ∧
    w.ClearsAll w.removeAll.1 w.removeAll.2 :=
  ⟨fun worker => ⟨tasks_of_reached h worker, tasks_of_reached h worker ▸ nodup_eraseDups _⟩,
    fun _ => clearsAll, clearsAll (List.Perm.refl _)⟩

/-- Two workers share a task that is known, and one of them has a task that is not. -/
def sharedChores : List Chore :=
  [.insert (Task.new "t" .sync), .add "a" "u", .add "a" "t", .add "b" "t", .add "a" "u"]

/-- The shared task counts once. -/
theorem bookkeeping_of_shared : ∃ w, Reached sharedChores w ∧
    w.workers.tasks "a" = ["u", "t"] ∧ (removeWorkers ["b", "a"] w).1 = 1 := by
  have h : Reached sharedChores _ :=
    (((((Reached.start (.empty [])).step (.insert (Task.new "t" .sync)) trivial).step
      (.add "a" "u") trivial).step (.add "a" "t") trivial).step (.add "b" "t") trivial).step
      (.add "a" "u") trivial
  obtain ⟨htasks, hall, -⟩ := bookkeeping h
  have hcount := (hall ["b", "a"] (.swap "a" "b" [])).count
  exact ⟨_, h, (htasks "a").1.trans (by decide), hcount.trans (by decide)⟩

end Workspace

end ConnectionBroker
