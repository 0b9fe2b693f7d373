import ConnectionBroker.Proofs.Tasks.Clearing

/-!
# What a clean-up deletes

Each artifact that is removed takes away what it names and all that lies below that, and nothing of
this depends on what other removals have taken already (`takes_iff_of_without`) : where an artifact
is gone, it went with one that was removed before. So artifacts that overlap, lie in one another or
are the same can be removed one after the other in any order (`without_foldl`), and cleaning up
deletes just the artifacts that its tasks name in the tree at the start (`deletes_exactly`).
-/

namespace ConnectionBroker

open Files (Path Tree Location)

variable {t t' : Tree} {l m : Location} {n : Files.Node} {S : Location → Prop}

/-! ## Artifacts -/

/-- Something that a task left behind. -/
inductive Artifact where
  | directory (p : Path)
  | archive (p : Path)

namespace Artifact

variable {a : Artifact}

/-- What it is called. -/
def path : Artifact → Path
  | directory p => p
  | archive p => p

/-- Removes an artifact, as far as it is there. -/
def remove (t : Tree) : Artifact → Tree
  | directory p => (t.removeAll p).2
  | archive p => (t.unlink p).toOption.getD t

/-- What goes when an artifact is removed. -/
def Takes (t : Tree) : Artifact → Location → Prop
  | directory p => t.Removes p
  | archive p => t.Unlinks p

/-- What an artifact takes goes with all that lies below it. -/
theorem Takes.below (hw : t.WellFormed) (h : a.Takes t l) (hlm : l <+: m) (hm : t.get? m = some n) :
    a.Takes t m := by
  cases a with
  | directory p =>
    obtain ⟨k, hk, ⟨hdir, hkl⟩ | ⟨⟨target, hlink⟩, rfl⟩⟩ := h
    · exact ⟨k, hk, .inl ⟨hdir, hkl.trans hlm⟩⟩
    · obtain rfl := hw.eq_of_leaf (by simp [hlink]) hlm hm
      exact ⟨_, hk, .inr ⟨⟨target, hlink⟩, rfl⟩⟩
  | archive p =>
    obtain rfl := hw.eq_of_leaf h.2 hlm hm
    exact h

/-- Whatever else was taken before, an artifact takes what it would have taken at the start. -/
theorem takes_iff_of_without (h : t.Without S t')
    (hbelow : ∀ l m n, S l → l <+: m → t.get? m = some n → S m) (hn : t.get? l = some n) :
    S l ∨ a.Takes t' l ↔ S l ∨ a.Takes t l := by
  by_cases hS : S l
  · simp [hS]
  refine or_congr_right ?_
  have hnames : ∀ {p m}, t'.Names p m ↔ t.Names p m := fun {p m} =>
    ⟨fun hm => ⟨h.place_eq p ▸ hm.place, hm.size⟩, fun hm => ⟨h.place_eq p ▸ hm.place, hm.size⟩⟩
  cases a with
  | directory p =>
    -- What is above a location that is still there is still there.
    have habove : ∀ m, m <+: l → t'.get? m = t.get? m := fun m hml =>
      h.kept m fun hSm => hS (hbelow m l n hSm hml hn)
    simp only [Takes, Tree.Removes, hnames]
    refine exists_congr fun m => and_congr_right fun _ => or_congr ?_ ?_
    · exact and_congr_left fun hml => by rw [habove m hml]
    · exact and_congr_left fun hlm => by rw [habove m (hlm ▸ List.prefix_rfl)]
  | archive p => simp only [Takes, Tree.Unlinks, hnames, h.kept l hS]

theorem without_remove (hw : t.WellFormed) (hp : t.Straight a.path) (hne : a.path ≠ "") :
    t.Without (a.Takes t) (a.remove t) := by
  cases a with
  | directory p => exact Tree.without_removeAll hw hp hne
  | archive p => exact Tree.without_unlink hw hp hne

/-- Artifacts that are removed one after the other take what each of them names at the start. The
induction is on the artifacts, over all trees. -/
theorem without_foldl {artifacts : List Artifact} (hw : t.WellFormed)
    (hp : ∀ a ∈ artifacts, t.Straight a.path ∧ a.path ≠ "") :
    t.Without (fun l => ∃ a ∈ artifacts, a.Takes t l) (artifacts.foldl remove t) := by
  induction artifacts generalizing t with
  | nil => exact (Tree.Without.refl t).congr fun l n _ => by simp
  | cons a rest ih =>
    obtain ⟨hpa, hne⟩ := hp a List.mem_cons_self
    have hstep := without_remove hw hpa hne
    have hbelow : ∀ l m n, a.Takes t l → l <+: m → t.get? m = some n → a.Takes t m :=
      fun _ _ _ hl => hl.below hw
    have hrest := ih (hstep.wellFormed hw hbelow) fun b hb =>
      ⟨hstep.straight (hp b (List.mem_cons_of_mem _ hb)).1, (hp b (List.mem_cons_of_mem _ hb)).2⟩
    refine (hstep.trans hrest).congr fun l n hn => ?_
    have hlater : ∀ b : Artifact,
        a.Takes t l ∨ b.Takes (a.remove t) l ↔ a.Takes t l ∨ b.Takes t l :=
      fun b => takes_iff_of_without hstep hbelow hn
    by_cases hal : a.Takes t l
    · simp [hal]
    · simp only [hal, false_or] at hlater
      simp [hal, hlater]

end Artifact

/-! ## The artifacts of tasks -/

namespace Task

variable {task : Task} {a : Artifact}

/-- The artifacts of a task, as they are removed. -/
def artifacts (task : Task) : List Artifact :=
  (task.dirPath.map .directory).toList ++ (task.zipPath.map .archive).toList

/-- Cleaning the task deletes that. -/
def Deletes (task : Task) (t : Tree) (l : Location) : Prop :=
  (∃ p, task.dirPath = some p ∧ t.Removes p l) ∨ ∃ p, task.zipPath = some p ∧ t.Unlinks p l

/-- The paths of the task's artifacts go straight there. -/
def Direct (task : Task) (t : Tree) : Prop :=
  ∀ p, task.dirPath = some p ∨ task.zipPath = some p → t.Straight p

theorem mem_artifacts : a ∈ task.artifacts ↔
    (∃ p, task.dirPath = some p ∧ a = .directory p) ∨
      ∃ p, task.zipPath = some p ∧ a = .archive p := by
  simp [artifacts, eq_comm]

theorem deletes_iff : task.Deletes t l ↔ ∃ a ∈ task.artifacts, a.Takes t l := by
  simp only [mem_artifacts]
  constructor
  · rintro (⟨p, hp, h⟩ | ⟨p, hp, h⟩)
    · exact ⟨.directory p, .inl ⟨p, hp, rfl⟩, h⟩
    · exact ⟨.archive p, .inr ⟨p, hp, rfl⟩, h⟩
  · rintro ⟨_, ⟨p, hp, rfl⟩ | ⟨p, hp, rfl⟩, h⟩
    · exact .inl ⟨p, hp, h⟩
    · exact .inr ⟨p, hp, h⟩

theorem Deletes.exists_path (h : task.Deletes t l) :
    ∃ p, (task.dirPath = some p ∨ task.zipPath = some p) ∧ t.place p <+: l := by
  obtain ⟨p, hp, hl⟩ | ⟨p, hp, hl⟩ := h
  · exact ⟨p, .inl hp, hl.place_below⟩
  · exact ⟨p, .inr hp, hl.1.place ▸ List.prefix_rfl⟩

/-- A member that is empty names nothing. -/
theorem ne_empty_of_pathOf {name : String} {p : Path} (h : task.pathOf name = some p) : p ≠ "" := by
  simp only [pathOf] at h
  split at h
  · split_ifs at h with hempty
    obtain rfl := Option.some.inj h
    exact hempty
  · cases h

theorem Direct.straight (h : task.Direct t) (ha : a ∈ task.artifacts) :
    t.Straight a.path ∧ a.path ≠ "" := by
  obtain ⟨p, hp, rfl⟩ | ⟨p, hp, rfl⟩ := mem_artifacts.1 ha
  · exact ⟨h p (.inl hp), ne_empty_of_pathOf hp⟩
  · exact ⟨h p (.inr hp), ne_empty_of_pathOf hp⟩

end Task

/-! ## Cleaning up -/

namespace Workspace

variable {w w' : Workspace} {ids : Finset String} {count : Nat}

theorem removeArtifacts_eq (task : Task) (t : Tree) :
    removeArtifacts task t = task.artifacts.foldl Artifact.remove t := by
  simp only [removeArtifacts, removeDirectory, removeArchive, Task.artifacts]
  cases task.dirPath <;> cases hz : task.zipPath with
  | none => rfl
  | some p =>
    simp only [Option.map_some, Option.map_none, Option.toList, List.nil_append, List.cons_append,
      List.foldl_cons, List.foldl_nil, Artifact.remove]
    split <;> simp_all [Except.toOption]

/-- A task of the worker that the table knows. -/
def Has (w : Workspace) (worker : String) (task : Task) : Prop :=
  ∃ id ∈ w.workers.tasks worker, w.store.get? id = some task

/-- Clearing tasks deletes the artifacts of those that were known. -/
theorem Clears.without (h : w.Clears ids count w') (hw : w.files.WellFormed)
    (hdirect : ∀ id ∈ ids, ∀ task, w.store.get? id = some task → task.Direct w.files) :
    w.files.Without
      (fun l => ∃ id ∈ ids, ∃ task, w.store.get? id = some task ∧ task.Deletes w.files l)
      w'.files := by
  obtain ⟨cleared, hcleared, hfiles⟩ := h.files
  have hfold : w'.files = (cleared.flatMap Task.artifacts).foldl Artifact.remove w.files := by
    rw [hfiles, List.foldl_flatMap]
    simp only [removeArtifacts_eq]
  have hstraight : ∀ a ∈ cleared.flatMap Task.artifacts, w.files.Straight a.path ∧ a.path ≠ "" := by
    intro a ha
    obtain ⟨task, htask, ha⟩ := List.mem_flatMap.1 ha
    obtain ⟨id, hid, hknown⟩ := (hcleared task).1 htask
    exact (hdirect id hid task hknown).straight ha
  rw [hfold]
  refine (Artifact.without_foldl hw hstraight).congr fun l n _ => ?_
  simp only [List.mem_flatMap, Task.deletes_iff, hcleared]
  constructor
  · rintro ⟨a, ⟨task, ⟨id, hid, hknown⟩, ha⟩, hl⟩
    exact ⟨id, hid, task, hknown, a, ha, hl⟩
  · rintro ⟨id, hid, task, hknown, a, ha, hl⟩
    exact ⟨a, ⟨task, ⟨id, hid, hknown⟩, ha⟩, hl⟩

/-- Removing workers deletes the artifacts of their tasks. -/
theorem without_removeWorkers (order : List String) (hw : w.files.WellFormed)
    (hdirect : ∀ worker ∈ order, ∀ task, w.Has worker task → task.Direct w.files) :
    w.files.Without (fun l => ∃ worker ∈ order, ∃ task, w.Has worker task ∧ task.Deletes w.files l)
      (removeWorkers order w).2.files := by
  have hmem : ∀ {id}, id ∈ (order.flatMap w.workers.tasks).toFinset ↔
      ∃ worker ∈ order, id ∈ w.workers.tasks worker := by simp
  refine ((clears_removeWorkers order w).without hw fun id hid task hknown => ?_).congr
    fun l n _ => ?_
  · obtain ⟨worker, hworker, hid⟩ := hmem.1 hid
    exact hdirect worker hworker task ⟨id, hid, hknown⟩
  · constructor
    · rintro ⟨id, hid, task, hknown, hl⟩
      obtain ⟨worker, hworker, hid⟩ := hmem.1 hid
      exact ⟨worker, hworker, task, ⟨id, hid, hknown⟩, hl⟩
    · rintro ⟨worker, hworker, task, ⟨id, hid, hknown⟩, hl⟩
      exact ⟨id, hmem.2 ⟨worker, hworker, hid⟩, task, hknown, hl⟩

/-- Removing workers, in any order, deletes just what the paths of their known tasks name : a link,
or a directory with all that lies below it, where a task wrote a directory, and what is no directory
where it produced an archive. Removing all workers, in any order, does so for every task that is
known and belongs to a worker. -/
theorem deletes_exactly (w : Workspace) (hw : w.files.WellFormed)
    (hdirect : ∀ worker task, w.Has worker task → task.Direct w.files) :
    (∀ order : List String,
      w.files.Loses (fun l => ∃ worker ∈ order, ∃ task, w.Has worker task ∧ task.Deletes w.files l)
        (removeWorkers order w).2.files) ∧
    (∀ order : List String, order.Perm w.workers.names →
      w.files.Loses (fun l => ∃ worker task, w.Has worker task ∧ task.Deletes w.files l)
        (removeWorkers order w).2.files) ∧
    w.files.Loses (fun l => ∃ worker task, w.Has worker task ∧ task.Deletes w.files l)
      w.removeAll.2.files := by
  have hsome := fun order => without_removeWorkers order hw fun worker _ => hdirect worker
  have hall : ∀ order : List String, order.Perm w.workers.names →
      w.files.Loses (fun l => ∃ worker task, w.Has worker task ∧ task.Deletes w.files l)
        (removeWorkers order w).2.files := by
    refine fun order horder => ((hsome order).congr fun l n _ => ?_).loses
    constructor
    · rintro ⟨worker, -, task, htask, hl⟩
      exact ⟨worker, task, htask, hl⟩
    · rintro ⟨worker, task, ⟨id, hid, hknown⟩, hl⟩
      have hworker : worker ∈ order := horder.mem_iff.2 (Workers.mem_names hid)
      exact ⟨worker, hworker, task, ⟨id, hid, hknown⟩, hl⟩
  exact ⟨fun order => (hsome order).loses, hall, hall _ (List.Perm.refl _)⟩

/-- Two workers share a task, whose artifact is a link in the directory of another task; the other
task's archive lies in that directory too. -/
def sharedTasks : Workspace where
  store := ⟨[((Task.new "t" .exports).withExtend "dirPath" (.string "out")).withExtend "zipPath"
      (.string "out/z"), (Task.new "u" .sync).withExtend "dirPath" (.string "out/k")]⟩
  workers := ⟨[("a", ["t", "u"]), ("b", ["u", "v"])]⟩
  files :=
    { nodes := [(["out"], .dir), (["out", "z"], .file .empty), (["out", "k"], .link "/kept"),
        (["kept"], .dir), (["kept", "f"], .file .empty)]
      workingDir := [] }

theorem wellFormed_sharedTasks : sharedTasks.files.WellFormed := by
  refine .of_nodes fun row hrow => ?_
  simp only [sharedTasks, List.mem_cons, List.not_mem_nil, or_false] at hrow
  obtain rfl | rfl | rfl | rfl | rfl := hrow <;> exact ⟨by decide, rfl⟩

theorem straight_sharedTasks {p : Path} (hp : p = "out" ∨ p = "out/z" ∨ p = "out/k") :
    sharedTasks.files.Straight p := by
  have hlink : ∀ l target, sharedTasks.files.get? l = some (.link target) → l = ["out", "k"] := by
    intro l target hl
    by_cases hroot : l = []
    · subst hroot
      cases hl
    · have hmem := Tree.mem_nodes hroot hl
      simp [sharedTasks] at hmem
      exact hmem.1
  refine ⟨?_, ?_, ?_, fun l target hbelow hne hl => ?_⟩
  · obtain rfl | rfl | rfl := hp <;> decide
  · obtain rfl | rfl | rfl := hp <;> decide
  · obtain rfl | rfl | rfl := hp <;> decide
  · obtain rfl := hlink l target hl
    revert hbelow hne
    obtain rfl | rfl | rfl := hp <;> decide

/-- The paths of the tasks. -/
theorem path_sharedTasks {worker : String} {task : Task} {p : Path}
    (h : sharedTasks.Has worker task) (hp : task.dirPath = some p ∨ task.zipPath = some p) :
    p = "out" ∨ p = "out/z" ∨ p = "out/k" := by
  obtain ⟨id, -, hknown⟩ := h
  have hmem := List.mem_of_find?_eq_some hknown
  simp only [sharedTasks, List.mem_cons, List.not_mem_nil, or_false] at hmem
  obtain rfl | rfl := hmem
  · have hpaths : some "out" = some p ∨ some "out/z" = some p := hp
    obtain hp | hp := hpaths <;> simp [← Option.some.inj hp]
  · have hpaths : some "out/k" = some p ∨ none = some p := hp
    obtain hp | hp := hpaths
    · simp [← Option.some.inj hp]
    · cases hp

theorem deletes_exactly_shared :
    sharedTasks.removeAll.2.files.get? ["out", "z"] = none ∧
      sharedTasks.removeAll.2.files.get? ["kept", "f"] = some (.file .empty) := by
  obtain ⟨-, -, hall⟩ := deletes_exactly sharedTasks wellFormed_sharedTasks
    fun worker task htask p hp => straight_sharedTasks (path_sharedTasks htask hp)
  refine ⟨(hall.gone_iff ["out", "z"] _ rfl).2 ?_, hall.kept ["kept", "f"] _ rfl ?_⟩
  · refine ⟨"a", _, ⟨"t", by decide, rfl⟩, .inl ⟨"out", rfl, ["out"], ⟨by decide, by decide⟩, ?_⟩⟩
    exact .inl ⟨rfl, by decide⟩
  · rintro ⟨worker, task, htask, hl⟩
    obtain ⟨p, hp, hbelow⟩ := hl.exists_path
    revert hbelow
    obtain rfl | rfl | rfl := path_sharedTasks htask hp <;> decide

end Workspace

end ConnectionBroker
