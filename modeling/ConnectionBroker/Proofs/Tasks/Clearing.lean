import Mathlib.Data.Finset.Card
import ConnectionBroker.Proofs.Files.Removal
import ConnectionBroker.Tasks.Workers

/-!
# Clearing tasks

Cleaning up goes through ids of tasks, and one that was cleaned before, or was never known, counts
for nothing. So all that a clean-up does is settled by the set of the ids (`Workspace.Clears`) : the
tasks that the table forgets, the number of those that it knew, and whose artifacts are removed. A
worker that was removed has no tasks any more, so this also holds of workers in any order, whichever
of their tasks they share and whichever of them come twice (`clears_removeWorkers`).
-/

namespace ConnectionBroker

variable {id other worker : String} {ids ids' : Finset String} {t : Task}

/-! ## The table -/

namespace TaskStore

variable {s : TaskStore}

/-- The table without the tasks of some ids. -/
def without (s : TaskStore) (ids : Finset String) : TaskStore :=
  ⟨s.tasks.filter (·.id ∉ ids)⟩

theorem without_without : (s.without ids).without ids' = s.without (ids ∪ ids') := by
  simp [without, Bool.and_comm]

theorem erase_eq_without (s : TaskStore) (id : String) : s.erase id = s.without {id} := by
  simp [erase, without, bne, beq_eq_decide]

theorem without_of_unknown (h : ∀ id ∈ ids, s.get? id = none) : s.without ids = s := by
  have hkept : ∀ t ∈ s.tasks, t.id ∉ ids := by
    intro t ht hid
    have hunknown := List.find?_eq_none.1 (h t.id hid) t ht
    simp at hunknown
  simp only [without]
  rw [List.filter_eq_self.2 (by simpa using hkept)]

theorem get?_without (s : TaskStore) (ids : Finset String) (id : String) :
    (s.without ids).get? id = if id ∈ ids then none else s.get? id := by
  simp only [get?, without, List.find?_filter]
  split_ifs with hid
  · refine List.find?_eq_none.2 fun t _ => ?_
    rintro h
    simp only [decide_eq_true_eq, beq_iff_eq] at h
    exact h.1 (h.2 ▸ hid)
  · congr 1
    funext t
    by_cases ht : t.id = id
    · simp [ht, hid]
    · simp [ht]

theorem contains_without (s : TaskStore) (ids : Finset String) (id : String) :
    (s.without ids).contains id = true ↔ id ∉ ids ∧ s.contains id = true := by
  rw [contains, get?_without, contains]
  split_ifs with hid <;> simp [hid]

end TaskStore

/-! ## The workers -/

theorem Workers.mem_names {w : Workers} (h : id ∈ w.tasks worker) : worker ∈ w.names := by
  by_contra hworker
  have hnone : w.rows.lookup worker = none := by
    rw [List.lookup_eq_none_iff]
    intro row hrow
    exact bne_iff_ne.2 fun heq => hworker (heq ▸ List.mem_map_of_mem hrow)
  simp [tasks, hnone] at h

theorem Workers.tasks_erase (w : Workers) (worker other : String) :
    (w.erase worker).tasks other = if other = worker then [] else w.tasks other := by
  simp only [tasks, erase, lookup_filter (· != worker)]
  split_ifs <;> simp_all

/-! ## Cleaning up -/

namespace Workspace

variable {w w' w'' : Workspace} {n m : Nat}

/-- The workspace was cleaned of the tasks of some ids, and so many of them were known. -/
structure Clears (w : Workspace) (ids : Finset String) (n : Nat) (w' : Workspace) : Prop where
  store : w'.store = w.store.without ids
  count : n = (ids.filter (w.store.contains ·)).card
  files : ∃ cleared : List Task, (∀ t, t ∈ cleared ↔ ∃ id ∈ ids, w.store.get? id = some t) ∧
    w'.files = cleared.foldl (fun files t => removeArtifacts t files) w.files

namespace Clears

theorem nothing (h : ∀ id ∈ ids, w.store.get? id = none) : w.Clears ids 0 w where
  store := (TaskStore.without_of_unknown h).symm
  count := by
    refine (Finset.card_eq_zero.2 (Finset.filter_eq_empty_iff.2 fun id hid => ?_)).symm
    simp [TaskStore.contains, h id hid]
  files := by
    refine ⟨[], fun t => ⟨by simp, ?_⟩, rfl⟩
    rintro ⟨id, hid, ht⟩
    rw [h id hid] at ht
    cases ht

/-- What was cleaned before does not count again. -/
theorem trans (h : w.Clears ids n w') (h' : w'.Clears ids' m w'') :
    w.Clears (ids ∪ ids') (n + m) w'' where
  store := by rw [h'.store, h.store, TaskStore.without_without]
  count := by
    have hnew : ids'.filter (w'.store.contains ·) =
        (ids'.filter (w.store.contains ·)).filter (· ∉ ids) := by
      ext id
      simp [h.store, TaskStore.contains_without, and_comm, and_left_comm]
    have hsplit : (ids ∪ ids').filter (w.store.contains ·) =
        ids.filter (w.store.contains ·) ∪ ids'.filter (w'.store.contains ·) := by
      ext id
      rw [hnew]
      simp only [Finset.mem_filter, Finset.mem_union]
      tauto
    have happart :
        Disjoint (ids.filter (w.store.contains ·)) (ids'.filter (w'.store.contains ·)) := by
      rw [hnew, Finset.disjoint_left]
      intro id hid hid'
      exact (Finset.mem_filter.1 hid').2 (Finset.mem_filter.1 hid).1
    rw [hsplit, Finset.card_union_of_disjoint happart, ← h.count, ← h'.count]
  files := by
    obtain ⟨first, hfirst, hfiles⟩ := h.files
    obtain ⟨second, hsecond, hfiles'⟩ := h'.files
    refine ⟨first ++ second, fun t => ?_, by rw [hfiles', hfiles, List.foldl_append]⟩
    have hlater : (∃ id ∈ ids', w'.store.get? id = some t) ↔
        ∃ id ∈ ids', id ∉ ids ∧ w.store.get? id = some t := by
      simp [h.store, TaskStore.get?_without]
    rw [List.mem_append, hfirst, hsecond, hlater]
    constructor
    · rintro (⟨id, hid, ht⟩ | ⟨id, hid, -, ht⟩)
      · exact ⟨id, Finset.mem_union_left _ hid, ht⟩
      · exact ⟨id, Finset.mem_union_right _ hid, ht⟩
    · rintro ⟨id, hid, ht⟩
      by_cases hin : id ∈ ids
      · exact .inl ⟨id, hin, ht⟩
      · exact .inr ⟨id, (Finset.mem_union.1 hid).resolve_left hin, hin, ht⟩

end Clears

theorem clears_clean (w : Workspace) (id : String) :
    w.Clears {id} (if (w.clean id).1 then 1 else 0) (w.clean id).2 := by
  cases hid : w.store.get? id with
  | none =>
    simp only [clean, hid]
    exact .nothing fun other hother => by rw [Finset.mem_singleton.1 hother, hid]
  | some t =>
    simp only [clean, hid]
    refine ⟨TaskStore.erase_eq_without _ _, ?_, [t], fun u => ?_, rfl⟩
    · have hknown : w.store.contains id = true := by simp [TaskStore.contains, hid]
      simp [Finset.filter_singleton, hknown]
    · simp [hid, eq_comm]

theorem workers_clean (w : Workspace) (id : String) : (w.clean id).2.workers = w.workers := by
  simp only [clean]
  split <;> rfl

theorem workers_cleanAll (tasks : List String) (w : Workspace) :
    (cleanAll tasks w).2.workers = w.workers := by
  induction tasks generalizing w with
  | nil => rfl
  | cons id rest ih => exact (ih _).trans (workers_clean w id)

theorem clears_cleanAll (tasks : List String) (w : Workspace) :
    w.Clears tasks.toFinset (cleanAll tasks w).1 (cleanAll tasks w).2 := by
  induction tasks generalizing w with
  | nil => exact .nothing (by simp)
  | cons id rest ih =>
    have hstep := (clears_clean w id).trans (ih (w.clean id).2)
    have hcount : (cleanAll (id :: rest) w).1 =
        (if (w.clean id).1 then 1 else 0) + (cleanAll rest (w.clean id).2).1 := by
      simp only [cleanAll]
      split_ifs <;> omega
    rw [hcount, List.toFinset_cons, Finset.insert_eq]
    exact hstep

theorem workers_removeWorker (w : Workspace) (worker : String) :
    (w.removeWorker worker).2.workers = w.workers.erase worker :=
  workers_cleanAll _ _

theorem clears_removeWorker (w : Workspace) (worker : String) :
    w.Clears (w.workers.tasks worker).toFinset (w.removeWorker worker).1
      (w.removeWorker worker).2 :=
  let ⟨store, count, files⟩ := clears_cleanAll (w.workers.tasks worker)
    { w with workers := w.workers.erase worker }
  ⟨store, count, files⟩

/-- Workers in any order : a worker that was removed has nothing left to be cleaned. -/
theorem clears_removeWorkers (order : List String) (w : Workspace) :
    w.Clears (order.flatMap w.workers.tasks).toFinset (removeWorkers order w).1
      (removeWorkers order w).2 := by
  induction order generalizing w with
  | nil => exact .nothing (by simp)
  | cons worker rest ih =>
    have hstep := (clears_removeWorker w worker).trans (ih (w.removeWorker worker).2)
    have hids : (w.workers.tasks worker).toFinset ∪
        (rest.flatMap (w.removeWorker worker).2.workers.tasks).toFinset =
          ((worker :: rest).flatMap w.workers.tasks).toFinset := by
      ext id
      simp only [workers_removeWorker, Workers.tasks_erase, Finset.mem_union, List.mem_toFinset,
        List.flatMap_cons, List.mem_append, List.mem_flatMap]
      constructor
      · rintro (hid | ⟨other, hother, hid⟩)
        · exact .inl hid
        · split_ifs at hid
          · cases hid
          · exact .inr ⟨other, hother, hid⟩
      · rintro (hid | ⟨other, hother, hid⟩)
        · exact .inl hid
        · by_cases hsame : other = worker
          · exact .inl (hsame ▸ hid)
          · exact .inr ⟨other, hother, by rwa [if_neg hsame]⟩
    rw [← hids]
    exact hstep

end Workspace

end ConnectionBroker
