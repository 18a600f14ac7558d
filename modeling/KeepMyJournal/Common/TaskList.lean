import KeepMyJournal.Common.Tasks

/-!
# The task list of a price service

The time and the progress service keep the same `global_task_list`: for each user the vector
of the watches scheduled for him. Their functions on it
(`progress_tasks/src/progress_based_task.cpp:186–243`,
`time_tasks/src/time_based_watch.cpp:142–196`) differ in the type of the watch only, so they
are given here once, over the function that reads the task of a watch.
-/

namespace KeepMyJournal.Common

open KeepMyJournal.Base

universe u

variable {ω : Type u} (taskData : ω → ScheduledPriceTask)

/-- `global_task_list`. -/
abbrev TaskList (ω : Type u) := LockedMap Bytes (List ω)

namespace TaskList

/-- `global_task_list[user_id].push_back(task)`. -/
def pushBack (taskList : TaskList ω) (userId : Bytes) (task : ω) : TaskList ω :=
  taskList.updateAt userId (· ++ [task])

/-- The lambda the removal searches with. -/
def isTask (userId taskId : Bytes) (t : ω) : Bool :=
  (taskData t).userId == userId && (taskData t).taskId == taskId

/-- The removal loop: find, stop, erase, and search from the start again. The stop changes
the erased watch alone. The first argument bounds the rounds. -/
def eraseFound (p : ω → Bool) : Nat → List ω → List ω
  | 0, tasks => tasks
  | rounds + 1, tasks =>
    match tasks.findIdx? p with
    | none => tasks
    | some iter => eraseFound p rounds (tasks.eraseIdx iter)

/-- `remove_scheduled_*_task_impl`; `operator[]` enters an unknown user. -/
def remove (taskList : TaskList ω) (userId taskId : Bytes) : TaskList ω :=
  taskList.updateAt userId (fun tasks ↦
    if tasks.isEmpty then tasks else eraseFound (isTask taskData userId taskId) tasks.length tasks)

/-- `get_scheduled_tasks_for_user_impl`, before each task is put into its D-Bus form. -/
def forUser {δ : Type u} (taskList : TaskList ω) (userId : Bytes) (toDbus : ω → δ) : List δ :=
  match taskList.findValue userId with
  | none => []
  | some tasks => tasks.map toDbus

/-- `get_all_scheduled_tasks_impl`, with the same reservation. -/
def all {δ : Type u} (taskList : TaskList ω) (toDbus : ω → δ) : List δ :=
  taskList.toFlatList toDbus

/-- The watches of one user, oldest first. -/
def tasksOf (taskList : TaskList ω) (userId : Bytes) : List ω :=
  (taskList.findValue userId).getD []

/-- Every watch stands in the list of the user its task names. -/
def Owned (taskList : TaskList ω) : Prop :=
  ∀ userId, ∀ t ∈ taskList.tasksOf userId, (taskData t).userId = userId

/-- One round for every element is enough: the loop ends with no match left, and the order of
the others is kept. -/
theorem eraseFound_eq_filter (p : ω → Bool) (rounds : Nat) (tasks : List ω)
    (h : tasks.length ≤ rounds) : eraseFound p rounds tasks = tasks.filter (fun t ↦ !p t) := by
  induction rounds generalizing tasks with
  | zero =>
    obtain rfl : tasks = [] := List.length_eq_zero_iff.mp (by omega)
    rfl
  | succ rounds ih =>
    rw [eraseFound]
    cases hf : tasks.findIdx? p with
    | none =>
      rw [List.findIdx?_eq_none_iff] at hf
      rw [List.filter_eq_self.mpr]
      intro t ht
      rw [hf t ht]
      rfl
    | some iter =>
      obtain ⟨hlt, hp, -⟩ := List.findIdx?_eq_some_iff_getElem.mp hf
      have hlen : (tasks.eraseIdx iter).length ≤ rounds := by
        rw [List.length_eraseIdx_of_lt hlt]
        omega
      dsimp only
      rw [ih _ hlen]
      have hsplit : tasks = tasks.take iter ++ tasks[iter] :: tasks.drop (iter + 1) := by
        rw [List.getElem_cons_drop, List.take_append_drop]
      rw [List.eraseIdx_eq_take_drop_succ, List.filter_append]
      conv_rhs => rw [hsplit, List.filter_append, List.filter_cons_of_neg (by simp [hp])]

/-- An update of one user's list leaves every other list. -/
theorem tasksOf_updateAt (taskList : TaskList ω) (userId u : Bytes) (f : List ω → List ω) :
    tasksOf (taskList.updateAt userId f) u =
      if u = userId then f (taskList.tasksOf u) else taskList.tasksOf u := by
  rw [tasksOf, LockedMap.findValue_updateAt]
  split
  · next h =>
    subst h
    rfl
  · rfl

/-- A new watch goes to the end of its user's list. -/
theorem tasksOf_pushBack (taskList : TaskList ω) (userId u : Bytes) (task : ω) :
    (taskList.pushBack userId task).tasksOf u =
      if u = userId then taskList.tasksOf u ++ [task] else taskList.tasksOf u :=
  tasksOf_updateAt taskList userId u _

/-- A removal takes the named tasks out of one user's list and leaves every other list. -/
theorem tasksOf_remove (taskList : TaskList ω) (userId taskId u : Bytes) :
    (taskList.remove taskData userId taskId).tasksOf u =
      if u = userId then (taskList.tasksOf u).filter (fun t ↦ !isTask taskData userId taskId t)
      else taskList.tasksOf u := by
  rw [remove, tasksOf_updateAt]
  split
  · split
    · next he =>
      rw [List.isEmpty_iff.mp he]
      rfl
    · exact eraseFound_eq_filter _ _ _ le_rfl
  · rfl

/-- The answer for one user is the image of his list. -/
theorem forUser_eq {δ : Type u} (taskList : TaskList ω) (userId : Bytes) (toDbus : ω → δ) :
    taskList.forUser userId toDbus = (taskList.tasksOf userId).map toDbus := by
  rw [forUser, tasksOf]
  cases taskList.findValue userId <;> rfl

/-- The images of one user's watches stand in the answer for all users as in the answer for
him alone. -/
theorem filter_all {δ : Type u} {taskList : TaskList ω} (ho : taskList.Owned taskData)
    (toDbus : ω → δ) (owner : δ → Bytes) (howner : ∀ t, owner (toDbus t) = (taskData t).userId)
    (userId : Bytes) :
    (taskList.all toDbus).filter (fun d ↦ owner d = userId) = taskList.forUser userId toDbus := by
  have hlists : ∀ k l, taskList.findValue k = some l → ∀ t ∈ l, (taskData t).userId = k := by
    intro k l hl t ht
    apply ho k t
    rw [tasksOf, hl]
    exact ht
  have hmine := taskList.filter_toFlatList (fun t ↦ (taskData t).userId) hlists userId
  rw [all, LockedMap.toFlatList_eq_map, List.filter_map, forUser_eq, tasksOf, ← hmine]
  congr 1
  apply List.filter_congr
  intro t _
  rw [Function.comp_apply, howner]

/-- A watch entered under the user of its task is owned. -/
theorem Owned.pushBack {taskList : TaskList ω} (ho : taskList.Owned taskData) {userId : Bytes}
    {task : ω} (h : (taskData task).userId = userId) :
    (taskList.pushBack userId task).Owned taskData := by
  intro u t ht
  rw [tasksOf_pushBack] at ht
  split at ht
  · next hu =>
    rcases List.mem_append.mp ht with ht | ht
    · exact ho u t ht
    · rw [List.mem_singleton.mp ht, h, hu]
  · exact ho u t ht

/-- A removal only takes watches away. -/
theorem Owned.remove {taskList : TaskList ω} (ho : taskList.Owned taskData)
    (userId taskId : Bytes) : (taskList.remove taskData userId taskId).Owned taskData := by
  intro u t ht
  rw [tasksOf_remove] at ht
  split at ht
  · exact ho u t (List.mem_of_mem_filter ht)
  · exact ho u t ht

end TaskList

end KeepMyJournal.Common
