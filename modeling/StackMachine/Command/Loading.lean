import StackMachine.Command.Load

/-!
# Loading files side by side

One task for each file loads it and puts its program in the place of the file.  The
tasks take turns in any order.  The first failure that is returned is recorded and then
cancels the tasks that have not begun; failures returned after it are dropped.  When
every task is done, the group answers with the recorded failure or with all places.
-/

namespace StackMachine

namespace Loading

/-- Why a task returns without a program. -/
inductive Failure where
  | load (error : LoadError)
  /-- The group had been cancelled before the task began. -/
  | cancelled
  deriving DecidableEq

/-- What a task does next. -/
inductive Task where
  /-- It looks whether the group has been cancelled.  A task that nobody has launched yet is no
  different. -/
  | waiting
  | reading
  | storing (program : Program)
  | returning (failure : Failure)
  /-- Its failure has been recorded, and it cancels the group. -/
  | cancelling
  | done
  deriving DecidableEq

end Loading

/-- The state of a group of tasks. -/
structure Loading where
  tasks : List Loading.Task
  /-- One place for each file. -/
  places : List (Option Program)
  recorded : Option Loading.Failure := none
  cancelled : Bool := false
  deriving DecidableEq

namespace Loading

/-- No task has begun. -/
def start (names : List String) : Loading :=
  { tasks := names.map fun _ => .waiting, places := names.map fun _ => none }

/-- The group when a task has come to its next action. -/
def proceed (index : Nat) (task : Task) (loading : Loading) : Loading :=
  { loading with tasks := loading.tasks.set index task }

/-- The action of the task of a file. -/
def act (files : Files) (name : String) (index : Nat) (task : Task) (loading : Loading) :
    Option Loading :=
  match task with
  | .waiting =>
      some (loading.proceed index (if loading.cancelled then .returning .cancelled else .reading))
  | .reading =>
      match files.loadProgram name with
      | .ok program => some (loading.proceed index (.storing program))
      | .error error => some (loading.proceed index (.returning (.load error)))
  | .storing program =>
      some { loading.proceed index .done with places := loading.places.set index (some program) }
  | .returning failure =>
      if loading.recorded.isNone then
        some { loading.proceed index .cancelling with recorded := some failure }
      else some (loading.proceed index .done)
  | .cancelling => some { loading.proceed index .done with cancelled := true }
  | .done => none

/-- One action of the task at an index, if it has one left. -/
def advance (files : Files) (names : List String) (index : Nat) (loading : Loading) :
    Option Loading := do
  let name ← names[index]?
  let task ← loading.tasks[index]?
  loading.act files name index task

/-- The tasks take turns as a schedule says. -/
def follow (files : Files) (names : List String) : List Nat → Loading → Option Loading
  | [], loading => some loading
  | index :: schedule, loading => do
      let next ← loading.advance files names index
      next.follow files names schedule

/-- What the group answers once every task is done. -/
def outcome? (loading : Loading) : Option (Except Failure (List (Option Program))) :=
  if loading.tasks.all (· == .done) then
    match loading.recorded with
    | some failure => some (.error failure)
    | none => some (.ok loading.places)
  else none

end Loading

end StackMachine
