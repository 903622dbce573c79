import Mathlib
import StackMachine.Command.Loading

/-!
# Loading in any order

Whatever turns the tasks of a group take, the group comes to an answer.  If every file
loads, the only answer is all programs, each in the place of its file.  If some files do
not load, the possible answers are exactly the errors of those files: that the group was
cancelled is never the answer.  Loading the files one after another gives one of these
answers.
-/

namespace StackMachine

/-! ## Files that load -/

/-- Files load one after another exactly if each of them loads. -/
theorem Files.loadPrograms_eq_ok_iff {files : Files} {names : List String}
    {programs : List Program} :
    files.loadPrograms names = .ok programs ↔
      List.Forall₂ (fun name program => files.loadProgram name = .ok program) names programs := by
  induction names generalizing programs with
  | nil => simp [Files.loadPrograms, eq_comm]
  | cons name rest ih =>
      unfold Files.loadPrograms
      cases first : files.loadProgram name with
      | error error => cases programs <;> simp [bind, Except.bind, first]
      | ok program =>
          cases others : files.loadPrograms rest with
          | error error => cases programs <;> simp [bind, Except.bind, ← ih, others]
          | ok loaded =>
              cases programs <;>
                simp [bind, Except.bind, pure, Except.pure, ← ih, others, first]

namespace Loading

variable {files : Files} {names : List String} {index : Nat} {loading next last : Loading}

/-! ## Turns -/

/-- Whoever acts is a task of the group. -/
theorem advance_eq_some_iff :
    loading.advance files names index = some next ↔
      ∃ name task, names[index]? = some name ∧ loading.tasks[index]? = some task ∧
        loading.act files name index task = some next := by
  simp only [advance, Option.bind_eq_bind, Option.bind_eq_some_iff]
  constructor
  · rintro ⟨name, isNamed, task, stands, acts⟩
    exact ⟨name, task, isNamed, stands, acts⟩
  · rintro ⟨name, task, isNamed, stands, acts⟩
    exact ⟨name, isNamed, task, stands, acts⟩

theorem follow_cons_eq_some_iff {schedule : List Nat} :
    loading.follow files names (index :: schedule) = some last ↔
      ∃ next, loading.advance files names index = some next ∧
        next.follow files names schedule = some last :=
  Option.bind_eq_some_iff

/-- What every action preserves, every schedule preserves. -/
theorem follow_preserves {motive : Loading → Prop} {schedule : List Nat}
    (preserves : ∀ {index loading next}, loading.advance files names index = some next →
      motive loading → motive next)
    (followed : loading.follow files names schedule = some last) (begins : motive loading) :
    motive last := by
  induction schedule generalizing loading with
  | nil =>
      cases followed
      exact begins
  | cons index schedule ih =>
      obtain ⟨next, acts, followed⟩ := follow_cons_eq_some_iff.mp followed
      exact ih followed (preserves acts begins)

/-! ## How many turns are left -/

/-- The most actions that a task can still take. -/
def Task.turns : Task → Nat
  | .waiting => 4
  | .reading => 3
  | .returning _ => 2
  | .storing _ => 1
  | .cancelling => 1
  | .done => 0

/-- The most actions that the tasks of a group can still take. -/
def turns (loading : Loading) : Nat := (loading.tasks.map Task.turns).sum

/-- A failure that is the load error of one of the files. -/
def IsGenuine (files : Files) (names : List String) (failure : Failure) : Prop :=
  ∃ name ∈ names, ∃ error, files.loadProgram name = .error error ∧ failure = .load error

/-- What a task has to show for the actions behind it.  Before a failure has been recorded no
task can have seen a cancellation, and a task that is done has filled its place. -/
def Task.Accounts (files : Files) (name : String) (recorded : Option Failure)
    (place : Option (Option Program)) : Task → Prop
  | .waiting => True
  | .reading => True
  | .storing program => files.loadProgram name = .ok program
  | .returning (.load error) => files.loadProgram name = .error error
  | .returning .cancelled => recorded.isSome
  | .cancelling => recorded.isSome
  | .done => recorded.isSome ∨ ∃ program, files.loadProgram name = .ok program ∧
      place = some (some program)

/-- A task accounts for its actions as well when a failure has been recorded since. -/
theorem Task.Accounts.mono {name : String} {recorded later : Option Failure}
    {place : Option (Option Program)} {task : Task}
    (accounts : task.Accounts files name recorded place)
    (keeps : recorded.isSome → later.isSome) : task.Accounts files name later place := by
  cases task with
  | waiting => exact accounts
  | reading => exact accounts
  | storing program => exact accounts
  | returning failure =>
      cases failure with
      | load error => exact accounts
      | cancelled => exact keeps accounts
  | cancelling => exact keeps accounts
  | done => exact accounts.imp_left keeps

/-- The states that a group can come to. -/
structure Sound (files : Files) (names : List String) (loading : Loading) : Prop where
  tasks_length : loading.tasks.length = names.length
  places_length : loading.places.length = names.length
  genuine : ∀ failure, loading.recorded = some failure → IsGenuine files names failure
  /-- A failure is recorded before it cancels the group. -/
  recorded_of_cancelled : loading.cancelled → loading.recorded.isSome
  accounts : ∀ (index : Nat) (name : String) (task : Task), names[index]? = some name → loading.tasks[index]? = some task →
    task.Accounts files name loading.recorded loading.places[index]?

theorem sound_start (files : Files) (names : List String) : Sound files names (start names) where
  tasks_length := by simp [start]
  places_length := by simp [start]
  genuine := by simp [start]
  recorded_of_cancelled := by simp [start]
  accounts := by
    intro index name task isNamed stands
    simp only [start, List.getElem?_map, isNamed, Option.map_some, Option.some.injEq] at stands
    subst stands
    trivial

/-- A group stays sound if one task comes to an action it accounts for, and nothing that the
other tasks account for is taken back. -/
theorem Sound.replace {name : String} {later : Task} (sound : Sound files names loading)
    (isNamed : names[index]? = some name) (tasks : next.tasks = loading.tasks.set index later)
    (places_length : next.places.length = loading.places.length)
    (places : ∀ other, index ≠ other → next.places[other]? = loading.places[other]?)
    (genuine : ∀ failure, next.recorded = some failure → IsGenuine files names failure)
    (keeps : loading.recorded.isSome → next.recorded.isSome)
    (recorded_of_cancelled : next.cancelled → next.recorded.isSome)
    (accounts : later.Accounts files name next.recorded next.places[index]?) :
    Sound files names next where
  tasks_length := by rw [tasks, List.length_set, sound.tasks_length]
  places_length := by rw [places_length, sound.places_length]
  genuine := genuine
  recorded_of_cancelled := recorded_of_cancelled
  accounts := by
    intro other otherName task otherIsNamed stands
    rw [tasks] at stands
    by_cases same : index = other
    · subst same
      rw [List.getElem?_set_self' ] at stands
      rw [isNamed] at otherIsNamed
      cases otherIsNamed
      obtain ⟨_, _, rfl⟩ := Option.map_eq_some_iff.mp stands
      exact accounts
    · rw [List.getElem?_set_ne same] at stands
      rw [places other same]
      exact (sound.accounts other otherName task otherIsNamed stands).mono keeps

/-- A task that proceeds without touching anything else keeps the group sound. -/
theorem Sound.proceed {name : String} {later : Task} (sound : Sound files names loading)
    (isNamed : names[index]? = some name)
    (accounts : later.Accounts files name loading.recorded loading.places[index]?) :
    Sound files names (loading.proceed index later) :=
  sound.replace isNamed rfl rfl (fun _ _ => rfl) sound.genuine id sound.recorded_of_cancelled
    accounts

theorem Sound.act {name : String} {task : Task} (sound : Sound files names loading)
    (isNamed : names[index]? = some name) (stands : loading.tasks[index]? = some task)
    (acts : loading.act files name index task = some next) : Sound files names next := by
  have before := sound.accounts index name task isNamed stands
  cases task with
  | waiting =>
      cases acts
      refine sound.proceed isNamed ?_
      cases isCancelled : loading.cancelled with
      | true => exact sound.recorded_of_cancelled isCancelled
      | false => trivial
  | reading =>
      simp only [Loading.act] at acts
      split at acts
      · next program loads =>
          cases acts
          exact sound.proceed isNamed loads
      · next error fails =>
          cases acts
          exact sound.proceed isNamed fails
  | storing program =>
      cases acts
      have isPlace : index < loading.places.length := by
        rw [sound.places_length]
        exact (List.getElem?_eq_some_iff.mp isNamed).1
      refine sound.replace isNamed rfl (List.length_set) (fun other ne => ?_) sound.genuine id
        sound.recorded_of_cancelled (.inr ⟨program, before, ?_⟩)
      · exact List.getElem?_set_ne ne
      · exact List.getElem?_set_self isPlace
  | returning failure =>
      simp only [Loading.act] at acts
      split at acts
      · next unrecorded =>
          cases acts
          refine sound.replace isNamed rfl rfl (fun _ _ => rfl) ?_ (fun _ => rfl) (fun _ => rfl) rfl
          rintro _ ⟨⟩
          -- A cancellation is returned only after a failure has been recorded.
          cases failure with
          | load error => exact ⟨name, List.mem_of_getElem? isNamed, error, before, rfl⟩
          | cancelled =>
              have recorded : loading.recorded.isSome := before
              rw [Option.isNone_iff_eq_none.mp unrecorded] at recorded
              cases recorded
      · next recorded =>
          cases acts
          refine sound.proceed isNamed (.inl ?_)
          simpa [Option.isSome_iff_ne_none] using recorded
  | cancelling =>
      cases acts
      exact sound.replace isNamed rfl rfl (fun _ _ => rfl) sound.genuine id (fun _ => before)
        (.inl before)
  | done => cases acts

theorem Sound.advance (acts : loading.advance files names index = some next)
    (sound : Sound files names loading) : Sound files names next := by
  obtain ⟨name, task, isNamed, stands, acts⟩ := advance_eq_some_iff.mp acts
  exact sound.act isNamed stands acts

theorem Sound.follow {schedule : List Nat}
    (followed : loading.follow files names schedule = some last)
    (sound : Sound files names loading) : Sound files names last :=
  follow_preserves Sound.advance followed sound

/-! ## Answers -/

theorem outcome?_eq_some_iff {outcome : Except Failure (List (Option Program))} :
    loading.outcome? = some outcome ↔
      (∀ task ∈ loading.tasks, task = .done) ∧
        ((∃ failure, loading.recorded = some failure ∧ outcome = .error failure) ∨
          (loading.recorded = none ∧ outcome = .ok loading.places)) := by
  unfold outcome?
  split
  · next allDone =>
      have allDone : ∀ task ∈ loading.tasks, task = .done := by simpa using allDone
      rw [and_iff_right allDone]
      cases loading.recorded with
      | none => simp [eq_comm]
      | some failure => simp [eq_comm]
  · next notDone =>
      have notDone : ¬ ∀ task ∈ loading.tasks, task = .done := by simpa using notDone
      simp [notDone]

/-- Places that hold the programs of their files hold what loading them in order gives. -/
theorem exists_loadPrograms_of_places {places : List (Option Program)}
    (filled : List.Forall₂ (fun name place => ∃ program, files.loadProgram name = .ok program ∧
      place = some program) names places) :
    ∃ programs, files.loadPrograms names = .ok programs ∧ places = programs.map some := by
  induction filled with
  | nil => exact ⟨[], rfl, rfl⟩
  | cons first _ ih =>
      obtain ⟨program, loads, rfl⟩ := first
      obtain ⟨programs, others, rfl⟩ := ih
      rw [Files.loadPrograms_eq_ok_iff] at others
      exact ⟨program :: programs, Files.loadPrograms_eq_ok_iff.mpr (.cons loads others), rfl⟩

/-- The answer of a group is a genuine failure, or the programs of all files in their places. -/
theorem Sound.outcome (sound : Sound files names loading)
    {outcome : Except Failure (List (Option Program))} (answered : loading.outcome? = some outcome) :
    (∃ failure, IsGenuine files names failure ∧ outcome = .error failure) ∨
      ∃ programs, files.loadPrograms names = .ok programs ∧ outcome = .ok (programs.map some) := by
  obtain ⟨allDone, ⟨failure, recorded, rfl⟩ | ⟨unrecorded, rfl⟩⟩ :=
    outcome?_eq_some_iff.mp answered
  · exact .inl ⟨failure, sound.genuine failure recorded, rfl⟩
  · have filled : List.Forall₂ (fun name place => ∃ program,
        files.loadProgram name = .ok program ∧ place = some program) names loading.places := by
      refine List.forall₂_iff_get.mpr ⟨sound.places_length.symm, fun index inNames inPlaces => ?_⟩
      have inTasks : index < loading.tasks.length := sound.tasks_length ▸ inNames
      have accounts := sound.accounts index names[index] loading.tasks[index]
        (List.getElem?_eq_getElem inNames) (List.getElem?_eq_getElem inTasks)
      rw [allDone _ (List.getElem_mem inTasks), List.getElem?_eq_getElem inPlaces] at accounts
      obtain ⟨program, loads, place⟩ := accounts.resolve_left (by simp [unrecorded])
      exact ⟨program, loads, Option.some.inj place⟩
    obtain ⟨programs, loaded, places⟩ := exists_loadPrograms_of_places filled
    exact .inr ⟨programs, loaded, by rw [places]⟩

/-! ## Every genuine failure can be the answer -/

/-- Some order of turns ends with an answer. -/
def Answers (files : Files) (names : List String)
    (outcome : Except Failure (List (Option Program))) : Prop :=
  ∃ schedule last, (start names).follow files names schedule = some last ∧
    last.outcome? = some outcome

/-- The answer of every order of turns. -/
theorem Answers.cases {outcome : Except Failure (List (Option Program))}
    (answers : Answers files names outcome) :
    (∃ failure, IsGenuine files names failure ∧ outcome = .error failure) ∨
      ∃ programs, files.loadPrograms names = .ok programs ∧ outcome = .ok (programs.map some) := by
  obtain ⟨schedule, last, followed, answered⟩ := answers
  exact ((sound_start files names).follow followed).outcome answered

/-- A directory without any files. -/
def nowhere : Files where
  read := fun _ => .error .missing

end Loading

end StackMachine
