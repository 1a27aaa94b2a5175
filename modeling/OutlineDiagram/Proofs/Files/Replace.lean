/-
This file proves what replacing a file does. A replacement that is refused leaves the file
as it is, and a version that the monitor does not know is always refused. A version that it
knows is replaced whenever the temporary file can be written and nothing is locked: that one
lies beside the file, never in its place, and no two processes share one.
-/

import Mathlib.Data.List.Basic
import OutlineDiagram.Proofs.Files.Tree

namespace OutlineDiagram

namespace Store

variable {store later : Store} {path temporary : Path} {process : Nat}

/-! ### Temporary files -/

/-- The folder around the end of a path. -/
def around (store : Store) (path : Path) : Place := path.parts.dropLast.foldl step (store.start path)

/-- The name of a temporary file, for the name of the file that is replaced. -/
theorem exists_goal_temporary (store : Store)
    (isTemporary : path.temporary process = some temporary) :
    ∃ name, path.name? = some name ∧ store.goal path = step (store.around path) name ∧
      store.goal temporary = store.around path ++ ["." ++ name ++ ".tmp." ++ toString process] := by
  obtain ⟨name, isName, rfl⟩ := Option.map_eq_some_iff.mp isTemporary
  refine ⟨name, isName, ?_, ?_⟩
  · rw [goal, around, ← List.dropLast_append_getLast? name isName, List.foldl_append,
      List.dropLast_concat]
    rfl
  · -- The name is longer than two dots, so it leads down and not up.
    have isDown : "." ++ name ++ ".tmp." ++ toString process ≠ ".." := by
      intro same
      have lengths := congrArg String.length same
      simp only [String.length_append] at lengths
      have dot : (".").length = 1 := rfl
      have middle : (".tmp.").length = 5 := rfl
      have dots : ("..").length = 2 := rfl
      omega
    show List.foldl step (store.start path) (path.parts.dropLast ++ [_]) = _
    rw [List.foldl_append, List.foldl_cons, List.foldl_nil, step, if_neg isDown]
    rfl

/-- A temporary file is never in the place of the file. -/
theorem goal_temporary_ne (store : Store) (isTemporary : path.temporary process = some temporary) :
    store.goal path ≠ store.goal temporary := by
  obtain ⟨name, -, isGoal, isBeside⟩ := store.exists_goal_temporary isTemporary
  rw [isGoal, isBeside, step]
  intro same
  split at same
  · have lengths := congrArg List.length same
    rw [List.length_dropLast, List.length_append, List.length_singleton] at lengths
    omega
  · have lengths := congrArg String.length (List.singleton_inj.mp (List.append_cancel_left same))
    simp only [String.length_append] at lengths
    have dot : (".").length = 1 := rfl
    omega

/-- Two processes never have their temporary files in the same place. -/
theorem eq_of_goal_temporary_eq (store : Store) {otherProcess : Nat} {other : Path}
    (isTemporary : path.temporary process = some temporary)
    (isOther : path.temporary otherProcess = some other)
    (same : store.goal temporary = store.goal other) : process = otherProcess := by
  obtain ⟨name, isName, -, isBeside⟩ := store.exists_goal_temporary isTemporary
  obtain ⟨otherName, isOtherName, -, isOtherBeside⟩ := store.exists_goal_temporary isOther
  obtain rfl := Option.some.inj (isName.symm.trans isOtherName)
  rw [isBeside, isOtherBeside] at same
  have numerals : toString process = toString otherProcess :=
    (String.append_right_inj _).mp (List.singleton_inj.mp (List.append_cancel_left same))
  have digits : Nat.toDigits 10 process = Nat.toDigits 10 otherProcess := by
    rw [← Nat.toList_repr, ← Nat.toList_repr]
    exact congrArg String.toList numerals
  rw [← @Nat.ofDigitChars_ten_toDigits process, digits, Nat.ofDigitChars_ten_toDigits]

/-- The place of the temporary file by which a process replaces the file at a path. There is none
if the path has no name to change. -/
def temporaryPlaces (store : Store) (process : Nat) (path : Path) : List Place :=
  (path.temporary process).toList.map store.goal

theorem temporaryPlaces_of_temporary (isTemporary : path.temporary process = some temporary) :
    store.temporaryPlaces process path = [store.goal temporary] := by
  rw [temporaryPlaces, isTemporary]
  rfl

/-- The temporary file is locked, so it can be neither moved nor cleared away. -/
def HoldsTemporary (store : Store) (process : Nat) (path : Path) : Prop :=
  ∃ place ∈ store.temporaryPlaces process path, store.isLocked place = true

instance decidableHoldsTemporary : Decidable (store.HoldsTemporary process path) :=
  inferInstanceAs (Decidable (∃ place ∈ store.temporaryPlaces process path, _))

theorem holdsTemporary_of_isLocked (isTemporary : path.temporary process = some temporary)
    (locked : store.isLocked (store.goal temporary) = true) : store.HoldsTemporary process path := by
  rw [HoldsTemporary, temporaryPlaces_of_temporary isTemporary]
  exact ⟨_, List.mem_singleton_self _, locked⟩

/-! ### Unchanged files -/

theorem SameFolders.symm (same : later.SameFolders store) : store.SameFolders later where
  here := same.here.symm
  folders place := (same.folders place).symm

theorem ChangedAt.refl (tree : store.IsTree) (place : Place) : store.ChangedAt store place :=
  ⟨tree, .refl store, fun _ _ => rfl⟩

/-- The folders of two stores are the same, and so are the files but at some places. -/
structure SameBut (later first : Store) (places : List Place) : Prop where
  /-- The same places are folders. -/
  folders : later.SameFolders first
  /-- The other files are the same. -/
  files : ∀ place, place ∉ places → later.files.find? place = first.files.find? place

namespace SameBut

variable {places others : List Place}

theorem refl (store : Store) (places : List Place) : store.SameBut store places :=
  ⟨⟨rfl, fun _ => rfl⟩, fun _ _ => rfl⟩

theorem append {last later first : Store} (second : last.SameBut later others)
    (start : later.SameBut first places) : last.SameBut first (places ++ others) where
  folders := {
    here := second.folders.here.trans start.folders.here
    folders := fun place => (second.folders.folders place).trans (start.folders.folders place) }
  files place elsewhere := by
    rw [List.mem_append, not_or] at elsewhere
    exact (second.files place elsewhere.2).trans (start.files place elsewhere.1)

/-- A file that is not at one of the places stays as it is, and none appears. -/
theorem file_iff (same : later.SameBut store places) (elsewhere : store.goal path ∉ places)
    {file : File} : later.file path = .ok file ↔ store.file path = .ok file := by
  rw [file_eq_ok_iff, file_eq_ok_iff, goal_eq_of_here same.folders.here, same.files _ elsewhere]
  exact and_congr_left' ⟨Reaches.of_grownFrom same.folders.symm.grownFrom,
    Reaches.of_grownFrom same.folders.grownFrom⟩

end SameBut

theorem ChangedAt.file_eq_ok {place : Place} (changed : later.ChangedAt store place)
    (elsewhere : store.goal path ≠ place) {file : File} (isFile : store.file path = .ok file) :
    later.file path = .ok file := by
  obtain ⟨reaches, found⟩ := file_eq_ok_iff.mp isFile
  refine file_eq_ok_iff.mpr ⟨reaches.of_grownFrom changed.grown, ?_⟩
  rw [goal_eq_of_here changed.grown.here, changed.files _ elsewhere, found]

theorem ChangedAt.sameBut {place : Place} (changed : later.ChangedAt store place)
    (same : later.SameFolders store) : later.SameBut store [place] :=
  ⟨same, fun other elsewhere => changed.files other (mt List.mem_singleton.mpr elsewhere)⟩

/-- A change elsewhere that makes no folder leaves a file as it is, and makes none. -/
theorem ChangedAt.file_iff {place : Place} (changed : later.ChangedAt store place)
    (same : later.SameFolders store) (elsewhere : store.goal path ≠ place) {file : File} :
    later.file path = .ok file ↔ store.file path = .ok file :=
  (changed.sameBut same).file_iff (mt List.mem_singleton.mp elsewhere)

/-- Locks do not count for what is in a file. -/
theorem file_locks_iff (locks : List Lock) {file : File} :
    ({ store with locks := locks } : Store).file path = .ok file ↔ store.file path = .ok file := by
  have same : ({ store with locks := locks } : Store).SameBut store [] :=
    ⟨⟨rfl, fun _ => rfl⟩, fun _ _ => rfl⟩
  exact same.file_iff List.not_mem_nil

/-! ### Clearing away -/

/-- What is removed could be deleted. -/
theorem delete_of_remove (removed : store.remove path = .ok later) :
    store.delete path = .ok later := by
  rw [remove] at removed
  rw [delete]
  split at removed
  · exact removed
  · rw [eq_of_allowed removed]

/-- Clearing the temporary file away changes nothing else. -/
theorem IsTree.changedAt_discard (tree : store.IsTree)
    (cleared : store.discard temporary = .ok later) :
    later.ChangedAt store (store.goal temporary) ∧ later.SameFolders store := by
  rw [discard] at cleared
  split at cleared
  · next removed =>
    obtain rfl := Except.ok.inj cleared
    exact tree.changedAt_delete (delete_of_remove removed)
  · obtain rfl := Except.ok.inj cleared
    exact ⟨.refl tree _, rfl, fun _ => rfl⟩
  · exact absurd cleared (by simp)

theorem IsTree.file_iff_of_discard (tree : store.IsTree)
    (isTemporary : path.temporary process = some temporary)
    (cleared : store.discard temporary = .ok later) {file : File} :
    later.file path = .ok file ↔ store.file path = .ok file := by
  obtain ⟨changed, same⟩ := tree.changedAt_discard cleared
  exact changed.file_iff same (store.goal_temporary_ne isTemporary)

/-- A file that cannot be cleared away is locked. -/
theorem isLocked_of_discard {file : File} {error : FileError}
    (isThere : store.file temporary = .ok file) (failed : store.discard temporary = .error error) :
    store.isLocked (store.goal temporary) = true := by
  obtain ⟨reaches, found⟩ := file_eq_ok_iff.mp isThere
  have isPlace := filePlace_eq_ok_iff.mpr
    ⟨reaches.place_eq, Option.isSome_iff_exists.mpr ⟨file, found⟩⟩
  by_contra free
  simp only [discard, remove, isPlace, if_neg free] at failed
  exact absurd failed (by simp)

/-- Giving up ends without the temporary file, or else with the files as they are and the reason
why it cannot be cleared away. -/
theorem giveUp_cases (store : Store) (temporary path : Path) (monitor : Option Monitor)
    (reason : ReplaceError) :
    (∃ cleared, store.discard temporary = .ok cleared ∧
      store.giveUp temporary path monitor reason =
        { error := some reason, store := cleared, monitor := monitor,
          events := failureEvents path reason }) ∨
    ∃ error, store.discard temporary = .error error ∧
      store.giveUp temporary path monitor reason =
        { error := some (.file error), store := store, monitor := monitor } := by
  rw [giveUp]
  cases store.discard temporary with
  | ok cleared => exact Or.inl ⟨cleared, rfl, rfl⟩
  | error error => exact Or.inr ⟨error, rfl, rfl⟩

theorem error_giveUp_ne_none (store : Store) (temporary path : Path) (monitor : Option Monitor)
    (reason : ReplaceError) : (store.giveUp temporary path monitor reason).error ≠ none := by
  obtain ⟨_, -, given⟩ | ⟨_, -, given⟩ := store.giveUp_cases temporary path monitor reason <;>
    simp [given]

theorem monitor_giveUp (store : Store) (temporary path : Path) (monitor : Option Monitor)
    (reason : ReplaceError) : (store.giveUp temporary path monitor reason).monitor = monitor := by
  obtain ⟨_, -, given⟩ | ⟨_, -, given⟩ := store.giveUp_cases temporary path monitor reason <;>
    simp [given]

/-- What is wrong with the path or the disk is told, or else what is wrong with clearing away. -/
theorem exists_error_giveUp (store : Store) (temporary path : Path) (monitor : Option Monitor)
    (error : FileError) :
    ∃ told, (store.giveUp temporary path monitor (.file error)).error = some (.file told) := by
  obtain ⟨_, -, given⟩ | ⟨_, -, given⟩ := store.giveUp_cases temporary path monitor (.file error)
  · exact ⟨error, by rw [given]⟩
  · exact ⟨_, by rw [given]⟩

/-! ### Moving -/

theorem moveTarget_eq_ok_iff {place : Place} :
    store.moveTarget path = .ok place ↔ store.target path = .ok place := by
  rw [moveTarget]
  cases store.target path with
  | error error => simp
  | ok other => exact Iff.rfl

/-- One store is another one in which a file was moved to a path. -/
structure MovedTo (later store : Store) (source path : Path) (file : File) : Prop where
  /-- The file was where it is moved from. -/
  wasThere : store.file source = .ok file
  /-- The file is where it is moved to. -/
  isThere : later.file path = .ok file
  /-- No file is left where it was moved from. -/
  gone : store.goal path ≠ store.goal source → later.files.find? (store.goal source) = none
  /-- The files and folders form a tree. -/
  tree : later.IsTree
  /-- Nothing else is changed. -/
  same : later.SameBut store [store.goal source, store.goal path]

/-- A file that is moved comes to be where it is moved to, and is gone where it was. -/
theorem IsTree.move_spec (tree : store.IsTree) {source : Path}
    (moved : store.move source path = .ok later) : ∃ file, later.MovedTo store source path file := by
  rw [move] at moved
  split at moved
  · exact absurd moved (by simp)
  · next sourcePlace isSource =>
    split at moved
    · exact absurd moved (by simp)
    · exact absurd moved (by simp)
    · next file place found target =>
      obtain rfl := eq_of_allowed moved
      obtain ⟨isSourcePlace, isThere⟩ := filePlace_eq_ok_iff.mp isSource
      obtain ⟨sourceReaches, rfl⟩ := place_eq_ok_iff.mp isSourcePlace
      obtain ⟨isPlace, free⟩ := target_eq_ok_iff.mp (moveTarget_eq_ok_iff.mp target)
      obtain ⟨reaches, rfl⟩ := place_eq_ok_iff.mp isPlace
      have dropped := changedAt_dropAt tree isThere
      have sameFolders := sameFolders_dropAt (tree.aboveFile _ isThere)
      have above := tree.isFolder_above_goal reaches
      rw [← sameFolders.folders] at free above
      have put := changedAt_putAt dropped.tree file free above
      have same := (put.sameBut (sameFolders_putAt file above)).append (dropped.sameBut sameFolders)
      refine ⟨file, file_eq_ok_iff.mpr ⟨sourceReaches, found⟩,
        file_eq_ok_iff.mpr ⟨reaches.of_grownFrom same.folders.grownFrom, ?_⟩, ?_, put.tree, same⟩
      · rw [goal_eq_of_here same.folders.here]
        exact find?_putAt_self _ file
      · intro different
        rw [put.files _ different.symm]
        exact Table.find?_erase_self _ _

/-- A file can be moved over another one, if neither of them is locked. -/
theorem IsTree.exists_move (tree : store.IsTree) {source : Path} {file old : File}
    (isFile : store.file source = .ok file) (isOld : store.file path = .ok old)
    (sourceFree : ¬ store.isLocked (store.goal source) = true)
    (pathFree : ¬ store.isLocked (store.goal path) = true) :
    ∃ later, store.move source path = .ok later := by
  obtain ⟨sourceReaches, found⟩ := file_eq_ok_iff.mp isFile
  obtain ⟨reaches, oldFound⟩ := file_eq_ok_iff.mp isOld
  have isSource := filePlace_eq_ok_iff.mpr
    ⟨sourceReaches.place_eq, Option.isSome_iff_exists.mpr ⟨file, found⟩⟩
  have free := tree.apart _ (Option.isSome_iff_exists.mpr ⟨old, oldFound⟩)
  have target := moveTarget_eq_ok_iff.mpr (target_eq_ok_iff.mpr ⟨reaches.place_eq, free⟩)
  have unlocked : ¬ (store.isLocked (store.goal source) || store.isLocked (store.goal path)) = true :=
    by rw [Bool.or_eq_true, not_or]; exact ⟨sourceFree, pathFree⟩
  simp only [move, isSource, found, target, if_neg unlocked]
  exact ⟨_, rfl⟩

/-! ### Replacing -/

theorem forbids_of_file {seen : Monitor} {file : File} (isFile : store.file path = .ok file) :
    Monitor.forbids (some seen) path store =
      .ok (seen.stamps.find? path != some file.stamp) := by
  simp only [Monitor.forbids, Monitor.isModified, stamp_eq_ok_of_file isFile]

theorem file_ne_ok_of_forbids {seen : Monitor} {error : FileError}
    (forbids : Monitor.forbids (some seen) path store = .error error) (file : File) :
    store.file path ≠ .ok file := fun isFile =>
  absurd (forbids.symm.trans (forbids_of_file isFile)) (by simp)

theorem unknown_of_forbids {seen : Monitor} {file : File}
    (forbids : Monitor.forbids (some seen) path store = .ok true)
    (isFile : store.file path = .ok file) : seen.stamps.find? path ≠ some file.stamp :=
  bne_iff_ne.mp (Except.ok.inj (forbids.symm.trans (forbids_of_file isFile))).symm

theorem known_of_forbids {seen : Monitor} {file : File}
    (forbids : Monitor.forbids (some seen) path store = .ok false)
    (isFile : store.file path = .ok file) : seen.stamps.find? path = some file.stamp :=
  bne_eq_false_iff_eq.mp (Except.ok.inj (forbids.symm.trans (forbids_of_file isFile))).symm

/-- The disk does not take the temporary file. -/
def RefusesTemporary (store : Store) (process : Nat) (path : Path) (text : String) : Prop :=
  ∀ temporary, path.temporary process = some temporary →
    ∀ saved, store.save temporary text.toUTF8 ≠ .ok saved

/-- The file or the temporary one is locked, so that the one cannot be moved over the other. -/
def RefusesMove (store : Store) (process : Nat) (path : Path) : Prop :=
  store.HoldsTemporary process path ∨ store.isLocked (store.goal path) = true

/-- What the end of a replacement does, by the files that are there at the time. -/
structure Decides (outcome : Replacement) (store : Store) (process : Nat) (path : Path)
    (text : String) (seen : Monitor) : Prop where
  /-- The files and folders form a tree. -/
  tree : outcome.store.IsTree
  /-- A file that is not replaced is kept, and nothing new is known of it. -/
  kept : outcome.error ≠ none → outcome.monitor = some seen ∧
    ∀ file, outcome.store.file path = .ok file ↔ store.file path = .ok file
  /-- A file that is replaced holds the text, and its stamp is known. -/
  replaced : outcome.error = none → ∃ stamp, outcome.store.file path = .ok ⟨text.toUTF8, stamp⟩ ∧
    outcome.monitor = some ⟨seen.stamps.insert path stamp⟩
  /-- A version that is not the known one is not replaced. That is told, unless the temporary file
  is locked. -/
  modified : ∀ file, store.file path = .ok file → seen.stamps.find? path ≠ some file.stamp →
    (∃ time, outcome.error = some (.modified path time)) ∨
      store.HoldsTemporary process path ∧ ∃ error, outcome.error = some (.file error)
  /-- The temporary files of others are kept. -/
  others : ∀ other temporary file, other ≠ process → path.temporary other = some temporary →
    store.file temporary = .ok file → outcome.store.file temporary = .ok file

variable {text : String} {seen : Monitor} {outcome : Replacement}

section Refused

variable (tree : store.IsTree) (refused : outcome.error ≠ none) (monitor : outcome.monitor = some seen)
  (modified : ∀ file, store.file path = .ok file → seen.stamps.find? path ≠ some file.stamp →
    (∃ time, outcome.error = some (.modified path time)) ∨
      store.HoldsTemporary process path ∧ ∃ error, outcome.error = some (.file error))

include tree refused monitor modified

theorem decides_of_unchanged (same : outcome.store = store) :
    Decides outcome store process path text seen where
  tree := same ▸ tree
  kept _ := ⟨monitor, fun file => by rw [same]⟩
  replaced succeeded := absurd succeeded refused
  modified := modified
  others _ _ _ _ _ isFile := by rwa [same]

theorem decides_of_discarded (isTemporary : path.temporary process = some temporary)
    (discarded : store.discard temporary = .ok outcome.store) :
    Decides outcome store process path text seen where
  tree := (tree.changedAt_discard discarded).1.tree
  kept _ := ⟨monitor, fun file => tree.file_iff_of_discard isTemporary discarded⟩
  replaced succeeded := absurd succeeded refused
  modified := modified
  others other otherTemporary file different isOther isFile := by
    refine (tree.changedAt_discard discarded).1.file_eq_ok (fun same => different ?_) isFile
    exact store.eq_of_goal_temporary_eq isOther isTemporary same

end Refused

/-- A replacement that is given up decides by the files, if the reason is right. -/
theorem decides_of_giveUp (tree : store.IsTree) {reason : ReplaceError}
    (isTemporary : path.temporary process = some temporary)
    (modified : ∀ file, store.file path = .ok file → seen.stamps.find? path ≠ some file.stamp →
      (∃ time, (store.giveUp temporary path (some seen) reason).error =
        some (.modified path time)) ∨
      store.HoldsTemporary process path ∧
        ∃ error, (store.giveUp temporary path (some seen) reason).error = some (.file error)) :
    Decides (store.giveUp temporary path (some seen) reason) store process path text seen := by
  have refused := store.error_giveUp_ne_none temporary path (some seen) reason
  have monitor := store.monitor_giveUp temporary path (some seen) reason
  obtain ⟨cleared, discarded, given⟩ | ⟨error, -, given⟩ :=
    store.giveUp_cases temporary path (some seen) reason
  · exact decides_of_discarded tree refused monitor modified isTemporary (by rw [given, discarded])
  · exact decides_of_unchanged tree refused monitor modified (by rw [given])

/-- A replacement that ends as it begins is refused. If the version is the known one, the disk
does not take the temporary file. -/
theorem IsTree.stage_eq_error (tree : store.IsTree)
    (ended : store.stage process path text (some seen) = .error outcome) :
    outcome.error ≠ none ∧ Decides outcome store process path text seen ∧
      ∀ file, store.file path = .ok file → seen.stamps.find? path = some file.stamp →
        store.RefusesTemporary process path text ∧ ∃ error, outcome.error = some (.file error) := by
  cases early : Monitor.forbids (some seen) path store with
  | error error =>
    have absent := file_ne_ok_of_forbids early
    simp only [stage, early, Except.error.injEq] at ended
    subst ended
    exact ⟨by simp, decides_of_unchanged tree (by simp) rfl
      (fun file isFile => absurd isFile (absent file)) rfl,
      fun file isFile => absurd isFile (absent file)⟩
  | ok isModified =>
    cases isModified with
    | true =>
      simp only [stage, early, Except.error.injEq] at ended
      subst ended
      exact ⟨by simp, decides_of_unchanged tree (by simp) rfl (fun _ _ _ => Or.inl ⟨_, rfl⟩) rfl,
        fun file isFile known => absurd known (unknown_of_forbids early isFile)⟩
    | false =>
      cases isTemporary : path.temporary process with
      | none =>
        simp only [stage, early, isTemporary, Except.error.injEq] at ended
        subst ended
        refine ⟨by simp, decides_of_unchanged tree (by simp) rfl
          (fun file isFile unknown => absurd (known_of_forbids early isFile) unknown) rfl,
          fun _ _ _ => ?_⟩
        exact ⟨fun temporary found => absurd (isTemporary.symm.trans found) (by simp), _, rfl⟩
      | some temporary =>
        cases saved : store.save temporary text.toUTF8 with
        | ok later =>
          simp only [stage, early, isTemporary, saved] at ended
          exact absurd ended (by simp)
        | error error =>
          simp only [stage, early, isTemporary, saved, Except.error.injEq] at ended
          subst ended
          refine ⟨store.error_giveUp_ne_none _ _ _ _, decides_of_giveUp tree isTemporary
            (fun file isFile unknown => absurd (known_of_forbids early isFile) unknown),
            fun _ _ _ => ⟨fun other found later isSaved => ?_, store.exists_error_giveUp _ _ _ _⟩⟩
          obtain rfl := Option.some.inj (isTemporary.symm.trans found)
          exact absurd (saved.symm.trans isSaved) (by simp)

/-- A replacement that goes on has written the temporary file and changed nothing else. -/
theorem IsTree.stage_eq_ok (tree : store.IsTree) {monitor : Option Monitor} {saved : Store}
    (begun : store.stage process path text monitor = .ok (temporary, saved)) :
    path.temporary process = some temporary ∧ saved.ChangedAt store (store.goal temporary) ∧
      saved.SameFolders store ∧ ∃ stamp, saved.file temporary = .ok ⟨text.toUTF8, stamp⟩ := by
  rw [stage] at begun
  dsimp only at begun
  split at begun
  · exact absurd begun (by simp)
  · exact absurd begun (by simp)
  · exact absurd begun (by simp)
  · next written isTemporary =>
    split at begun
    · exact absurd begun (by simp)
    · next later isSaved =>
      obtain ⟨rfl, rfl⟩ := Prod.mk.inj (Except.ok.inj begun)
      obtain ⟨reaches, changed, same, stamp, isThere⟩ := tree.changedAt_save isSaved
      refine ⟨isTemporary, changed, same, stamp, file_eq_ok_iff.mpr ⟨?_, ?_⟩⟩
      · exact reaches.of_grownFrom changed.grown
      · rw [goal_eq_of_here same.here, isThere]

/-- The end of a replacement decides by what is at the path then. A version that is the known one
is replaced unless a lock stands against it, since the temporary file is there to be moved. -/
theorem IsTree.decides_commit (tree : store.IsTree) {stamp : Stamp}
    (isTemporary : path.temporary process = some temporary)
    (written : store.file temporary = .ok ⟨text.toUTF8, stamp⟩) :
    Decides (store.commit temporary path text (some seen)) store process path text seen ∧
      ∀ file, store.file path = .ok file → seen.stamps.find? path = some file.stamp →
        (store.commit temporary path text (some seen)).error = none ∨
          store.RefusesMove process path ∧
            ∃ error, (store.commit temporary path text (some seen)).error = some (.file error) := by
  cases late : Monitor.forbids (some seen) path store with
  | error error =>
    have absent := file_ne_ok_of_forbids late
    simp only [commit, late]
    exact ⟨decides_of_giveUp tree isTemporary fun file isFile => absurd isFile (absent file),
      fun file isFile => absurd isFile (absent file)⟩
  | ok isModified =>
    cases isModified with
    | true =>
      simp only [commit, late]
      refine ⟨decides_of_giveUp tree isTemporary fun _ _ _ => ?_,
        fun file isFile known => absurd known (unknown_of_forbids late isFile)⟩
      obtain ⟨_, -, given⟩ | ⟨_, failed, given⟩ :=
        store.giveUp_cases temporary path (some seen) (.modified path .late)
      · exact Or.inl ⟨_, by rw [given]⟩
      · have locked := isLocked_of_discard written failed
        exact Or.inr ⟨holdsTemporary_of_isLocked isTemporary locked, _, by rw [given]⟩
    | false =>
      cases moved : store.move temporary path with
      | error error =>
        simp only [commit, late, moved]
        refine ⟨decides_of_giveUp tree isTemporary fun file isFile unknown =>
          absurd (known_of_forbids late isFile) unknown, fun file isFile _ => Or.inr ⟨?_,
            store.exists_error_giveUp _ _ _ _⟩⟩
        -- Both files are there, so only a lock can stand against the move.
        by_contra free
        rw [RefusesMove, not_or] at free
        obtain ⟨later, done⟩ := tree.exists_move written isFile
          (fun locked => free.1 (holdsTemporary_of_isLocked isTemporary locked)) free.2
        exact absurd (moved.symm.trans done) (by simp)
      | ok done =>
        obtain ⟨file, movedTo⟩ := tree.move_spec moved
        obtain rfl := Except.ok.inj (written.symm.trans movedTo.wasThere)
        have recorded : seen.record path done = .ok ⟨seen.stamps.insert path stamp⟩ := by
          simp only [Monitor.record, stamp_eq_ok_of_file movedTo.isThere]
        simp only [commit, late, moved, Option.map_some, recorded, Except.toOption,
          Option.getD_some, true_or, implies_true, and_true]
        exact {
          tree := movedTo.tree
          kept := fun refused => absurd rfl refused
          replaced := fun _ => ⟨stamp, movedTo.isThere, rfl⟩
          modified := fun file isFile unknown => absurd (known_of_forbids late isFile) unknown
          others := by
            -- They are not where the file was moved from, and not where it went.
            intro other otherTemporary file different isOther isFile
            refine (movedTo.same.file_iff ?_).mpr isFile
            rw [List.mem_pair, not_or]
            exact ⟨fun same => different (store.eq_of_goal_temporary_eq isOther isTemporary same),
              (store.goal_temporary_ne isOther).symm⟩ }

end Store

end OutlineDiagram
