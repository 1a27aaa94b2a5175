/-
This file proves that files and folders form a tree, whatever is done with them.
Every file and every folder lies in a folder, and no place is both. A path is followed
through folders only, so a path that leads somewhere goes on doing so as long as no
folder is taken away, and nothing here takes one away.
-/

import OutlineDiagram.Files.Replace

namespace OutlineDiagram

namespace Table

variable {κ α : Type} [DecidableEq κ] (table : Table κ α) {key other : κ}

theorem contains_insert_iff {value : α} :
    (table.insert key value).contains other = true ↔ other = key ∨ table.contains other = true := by
  by_cases same : other = key
  · rw [same, contains, find?_insert_self]
    exact iff_of_true rfl (Or.inl rfl)
  · rw [contains, find?_insert_of_ne table value same, contains]
    exact (or_iff_right same).symm

theorem contains_erase_iff :
    (table.erase key).contains other = true ↔ other ≠ key ∧ table.contains other = true := by
  by_cases same : other = key
  · rw [same, contains, find?_erase_self]
    exact iff_of_false (by simp) fun both => both.1 rfl
  · rw [contains, find?_erase_of_ne table same, contains]
    exact (and_iff_right same).symm

end Table

namespace Store

/-! ### Trees -/

/-- The files and folders form a tree. -/
structure IsTree (store : Store) : Prop where
  /-- The top folder is there. -/
  top : store.folders.contains [] = true
  /-- The folder that work is done in is there. -/
  here : store.folders.contains store.here = true
  /-- A folder lies in a folder. -/
  aboveFolder : ∀ place, store.folders.contains place = true →
    store.folders.contains place.dropLast = true
  /-- A file lies in a folder. -/
  aboveFile : ∀ place, store.files.contains place = true →
    store.folders.contains place.dropLast = true
  /-- A file is no folder. -/
  apart : ∀ place, store.files.contains place = true → store.folders.contains place = false

/-- The folders of one store are those of another one. -/
structure SameFolders (later first : Store) : Prop where
  /-- Work is done in the same folder. -/
  here : later.here = first.here
  /-- The same places are folders. -/
  folders : ∀ place, later.folders.contains place = first.folders.contains place

/-- The folders of one store are among those of another one. -/
structure GrownFrom (later first : Store) : Prop where
  /-- Work is done in the same folder. -/
  here : later.here = first.here
  /-- What was a folder is still one. -/
  folders : ∀ place, first.folders.contains place = true → later.folders.contains place = true

theorem GrownFrom.refl (store : Store) : store.GrownFrom store := ⟨rfl, fun _ found => found⟩

theorem GrownFrom.trans {last later first : Store} (second : last.GrownFrom later)
    (start : later.GrownFrom first) : last.GrownFrom first where
  here := second.here.trans start.here
  folders place found := second.folders place (start.folders place found)

theorem SameFolders.grownFrom {later first : Store} (same : later.SameFolders first) :
    later.GrownFrom first where
  here := same.here
  folders place found := (same.folders place).trans found

/-! ### Following paths -/

/-- From a folder names can be followed, through folders and as far as the disk takes them. -/
def Opens (store : Store) : Place → List String → Prop
  | _, [] => True
  | folder, name :: rest =>
    store.folders.contains folder = true ∧ name.utf8ByteSize ≤ nameLimit ∧
      store.Opens (step folder name) rest

/-- Where a path leads if it leads anywhere. -/
def goal (store : Store) (path : Path) : Place := path.parts.foldl step (store.start path)

/-- A path leads somewhere. -/
def Reaches (store : Store) (path : Path) : Prop :=
  pathError? path = none ∧ store.Opens (store.start path) path.parts

variable {store later : Store} {path : Path}

theorem follow_eq_ok_iff {folder place : Place} {names : List String} :
    store.follow folder names = .ok place ↔
      store.Opens folder names ∧ place = names.foldl step folder := by
  induction names generalizing folder with
  | nil =>
    rw [follow, Except.ok.injEq, Opens, true_and]
    exact eq_comm
  | cons name rest inductionHypothesis =>
    rw [follow, Opens, List.foldl_cons]
    by_cases found : store.folders.contains folder = true
    · by_cases long : nameLimit < name.utf8ByteSize
      · simp [found, long, Nat.not_le.mpr long]
      · simp [found, long, inductionHypothesis, Nat.not_lt.mp long]
    · simp [found]

theorem place_eq_ok_iff {place : Place} :
    store.place path = .ok place ↔ store.Reaches path ∧ place = store.goal path := by
  rw [Store.place, Reaches]
  cases pathError? path with
  | none => simp [follow_eq_ok_iff, goal]
  | some error => simp

theorem Reaches.place_eq (reaches : store.Reaches path) : store.place path = .ok (store.goal path) :=
  place_eq_ok_iff.mpr ⟨reaches, rfl⟩

theorem goal_eq_of_here (here : later.here = store.here) : later.goal path = store.goal path := by
  rw [goal, start, here]
  rfl

theorem Opens.of_grownFrom (grown : later.GrownFrom store) {folder : Place} {names : List String}
    (opens : store.Opens folder names) : later.Opens folder names := by
  induction names generalizing folder with
  | nil => trivial
  | cons name rest inductionHypothesis =>
    exact ⟨grown.folders folder opens.1, opens.2.1, inductionHypothesis opens.2.2⟩

theorem Reaches.of_grownFrom (grown : later.GrownFrom store) (reaches : store.Reaches path) :
    later.Reaches path := by
  refine ⟨reaches.1, ?_⟩
  rw [start, grown.here]
  exact reaches.2.of_grownFrom grown

namespace IsTree

variable (tree : store.IsTree)

include tree

theorem isFolder_start (path : Path) : store.folders.contains (store.start path) = true := by
  rw [start]
  split
  · exact tree.here
  · exact tree.top

theorem isFolder_above {folder : Place} {names : List String}
    (isFolder : store.folders.contains folder = true) (opens : store.Opens folder names) :
    store.folders.contains (names.foldl step folder).dropLast = true := by
  induction names generalizing folder with
  | nil => exact tree.aboveFolder folder isFolder
  | cons name rest inductionHypothesis =>
    cases rest with
    | nil =>
      show store.folders.contains (step folder name).dropLast = true
      rw [step]
      split
      · exact tree.aboveFolder _ (tree.aboveFolder folder isFolder)
      · rwa [List.dropLast_concat]
    | cons next rest => exact inductionHypothesis opens.2.2.1 opens.2.2

/-- Around the end of a path there is a folder. -/
theorem isFolder_above_goal (reaches : store.Reaches path) :
    store.folders.contains (store.goal path).dropLast = true :=
  tree.isFolder_above (tree.isFolder_start path) reaches.2

/-- A store with the same folders is a tree if its files are old ones or at places for files. -/
theorem of_sameFolders (same : later.SameFolders store)
    (files : ∀ place, later.files.contains place = true → store.files.contains place = true ∨
      store.folders.contains place = false ∧ store.folders.contains place.dropLast = true) :
    later.IsTree where
  top := (same.folders _).trans tree.top
  here := by
    rw [same.here, same.folders]
    exact tree.here
  aboveFolder place found := by
    rw [same.folders] at found ⊢
    exact tree.aboveFolder place found
  aboveFile place found := by
    rw [same.folders]
    exact (files place found).elim (tree.aboveFile place) And.right
  apart place found := by
    rw [same.folders]
    exact (files place found).elim (tree.apart place) And.left

end IsTree

/-! ### Single places -/

/-- One store is another one that was changed at a place. -/
structure ChangedAt (later first : Store) (place : Place) : Prop where
  /-- The files and folders form a tree. -/
  tree : later.IsTree
  /-- No folder is gone. -/
  grown : later.GrownFrom first
  /-- The other files are the same. -/
  files : ∀ other, other ≠ place → later.files.find? other = first.files.find? other

theorem sameFolders_restamp {place : Place}
    (above : store.folders.contains place.dropLast = true) :
    (store.restamp place).SameFolders store where
  here := rfl
  folders other := by
    show (store.folders.insert place.dropLast _).contains other = _
    rw [Bool.eq_iff_iff, Table.contains_insert_iff]
    refine or_iff_right_of_imp fun same => ?_
    rw [same]
    exact above

theorem find?_putAt_self (place : Place) (file : File) :
    (store.putAt place file).files.find? place = some file := by
  rw [putAt]
  split <;> exact Table.find?_insert_self _ _ _

theorem find?_putAt_of_ne {place other : Place} (file : File) (different : other ≠ place) :
    (store.putAt place file).files.find? other = store.files.find? other := by
  rw [putAt]
  split <;> exact Table.find?_insert_of_ne _ _ different

theorem sameFolders_putAt {place : Place} (file : File)
    (above : store.folders.contains place.dropLast = true) :
    (store.putAt place file).SameFolders store := by
  rw [putAt]
  split
  · exact ⟨rfl, fun _ => rfl⟩
  · have same := @sameFolders_restamp { store with files := store.files.insert place file } place above
    exact ⟨same.here, same.folders⟩

theorem find?_dropAt_of_ne {place other : Place} (different : other ≠ place) :
    (store.dropAt place).files.find? other = store.files.find? other :=
  Table.find?_erase_of_ne _ different

theorem sameFolders_dropAt {place : Place}
    (above : store.folders.contains place.dropLast = true) :
    (store.dropAt place).SameFolders store := by
  have same := @sameFolders_restamp { store with files := store.files.erase place } place above
  exact ⟨same.here, same.folders⟩

section Tree

variable (tree : store.IsTree) {place : Place}

include tree

theorem changedAt_putAt (file : File) (free : store.folders.contains place = false)
    (above : store.folders.contains place.dropLast = true) :
    (store.putAt place file).ChangedAt store place where
  tree := by
    refine tree.of_sameFolders (sameFolders_putAt file above) fun other found => ?_
    by_cases same : other = place
    · rw [same]
      exact Or.inr ⟨free, above⟩
    · rw [Table.contains, find?_putAt_of_ne file same] at found
      exact Or.inl found
  grown := (sameFolders_putAt file above).grownFrom
  files _ different := find?_putAt_of_ne file different

theorem changedAt_dropAt (found : store.files.contains place = true) :
    (store.dropAt place).ChangedAt store place where
  tree := by
    refine tree.of_sameFolders (sameFolders_dropAt (tree.aboveFile place found)) fun other still => ?_
    exact Or.inl ((Table.contains_erase_iff _).mp still).2
  grown := (sameFolders_dropAt (tree.aboveFile place found)).grownFrom
  files _ different := find?_dropAt_of_ne different

end Tree

/-! ### Operations -/

/-- What is done although it could be refused was not refused. -/
theorem eq_of_allowed {refused : Prop} [Decidable refused] {error : FileError} {result : Store}
    (done : (if refused then .error error else .ok result) = Except.ok later) : result = later := by
  split at done
  · exact absurd done (by simp)
  · exact Except.ok.inj done

/-- A file can be written where a path leads to no folder. -/
theorem target_eq_ok_iff {place : Place} :
    store.target path = .ok place ↔
      store.place path = .ok place ∧ store.folders.contains place = false := by
  rw [target]
  cases store.place path with
  | error error => simp
  | ok other =>
    dsimp only
    constructor
    · intro same
      split at same
      · exact absurd same (by simp)
      · next free =>
        obtain rfl := Except.ok.inj same
        exact ⟨rfl, Bool.eq_false_iff.mpr free⟩
    · rintro ⟨same, free⟩
      obtain rfl := Except.ok.inj same
      exact if_neg (Bool.eq_false_iff.mp free)

theorem filePlace_eq_ok_iff {place : Place} :
    store.filePlace path = .ok place ↔
      store.place path = .ok place ∧ store.files.contains place = true := by
  rw [filePlace]
  cases store.place path with
  | error error => simp
  | ok other =>
    dsimp only
    constructor
    · intro same
      split at same
      · next isFile =>
        obtain rfl := Except.ok.inj same
        exact ⟨rfl, isFile⟩
      · exact absurd same (by simp)
    · rintro ⟨same, isFile⟩
      obtain rfl := Except.ok.inj same
      exact if_pos isFile

theorem file_eq_ok_iff {file : File} :
    store.file path = .ok file ↔
      store.Reaches path ∧ store.files.find? (store.goal path) = some file := by
  rw [Store.file]
  constructor
  · intro found
    split at found
    · exact absurd found (by simp)
    · next place isPlace =>
      obtain ⟨reaches, rfl⟩ := place_eq_ok_iff.mp (filePlace_eq_ok_iff.mp isPlace).1
      split at found
      · next other isFile => exact ⟨reaches, isFile.trans (congrArg some (Except.ok.inj found))⟩
      · exact absurd found (by simp)
  · rintro ⟨reaches, isFile⟩
    have isPlace := filePlace_eq_ok_iff.mpr ⟨reaches.place_eq, Option.isSome_iff_exists.mpr ⟨_, isFile⟩⟩
    simp only [isPlace, isFile]

theorem stamp_eq_ok_of_file {file : File} (found : store.file path = .ok file) :
    store.stamp path = .ok file.stamp := by
  obtain ⟨reaches, isFile⟩ := file_eq_ok_iff.mp found
  simp only [stamp, reaches.place_eq, isFile]
  rfl

namespace IsTree

variable (tree : store.IsTree)

include tree

theorem changedAt_delete (deleted : store.delete path = .ok later) :
    later.ChangedAt store (store.goal path) ∧ later.SameFolders store := by
  rw [delete] at deleted
  split at deleted
  · exact absurd deleted (by simp)
  · next place found =>
    obtain ⟨isPlace, isFile⟩ := filePlace_eq_ok_iff.mp found
    obtain ⟨-, rfl⟩ := place_eq_ok_iff.mp isPlace
    obtain rfl := Except.ok.inj deleted
    exact ⟨changedAt_dropAt tree isFile, sameFolders_dropAt (tree.aboveFile _ isFile)⟩

/-- Locks are no part of the tree. -/
theorem changedAt_locks (locks : List Lock) (place : Place) :
    ({ store with locks := locks } : Store).ChangedAt store place :=
  ⟨tree.of_sameFolders ⟨rfl, fun _ => rfl⟩ fun _ isFile => Or.inl isFile,
    ⟨rfl, fun _ isFolder => isFolder⟩, fun _ _ => rfl⟩

theorem changedAt_save {bytes : ByteArray} (saved : store.save path bytes = .ok later) :
    store.Reaches path ∧ later.ChangedAt store (store.goal path) ∧ later.SameFolders store ∧
      ∃ stamp, later.files.find? (store.goal path) = some ⟨bytes, stamp⟩ := by
  rw [save] at saved
  split at saved
  · exact absurd saved (by simp)
  · next place found =>
    obtain ⟨isPlace, free⟩ := target_eq_ok_iff.mp found
    obtain ⟨reaches, rfl⟩ := place_eq_ok_iff.mp isPlace
    obtain rfl := eq_of_allowed saved
    have above := tree.isFolder_above_goal reaches
    have counted : IsTree { store with writes := store.writes + 1 } :=
      tree.of_sameFolders ⟨rfl, fun _ => rfl⟩ fun _ isFile => Or.inl isFile
    have changed := changedAt_putAt counted ⟨bytes, .written (store.writes + 1)⟩ free above
    have same := @sameFolders_putAt { store with writes := store.writes + 1 } (store.goal path)
      ⟨bytes, .written (store.writes + 1)⟩ above
    refine ⟨reaches, ⟨changed.tree, ⟨changed.grown.here, changed.grown.folders⟩, changed.files⟩,
      ⟨same.here, same.folders⟩, _, find?_putAt_self _ _⟩

theorem changedAt_touch {stamp : Stamp} (touched : store.touch path stamp = .ok later) :
    later.ChangedAt store (store.goal path) := by
  rw [touch] at touched
  split at touched
  · exact absurd touched (by simp)
  · next place found =>
    obtain ⟨-, rfl⟩ := place_eq_ok_iff.mp found
    split at touched
    · next file isFile =>
      obtain rfl := Except.ok.inj touched
      refine ⟨tree.of_sameFolders ⟨rfl, fun _ => rfl⟩ fun other isOther => Or.inl ?_,
        ⟨rfl, fun _ isFolder => isFolder⟩, fun other different => Table.find?_insert_of_ne _ _ different⟩
      rcases (Table.contains_insert_iff _).mp isOther with rfl | before
      · exact Option.isSome_iff_exists.mpr ⟨file, isFile⟩
      · exact before
    · split at touched
      · next isFolder =>
        obtain rfl := Except.ok.inj touched
        have same : SameFolders { store with
            folders := store.folders.insert (store.goal path) stamp } store := by
          refine ⟨rfl, fun other => Bool.eq_iff_iff.mpr ?_⟩
          rw [Table.contains_insert_iff]
          exact or_iff_right_of_imp fun equal => equal ▸ isFolder
        exact ⟨tree.of_sameFolders same fun _ isFile => Or.inl isFile, same.grownFrom, fun _ _ => rfl⟩
      · exact absurd touched (by simp)

end IsTree

/-! ### New folders -/

/-- A store with one more folder, inside a folder and where no file is, is a tree. -/
theorem IsTree.of_newFolder (tree : store.IsTree) {place : Place}
    (above : store.folders.contains place.dropLast = true)
    (free : store.files.contains place = false) (here : later.here = store.here)
    (files : later.files = store.files)
    (folders : ∀ other, later.folders.contains other = true ↔
      other = place ∨ store.folders.contains other = true) : later.IsTree where
  top := (folders _).mpr (Or.inr tree.top)
  here := (folders _).mpr (Or.inr (here ▸ tree.here))
  aboveFolder other isFolder := by
    refine (folders _).mpr (Or.inr ?_)
    rcases (folders other).mp isFolder with rfl | before
    · exact above
    · exact tree.aboveFolder other before
  aboveFile other isFile := by
    rw [files] at isFile
    exact (folders _).mpr (Or.inr (tree.aboveFile other isFile))
  apart other isFile := by
    rw [files] at isFile
    refine Bool.eq_false_iff.mpr fun isFolder => ?_
    rcases (folders other).mp isFolder with rfl | before
    · exact absurd (free.symm.trans isFile) (by simp)
    · exact absurd ((tree.apart other isFile).symm.trans before) (by simp)

/-- Folders are added below a folder, and files stay. -/
theorem IsTree.addFolders_spec {folder : Place} {names : List String} (tree : store.IsTree)
    (isFolder : store.folders.contains folder = true)
    (added : store.addFolders folder names = .ok later) :
    later.IsTree ∧ later.GrownFrom store ∧ later.files = store.files := by
  induction names generalizing store folder with
  | nil =>
    obtain rfl := Except.ok.inj added
    exact ⟨tree, .refl store, rfl⟩
  | cons name rest inductionHypothesis =>
    rw [addFolders] at added
    split at added
    · exact absurd added (by simp)
    · split at added
      · next isNext => exact inductionHypothesis tree isNext added
      · next notFolder =>
        split at added
        · exact absurd added (by simp)
        · next notFile =>
          -- One step up from a folder there is a folder, so the name leads down.
          have above : store.folders.contains (step folder name).dropLast = true := by
            rw [step] at notFolder ⊢
            split at notFolder
            · exact absurd (tree.aboveFolder folder isFolder) notFolder
            · next isDown => rwa [if_neg isDown, List.dropLast_concat]
          dsimp only at added
          generalize newStore : { store.restamp (step folder name) with
            folders := (store.restamp (step folder name)).folders.insert (step folder name)
              (.written ((store.restamp (step folder name)).writes + 1))
            writes := (store.restamp (step folder name)).writes + 1 } = grown at added
          have folders : ∀ other, grown.folders.contains other = true ↔
              other = step folder name ∨ store.folders.contains other = true := by
            intro other
            rw [← newStore, Table.contains_insert_iff, (sameFolders_restamp above).folders]
          have here : grown.here = store.here := by rw [← newStore]; rfl
          have files : grown.files = store.files := by rw [← newStore]; rfl
          obtain ⟨laterTree, laterGrown, laterFiles⟩ := inductionHypothesis
            (tree.of_newFolder above (Bool.eq_false_iff.mpr notFile) here files folders)
            ((folders _).mpr (Or.inl rfl)) added
          exact ⟨laterTree, laterGrown.trans ⟨here, fun other before => (folders other).mpr (Or.inr before)⟩,
            laterFiles.trans files⟩

theorem IsTree.changedAt_put (tree : store.IsTree) {file : File}
    (put : store.put path file = .ok later) : later.ChangedAt store (store.goal path) := by
  rw [Store.put] at put
  split at put
  · exact absurd put (by simp)
  · next grown found =>
    split at put
    · exact absurd put (by simp)
    · next place isTarget =>
      obtain rfl := Except.ok.inj put
      rw [putFolder] at found
      split at found
      · exact absurd found (by simp)
      · obtain ⟨grownTree, isGrown, files⟩ := tree.addFolders_spec (tree.isFolder_start _) found
        obtain ⟨isPlace, free⟩ := target_eq_ok_iff.mp isTarget
        obtain ⟨reaches, rfl⟩ := place_eq_ok_iff.mp isPlace
        have changed := changedAt_putAt grownTree file free (grownTree.isFolder_above_goal reaches)
        rw [goal_eq_of_here isGrown.here] at changed ⊢
        refine ⟨changed.tree, changed.grown.trans isGrown, fun other different => ?_⟩
        rw [changed.files other different, files]

end Store

end OutlineDiagram
