/-
This file says which settings files get an answer. An answer is either settings that are
in range or the message that the settings are not valid. Variables are written into the
value of the file before anything is checked, and names are not checked at all, so what
has the wrong shape for that breaks the run off in place of an answer: a section that is
no mapping, if a variable overrides one of its fields, and a name that is no text. Any
other value gets an answer, whatever is wrong with it, provided that whoever makes the
settings checks their fields.
-/

import OutlineDiagram.Command.Run
import OutlineDiagram.Proofs.Settings.Agree
import OutlineDiagram.Proofs.Settings.Range

namespace OutlineDiagram

open Yaml Yaml.Value

/-! ### Sections -/

namespace Yaml.Value

/-- A section is a mapping. -/
def HoldsMap (name : String) (entries : List (Value × Value)) : Prop :=
  ∃ fields, field? name entries = some (.map fields)

/-- There is something in the place of a section, and it is no mapping. -/
def IsBlocked (name : String) (entries : List (Value × Value)) : Prop :=
  ∃ section_, field? name entries = some section_ ∧ ∀ fields, section_ ≠ .map fields

theorem not_isBlocked_nil (name : String) : ¬ IsBlocked name [] :=
  fun ⟨_, found, _⟩ => nomatch found

theorem holdsMap_withSection_self (name : String) (entries : List (Value × Value)) :
    HoldsMap name (withSection name entries) ↔ ¬ IsBlocked name entries := by
  rw [HoldsMap, IsBlocked, field?_withSection, if_pos rfl]
  cases field? name entries with
  | none => simp
  | some section_ => simp

theorem holdsMap_withSection_of_ne {name other : String} (different : name ≠ other)
    (entries : List (Value × Value)) :
    HoldsMap other (withSection name entries) ↔ HoldsMap other entries := by
  rw [HoldsMap, field?_withSection, if_neg different, HoldsMap]

theorem isBlocked_withSection_of_ne {name other : String} (different : name ≠ other)
    (entries : List (Value × Value)) :
    IsBlocked other (withSection name entries) ↔ IsBlocked other entries := by
  rw [IsBlocked, field?_withSection, if_neg different, IsBlocked]

end Yaml.Value

/-! ### Overriding -/

/-- Entries that variables are being written into: each section is a mapping unless something else
was in its place, and no name that is no text came or went. -/
structure Prepared (entries current : List (Value × Value)) : Prop where
  /-- There are names that are no text in both or in none. -/
  oddName : hasOddName current = hasOddName entries
  /-- A section is a mapping unless its place was taken. -/
  holdsMap : ∀ name ∈ sectionNames, (HoldsMap name current ↔ ¬ IsBlocked name entries)

namespace Prepared

variable {entries current : List (Value × Value)}

/-- Adding what sections are missing prepares entries. -/
theorem withSections (entries : List (Value × Value)) :
    Prepared entries (withSection "render" (withSection "parser" entries)) where
  oddName := (hasOddName_withSection "render" _).trans (hasOddName_withSection "parser" entries)
  holdsMap name member := by
    rcases List.mem_pair.mp member with rfl | rfl
    · rw [holdsMap_withSection_of_ne (by decide), holdsMap_withSection_self]
    · rw [holdsMap_withSection_self, isBlocked_withSection_of_ne (by decide)]

/-- Entries stay prepared when a mapping takes the place of another one. -/
theorem withField_map {name : String} (prepared : Prepared entries current)
    (holds : HoldsMap name current) (fields : List (Value × Value)) :
    Prepared entries (withField name (.map fields) current) where
  oddName := (hasOddName_withField name _ current).trans prepared.oddName
  holdsMap other member := by
    rw [← prepared.holdsMap other member, HoldsMap, field?_withField]
    by_cases same : name = other
    · subst same
      rw [if_pos rfl]
      exact iff_of_true ⟨fields, rfl⟩ holds
    · rw [if_neg same, HoldsMap]

/-- Either a value overrides a section whose place was taken, or the entries stay prepared. -/
theorem overrideField_cases (prepared : Prepared entries current) (section_ : String)
    (member : section_ ∈ sectionNames) (name : String) (value : Option Value) :
    (overrideField section_ name value current = .error .overriddenNonMapping ∧
        value.isSome ∧ IsBlocked section_ entries) ∨
      ∃ overridden, overrideField section_ name value current = .ok overridden ∧
        Prepared entries overridden ∧ (value.isSome → ¬ IsBlocked section_ entries) := by
  have mapping := prepared.holdsMap section_ member
  cases value with
  | none => exact Or.inr ⟨current, rfl, prepared, fun isSome => nomatch isSome⟩
  | some value =>
    by_cases blocked : IsBlocked section_ entries
    · refine Or.inl ⟨?_, rfl, blocked⟩
      rw [overrideField]
      split
      · next fields found => exact absurd blocked (mapping.mp ⟨fields, found⟩)
      · rfl
    · obtain ⟨fields, found⟩ := mapping.mpr blocked
      have kept := prepared.withField_map ⟨fields, found⟩ (withField name value fields)
      refine Or.inr ⟨_, ?_, kept, fun _ => blocked⟩
      rw [overrideField, found]

end Prepared

/-- A value has a shape that cannot be checked with some variables. -/
inductive Misshapen (overrides : Overrides) : Value → Prop where
  /-- A name is no text. -/
  | oddName {entries : List (Value × Value)} (odd : hasOddName entries = true) :
    Misshapen overrides (.map entries)
  /-- The size of a unit is to be put into something that is no mapping. -/
  | indentSize {entries : List (Value × Value)} (isSet : (setInteger? overrides.indentSize).isSome)
    (blocked : IsBlocked "parser" entries) : Misshapen overrides (.map entries)
  /-- The length of lines is to be put into something that is no mapping. -/
  | wrapWidth {entries : List (Value × Value)} (isSet : (setInteger? overrides.wrapWidth).isSome)
    (blocked : IsBlocked "render" entries) : Misshapen overrides (.map entries)
  /-- The way of edges is to be put into something that is no mapping. -/
  | splines {entries : List (Value × Value)} (isSet : (setText? overrides.splines).isSome)
    (blocked : IsBlocked "render" entries) : Misshapen overrides (.map entries)

theorem not_misshapen_nil (overrides : Overrides) : ¬ Misshapen overrides (.map []) := by
  rintro (odd | ⟨-, blocked⟩ | ⟨-, blocked⟩ | ⟨-, blocked⟩)
  · cases odd
  · exact not_isBlocked_nil _ blocked
  · exact not_isBlocked_nil _ blocked
  · exact not_isBlocked_nil _ blocked

theorem not_misshapen_of_not_map {overrides : Overrides} {value : Value}
    (noMap : ∀ entries, value ≠ .map entries) : ¬ Misshapen overrides value := by
  intro misshapen
  cases misshapen <;> exact noMap _ rfl

/-- Variables cannot be written into what is misshapen, unless it is so for its names alone. -/
theorem applyOverrides_cases (overrides : Overrides) (entries : List (Value × Value)) :
    (applyOverrides overrides entries = .error .overriddenNonMapping ∧
        Misshapen overrides (.map entries)) ∨
      ∃ overridden, applyOverrides overrides entries = .ok overridden ∧
        hasOddName overridden = hasOddName entries ∧
        (Misshapen overrides (.map entries) → hasOddName entries = true) := by
  let size := (setInteger? overrides.indentSize).map Value.int
  let width := (setInteger? overrides.wrapWidth).map Value.int
  let ways := (setText? overrides.splines).map Value.string
  have applied : applyOverrides overrides entries =
      (overrideField "parser" "indent_size" size
          (withSection "render" (withSection "parser" entries))).bind fun indented =>
        (overrideField "render" "wrap_width" width indented).bind
          (overrideField "render" "splines" ways) := rfl
  rw [applied]
  -- Each step either fails for its own variable or leaves the entries prepared for the next one.
  have complete := Prepared.withSections entries
  rcases complete.overrideField_cases "parser" (by decide) "indent_size" size with
    ⟨failed, isSet, blocked⟩ | ⟨indented, first, prepared, free⟩
  · rw [Option.isSome_map] at isSet
    rw [failed]
    exact Or.inl ⟨rfl, .indentSize isSet blocked⟩
  rw [first, Except.bind]
  rcases prepared.overrideField_cases "render" (by decide) "wrap_width" width with
    ⟨failed, isSet, blocked⟩ | ⟨wrapped, second, prepared, freeWidth⟩
  · rw [Option.isSome_map] at isSet
    rw [failed]
    exact Or.inl ⟨rfl, .wrapWidth isSet blocked⟩
  rw [second, Except.bind]
  rcases prepared.overrideField_cases "render" (by decide) "splines" ways with
    ⟨failed, isSet, blocked⟩ | ⟨overridden, third, prepared, freeWays⟩
  · rw [Option.isSome_map] at isSet
    rw [failed]
    exact Or.inl ⟨rfl, .splines isSet blocked⟩
  refine Or.inr ⟨overridden, third, prepared.oddName, ?_⟩
  rw [Option.isSome_map] at free freeWidth freeWays
  rintro (odd | ⟨isSet, blocked⟩ | ⟨isSet, blocked⟩ | ⟨isSet, blocked⟩)
  · exact odd
  · exact absurd blocked (free isSet)
  · exact absurd blocked (freeWidth isSet)
  · exact absurd blocked (freeWays isSet)

/-! ### Answers -/

namespace Settings

/-- Settings in range, or an error that says what is wrong with the settings. -/
def IsAnswer : Except SettingsError Settings → Prop
  | .ok settings => settings.InRange
  | .error error => error.isContentError = true

/-- The settings cannot be checked. -/
def IsBreak : Except SettingsError Settings → Prop
  | .ok _ => False
  | .error error => error.kind = .shape

theorem kind_ne_shape_of_isContentError {error : SettingsError}
    (content : error.isContentError = true) : error.kind ≠ .shape := by
  cases error with
  | unreadable path error =>
    rw [SettingsError.kind]
    cases error.isOverflow <;> exact nofun
  | overriddenNonMapping | nonTextName => cases content
  | missingFile | missingStrictFile | isDirectory | tooLong | notUtf8 | notMapping | invalid =>
    exact nofun

theorem not_isBreak_of_isAnswer {reading : Except SettingsError Settings}
    (answer : IsAnswer reading) : ¬ IsBreak reading := by
  cases reading with
  | ok settings => exact id
  | error error => exact kind_ne_shape_of_isContentError answer

section

variable {tools : Tools} (checks : tools.ChecksFields)

include checks

theorem ofNamedEntries_cases (entries : List (Value × Value)) :
    (IsBreak (ofNamedEntries entries tools) ∧ hasOddName entries = true) ∨
      (IsAnswer (ofNamedEntries entries tools) ∧ hasOddName entries = false) := by
  rw [ofNamedEntries]
  cases odd : hasOddName entries with
  | true => exact Or.inl ⟨rfl, rfl⟩
  | false =>
    refine Or.inr ⟨?_, rfl⟩
    rw [if_neg Bool.false_ne_true]
    cases made : tools.construct entries with
    | ok settings => exact (checks odd made).inRange
    | error errors => rfl

/-- A mapping breaks the reading off if it is misshapen, and else gets an answer. -/
theorem ofValue_map_cases (overrides : Overrides) (path : String)
    (entries : List (Value × Value)) :
    (IsBreak (ofValue overrides path (.map entries) tools) ∧
        Misshapen overrides (.map entries)) ∨
      (IsAnswer (ofValue overrides path (.map entries) tools) ∧
        ¬ Misshapen overrides (.map entries)) := by
  have read : ofValue overrides path (.map entries) tools =
      (applyOverrides overrides entries).bind fun overridden =>
        ofNamedEntries overridden tools := by
    cases entries <;> rfl
  rw [read]
  rcases applyOverrides_cases overrides entries with
    ⟨failed, misshapen⟩ | ⟨overridden, applied, sameNames, onlyNames⟩
  · rw [failed]
    exact Or.inl ⟨rfl, misshapen⟩
  · rw [applied, Except.bind]
    rcases ofNamedEntries_cases checks overridden with ⟨broken, odd⟩ | ⟨answer, noOdd⟩
    · exact Or.inl ⟨broken, .oddName (sameNames.symm.trans odd)⟩
    · refine Or.inr ⟨answer, fun misshapen => ?_⟩
      rw [sameNames, onlyNames misshapen] at noOdd
      cases noOdd

/-- A value breaks the reading off if it is misshapen, and else gets an answer. -/
theorem ofValue_cases (overrides : Overrides) (path : String) (value : Value) :
    (IsBreak (ofValue overrides path value tools) ∧ Misshapen overrides value) ∨
      (IsAnswer (ofValue overrides path value tools) ∧ ¬ Misshapen overrides value) := by
  by_cases isMap : ∃ entries, value = .map entries
  · obtain ⟨entries, rfl⟩ := isMap
    exact ofValue_map_cases checks overrides path entries
  · have noMap : ∀ entries, value ≠ .map entries := not_exists.mp isMap
    refine Or.inr ⟨?_, not_misshapen_of_not_map noMap⟩
    rw [ofValue_of_not_map _ _ _ noMap]
    split
    · rcases ofValue_map_cases checks overrides path [] with ⟨-, misshapen⟩ | ⟨answer, -⟩
      · exact absurd misshapen (not_misshapen_nil overrides)
      · exact answer
    · rfl

theorem isBreak_ofValue_iff (overrides : Overrides) (path : String) (value : Value) :
    IsBreak (ofValue overrides path value tools) ↔ Misshapen overrides value := by
  rcases ofValue_cases checks overrides path value with ⟨broken, misshapen⟩ | ⟨answer, wellShaped⟩
  · exact iff_of_true broken misshapen
  · exact iff_of_false (not_isBreak_of_isAnswer answer) wellShaped

theorem isAnswer_ofValue_iff (overrides : Overrides) (path : String) (value : Value) :
    IsAnswer (ofValue overrides path value tools) ↔ ¬ Misshapen overrides value := by
  rcases ofValue_cases checks overrides path value with ⟨broken, misshapen⟩ | ⟨answer, wellShaped⟩
  · exact iff_of_false (fun answer => not_isBreak_of_isAnswer answer broken) (not_not.mpr misshapen)
  · exact iff_of_true answer wellShaped

end

/-! ### The command line -/

/-- The value that settings are read from, and the name of the file it is in. Where there is
neither a path nor a file in the home folder it is an empty mapping. -/
def heldFor (tools : Tools) (store : Store) (home : Option ByteArray) :
    Option Path → Except SettingsError (String × Value)
  | some path =>
    (heldValue tools (.missingFile path.toText) store path).map fun value => (path.toText, value)
  | none =>
    match home with
    | some content => (valueIn homePath content tools).map fun value => (homePath, value)
    | none => .ok (homePath, .map [])

theorem load_of_heldFor (overrides : Overrides) {tools : Tools} {store : Store}
    {home : Option ByteArray} {path : Option Path} {name : String} {value : Value}
    (held : heldFor tools store home path = .ok (name, value)) :
    load overrides store home path tools = ofValue overrides name value tools := by
  cases path with
  | some path =>
    obtain ⟨found, read, same⟩ := exists_of_map_eq_ok held
    cases same
    rw [load_some, read, Except.bind]
  | none =>
    cases home with
    | some content =>
      obtain ⟨found, read, same⟩ := exists_of_map_eq_ok held
      cases same
      rw [load, read]
    | none =>
      cases held
      rfl

/-- The command line goes on with settings in range, or refuses with its message that the settings
are not valid. -/
def IsAnswered : Except Ending Settings → Prop
  | .ok settings => settings.InRange
  | .error ending => ∃ error : SettingsError, error.isContentError = true ∧
    ending = .refused ("Configuration validation failed:\n" ++ error.message)

/-- The command line breaks off because the settings cannot be checked. -/
def IsBroken (ended : Except Ending Settings) : Prop :=
  ∃ error : SettingsError, error.kind = .shape ∧ ended = .error (.broken (.settings error))

theorem not_isAnswered_of_isBroken {ended : Except Ending Settings} (broken : IsBroken ended) :
    ¬ IsAnswered ended := by
  obtain ⟨error, -, rfl⟩ := broken
  exact fun ⟨_, _, same⟩ => nomatch same

/-- A part of a run that first looks at how far the run has come. -/
theorem run_get_bind {α : Type} (next : Progress → Action α) (progress : Progress) :
    (get >>= next : Action α).run.run progress = (next progress).run.run progress :=
  rfl

section

variable {environment : Environment} {path : Option Path} {progress : Progress}

/-- Reading fails with the message of an error about the settings, and breaks off otherwise. -/
theorem run_loadSettings_of_error {error : SettingsError}
    (read : load environment.overrides progress.store environment.homeSettings path
      environment.tools = .error error)
    (isFound : ∀ name, error ≠ .missingFile name) :
    ((Action.loadSettings environment path).run.run progress).1 =
      .error (if error.isContentError then
        .refused ("Configuration validation failed:\n" ++ error.message)
      else .broken (.settings error)) := by
  rw [Action.loadSettings, run_get_bind]
  dsimp only
  rw [read]
  dsimp only
  split
  · next name => exact absurd rfl (isFound name)
  · split <;> rfl

theorem run_loadSettings_of_content {error : SettingsError}
    (read : load environment.overrides progress.store environment.homeSettings path
      environment.tools = .error error)
    (content : error.isContentError = true) :
    ((Action.loadSettings environment path).run.run progress).1 =
      .error (.refused ("Configuration validation failed:\n" ++ error.message)) := by
  rw [run_loadSettings_of_error read, if_pos content]
  rintro name rfl
  cases content

theorem run_loadSettings_of_shape {error : SettingsError}
    (read : load environment.overrides progress.store environment.homeSettings path
      environment.tools = .error error)
    (shape : error.kind = .shape) :
    ((Action.loadSettings environment path).run.run progress).1 =
      .error (.broken (.settings error)) := by
  rw [run_loadSettings_of_error read,
    if_neg fun content => kind_ne_shape_of_isContentError content shape]
  rintro name rfl
  cases shape

theorem isAnswered_of_isAnswer
    (answer : IsAnswer (load environment.overrides progress.store environment.homeSettings path
      environment.tools)) :
    IsAnswered ((Action.loadSettings environment path).run.run progress).1 := by
  cases read : load environment.overrides progress.store environment.homeSettings path
    environment.tools with
  | ok settings =>
    have ended : ((Action.loadSettings environment path).run.run progress).1 = .ok settings := by
      rw [Action.loadSettings, run_get_bind]
      dsimp only
      rw [read]
      rfl
    rw [read] at answer
    rw [ended]
    exact answer
  | error error =>
    rw [read] at answer
    rw [run_loadSettings_of_content read answer]
    exact ⟨error, answer, rfl⟩

theorem isBroken_of_isBreak
    (broken : IsBreak (load environment.overrides progress.store environment.homeSettings path
      environment.tools)) :
    IsBroken ((Action.loadSettings environment path).run.run progress).1 := by
  cases read : load environment.overrides progress.store environment.homeSettings path
    environment.tools with
  | ok settings =>
    rw [read] at broken
    exact absurd broken id
  | error error =>
    rw [read] at broken
    exact ⟨error, broken, run_loadSettings_of_shape read broken⟩

end

/-- Whatever the value and the variables are, reading gives settings in range or an error that says
what is wrong with the settings, exactly if the value is not misshapen. So for the value that a file
holds, whoever read it, the command line goes on with settings in range or refuses with its message
about them exactly then, and for a misshapen one it breaks off. -/
theorem isAnswer_iff_not_misshapen (environment : Environment)
    (checks : environment.tools.ChecksFields) (path : Option Path) (progress : Progress) :
    (∀ name value,
      (IsAnswer (ofValue environment.overrides name value environment.tools) ↔
          ¬ Misshapen environment.overrides value) ∧
        (IsBreak (ofValue environment.overrides name value environment.tools) ↔
          Misshapen environment.overrides value)) ∧
      ∀ name value, heldFor environment.tools progress.store environment.homeSettings path =
          .ok (name, value) →
        load environment.overrides progress.store environment.homeSettings path environment.tools =
            ofValue environment.overrides name value environment.tools ∧
          (IsAnswered ((Action.loadSettings environment path).run.run progress).1 ↔
            ¬ Misshapen environment.overrides value) ∧
          (IsBroken ((Action.loadSettings environment path).run.run progress).1 ↔
            Misshapen environment.overrides value) := by
  refine ⟨fun name value => ⟨isAnswer_ofValue_iff checks environment.overrides name value,
    isBreak_ofValue_iff checks environment.overrides name value⟩, fun name value held => ?_⟩
  have loaded := load_of_heldFor environment.overrides held
  refine ⟨loaded, ?_⟩
  rcases ofValue_cases checks environment.overrides name value with
    ⟨broken, misshapen⟩ | ⟨answer, wellShaped⟩
  · rw [← loaded] at broken
    have ended := isBroken_of_isBreak broken
    exact ⟨iff_of_false (not_isAnswered_of_isBroken ended) (not_not.mpr misshapen),
      iff_of_true ended misshapen⟩
  · rw [← loaded] at answer
    have ended := isAnswered_of_isAnswer answer
    exact ⟨iff_of_true ended wellShaped,
      iff_of_false (fun broken => not_isAnswered_of_isBroken broken ended) wellShaped⟩

/-- An empty section that no variable touches is refused with a message. -/
theorem isAnswered_emptyRender :
    let file : File := { bytes := "render:\n".toUTF8, stamp := .written 0 }
    let store : Store := { files := { entries := [(["config.yaml"], file)] } }
    let path : Path := { parts := ["config.yaml"] }
    let environment : Environment :=
      { overrides := { indentSize := some "3" }, supply := .ofListedHex [] }
    let value : Value := .map [(.string "render", .null)]
    environment.tools.ChecksFields ∧
      heldFor environment.tools store none (some path) = .ok ("config.yaml", value) ∧
      IsAnswer (ofValue environment.overrides "config.yaml" value environment.tools) ∧
      IsAnswered ((Action.loadSettings environment (some path)).run.run { store := store }).1 := by
  intro file store path environment value
  have name : path.toText = "config.yaml" := by decide +kernel
  have content : contentAt store path (.missingFile path.toText) = .ok "render:\n".toUTF8 := by
    decide +kernel
  have read : valueIn "config.yaml" "render:\n".toUTF8 =
      .ok (.map [(.string "render", .null)]) := rfl
  have held : heldFor .own store none (some path) = .ok ("config.yaml", value) := by
    rw [heldFor, heldValue, content]
    dsimp only
    rw [name, read]
    rfl
  have wellShaped : ¬ Misshapen environment.overrides (.map [(.string "render", .null)]) := by
    rintro (odd | ⟨-, found, present, -⟩ | ⟨isSet, -⟩ | ⟨isSet, -⟩)
    · cases odd
    · cases present
    · cases isSet
    · cases isSet
  obtain ⟨answers, ends⟩ := isAnswer_iff_not_misshapen environment Tools.checksFields_own
    (some path) { store := store }
  obtain ⟨-, answered, -⟩ := ends "config.yaml" value held
  exact ⟨Tools.checksFields_own, held, (answers "config.yaml" value).1.mpr wellShaped,
    answered.mpr wellShaped⟩

/-- A variable that overrides a field of an empty section breaks the command line off. -/
theorem not_isAnswered_emptyParser :
    let file : File := { bytes := "parser:\n".toUTF8, stamp := .written 0 }
    let store : Store := { files := { entries := [(["config.yaml"], file)] } }
    let path : Path := { parts := ["config.yaml"] }
    let environment : Environment :=
      { overrides := { indentSize := some "3" }, supply := .ofListedHex [] }
    load environment.overrides store none (some path) = .error .overriddenNonMapping ∧
      ((Action.loadSettings environment (some path)).run.run { store := store }).1 =
        .error (.broken (.settings .overriddenNonMapping)) ∧
      ¬ IsAnswer (load environment.overrides store none (some path)) ∧
      ¬ IsAnswered ((Action.loadSettings environment (some path)).run.run { store := store }).1 := by
  intro file store path environment
  have read : load environment.overrides store none (some path) =
      .error .overriddenNonMapping := by decide +kernel
  have ended : ((Action.loadSettings environment (some path)).run.run { store := store }).1 =
      .error (.broken (.settings .overriddenNonMapping)) :=
    run_loadSettings_of_shape read rfl
  have noAnswer : ¬ IsAnswer (load environment.overrides store none (some path)) := by
    rw [read]
    exact nofun
  exact ⟨read, ended, noAnswer, not_isAnswered_of_isBroken ⟨.overriddenNonMapping, rfl, ended⟩⟩

end Settings

end OutlineDiagram
