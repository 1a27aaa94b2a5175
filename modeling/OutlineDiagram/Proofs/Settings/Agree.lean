/-
This file compares the two ways of reading settings. Without variables the way of the
command line adds nothing to a mapping but sections that are empty, and whoever makes
the settings is asked to take an empty section like a missing one. So both ways answer
alike, with one exception: what is empty but neither missing nor a mapping is read as no
settings on the command line, and is refused where reading is strict. How a text is read
does not matter, as both ways read it alike.
-/

import Mathlib.Data.List.Nodup
import OutlineDiagram.Settings.File

namespace OutlineDiagram

open Yaml

/-! ### Kinds of errors -/

/-- What kind of failure an error is, as far as callers tell failures apart. -/
inductive SettingsError.Kind where
  /-- There is no file. -/
  | missing
  /-- There is a folder in the place of the file. -/
  | directory
  /-- The path cannot be that of a file. -/
  | path
  /-- The bytes of the file are no text. -/
  | encoding
  /-- The text of the file holds no settings. -/
  | content
  /-- A number in the file is too large for the machine. -/
  | overflow
  /-- The settings have a shape that they cannot be checked in. -/
  | shape
  /-- The settings were checked, and some are not valid. -/
  | invalid
  deriving DecidableEq, Repr

namespace SettingsError

/-- The kind of an error. -/
def kind : SettingsError → Kind
  | missingFile _ | missingStrictFile _ => .missing
  | isDirectory _ => .directory
  | tooLong _ => .path
  | notUtf8 _ => .encoding
  | unreadable _ error => if error.isOverflow then .overflow else .content
  | notMapping _ => .content
  | overriddenNonMapping | nonTextName => .shape
  | invalid _ => .invalid

end SettingsError

/-! ### Empty sections -/

namespace Yaml.Value

theorem field?_withSection (name other : String) (entries : List (Value × Value)) :
    field? other (withSection name entries) =
      if name = other then some ((field? other entries).getD (.map [])) else field? other entries := by
  rw [withSection]
  by_cases same : name = other
  · subst same
    rw [if_pos rfl]
    split
    · next missing => rw [field?_withField, if_pos rfl, missing, Option.getD_none]
    · next section_ found => rw [found, Option.getD_some]
  · rw [if_neg same]
    split
    · rw [field?_withField, if_neg same]
    · rfl

theorem hasOddName_withField (name : String) (value : Value) (entries : List (Value × Value)) :
    hasOddName (withField name value entries) = hasOddName entries := by
  rw [hasOddName, withField, List.any_append, List.any_cons, List.any_nil, hasOddName]
  simp [text?]

theorem hasOddName_withSection (name : String) (entries : List (Value × Value)) :
    hasOddName (withSection name entries) = hasOddName entries := by
  rw [withSection]
  split
  · exact hasOddName_withField name _ entries
  · rfl

/-- A value that is empty but neither missing nor a mapping: false, zero, or a text, bytes, a list
or a set without content. -/
def isHollow : Value → Bool
  | null | map _ => false
  | value => value.isEmpty

end Yaml.Value

open Yaml.Value

/-- The names of the sections. -/
def sectionNames : List String := ["parser", "render"]

/-- A section that is missing gives what an empty one gives. -/
def Settings.Tools.FillsSections (tools : Tools) : Prop :=
  ∀ name ∈ sectionNames, ∀ entries, hasOddName entries = false → field? name entries = none →
    tools.construct (withField name (.map []) entries) = tools.construct entries

/-- A missing section says what an empty one says, so adding empty sections changes nothing. -/
theorem readSection_withSection {α : Type} {default : α}
    {read : List (Value × Value) → Except (List FieldError) α} (empty : read [] = .ok default)
    (name other type : String) (entries : List (Value × Value)) :
    readSection other type default read (withSection name entries) =
      readSection other type default read entries := by
  rw [readSection, readSection, field?_withSection]
  by_cases same : name = other
  · rw [if_pos same]
    cases field? other entries with
    | none => exact empty
    | some section_ => rfl
  · rw [if_neg same]

namespace Settings

theorem ofEntries_withSection (name : String) (entries : List (Value × Value)) :
    ofEntries (withSection name entries) = ofEntries entries := by
  have noParser : ParserSettings.ofEntries [] = .ok {} := rfl
  have noRender : RenderSettings.ofEntries [] = .ok {} := rfl
  rw [ofEntries, readSection_withSection noParser, readSection_withSection noRender, ofEntries]

theorem Tools.fillsSections_own : Tools.own.FillsSections := by
  intro name _ entries _ missing
  have same := ofEntries_withSection name entries
  rw [withSection, missing] at same
  exact same

theorem ofNamedEntries_withSection {tools : Tools} (fills : tools.FillsSections) {name : String}
    (member : name ∈ sectionNames) (entries : List (Value × Value)) :
    ofNamedEntries (withSection name entries) tools = ofNamedEntries entries tools := by
  rw [ofNamedEntries, ofNamedEntries, hasOddName_withSection]
  cases odd : hasOddName entries with
  | true => rfl
  | false =>
    have same : tools.construct (withSection name entries) = tools.construct entries := by
      rw [withSection]
      split
      · next missing => exact fills name member entries odd missing
      · rfl
    rw [same]

/-! ### Both ways -/

/-- Two readings come to the same settings, or to errors of the same kind. -/
def Agree : (first second : Except SettingsError Settings) → Prop
  | .ok first, .ok second => first = second
  | .error first, .error second => first.kind = second.kind
  | _, _ => False

theorem Agree.refl (reading : Except SettingsError Settings) : Agree reading reading := by
  cases reading <;> rfl

/-- Without variables a mapping is read in the same way. -/
theorem ofValue_map {tools : Tools} (fills : tools.FillsSections) (path : String)
    (entries : List (Value × Value)) :
    ofValue {} path (.map entries) tools = ofNamedEntries entries tools := by
  have same := ofNamedEntries_withSection fills (by decide : "render" ∈ sectionNames)
    (withSection "parser" entries)
  rw [ofNamedEntries_withSection fills (by decide : "parser" ∈ sectionNames)] at same
  cases entries with
  | nil => exact same
  | cons entry others => exact same

/-- An empty mapping is not refused as something that is no mapping. -/
theorem not_agree_ofNamedEntries_nil (tools : Tools) (path : String) :
    ¬ Agree (ofNamedEntries [] tools) (.error (.notMapping path)) := by
  have noName : hasOddName [] = false := rfl
  rw [ofNamedEntries, noName, if_neg Bool.false_ne_true]
  cases tools.construct [] with
  | ok settings => exact id
  | error errors => exact nofun

/-- A value that is no mapping is read as an empty one if it is empty, and else refused. -/
theorem ofValue_of_not_map (overrides : Overrides) (path : String) (tools : Tools) {value : Value}
    (noMap : ∀ entries, value ≠ .map entries) :
    ofValue overrides path value tools =
      if value.isEmpty then ofValue overrides path (.map []) tools
      else .error (.notMapping path) := by
  rw [ofValue]
  by_cases empty : value.isEmpty = true
  · rw [if_pos empty, if_pos empty]
    rfl
  · rw [if_neg empty, if_neg empty]
    cases value with
    | map entries => exact absurd rfl (noMap entries)
    | null | bool | int | float | string | bytes | date | list | set => rfl

/-- A value that is neither missing nor a mapping is refused where reading is strict. -/
theorem ofValueStrict_of_not_map (path : String) (tools : Tools) {value : Value}
    (present : value ≠ .null) (noMap : ∀ entries, value ≠ .map entries) :
    ofValueStrict path value tools = .error (.notMapping path) := by
  cases value with
  | null => exact absurd rfl present
  | map entries => exact absurd rfl (noMap entries)
  | bool | int | float | string | bytes | date | list | set => rfl

/-- Both ways come to the same unless the value is hollow. -/
theorem agree_ofValue_iff {tools : Tools} (fills : tools.FillsSections) (path : String)
    (value : Value) :
    Agree (ofValue {} path value tools) (ofValueStrict path value tools) ↔
      value.isHollow = false := by
  by_cases present : value = .null
  · subst present
    exact iff_of_true ((ofValue_map fills path []).symm ▸ Agree.refl _) rfl
  · by_cases isMap : ∃ entries, value = .map entries
    · obtain ⟨entries, rfl⟩ := isMap
      exact iff_of_true ((ofValue_map fills path entries).symm ▸ Agree.refl _) rfl
    · have noMap : ∀ entries, value ≠ .map entries := not_exists.mp isMap
      have hollow : value.isHollow = value.isEmpty := by
        cases value with
        | null => exact absurd rfl present
        | map entries => exact absurd rfl (noMap entries)
        | bool | int | float | string | bytes | date | list | set => rfl
      rw [ofValueStrict_of_not_map path tools present noMap, ofValue_of_not_map _ _ _ noMap,
        hollow]
      cases value.isEmpty with
      | true =>
        rw [if_pos rfl, ofValue_map fills]
        exact iff_of_false (not_agree_ofNamedEntries_nil tools path) nofun
      | false => exact iff_of_true rfl rfl

/-! ### Files -/

/-- The value that the file at a path holds, where the error of a missing file is given. -/
def heldValue (tools : Tools) (missing : SettingsError) (store : Store) (path : Path) :
    Except SettingsError Value :=
  match contentAt store path missing with
  | .error error => .error error
  | .ok content => valueIn path.toText content tools

theorem load_some (tools : Tools) (overrides : Overrides) (store : Store)
    (home : Option ByteArray) (path : Path) :
    load overrides store home (some path) tools =
      (heldValue tools (.missingFile path.toText) store path).bind fun value =>
        ofValue overrides path.toText value tools := by
  rw [load, heldValue]
  cases contentAt store path (.missingFile path.toText) with
  | error error => rfl
  | ok content =>
    dsimp only
    cases valueIn path.toText content tools <;> rfl

theorem loadStrict_eq (tools : Tools) (store : Store) (path : Path) :
    loadStrict store path tools =
      (heldValue tools (.missingStrictFile path.toText) store path).bind fun value =>
        ofValueStrict path.toText value tools := by
  rw [loadStrict, heldValue]
  cases contentAt store path (.missingStrictFile path.toText) with
  | error error => rfl
  | ok content =>
    dsimp only
    cases valueIn path.toText content tools <;> rfl

/-- Whether a file holds a value does not depend on the error of a missing file. -/
theorem heldValue_cases (tools : Tools) (store : Store) (path : Path)
    {missing other : SettingsError} (same : missing.kind = other.kind) :
    (∃ value, heldValue tools missing store path = .ok value ∧
        heldValue tools other store path = .ok value) ∨
      ∃ error further, heldValue tools missing store path = .error error ∧
        heldValue tools other store path = .error further ∧ error.kind = further.kind := by
  unfold heldValue contentAt
  cases store.file path with
  | ok file =>
    dsimp only
    cases valueIn path.toText file.bytes tools with
    | ok value => exact Or.inl ⟨value, rfl, rfl⟩
    | error error => exact Or.inr ⟨error, error, rfl, rfl, rfl⟩
  | error error =>
    cases error with
    | isFolder | tooLong => exact Or.inr ⟨_, _, rfl, rfl, rfl⟩
    | missing | notFolder | occupied | busy | nameless | badCharacter | notUtf8 | notSynced =>
      exact Or.inr ⟨_, _, rfl, rfl, same⟩

/-- Without variables both ways come to the same settings, or to errors of the same kind, exactly if
the file holds no hollow value. So they do for every value but a hollow one, whatever text it was
read from and by whom, and for every file that holds no value at all. -/
theorem agree_load_loadStrict_iff (tools : Tools) (fills : tools.FillsSections) (store : Store)
    (home : Option ByteArray) (path : Path) :
    (∀ name value, Agree (ofValue {} name value tools) (ofValueStrict name value tools) ↔
        value.isHollow = false) ∧
      (Agree (load {} store home (some path) tools) (loadStrict store path tools) ↔
        ¬ ∃ value, heldValue tools (.missingFile path.toText) store path = .ok value ∧
          value.isHollow = true) := by
  refine ⟨agree_ofValue_iff fills, ?_⟩
  rw [load_some, loadStrict_eq]
  have sameKind : (SettingsError.missingFile path.toText).kind =
      (SettingsError.missingStrictFile path.toText).kind := rfl
  rcases heldValue_cases tools store path sameKind with ⟨value, held, further⟩ | ⟨error, other,
    refused, further, same⟩
  · rw [held, further]
    refine (agree_ofValue_iff fills path.toText value).trans ?_
    rw [← Bool.not_eq_true, not_iff_not]
    constructor
    · exact fun hollow => ⟨value, rfl, hollow⟩
    · rintro ⟨other, same, hollow⟩
      rw [Except.ok.inj same]
      exact hollow
  · rw [refused, further]
    exact iff_of_true same fun ⟨value, held, _⟩ => absurd held (by simp)

/-- A file with an empty section is refused in both ways. -/
theorem agree_load_loadStrict_emptyRender :
    let file : File := { bytes := "render:\n".toUTF8, stamp := .written 0 }
    let store : Store := { files := { entries := [(["config.yaml"], file)] } }
    let path : Path := { parts := ["config.yaml"] }
    Tools.own.FillsSections ∧
      heldValue .own (.missingFile path.toText) store path =
        .ok (.map [(.string "render", .null)]) ∧
      Agree (load {} store none (some path)) (loadStrict store path) := by
  intro file store path
  have content : contentAt store path (.missingFile path.toText) = .ok "render:\n".toUTF8 := by
    decide +kernel
  have held : heldValue .own (.missingFile path.toText) store path =
      .ok (.map [(.string "render", .null)]) := by
    rw [heldValue, content]
    rfl
  refine ⟨Tools.fillsSections_own, held, ?_⟩
  refine (agree_load_loadStrict_iff .own Tools.fillsSections_own store none path).2.mpr ?_
  rintro ⟨value, read, hollow⟩
  rw [held] at read
  cases read
  cases hollow

/-- An empty list is read as no settings on the command line, and is refused where reading is
strict. -/
theorem not_agree_load_loadStrict_list :
    let file : File := { bytes := "[]\n".toUTF8, stamp := .written 0 }
    let store : Store := { files := { entries := [(["config.yaml"], file)] } }
    let path : Path := { parts := ["config.yaml"] }
    load {} store none (some path) = .ok {} ∧
      loadStrict store path = .error (.notMapping "config.yaml") ∧
      ¬ Agree (load {} store none (some path)) (loadStrict store path) := by
  intro file store path
  have loaded : load {} store none (some path) = .ok {} := by decide +kernel
  have refused : loadStrict store path = .error (.notMapping "config.yaml") := by decide +kernel
  refine ⟨loaded, refused, ?_⟩
  rw [loaded, refused]
  exact id

end Settings

end OutlineDiagram
