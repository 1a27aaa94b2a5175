/-
This file proves that settings which pass their checks are in range. A field holds its
default or what its check lets through, so it is enough that every default is in range
and that a check lets nothing else through. Who makes the settings has to keep to that
alone, as the tools of this library do.
-/

import OutlineDiagram.Settings.Load

namespace OutlineDiagram

open Yaml

/-! ### Results -/

theorem exists_of_bind_eq_ok {ε α β : Type} {reading : Except ε α} {next : α → Except ε β}
    {result : β} (read : reading >>= next = .ok result) :
    ∃ found, reading = .ok found ∧ next found = .ok result := by
  cases reading with
  | error error => cases read
  | ok found => exact ⟨found, rfl, read⟩

theorem exists_of_map_eq_ok {ε α β : Type} {reading : Except ε α} {function : α → β} {result : β}
    (read : reading.map function = .ok result) :
    ∃ found, reading = .ok found ∧ function found = result := by
  cases reading with
  | error error => cases read
  | ok found => exact ⟨found, rfl, Except.ok.inj read⟩

/-! ### Checks -/

theorem le_of_checkBounds {least number given : Int} {greatest : Option Int}
    (checked : checkBounds least greatest given = .ok number) :
    least ≤ number ∧ ∀ bound, greatest = some bound → number ≤ bound := by
  unfold checkBounds at checked
  split at checked
  · cases checked
  · next enough =>
    cases greatest with
    | none =>
      cases checked
      exact ⟨Int.not_lt.mp enough, fun bound isSome => nomatch isSome⟩
    | some bound =>
      dsimp only at checked
      split at checked
      · cases checked
      · next small =>
        cases checked
        refine ⟨Int.not_lt.mp enough, fun other same => ?_⟩
        rw [← Option.some.inj same]
        exact Int.not_lt.mp small

theorem mem_of_checkSplines {text given : String} (checked : checkSplines given = .ok text) :
    text ∈ splinesNames := by
  unfold checkSplines at checked
  split at checked
  · next known =>
    cases checked
    exact List.contains_iff_mem.mp known
  · cases checked

/-- A field holds its default, or what its check lets through. -/
def IsChecked {α : Type} (default : α) (check : α → Except Fault α) (result : α) : Prop :=
  result = default ∨ ∃ given, check given = .ok result

/-- A field is good if its default is and if its check lets nothing but good results through. -/
theorem good_of_isChecked {α : Type} (Good : α → Prop) {default result : α}
    {check : α → Except Fault α} (checked : IsChecked default check result)
    (ofDefault : Good default) (ofCheck : ∀ {given}, check given = .ok result → Good result) :
    Good result := by
  obtain rfl | ⟨given, passed⟩ := checked
  · exact ofDefault
  · exact ofCheck passed

/-! ### Fields and sections -/

theorem isChecked_of_readField {α : Type} {default result : α} {read : Value → Except Fault α}
    {check : α → Except Fault α} {section_ name : String} {entries : List (Value × Value)}
    (passes : ∀ {value}, read value = .ok result → ∃ given, check given = .ok result)
    (found : readField section_ name default read entries = .ok result) :
    IsChecked default check result := by
  unfold readField at found
  split at found
  · cases found
    exact Or.inl rfl
  · split at found
    · next readsTo =>
      cases found
      exact Or.inr (passes readsTo)
    · cases found

theorem exists_of_readBounded {least number : Int} {greatest : Option Int} {value : Value}
    (read : readBounded least greatest value = .ok number) :
    ∃ given, checkBounds least greatest given = .ok number := by
  obtain ⟨given, -, checked⟩ := exists_of_bind_eq_ok read
  exact ⟨given, checked⟩

theorem exists_of_readSplines {value : Value} {text : String} (read : readSplines value = .ok text) :
    ∃ given, checkSplines given = .ok text := by
  obtain ⟨given, -, checked⟩ := exists_of_bind_eq_ok read
  exact ⟨given, checked⟩

/-- A section is good if its default is and if nothing but good results are read. -/
theorem good_of_readSection {α : Type} (Good : α → Prop) {default result : α}
    {read : List (Value × Value) → Except (List FieldError) α}
    {name type : String} {entries : List (Value × Value)} (ofDefault : Good default)
    (ofFields : ∀ {fields}, read fields = .ok result → Good result)
    (found : readSection name type default read entries = .ok result) : Good result := by
  unfold readSection at found
  split at found
  · cases found
    exact ofDefault
  · exact ofFields found
  · cases found

theorem eq_ok_of_both {α β : Type} {first : Except (List FieldError) α}
    {second : Except (List FieldError) β} {pair : α × β} (together : both first second = .ok pair) :
    first = .ok pair.1 ∧ second = .ok pair.2 := by
  unfold both at together
  split at together <;> cases together
  exact ⟨rfl, rfl⟩

/-! ### Settings -/

/-- The size of a unit of indentation is its default or passed its check. -/
def ParserSettings.AreChecked (settings : ParserSettings) : Prop :=
  IsChecked 2 (checkBounds 1 (some 8)) settings.indentSize

/-- The length of lines and the way to route edges are their defaults or passed their checks. -/
structure RenderSettings.AreChecked (settings : RenderSettings) : Prop where
  /-- The length of lines passed its check. -/
  wrapWidth : IsChecked 25 (checkBounds 5 none) settings.wrapWidth
  /-- The way to route edges passed its check. -/
  splines : IsChecked "ortho" checkSplines settings.splines

/-- Every field holds its default, or what its check lets through. -/
structure Settings.AreChecked (settings : Settings) : Prop where
  /-- The settings for reading an outline are checked. -/
  parser : settings.parser.AreChecked
  /-- The settings for drawing a diagram are checked. -/
  render : settings.render.AreChecked

/-- Settings are made of fields that are checked. -/
def Settings.Tools.ChecksFields (tools : Tools) : Prop :=
  ∀ {entries : List (Value × Value)} {settings : Settings}, Value.hasOddName entries = false →
    tools.construct entries = .ok settings → settings.AreChecked

theorem ParserSettings.areChecked_of_ofEntries {entries : List (Value × Value)}
    {settings : ParserSettings} (read : ofEntries entries = .ok settings) :
    settings.AreChecked := by
  obtain ⟨size, found, rfl⟩ := exists_of_map_eq_ok read
  exact isChecked_of_readField exists_of_readBounded found

theorem RenderSettings.areChecked_of_ofEntries {entries : List (Value × Value)}
    {settings : RenderSettings} (read : ofEntries entries = .ok settings) :
    settings.AreChecked := by
  obtain ⟨fields, found, rfl⟩ := exists_of_map_eq_ok read
  obtain ⟨splines, others⟩ := eq_ok_of_both found
  obtain ⟨-, others⟩ := eq_ok_of_both others
  obtain ⟨width, -⟩ := eq_ok_of_both others
  exact ⟨isChecked_of_readField exists_of_readBounded width,
    isChecked_of_readField exists_of_readSplines splines⟩

theorem Settings.Tools.checksFields_own : Tools.own.ChecksFields := by
  intro entries settings _ made
  obtain ⟨sections, found, rfl⟩ := exists_of_map_eq_ok made
  obtain ⟨parser, render⟩ := eq_ok_of_both found
  constructor
  · exact good_of_readSection ParserSettings.AreChecked (Or.inl rfl)
      ParserSettings.areChecked_of_ofEntries parser
  · exact good_of_readSection RenderSettings.AreChecked ⟨Or.inl rfl, Or.inl rfl⟩
      RenderSettings.areChecked_of_ofEntries render

/-! ### Range -/

/-- Every setting for reading an outline is within its bounds. -/
structure ParserSettings.InRange (settings : ParserSettings) : Prop where
  /-- A unit of indentation has a blank. -/
  one_le_indentSize : 1 ≤ settings.indentSize
  /-- A unit of indentation has no more than eight blanks. -/
  indentSize_le_eight : settings.indentSize ≤ 8

/-- Every setting for drawing a diagram is within its bounds. -/
structure RenderSettings.InRange (settings : RenderSettings) : Prop where
  /-- The lines of a label are not too short. -/
  five_le_wrapWidth : 5 ≤ settings.wrapWidth
  /-- Edges can be routed. -/
  splines_mem : settings.splines ∈ splinesNames

/-- Every setting is within its bounds. -/
structure Settings.InRange (settings : Settings) : Prop where
  /-- An outline can be read. -/
  parser : settings.parser.InRange
  /-- A diagram can be drawn. -/
  render : settings.render.InRange

/-- Settings that are checked are in range. -/
theorem Settings.AreChecked.inRange {settings : Settings} (checked : settings.AreChecked) :
    settings.InRange := by
  constructor
  · constructor
    · exact good_of_isChecked (1 ≤ ·) checked.parser (by decide) fun passed =>
        (le_of_checkBounds passed).1
    · exact good_of_isChecked (· ≤ 8) checked.parser (by decide) fun passed =>
        (le_of_checkBounds passed).2 8 rfl
  · constructor
    · exact good_of_isChecked (5 ≤ ·) checked.render.wrapWidth (by decide) fun passed =>
        (le_of_checkBounds passed).1
    · exact good_of_isChecked (· ∈ splinesNames) checked.render.splines (by decide)
        mem_of_checkSplines

end OutlineDiagram
