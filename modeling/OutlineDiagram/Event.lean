/-
This file lists what can be reported about a run. An event is a fact with its
particulars; how it is named, how grave it is and under which names its
particulars are written follows from the fact alone.
-/

namespace OutlineDiagram

/-- How grave an event is. -/
inductive Level where
  /-- Of use when a fault is looked for. -/
  | debug
  /-- Part of a normal run. -/
  | info
  /-- Something in the outline is probably a mistake. -/
  | warning
  /-- The run did not do what it was asked to. -/
  | error
  deriving DecidableEq, Repr, Inhabited

namespace Level

/-- The name of a level. -/
def name : Level → String
  | debug => "debug"
  | info => "info"
  | warning => "warning"
  | error => "error"

/-- The place of a level in the order from the least grave to the gravest. -/
def rank : Level → Nat
  | debug => 0
  | info => 1
  | warning => 2
  | error => 3

end Level

/-- One thing worth reporting. -/
inductive Event where
  /-- A bullet is indented by more than one level below the bullet before it. -/
  | badIndentation (line depth maxDepth : Int)
  /-- A bullet declares an id that an earlier bullet declared. -/
  | duplicateId (id : String) (line : Int)
  /-- The lines of an outline became a graph. -/
  | outlineBuilt (links folds hides : Nat)
  /-- Folded and hidden bullets were taken out of a graph. -/
  | graphPruned (rerouted removed : Nat)
  /-- Repeated edges were dropped and opposite edges merged. -/
  | linksNormalized (duplicates merged : Nat)
  /-- A graph is ready to be drawn. -/
  | outlineCompiled (nodes edges : Nat) (pruned : Bool)
  /-- A graph was written as a diagram. -/
  | dotRendered (nodes edges undeclared : Nat)
  /-- A bullet got an id of its own. -/
  | idMaterialized (line : Int) (id : String)
  /-- A bullet got a link to another one. -/
  | linkAdded (source target : Int) (id : String)
  /-- Unused ids and links to nothing were dropped. -/
  | idsCleaned (edited : Nat)
  /-- A file was replaced. -/
  | fileWritten (path : String) (size : Nat)
  /-- A file could not be replaced. -/
  | fileWriteFailed (path : String)
  /-- An outline was read from a file. -/
  | outlineRead (path : String) (size : Nat)
  /-- The settings were read. -/
  | configLoaded (path : String)
  /-- The settings file that was asked for does not exist. -/
  | configNotFound (path : String)
  /-- The settings are not valid. -/
  | configInvalid (reason : String)
  /-- A diagram was asked for. -/
  | renderStarted (path : String) (prune : Bool)
  /-- An edit was asked for, of one line or of the whole outline. -/
  | editStarted (command path : String) (line : Option Int)
  /-- A link was asked for. -/
  | linkStarted (path : String) (source target : Int)
  /-- A cleanup of ids was asked for. -/
  | cleanupStarted (path : String)
  /-- An edited outline was written back. -/
  | outlineWritten (path : String)
  /-- A diagram was written. -/
  | dotWritten (path : String)
  /-- An outline changed on disk while it was edited. -/
  | concurrentModification (path reason : String)
  /-- An edit was aimed at a line without a bullet. -/
  | editFailed (path reason : String)
  /-- An outline could not be compiled. -/
  | structureRejected (line : Int) (reason : String)
  deriving DecidableEq, Repr

namespace Event

/-- A particular of an event. -/
inductive Detail where
  /-- A number. -/
  | number (value : Int)
  /-- A truth value. -/
  | flag (value : Bool)
  /-- A text. -/
  | text (value : String)
  deriving DecidableEq, Repr

/-- How grave an event is. -/
def level : Event → Level
  | outlineBuilt .. | graphPruned .. | linksNormalized .. | fileWritten .. | outlineRead .. =>
    .debug
  | badIndentation .. | duplicateId .. => .warning
  | fileWriteFailed .. | configNotFound .. | configInvalid .. | concurrentModification ..
  | editFailed .. | structureRejected .. => .error
  | outlineCompiled .. | dotRendered .. | idMaterialized .. | linkAdded .. | idsCleaned ..
  | configLoaded .. | renderStarted .. | editStarted .. | linkStarted .. | cleanupStarted ..
  | outlineWritten .. | dotWritten .. => .info

/-- The name of an event in the log. -/
def name : Event → String
  | badIndentation .. => "outline_bad_indentation"
  | duplicateId .. => "duplicate_id"
  | outlineBuilt .. => "outline_built"
  | graphPruned .. => "graph_pruned"
  | linksNormalized .. => "links_normalized"
  | outlineCompiled .. => "outline_compiled"
  | dotRendered .. => "dot_rendered"
  | idMaterialized .. => "id_materialized"
  | linkAdded .. => "link_added"
  | idsCleaned .. => "ids_cleaned"
  | fileWritten .. => "file_written"
  | fileWriteFailed .. => "file_write_failed"
  | outlineRead .. => "outline_read"
  | configLoaded .. => "config_loaded"
  | configNotFound .. => "config_not_found"
  | configInvalid .. => "config_validation_error"
  | renderStarted .. => "render_command_started"
  | editStarted .. => "edit_command_started"
  | linkStarted .. => "link_command_started"
  | cleanupStarted .. => "cleanup_command_started"
  | outlineWritten .. => "outline_written"
  | dotWritten .. => "dot_written"
  | concurrentModification .. => "outline_concurrent_modification"
  | editFailed .. => "document_edit_error"
  | structureRejected .. => "outline_structure_error"

/-- The particulars of an event, each under the name that it has in the log. -/
def details : Event → List (String × Detail)
  | badIndentation line depth maxDepth =>
    [("line", .number line), ("depth", .number depth), ("max_depth", .number maxDepth)]
  | duplicateId id line => [("node_id", .text id), ("line", .number line)]
  | outlineBuilt links folds hides =>
    [("links", .number links), ("folds", .number folds), ("hides", .number hides)]
  | graphPruned rerouted removed => [("rerouted", .number rerouted), ("removed", .number removed)]
  | linksNormalized duplicates merged =>
    [("duplicates_removed", .number duplicates), ("pairs_merged", .number merged)]
  | outlineCompiled nodes edges pruned =>
    [("nodes", .number nodes), ("edges", .number edges), ("pruned", .flag pruned)]
  | dotRendered nodes edges undeclared =>
    [("nodes", .number nodes), ("edges", .number edges), ("undeclared", .number undeclared)]
  | idMaterialized line id => [("line", .number line), ("node_id", .text id)]
  | linkAdded source target id =>
    [("source_line", .number source), ("target_line", .number target), ("target_id", .text id)]
  | idsCleaned edited => [("edited", .number edited)]
  | fileWritten path size | outlineRead path size => [("path", .text path), ("size", .number size)]
  | fileWriteFailed path | configLoaded path | configNotFound path | cleanupStarted path
  | outlineWritten path | dotWritten path => [("path", .text path)]
  | configInvalid reason => [("error", .text reason)]
  | renderStarted path prune => [("path", .text path), ("prune", .flag prune)]
  | editStarted command path line =>
    [("command", .text command), ("path", .text path)] ++
      (line.map fun number => ("line", Detail.number number)).toList
  | linkStarted path source target =>
    [("path", .text path), ("source", .number source), ("target", .number target)]
  | concurrentModification path reason | editFailed path reason =>
    [("path", .text path), ("error", .text reason)]
  | structureRejected line reason => [("line", .number line), ("error", .text reason)]

/-- An event is reported when it is at least as grave as the threshold. -/
def reaches (event : Event) (threshold : Level) : Bool := threshold.rank ≤ event.level.rank

end Event

end OutlineDiagram
