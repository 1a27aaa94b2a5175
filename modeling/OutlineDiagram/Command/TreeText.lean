/-
This file prints the bullets of a graph as a tree: a line for each node, led by
guides that tell which nodes above it have more nodes to come. A node is shown by
its label, its id and the number of nodes that are below it in the whole outline.
-/

import OutlineDiagram.Graph.Basic
import OutlineDiagram.Text.Markup

namespace OutlineDiagram.TreeText

/-- The guide to a node, which is the last of the trees beside it or not. -/
def guide (isLast : Bool) : String := if isLast then "└── " else "├── "

/-- What the guide to a node becomes on the lines below it. -/
def continuation (isLast : Bool) : String := if isLast then "    " else "│   "

/-- What is printed of a node. A folded one is marked with a plus. -/
def nodeText (node : Node) (below : Forest Node) : String :=
  let mark := if node.isFolded below then "+ " else ""
  let label := String.ofList (Text.showProtected node.label.toList)
  let id := String.ofList (Text.showProtected node.id.toList)
  let size := if node.size = 0 then "" else ", " ++ toString node.size
  String.ofList (Text.expandTabs 0 (mark ++ label ++ " (" ++ id ++ size ++ ")").toList)

/-- The lines of the trees of a forest, each led by the guides of the nodes above. -/
def linesFrom (guides : String) : Forest Node → List String
  | .nil => []
  | .cons node below after =>
    (guides ++ guide after.isEmpty ++ nodeText node below) ::
      (linesFrom (guides ++ continuation after.isEmpty) below ++ linesFrom guides after)

/-- The line that lists ids declared more than once, if there are any. -/
def duplicateLines (ids : IdSet) : List String :=
  if ids.toList.isEmpty then []
  else
    Text.consoleLines
      ("Duplicate ids: ".toList ++ Text.showProtected (", ".intercalate ids.toList).toList)

/-- The lines printed for the name of a file, which is set in bold. -/
def nameLines (name : String) : Except Text.MarkupError (List String) :=
  Text.markupLines ("[bold]" ++ name ++ "[/bold]").toList

/-- The lines printed of a graph under the name of its file. -/
def lines (name : String) (graph : Graph) : Except Text.MarkupError (List String) :=
  (nameLines name).map fun top =>
    top ++ linesFrom "" graph.forest ++ duplicateLines graph.duplicateIds

end OutlineDiagram.TreeText
