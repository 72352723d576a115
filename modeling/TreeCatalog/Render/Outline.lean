import TreeCatalog.Entry.Basic
import TreeCatalog.Size.Format
/-! # Console outline of a catalog

The outline is a labelled tree printed one label per line. The root label stands alone; every
other line is a prefix (one segment per ancestor level: `│   ` below a non-last item, four spaces
below a last one), a connector (`├── ` or `└── ` for the last child) and the label. A label that
holds line breaks continues on further lines whose connector is `│   ` (or four spaces for a last
item). A catalog outline labels each entry with its size column and basename, adds `/` to
directories other than the root, always lists the root's children, and expands a directory only
while its depth (the root's children are at depth 1) is within a positive limit. -/

namespace TreeCatalog.Render

/-- A labelled tree. -/
inductive Outline where
  | node (label : String) (items : List Outline)
deriving Repr, Inhabited

namespace Outline

/-- The connector segment of an item. -/
def connector (last : Bool) : String := if last then "└── " else "├── "

/-- The segment below an item, for its continuation lines and its descendants. -/
def indent (last : Bool) : String := if last then "    " else "│   "

/-- The lines of one label at prefix `pre`: its first line after the connector, later lines after the
continuation segment. -/
def labelLines (pre : String) (last : Bool) (label : String) : String :=
  match label.splitOn "\n" with
  | [] => ""
  | first :: more =>
    pre ++ connector last ++ first ++ "\n" ++
      String.join (more.map fun l => pre ++ indent last ++ l ++ "\n")

mutual
/-- The lines of a list of items under the given prefix. -/
def itemsText (pre : String) : List Outline → String
  | [] => ""
  | [t] => itemText pre true t
  | t :: ts => itemText pre false t ++ itemsText pre ts

/-- The lines of one item and of its own items. -/
def itemText (pre : String) (last : Bool) : Outline → String
  | node label items => labelLines pre last label ++ itemsText (pre ++ indent last) items
end

/-- The printed tree: the root label on its own line, then its items. -/
def print : Outline → String
  | node label items => label ++ "\n" ++ itemsText "" items

end Outline

/-- The label of a catalog entry; directories other than the root get a trailing `/`. -/
def entryLabel (e : Entry) (isRoot : Bool) : String :=
  Size.column e.size ++ " " ++ (if e.isDir && !isRoot then e.basename ++ "/" else e.basename)

/-- The outline items for the children of an entry at `depth`, expanding directories within
`maxDepth` when it is positive. -/
def childItems (maxDepth : Int) : Nat → Entry → List Outline
  | depth, ⟨_, _, _, cs⟩ =>
    if 0 < maxDepth ∧ maxDepth < depth then [] else
      match cs with
      | none => []
      | some cs => cs.map fun c =>
        .node (entryLabel c false) (if c.isDir then childItems maxDepth (depth + 1) c else [])

/-- The console outline of a catalog tree with a depth limit (zero or less: no limit). -/
def outline (root : Entry) (maxDepth : Int) : String :=
  (Outline.node (entryLabel root true) (childItems maxDepth 1 root)).print

end TreeCatalog.Render
