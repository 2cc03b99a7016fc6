import ExpressionChecker.Tree

namespace ExpressionChecker
namespace Tree

/-!
# Outlines of trees

The outline lists the nodes of a tree from the root down and from left to right, each with its
depth below the root.  The written outline has a line for every node and indents it by its depth.
-/

/-- A node of a tree with the number of nodes above it. -/
structure Entry where
  depth : Nat
  node : Tree
deriving Repr, Inhabited

mutual

/-- The outline of a tree whose root stands at the given depth. -/
def outlineAt (depth : Nat) : Tree → List Entry
  | tree@(identifier ..) | tree@(number ..) => [⟨depth, tree⟩]
  | tree@(unary _ operand _) => ⟨depth, tree⟩ :: outlineAt (depth + 1) operand
  | tree@(binary _ left right _) =>
    ⟨depth, tree⟩ :: (outlineAt (depth + 1) left ++ outlineAt (depth + 1) right)
  | tree@(call _ arguments _) => ⟨depth, tree⟩ :: outlineAllAt (depth + 1) arguments
  | tree@(assignment target value _) =>
    ⟨depth, tree⟩ :: (outlineAt (depth + 1) target ++ outlineAt (depth + 1) value)

/-- The outlines of several trees one after the other. -/
def outlineAllAt (depth : Nat) : List Tree → List Entry
  | [] => []
  | tree :: trees => outlineAt depth tree ++ outlineAllAt depth trees

end

/-- The outline of a tree. -/
def outline (tree : Tree) : List Entry :=
  outlineAt 0 tree

namespace Entry

/-- The label of a node: its kind, its value and, once it has been checked, its type. -/
def label (entry : Entry) : String :=
  match entry.node.inferred with
  | some type => s!"[{entry.node.kindName}: {entry.node.value} ({type.name})]"
  | none => s!"[{entry.node.kindName}: {entry.node.value}]"

/-- The indentation of a line, two blanks for every node above it. -/
def indentation (entry : Entry) : String :=
  String.ofList (List.replicate (2 * entry.depth) ' ')

/-- The line of a node, with the line feed that ends it. -/
def line (entry : Entry) : String :=
  entry.indentation ++ entry.label ++ "\n"

end Entry

/-- The written outline of a tree. -/
def outlineText (tree : Tree) : String :=
  String.join (tree.outline.map Entry.line)

end Tree
end ExpressionChecker
