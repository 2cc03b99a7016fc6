import ExpressionChecker.Proofs.Token.Munch
import ExpressionChecker.Proofs.Tree.Address
import ExpressionChecker.Proofs.Tree.Relabeling

namespace ExpressionChecker

/-!
# Outlines identify trees

Nothing in the outline of a tree says where the children of a node end.  The indentation says it all
the same: what is below a node is indented deeper than the node, and the first line that is not ends
it.  A line that shows well-spelt text can be taken apart, because neither a name nor a number holds a
blank, and so the type behind the value cannot be taken for a part of it.  Hence trees with the same
outline are the same, apart from where their nodes stand.
-/

/-! ## Lines -/

namespace Text

/-- The text is made of the given lines, each of them ended by a line feed. -/
structure HasLines (text : String) (lines : List (List Char)) : Prop where
  whole : text.toList = lines.flatMap (· ++ ['\n'])
  single : ∀ line ∈ lines, '\n' ∉ line

theorem flatMap_line_injective {lines lines' : List (List Char)}
    (single : ∀ line ∈ lines, '\n' ∉ line) (single' : ∀ line ∈ lines', '\n' ∉ line)
    (same : lines.flatMap (· ++ ['\n']) = lines'.flatMap (· ++ ['\n'])) : lines = lines' := by
  induction lines generalizing lines' with
  | nil =>
      cases lines' with
      | nil => rfl
      | cons line' later' => simp at same
  | cons line later inductionHypothesis =>
      cases lines' with
      | nil => simp at same
      | cons line' later' =>
          rcases List.forall_mem_cons.mp single with ⟨here, further⟩
          rcases List.forall_mem_cons.mp single' with ⟨here', further'⟩
          simp only [List.flatMap_cons, List.append_assoc, List.singleton_append] at same
          rcases (LongestRun.before here _).unique (LongestRun.before here' _) same with
            ⟨rfl, behind⟩
          rw [inductionHypothesis further further' (List.cons.inj behind).2]

theorem HasLines.unique {text : String} {lines lines' : List (List Char)}
    (isFirst : HasLines text lines) (isSecond : HasLines text lines') : lines = lines' :=
  flatMap_line_injective isFirst.single isSecond.single (isFirst.whole.symm.trans isSecond.whole)

end Text

namespace Tree

/-! ## Well-spelt trees -/

/-- The names and the numbers of a tree are well spelt.  A reserved word may be a name, and any
operator may stand in front of an operand as well as between two. -/
inductive IsWellSpelt : Tree → Prop where
  | identifier {name : String} {note : Note} (spelt : Spelling.isName name.toList = true) :
      IsWellSpelt (.identifier name note)
  | number {literal : String} {note : Note} (spelt : Spelling.isNumber literal.toList = true) :
      IsWellSpelt (.number literal note)
  | unary {operator : Operator} {operand : Tree} {note : Note}
      (isOperand : IsWellSpelt operand) : IsWellSpelt (.unary operator operand note)
  | binary {operator : Operator} {left right : Tree} {note : Note} (isLeft : IsWellSpelt left)
      (isRight : IsWellSpelt right) : IsWellSpelt (.binary operator left right note)
  | call {name : String} {arguments : List Tree} {note : Note}
      (spelt : Spelling.isName name.toList = true)
      (areArguments : ∀ argument ∈ arguments, IsWellSpelt argument) :
      IsWellSpelt (.call name arguments note)
  | assignment {target value : Tree} {note : Note} (isTarget : IsWellSpelt target)
      (isValue : IsWellSpelt value) : IsWellSpelt (.assignment target value note)

namespace IsWellSpelt

theorem child {tree child : Tree} (spelt : tree.IsWellSpelt) (below : child ∈ tree.children) :
    child.IsWellSpelt := by
  cases spelt with
  | identifier => cases below
  | number => cases below
  | unary isOperand => exact List.mem_singleton.mp below ▸ isOperand
  | binary isLeft isRight =>
      rcases List.mem_pair.mp below with rfl | rfl
      · exact isLeft
      · exact isRight
  | call _ areArguments => exact areArguments child below
  | assignment isTarget isValue =>
      rcases List.mem_pair.mp below with rfl | rfl
      · exact isTarget
      · exact isValue

theorem at? {tree node : Tree} (spelt : tree.IsWellSpelt) {address : List Nat}
    (found : tree.at? address = some node) : node.IsWellSpelt := by
  induction address generalizing tree with
  | nil => exact Option.some.inj found ▸ spelt
  | cons place later inductionHypothesis =>
      rcases Option.bind_eq_some_iff.mp found with ⟨child, isChild, isNode⟩
      exact inductionHypothesis (spelt.child (List.mem_of_getElem? isChild)) isNode

/-- No blank stands in what a well-spelt node stands for. -/
theorem not_isBlank_value {tree : Tree} (spelt : tree.IsWellSpelt) :
    ∀ c ∈ tree.value.toList, Text.isBlank c = false := by
  have fixed {text : String} (noBlank : text.toList.all (fun c => Text.isBlank c = false) = true) :
      ∀ c ∈ text.toList, Text.isBlank c = false :=
    fun c listed => of_decide_eq_true (List.all_eq_true.mp noBlank c listed)
  have symbol (operator : Operator) : ∀ c ∈ operator.symbol.toList, Text.isBlank c = false :=
    fixed (by cases operator <;> decide)
  cases spelt with
  | identifier spelt => exact Spelling.not_isBlank_of_isName spelt
  | number spelt => exact Spelling.not_isBlank_of_isNumber spelt
  | unary => exact symbol _
  | binary => exact symbol _
  | call spelt => exact Spelling.not_isBlank_of_isName spelt
  | assignment => exact @fixed "=" (by decide)

end IsWellSpelt

/-! ## Rows -/

/-- What a line of an outline shows: the depth of a node, its kind, the text it stands for and, once
it has been checked, its type. -/
structure Row where
  depth : Nat
  kind : String
  value : String
  inferred : Option DataType

/-- The row of an entry. -/
def Entry.row (entry : Entry) : Row :=
  ⟨entry.depth, entry.node.kindName, entry.node.value, entry.node.inferred⟩

namespace Row

/-- What is written behind a value to show the type. -/
def suffix : Option DataType → List Char
  | some type => ' ' :: '(' :: (type.name.toList ++ [')'])
  | none => []

/-- The line that shows the row, without the line feed that ends it. -/
def line (row : Row) : List Char :=
  List.replicate (2 * row.depth) ' ' ++ '[' :: (row.kind.toList ++
    ':' :: ' ' :: (row.value.toList ++ (suffix row.inferred ++ [']'])))

/-- The row can be read off its line. -/
structure IsLegible (row : Row) : Prop where
  kind : ':' ∉ row.kind.toList ∧ '\n' ∉ row.kind.toList
  value : ∀ c ∈ row.value.toList, Text.isBlank c = false

theorem marks_not_mem_kindName (tree : Tree) :
    ':' ∉ tree.kindName.toList ∧ '\n' ∉ tree.kindName.toList := by
  have listed : tree.kindName ∈
      ["IDENTIFIER", "NUMBER", "OPERATOR", "FUNCTION_CALL", "ASSIGNMENT"] := by
    cases tree <;> simp [kindName]
  revert listed
  generalize tree.kindName = kind
  revert kind
  decide

theorem suffix_injective {inferred inferred' : Option DataType}
    (same : suffix inferred = suffix inferred') : inferred = inferred' := by
  have names {type type' : DataType} (same : type.name = type'.name) : type = type' := by
    revert same
    cases type <;> cases type' <;> decide
  cases inferred with
  | none =>
      cases inferred' with
      | none => rfl
      | some type' => cases same
  | some type =>
      cases inferred' with
      | none => cases same
      | some type' =>
          have closed := (List.cons.inj (List.cons.inj same).2).2
          rw [names (String.toList_inj.mp (List.append_cancel_right closed))]

theorem newline_not_mem_suffix (inferred : Option DataType) : '\n' ∉ suffix inferred := by
  cases inferred with
  | none => decide
  | some type => cases type <;> decide

/-- A value without blanks is told from the type behind it. -/
theorem IsLegible.value_longest {row : Row} (legible : row.IsLegible) :
    LongestRun (fun c => !Text.isBlank c) row.value.toList (suffix row.inferred) where
  within := by
    intro c listed
    rw [legible.value c listed]
    rfl
  stops := by
    intro c isFirst
    cases inferred : row.inferred with
    | none =>
        rw [inferred] at isFirst
        cases isFirst
    | some type =>
        rw [inferred] at isFirst
        cases isFirst
        decide

/-- Legible rows with the same line are the same. -/
theorem IsLegible.line_injective {row row' : Row} (legible : row.IsLegible)
    (legible' : row'.IsLegible) (same : row.line = row'.line) : row = row' := by
  have indented (row : Row) (rest : List Char) :
      LongestRun (· == ' ') (List.replicate (2 * row.depth) ' ') ('[' :: rest) :=
    ⟨fun c listed => beq_iff_eq.mpr (List.eq_of_mem_replicate listed), by
      rintro _ ⟨⟩
      decide⟩
  rcases (indented row _).unique (indented row' _) same with ⟨blanks, labels⟩
  rcases (LongestRun.before legible.kind.1 _).unique (LongestRun.before legible'.kind.1 _)
    (List.cons.inj labels).2 with ⟨kinds, behind⟩
  have shown := (List.cons.inj (List.cons.inj behind).2).2
  rw [← List.append_assoc, ← List.append_assoc] at shown
  rcases legible.value_longest.unique legible'.value_longest (List.append_cancel_right shown) with
    ⟨values, suffixes⟩
  have depths := congrArg List.length blanks
  rw [List.length_replicate, List.length_replicate] at depths
  have depth : row.depth = row'.depth := by omega
  cases row
  cases row'
  cases depth
  cases String.toList_inj.mp kinds
  cases String.toList_inj.mp values
  cases suffix_injective suffixes
  rfl

theorem IsLegible.newline_not_mem_line {row : Row} (legible : row.IsLegible) :
    '\n' ∉ row.line := by
  have inValue : '\n' ∉ row.value.toList := by
    intro listed
    have impossible := legible.value '\n' listed
    revert impossible
    decide
  simp [line, List.mem_replicate, legible.kind.2, inValue, newline_not_mem_suffix]

theorem map_line_injective {rows rows' : List Row} (legible : ∀ row ∈ rows, row.IsLegible)
    (legible' : ∀ row ∈ rows', row.IsLegible) (same : rows.map line = rows'.map line) :
    rows = rows' := by
  induction rows generalizing rows' with
  | nil => exact (List.map_eq_nil_iff.mp same.symm).symm
  | cons row later inductionHypothesis =>
      cases rows' with
      | nil => cases same
      | cons row' later' =>
          rcases List.forall_mem_cons.mp legible with ⟨here, further⟩
          rcases List.forall_mem_cons.mp legible' with ⟨here', further'⟩
          rcases List.cons.inj same with ⟨lines, behind⟩
          rw [here.line_injective here' lines, inductionHypothesis further further' behind]

end Row

theorem Entry.toList_label (entry : Entry) : entry.label.toList =
    '[' :: (entry.node.kindName.toList ++ ':' :: ' ' ::
      (entry.node.value.toList ++ (Row.suffix entry.node.inferred ++ [']']))) := by
  cases inferred : entry.node.inferred <;> simp [label, Row.suffix, inferred, toString]

theorem Entry.line_row (entry : Entry) :
    entry.row.line = List.replicate (2 * entry.depth) ' ' ++ entry.label.toList := by
  rw [toList_label]
  rfl

theorem Entry.toList_line (entry : Entry) : entry.line.toList = entry.row.line ++ ['\n'] := by
  rw [line_row, line, indentation, String.toList_append, String.toList_append, String.toList_ofList]
  rfl

/-! ## Trees from rows -/

/-- The tree with the given kind, value, type and children at its root, if there is one.  Whether an
operator stands in front of its operand or between two is seen from their number. -/
def ofParts? (kind value : String) (inferred : Option DataType) (children : List Tree) :
    Option Tree :=
  if kind = "IDENTIFIER" then some (identifier value ⟨.start, inferred⟩)
  else if kind = "NUMBER" then some (number value ⟨.start, inferred⟩)
  else if kind = "FUNCTION_CALL" then some (call value children ⟨.start, inferred⟩)
  else
    match Operator.ofSymbol? value, children with
    | some operator, [operand] => some (unary operator operand ⟨.start, inferred⟩)
    | some operator, [left, right] => some (binary operator left right ⟨.start, inferred⟩)
    | none, [target, value] => some (assignment target value ⟨.start, inferred⟩)
    | _, _ => none

theorem children_unplaced (tree : Tree) : tree.unplaced.children = tree.children.map unplaced := by
  cases tree with
  | call name arguments note => exact relabeledAll_eq_map _ arguments
  | _ => rfl

/-- Apart from its position, a tree is known from what stands at its root and from the children. -/
theorem ofParts?_unplaced (tree : Tree) :
    ofParts? tree.kindName tree.value tree.inferred (tree.children.map unplaced) =
      some tree.unplaced := by
  cases tree with
  | unary operator operand note =>
      have known := Operator.ofSymbol?_symbol operator
      simp only [ofParts?, kindName, value, children, List.map_cons, List.map_nil, known]
      rfl
  | binary operator left right note =>
      have known := Operator.ofSymbol?_symbol operator
      simp only [ofParts?, kindName, value, children, List.map_cons, List.map_nil, known]
      rfl
  | call name arguments note =>
      rw [children, unplaced, moved, relabeled, relabeledAll_eq_map]
      rfl
  | _ => rfl

/-- The rows of several trees whose roots stand at the given depth. -/
abbrev rowsAt (depth : Nat) (trees : List Tree) : List Row :=
  (outlineAllAt depth trees).map Entry.row

theorem rowsAt_cons (depth : Nat) (tree : Tree) (later : List Tree) :
    rowsAt depth (tree :: later) =
      ⟨depth, tree.kindName, tree.value, tree.inferred⟩ ::
        (rowsAt (depth + 1) tree.children ++ rowsAt depth later) := by
  rw [rowsAt, outlineAllAt, outlineAt_eq, List.cons_append, List.map_cons, List.map_append]
  rfl

/-- The rows begin with one that is less deep than `depth`, or there are none. -/
def EndsAbove (depth : Nat) (rows : List Row) : Prop :=
  ∀ row ∈ rows.head?, row.depth < depth

/-- Behind the children of a node stand the nodes at its own depth, or less deep ones. -/
theorem EndsAbove.rowsAt_append {depth : Nat} {rows : List Row} (above : EndsAbove depth rows)
    (trees : List Tree) : EndsAbove (depth + 1) (rowsAt depth trees ++ rows) := by
  cases trees with
  | nil =>
      intro row isFirst
      exact Nat.lt_succ_of_lt (above row isFirst)
  | cons tree later =>
      rw [rowsAt_cons]
      rintro row ⟨⟩
      exact Nat.lt_succ_self depth

/-- No tree at the given depth begins where less deep rows follow. -/
theorem EndsAbove.ne_rowsAt_cons {depth : Nat} {rows : List Row} (above : EndsAbove depth rows)
    (tree : Tree) (later : List Tree) (rows' : List Row) :
    rows ≠ rowsAt depth (tree :: later) ++ rows' := by
  rintro rfl
  rw [rowsAt_cons] at above
  exact Nat.lt_irrefl depth (above _ rfl)

/-- Rows tell trees at one depth apart, wherever their outlines end: the children of a node are the
trees in front of the next row that is no deeper than the node. -/
theorem unplaced_eq_of_rows {depth : Nat} {trees trees' : List Tree} {rows rows' : List Row}
    (above : EndsAbove depth rows) (above' : EndsAbove depth rows')
    (same : rowsAt depth trees ++ rows = rowsAt depth trees' ++ rows') :
    trees.map unplaced = trees'.map unplaced ∧ rows = rows' := by
  induction trees using forest_induction generalizing depth trees' rows rows' with
  | nil =>
      cases trees' with
      | nil => exact ⟨rfl, same⟩
      | cons tree' later' => exact absurd same (above.ne_rowsAt_cons tree' later' rows')
  | cons tree later ofChildren ofLater =>
      cases trees' with
      | nil => exact absurd same.symm (above'.ne_rowsAt_cons tree later rows)
      | cons tree' later' =>
          rw [rowsAt_cons, rowsAt_cons, List.cons_append, List.cons_append, List.append_assoc,
            List.append_assoc] at same
          rcases List.cons.inj same with ⟨roots, behind⟩
          rcases Row.mk.inj roots with ⟨-, kinds, values, types⟩
          rcases ofChildren (above.rowsAt_append later) (above'.rowsAt_append later') behind with
            ⟨children, further⟩
          rcases ofLater above above' further with ⟨others, rest⟩
          have known := ofParts?_unplaced tree
          rw [kinds, values, types, children, ofParts?_unplaced tree'] at known
          rw [List.map_cons, List.map_cons, Option.some.inj known, others]
          exact ⟨rfl, rest⟩

/-- The outline does not show positions. -/
theorem rowsAt_unplaced (depth : Nat) (trees : List Tree) :
    rowsAt depth (trees.map unplaced) = rowsAt depth trees := by
  induction trees using forest_induction generalizing depth with
  | nil => rfl
  | cons tree later ofChildren ofLater =>
      have root : Entry.row ⟨depth, tree.unplaced⟩ = Entry.row ⟨depth, tree⟩ := by
        cases tree <;> rfl
      rw [List.map_cons, rowsAt_cons, rowsAt_cons, children_unplaced, ofChildren, ofLater]
      exact congrArg (· :: _) root

/-! ## The written outline -/

theorem map_row_outline (tree : Tree) : tree.outline.map Entry.row = rowsAt 0 [tree] := by
  rw [rowsAt, outlineAllAt, outlineAllAt, List.append_nil]
  rfl

theorem toList_outlineText (tree : Tree) :
    tree.outlineText.toList = ((rowsAt 0 [tree]).map Row.line).flatMap (· ++ ['\n']) := by
  rw [← map_row_outline, outlineText, String.toList_join, List.flatMap_map, List.flatMap_map,
    List.flatMap_map]
  exact List.flatMap_congr fun entry _ => entry.toList_line

/-- Each row of a well-spelt tree can be read off its line. -/
theorem IsWellSpelt.rows_isLegible {tree : Tree} (spelt : tree.IsWellSpelt) :
    ∀ row ∈ rowsAt 0 [tree], row.IsLegible := by
  rw [← map_row_outline]
  intro row listed
  rcases List.mem_map.mp listed with ⟨entry, isEntry, rfl⟩
  rcases List.mem_iff_getElem.mp isEntry with ⟨place, bound, rfl⟩
  have stands := (tree.outlineAt_standsAt 0).get bound
    ((tree.outlineAt_standsAt 0).length_eq ▸ bound)
  exact ⟨Row.marks_not_mem_kindName _, (spelt.at? stands.node).not_isBlank_value⟩

/-- The lines show the nodes of the tree from the root down and from left to right: there is one for
every address, in ascending order, and it is indented by twice the depth of the node it shows. -/
structure IsShownBy (tree : Tree) (lines : List (List Char)) : Prop where
  count : lines.length = tree.size
  ordered : ∃ addresses : List (List Nat), addresses.Pairwise (· < ·) ∧
    (∀ address, address ∈ addresses ↔ (tree.at? address).isSome = true) ∧
    List.Forall₂ (fun address line => ∃ node, tree.at? address = some node ∧
      line = List.replicate (2 * address.length) ' ' ++
        (Entry.label ⟨address.length, node⟩).toList) addresses lines

theorem isShownBy_lines (tree : Tree) : tree.IsShownBy ((rowsAt 0 [tree]).map Row.line) := by
  have stands := tree.outlineAt_standsAt 0
  rw [← map_row_outline, List.map_map]
  constructor
  · rw [List.length_map, outline, stands.length_eq, length_addresses]
  · refine ⟨tree.addresses, tree.addresses_pairwise, fun _ => tree.mem_addresses_iff, ?_⟩
    rw [List.forall₂_map_right_iff]
    refine stands.flip.imp fun address entry stands => ⟨entry.node, stands.node, ?_⟩
    rcases entry with ⟨depth, node⟩
    cases stands.depth.trans (Nat.zero_add _)
    exact Entry.line_row _

/-- Well-spelt trees have the same outline if and only if they are the same apart from positions, and
an outline has a line for every node. -/
theorem outline_identifies {tree tree' : Tree} (spelt : tree.IsWellSpelt)
    (spelt' : tree'.IsWellSpelt) :
    (tree.outlineText = tree'.outlineText ↔ tree.unplaced = tree'.unplaced) ∧
      ∃ lines, Text.HasLines tree.outlineText lines ∧ tree.IsShownBy lines := by
  have hasLines {tree : Tree} (spelt : tree.IsWellSpelt) :
      Text.HasLines tree.outlineText ((rowsAt 0 [tree]).map Row.line) := by
    refine ⟨tree.toList_outlineText, fun line listed => ?_⟩
    rcases List.mem_map.mp listed with ⟨row, isRow, rfl⟩
    exact (spelt.rows_isLegible row isRow).newline_not_mem_line
  refine ⟨⟨fun same => ?_, fun same => ?_⟩, _, hasLines spelt, tree.isShownBy_lines⟩
  · have lines := (hasLines spelt).unique (same ▸ hasLines spelt')
    have rows := Row.map_line_injective spelt.rows_isLegible spelt'.rows_isLegible lines
    have nothingBehind : EndsAbove 0 [] := fun _ isFirst => nomatch isFirst
    have trees := (unplaced_eq_of_rows nothingBehind nothingBehind
      (congrArg (· ++ []) rows)).1
    exact List.head_eq_of_cons_eq trees
  · have rows : rowsAt 0 [tree] = rowsAt 0 [tree'] := by
      rw [← rowsAt_unplaced, ← rowsAt_unplaced 0 [tree'], List.map_singleton, List.map_singleton,
        same]
    apply String.toList_inj.mp
    rw [toList_outlineText, toList_outlineText, rows]

/-- Whether `b` is the second argument of `f` or of `g` shows in nothing but the indentation. -/
theorem outline_identifies_argument :
    let a : Tree := .identifier "a" ⟨.start, none⟩
    let b : Tree := .identifier "b" ⟨.start, none⟩
    let outer : Tree := .call "f" [.call "g" [a] ⟨.start, none⟩, b] ⟨.start, none⟩
    let inner : Tree := .call "f" [.call "g" [a, b] ⟨.start, none⟩] ⟨.start, none⟩
    outer.IsWellSpelt ∧ inner.IsWellSpelt ∧ outer.outlineText ≠ inner.outlineText ∧
      ∃ lines, Text.HasLines outer.outlineText lines ∧ outer.IsShownBy lines := by
  intro a b outer inner
  have isA : a.IsWellSpelt := .identifier (by decide)
  have isB : b.IsWellSpelt := .identifier (by decide)
  have isOuter : outer.IsWellSpelt := by
    refine .call (by decide) (List.forall_mem_cons.mpr ⟨.call (by decide) ?_, ?_⟩)
    · exact List.forall_mem_singleton.mpr isA
    · exact List.forall_mem_singleton.mpr isB
  have isInner : inner.IsWellSpelt := by
    refine .call (by decide) (List.forall_mem_singleton.mpr (.call (by decide) ?_))
    exact List.forall_mem_cons.mpr ⟨isA, List.forall_mem_singleton.mpr isB⟩
  rcases outline_identifies isOuter isInner with ⟨identified, shown⟩
  refine ⟨isOuter, isInner, fun same => ?_, shown⟩
  rcases Tree.call.inj (identified.mp same) with ⟨-, arguments, -⟩
  exact absurd (congrArg List.length arguments) (by decide)

end Tree
end ExpressionChecker
