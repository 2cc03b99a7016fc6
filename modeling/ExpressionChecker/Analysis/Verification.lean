import ExpressionChecker.Analysis.Declaration
import ExpressionChecker.Typing.Judgement

namespace ExpressionChecker

/-!
# The verification pass

The second pass over a tree types every node, writes the types down in the tree and reports what
is wrong.  It visits a node after the nodes below it, from left to right, except that the value of
an assignment comes before its target.  Reading a name counts as a use of its variable, and being
assigned to does not.
-/

/-- What verifying a tree yields: the tree with its types written down, the type of its root, the
scopes with the marks set by it, and the findings in the order in which they arose. -/
structure Verified where
  tree : Tree
  type : DataType
  scopes : Scopes
  diagnostics : List Diagnostic

/-- What verifying the arguments of a call yields. -/
structure VerifiedArguments where
  trees : List Tree
  arguments : List Judgement.Argument
  scopes : Scopes
  diagnostics : List Diagnostic

namespace Tree

/-- Verifies a name that is read at a node with the given note. -/
def verifyIdentifier (name : String) (note : Note) (scopes : Scopes) : Verified :=
  let declared := (scopes.lookup? name).map Symbol.type
  let judgement := Judgement.ofIdentifier name declared note.position
  { tree := .identifier name ⟨note.position, some judgement.type⟩
    type := judgement.type
    scopes := scopes.update name Symbol.asUsed
    diagnostics := judgement.findings }

/-- Verifies the assignment of a verified value to a name. -/
def verifyNamedTarget (name : String) (target note : Note) (value : Verified) : Verified :=
  let declared := (value.scopes.lookup? name).map Symbol.type
  let judgement := Judgement.ofAssignment name declared note.position value.type
  { tree := .assignment (.identifier name ⟨target.position, some judgement.type⟩) value.tree
      ⟨note.position, some judgement.type⟩
    type := judgement.type
    scopes := value.scopes.update name Symbol.asInitialized
    diagnostics := value.diagnostics ++ judgement.findings }

mutual

/-- Verifies a tree below `depth` calls. -/
def verify (limit depth : Nat) (tree : Tree) (scopes : Scopes) : Except DepthExceeded Verified :=
  if limit < depth then .error ⟨limit, tree.position⟩
  else
    match tree with
    | identifier name note => .ok (verifyIdentifier name note scopes)
    | number literal note =>
      let judgement := Judgement.ofNumber literal note.position
      .ok
        { tree := .number literal ⟨note.position, some judgement.type⟩
          type := judgement.type
          scopes := scopes
          diagnostics := judgement.findings }
    | unary operator operand note => do
      let operand ← verify limit depth operand scopes
      let judgement := Judgement.ofOperation operator note.position operand.type none
      .ok
        { tree := .unary operator operand.tree ⟨note.position, some judgement.type⟩
          type := judgement.type
          scopes := operand.scopes
          diagnostics := operand.diagnostics ++ judgement.findings }
    | binary operator left right note => do
      let left ← verify limit depth left scopes
      let right ← verify limit depth right left.scopes
      let judgement := Judgement.ofOperation operator note.position left.type (some right.type)
      .ok
        { tree := .binary operator left.tree right.tree ⟨note.position, some judgement.type⟩
          type := judgement.type
          scopes := right.scopes
          diagnostics := left.diagnostics ++ right.diagnostics ++ judgement.findings }
    | call name arguments note => do
      let verified ← verifyAll limit (depth + 1) arguments scopes
      let judgement := Judgement.ofCall name note.position verified.arguments
      .ok
        { tree := .call name verified.trees ⟨note.position, some judgement.type⟩
          type := judgement.type
          scopes := verified.scopes
          diagnostics := verified.diagnostics ++ judgement.findings }
    | assignment target value note => do
      let value ← verify limit depth value scopes
      match target with
      | identifier name targetNote => .ok (verifyNamedTarget name targetNote note value)
      | other =>
        let invalid := Judgement.invalidTarget other.kindName note.position
        let target ← verify limit depth other value.scopes
        .ok
          { tree := .assignment target.tree value.tree ⟨note.position, some .undefined⟩
            type := .undefined
            scopes := target.scopes
            diagnostics := value.diagnostics ++ invalid :: target.diagnostics }

/-- Verifies the arguments of a call, which stand below `depth` calls with it. -/
def verifyAll (limit depth : Nat) (trees : List Tree) (scopes : Scopes) :
    Except DepthExceeded VerifiedArguments :=
  match trees with
  | [] => .ok ⟨[], [], scopes, []⟩
  | tree :: later => do
    let verified ← verify limit depth tree scopes
    let rest ← verifyAll limit depth later verified.scopes
    .ok
      { trees := verified.tree :: rest.trees
        arguments := ⟨tree.position, verified.type⟩ :: rest.arguments
        scopes := rest.scopes
        diagnostics := verified.diagnostics ++ rest.diagnostics }

end

end Tree
end ExpressionChecker
