import ExpressionChecker.Proofs.Analysis.Verdict
import ExpressionChecker.Proofs.Tree.Traversal

namespace ExpressionChecker

/-!
# The declaration pass as a run over the nodes

The declaration pass does one thing at every node it visits and nothing that depends on where in the
tree the node stands, apart from the number of calls above it.  So the pass is a run over the visits
in pre-order that stops at the first one below too many calls.  What it has gathered by then depends
on the names that have been assigned to: the first target of each name is a symbol, and every other
target is a finding that cites the first one.
-/

/-- A name that is assigned to, with the position of the target. -/
abbrev Target := String × Position

namespace Target

/-! ## First targets and others -/

/-- The first target of each name. -/
def firsts : List Target → List Target
  | [] => []
  | target :: later => target :: (firsts later).filter fun other => other.1 ≠ target.1

/-- The finding about a target of a name that has an earlier one. -/
def duplicate (first target : Target) : Diagnostic :=
  .report .duplicateVariable target.2
    (s!"Variable '{target.1}' already declared at line {first.2.line}, " ++
      s!"column {first.2.column}")

/-- The findings about the targets of names that have an earlier one, also among those `before`. -/
def duplicatesAfter (before : List Target) : List Target → List Diagnostic
  | [] => []
  | target :: later =>
    ((before.find? fun other => other.1 = target.1).map (duplicate · target)).toList ++
      duplicatesAfter (before ++ [target]) later

/-- The findings about all targets but the first of each name, citing that one. -/
def duplicates (targets : List Target) : List Diagnostic :=
  duplicatesAfter [] targets

/-- A name is looked up among the first targets as among all. -/
theorem find?_firsts (targets : List Target) (name : String) :
    (firsts targets).find? (fun target => decide (target.1 = name)) =
      targets.find? fun target => decide (target.1 = name) := by
  induction targets with
  | nil => rfl
  | cons target later inductionHypothesis =>
      simp only [firsts, List.find?_cons]
      by_cases same : target.1 = name
      · simp only [same, decide_true]
      · have other : ∀ target' : Target, (target'.1 ≠ target.1 ∧ target'.1 = name) ↔
            target'.1 = name :=
          fun target' => ⟨And.right, fun named => ⟨fun equal => same (equal ▸ named), named⟩⟩
        simp only [same, decide_false, List.find?_filter, decide_eq_true_eq, other,
          inductionHypothesis]

theorem mem_map_firsts {targets : List Target} {name : String} :
    name ∈ (firsts targets).map Prod.fst ↔ name ∈ targets.map Prod.fst := by
  have found := congrArg Option.isSome (find?_firsts targets name)
  rw [Bool.eq_iff_iff, List.find?_isSome, List.find?_isSome] at found
  simpa only [List.mem_map, decide_eq_true_eq] using found

/-- A further target is a first one if no earlier one has its name. -/
theorem firsts_concat (targets : List Target) (target : Target) :
    firsts (targets ++ [target]) =
      firsts targets ++ if target.1 ∈ targets.map Prod.fst then [] else [target] := by
  induction targets with
  | nil => simp [firsts]
  | cons target' later inductionHypothesis =>
      rw [List.cons_append, firsts, inductionHypothesis, firsts, List.filter_append]
      by_cases same : target.1 = target'.1
      · simp [same]
      · by_cases earlier : target.1 ∈ later.map Prod.fst <;> simp_all

theorem duplicatesAfter_concat (before targets : List Target) (target : Target) :
    duplicatesAfter before (targets ++ [target]) = duplicatesAfter before targets ++
      (((before ++ targets).find? fun other => other.1 = target.1).map
        (duplicate · target)).toList := by
  induction targets generalizing before with
  | nil => simp [duplicatesAfter]
  | cons target' later inductionHypothesis =>
      have remaining := inductionHypothesis (before ++ [target'])
      rw [List.append_assoc, List.singleton_append] at remaining
      rw [List.cons_append, duplicatesAfter, duplicatesAfter, remaining, List.append_assoc]

end Target

/-! ## One node -/

namespace Symbol

/-- The target that declared a symbol. -/
def target (symbol : Symbol) : Target :=
  (symbol.name, symbol.position)

end Symbol

namespace Declarations

/-- What has been gathered is what can be told from the targets so far: a symbol for the first target
of each name, neither read nor assigned to yet, and a finding for every other target. -/
structure Gathers (gathered : Declarations) (targets : List Target) (symbols : List Symbol) :
    Prop where
  holds : gathered.scopes.Holds symbols
  declared : symbols.map Symbol.target = Target.firsts targets
  untouched : ∀ symbol ∈ symbols, symbol.used = false ∧ symbol.initialized = false
  reported : gathered.diagnostics = Target.duplicates targets

namespace Gathers

variable {gathered : Declarations} {targets : List Target} {symbols : List Symbol}

theorem empty : Gathers .empty [] [] :=
  ⟨Scopes.Holds.empty, rfl, fun _ impossible => (List.not_mem_nil impossible).elim, rfl⟩

/-- The symbol of a name was declared by the first target of that name. -/
theorem find?_target (gathers : Gathers gathered targets symbols) (name : String) :
    (symbols.find? fun symbol => decide (symbol.name = name)).map Symbol.target =
      targets.find? fun target => decide (target.1 = name) := by
  rw [← Target.find?_firsts, ← gathers.declared, List.find?_map]
  rfl

/-- Adding a target keeps to what can be told from the targets. -/
theorem add (gathers : Gathers gathered targets symbols) (name : String) (type : DataType)
    (position : Position) :
    ∃ symbols', Gathers (gathered.add name type position) (targets ++ [(name, position)])
      symbols' := by
  have looked := gathers.find?_target name
  have reported : ∀ first, (targets.find? fun target => decide (target.1 = name)) = first →
      Target.duplicates (targets ++ [(name, position)]) =
        gathered.diagnostics ++ (first.map (Target.duplicate · (name, position))).toList := by
    rintro _ rfl
    rw [Target.duplicates, Target.duplicatesAfter_concat, gathers.reported, List.nil_append]
    rfl
  cases known : symbols.find? fun symbol => decide (symbol.name = name) with
  | some previous =>
      rw [known, Option.map_some] at looked
      have named := List.find?_some known
      have earlier : name ∈ targets.map Prod.fst :=
        List.mem_map.mpr ⟨previous.target, List.mem_of_find?_eq_some looked.symm,
          of_decide_eq_true named⟩
      have refused := gathers.holds.declare_known known type position
      refine ⟨symbols, ?_, ?_, gathers.untouched, ?_⟩
      · simpa only [Declarations.add, refused] using gathers.holds
      · rw [gathers.declared, Target.firsts_concat, if_pos earlier, List.append_nil]
      · rw [reported _ looked.symm]
        simp only [Declarations.add, refused]
        rfl
  | none =>
      rw [known, Option.map_none] at looked
      have fresh : name ∉ targets.map Prod.fst := by
        intro earlier
        rcases List.mem_map.mp earlier with ⟨target, listed, named⟩
        exact List.find?_eq_none.mp looked.symm target listed (decide_eq_true named)
      have unknown : ∀ symbol ∈ symbols, symbol.name ≠ name :=
        fun symbol listed named => List.find?_eq_none.mp known symbol listed (decide_eq_true named)
      rcases gathers.holds.declare unknown type position with ⟨scopes, declared, holds⟩
      refine ⟨symbols ++ [⟨name, type, position, false, false⟩], ?_, ?_, ?_, ?_⟩
      · simpa only [Declarations.add, declared] using holds
      · rw [List.map_append, gathers.declared, Target.firsts_concat, if_neg fresh]
        rfl
      · intro symbol listed
        rcases List.mem_append.mp listed with old | new
        · exact gathers.untouched symbol old
        · cases List.mem_singleton.mp new
          exact ⟨rfl, rfl⟩
      · rw [reported _ looked.symm]
        simp only [Declarations.add, declared, Option.map_none, Option.toList_none,
          List.append_nil]

end Gathers

/-- What has been gathered behind a node. -/
def behind (gathered : Declarations) : Tree → Declarations
  | .assignment (.identifier name note) value _ =>
    gathered.add name (value.impliedType gathered.scopes.typeOf) note.position
  | _ => gathered

/-- The names that are assigned to at certain nodes, each with its position. -/
def targetsAt (nodes : List Tree) : List Target :=
  nodes.filterMap Tree.target?

theorem Gathers.behind {gathered : Declarations} {targets : List Target} {symbols : List Symbol}
    (gathers : Gathers gathered targets symbols) (node : Tree) :
    ∃ symbols', Gathers (gathered.behind node) (targets ++ node.target?.toList) symbols' := by
  unfold Declarations.behind
  split
  · rename_i name note value note'
    exact gathers.add name _ note.position
  · rename_i other
    have noTarget : node.target? = none := by
      unfold Tree.target?
      split
      · rename_i name note value note'
        exact (other name note value note' rfl).elim
      · rfl
    rw [noTarget, Option.toList_none, List.append_nil]
    exact ⟨symbols, gathers⟩

/-- What has been gathered behind several nodes depends on their targets only. -/
theorem Gathers.foldl {gathered : Declarations} {targets : List Target} {symbols : List Symbol}
    (gathers : Gathers gathered targets symbols) (nodes : List Tree) :
    ∃ symbols', Gathers (nodes.foldl Declarations.behind gathered) (targets ++ targetsAt nodes)
      symbols' := by
  induction nodes generalizing gathered targets symbols with
  | nil => exact ⟨symbols, (List.append_nil targets).symm ▸ gathers⟩
  | cons node later inductionHypothesis =>
      rcases gathers.behind node with ⟨symbols', atNode⟩
      have whole : targets ++ node.target?.toList ++ targetsAt later =
          targets ++ targetsAt (node :: later) := by
        rw [List.append_assoc, targetsAt, targetsAt]
        cases found : node.target? with
        | none => rw [List.filterMap_cons_none found]; rfl
        | some target => rw [List.filterMap_cons_some found]; rfl
      rw [← whole, List.foldl_cons]
      exact inductionHypothesis atNode

end Declarations

/-! ## The run over the visits -/

namespace Tree

/-- Declares at one visit after the other, up to the first one below more calls than allowed. -/
def declareVisits (limit : Nat) : List Visit → Declarations → Except Interruption Declarations
  | [], gathered => .ok gathered
  | visit :: later, gathered =>
    if limit < visit.calls then .error ⟨⟨limit, visit.node.position⟩, gathered⟩
    else declareVisits limit later (gathered.behind visit.node)

theorem declareVisits_append (limit : Nat) (first second : List Visit) (gathered : Declarations) :
    declareVisits limit (first ++ second) gathered =
      declareVisits limit first gathered >>= declareVisits limit second := by
  induction first generalizing gathered with
  | nil => rfl
  | cons visit later inductionHypothesis =>
      rw [List.cons_append, declareVisits, declareVisits]
      split
      · rfl
      · exact inductionHypothesis _

theorem declareTarget_eq {limit depth : Nat} (within : depth ≤ limit) (target value : Tree)
    (note : Note) (gathered : Declarations) :
    declareTarget limit depth target value gathered =
      .ok (gathered.behind (assignment target value note)) := by
  cases target with
  | identifier name note' =>
      simp only [declareTarget, inferType_eq within, Declarations.behind]
  | _ => rfl

mutual

/-- The declaration pass over a tree is the run over its visits. -/
theorem declare_eq_declareVisits (limit depth : Nat) (tree : Tree) (gathered : Declarations) :
    declare limit depth tree gathered = declareVisits limit (tree.visitsBelow depth) gathered := by
  by_cases tooDeep : limit < depth
  · rcases tree.visitsBelow_root depth with ⟨later, visits⟩
    rw [declare.eq_def, if_pos tooDeep, visits, declareVisits, if_pos tooDeep]
  cases tree with
  | identifier name note =>
      rw [declare, if_neg tooDeep, visitsBelow, declareVisits, if_neg tooDeep]
      rfl
  | number literal note =>
      rw [declare, if_neg tooDeep, visitsBelow, declareVisits, if_neg tooDeep]
      rfl
  | unary operator operand note =>
      rw [declare, if_neg tooDeep, visitsBelow, declareVisits, if_neg tooDeep]
      exact declare_eq_declareVisits limit depth operand gathered
  | binary operator left right note =>
      rw [declare, if_neg tooDeep, visitsBelow, declareVisits, if_neg tooDeep,
        declareVisits_append]
      simp only [declare_eq_declareVisits limit depth left, Declarations.behind]
      exact congrArg _ (funext (declare_eq_declareVisits limit depth right))
  | call name arguments note =>
      rw [declare, if_neg tooDeep, visitsBelow, declareVisits, if_neg tooDeep]
      exact declareAll_eq_declareVisits limit (depth + 1) arguments gathered
  | assignment target value note =>
      rw [declare, if_neg tooDeep, visitsBelow, declareVisits, if_neg tooDeep,
        declareVisits_append, declareTarget_eq (Nat.le_of_not_lt tooDeep) target value note]
      simp only [declare_eq_declareVisits limit depth target]
      exact congrArg _ (funext (declare_eq_declareVisits limit depth value))

theorem declareAll_eq_declareVisits (limit depth : Nat) (trees : List Tree)
    (gathered : Declarations) :
    declareAll limit depth trees gathered =
      declareVisits limit (visitsBelowAll depth trees) gathered := by
  cases trees with
  | nil => rw [declareAll, visitsBelowAll, declareVisits]
  | cons tree later =>
      rw [declareAll, visitsBelowAll, declareVisits_append,
        declare_eq_declareVisits limit depth tree]
      exact congrArg _ (funext (declareAll_eq_declareVisits limit depth later))

end

/-- A run in which no visit is below too many calls gathers behind every node. -/
theorem declareVisits_of_within {limit : Nat} {visits : List Visit}
    (within : ∀ visit ∈ visits, visit.calls ≤ limit) (gathered : Declarations) :
    declareVisits limit visits gathered =
      .ok ((visits.map Visit.node).foldl Declarations.behind gathered) := by
  induction visits generalizing gathered with
  | nil => rfl
  | cons visit later inductionHypothesis =>
      rw [List.forall_mem_cons] at within
      rw [declareVisits, if_neg (Nat.not_lt_of_le within.1), inductionHypothesis within.2]
      rfl

/-- A run stops at the first visit below too many calls, with what has been gathered before. -/
theorem declareVisits_of_deep {limit : Nat} {before later : List Visit} {deep : Visit}
    (within : ∀ visit ∈ before, visit.calls ≤ limit) (tooDeep : limit < deep.calls)
    (gathered : Declarations) :
    declareVisits limit (before ++ deep :: later) gathered =
      .error ⟨⟨limit, deep.node.position⟩,
        (before.map Visit.node).foldl Declarations.behind gathered⟩ := by
  rw [declareVisits_append, declareVisits_of_within within]
  show declareVisits limit (deep :: later) _ = _
  rw [declareVisits, if_pos tooDeep]

/-- Over a whole tree in which no node is below too many calls, the pass gathers behind every
node. -/
theorem declare_of_within {limit : Nat} {tree : Tree}
    (within : ∀ visit ∈ tree.visits, visit.calls ≤ limit) (gathered : Declarations) :
    tree.declare limit 0 gathered = .ok (tree.preorder.foldl Declarations.behind gathered) :=
  (declare_eq_declareVisits limit 0 tree gathered).trans
    (declareVisits_of_within within gathered)

/-- Over any other tree it is interrupted at the first node below too many calls. -/
theorem declare_of_deep {limit : Nat} {tree : Tree} {before later : List Visit} {deep : Visit}
    (visits : tree.visits = before ++ deep :: later)
    (within : ∀ visit ∈ before, visit.calls ≤ limit) (tooDeep : limit < deep.calls)
    (gathered : Declarations) :
    tree.declare limit 0 gathered = .error ⟨⟨limit, deep.node.position⟩,
      (before.map Visit.node).foldl Declarations.behind gathered⟩ := by
  rw [declare_eq_declareVisits, ← Tree.visits, visits, declareVisits_of_deep within tooDeep]

end Tree
end ExpressionChecker
