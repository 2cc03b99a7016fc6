import ExpressionChecker.Proofs.Scopes.Operations
import Mathlib.Data.List.Forall2

namespace ExpressionChecker

/-!
# Blocks inside of scopes

A block enters a scope, works with it and with scopes that it enters and leaves in turn, and leaves
it again.  Declarations made in a block go with it.  All that remains of a block are marks: a symbol
outside can be marked as long as no scope between the block and the symbol declares its name, and
there is no other way to reach it.
-/

/-! ## Steps -/

/-- What is recorded about a symbol while it is in use. -/
inductive Mark where
  | used
  | initialized
deriving DecidableEq, Repr

namespace Mark

/-- The symbol with the mark. -/
def apply : Mark → Symbol → Symbol
  | used => Symbol.asUsed
  | initialized => Symbol.asInitialized

/-- Whether the symbol has the mark. -/
def isSet : Mark → Symbol → Bool
  | used => Symbol.used
  | initialized => Symbol.initialized

end Mark

/-- A step of a block.  The symbol that a name stands for can be marked, but not changed in any other
way. -/
inductive BlockStep where
  | enter
  | leave
  | declare (name : String) (type : DataType) (position : Position)
  | lookup (name : String)
  | mark (name : String) (made : Mark)
deriving DecidableEq, Repr

namespace BlockStep

/-- The operation on scopes that a step is. -/
def operation : BlockStep → Operation
  | enter => .enter
  | leave => .leave
  | declare name type position => .declare name type position
  | lookup name => .lookup name
  | mark name made => .update name made.apply

/-- Every scope that is entered is left again, and no other one. -/
inductive Balanced : List BlockStep → Prop where
  | nothing : Balanced []
  | step {step : BlockStep} {later : List BlockStep} (notEnter : step ≠ .enter)
      (notLeave : step ≠ .leave) (behind : Balanced later) : Balanced (step :: later)
  | scope {block later : List BlockStep} (inside : Balanced block) (behind : Balanced later) :
      Balanced (.enter :: (block ++ .leave :: later))

end BlockStep

namespace Symbol

/-- What a symbol was declared with. -/
def declaration (symbol : Symbol) : String × DataType × Position :=
  (symbol.name, symbol.type, symbol.position)

/-- The symbols have the same declaration, and the second has the marks of the first and those that
were set. -/
def Keeps (set : Mark → Prop) (symbol symbol' : Symbol) : Prop :=
  symbol'.declaration = symbol.declaration ∧
    ∀ mark, mark.isSet symbol' = true ↔ mark.isSet symbol = true ∨ set mark

namespace Keeps

variable {set set' : Mark → Prop} {symbol symbol' symbol'' : Symbol}

theorem name_eq (keeps : symbol.Keeps set symbol') : symbol'.name = symbol.name :=
  congrArg Prod.fst keeps.1

theorem refl (symbol : Symbol) : symbol.Keeps (fun _ => False) symbol :=
  ⟨rfl, fun _ => (or_iff_left id).symm⟩

theorem trans (first : symbol.Keeps set symbol') (second : symbol'.Keeps set' symbol'') :
    symbol.Keeps (fun mark => set mark ∨ set' mark) symbol'' := by
  refine ⟨second.1.trans first.1, fun mark => ?_⟩
  rw [second.2, first.2, or_assoc]

theorem congr (keeps : symbol.Keeps set symbol') (same : ∀ mark, set' mark ↔ set mark) :
    symbol.Keeps set' symbol' := by
  refine ⟨keeps.1, fun mark => ?_⟩
  rw [keeps.2, same]

theorem changedNamed (name : String) (made : Mark) (symbol : Symbol) :
    symbol.Keeps (fun mark => symbol.name = name ∧ mark = made)
      (Scope.changedNamed name made.apply symbol) := by
  unfold Scope.changedNamed
  split
  · rename_i named
    refine ⟨by cases made <;> rfl, fun mark => ?_⟩
    cases made <;> cases mark <;>
      simp [Mark.isSet, Mark.apply, Symbol.changed, asUsed, asInitialized, named]
  · rename_i other
    exact (refl symbol).congr fun mark => iff_of_false (fun set => other set.1) id

end Keeps

end Symbol

namespace Scope

/-- What the symbols were declared with, in their order. -/
def declarations (scope : Scope) : List (String × DataType × Position) :=
  scope.symbols.toList.map Symbol.declaration

/-- The scopes have the same declarations, and of the marks exactly those are new that were set. -/
def Keeps (set : String → Mark → Prop) (scope scope' : Scope) : Prop :=
  List.Forall₂ (fun symbol symbol' => symbol.Keeps (set symbol.name) symbol')
    scope.symbols.toList scope'.symbols.toList

theorem find?_eq_none_iff (scope : Scope) {name : String} :
    scope.find? name = none ↔ ∀ symbol ∈ scope.symbols.toList, symbol.name ≠ name := by
  rw [find?_eq, List.find?_eq_none]
  simp only [decide_eq_true_eq]

namespace Keeps

variable {set set' : String → Mark → Prop} {scope scope' scope'' : Scope}

theorem declarations_eq (keeps : scope.Keeps set scope') :
    scope'.declarations = scope.declarations := by
  rw [declarations, declarations, ← List.forall₂_eq_eq_eq, List.forall₂_map_left_iff,
    List.forall₂_map_right_iff]
  exact (keeps.imp fun _ _ kept => kept.1).flip

theorem of_absent (absent : ∀ symbol ∈ scope.symbols.toList, ∀ mark, ¬ set symbol.name mark) :
    scope.Keeps set scope :=
  List.forall₂_same.mpr fun symbol listed =>
    (Symbol.Keeps.refl symbol).congr fun mark => iff_of_false (absent symbol listed mark) id

theorem trans (first : scope.Keeps set scope') (second : scope'.Keeps set' scope'') :
    scope.Keeps (fun name mark => set name mark ∨ set' name mark) scope'' := by
  unfold Keeps at *
  generalize scope.symbols.toList = symbols at first ⊢
  generalize scope'.symbols.toList = symbols' at first second
  generalize scope''.symbols.toList = symbols'' at second ⊢
  induction first generalizing symbols'' with
  | nil =>
      cases second
      exact .nil
  | cons keeps _ inductionHypothesis =>
      cases second with
      | cons keeps' later =>
          rw [keeps.name_eq] at keeps'
          exact .cons (keeps.trans keeps') (inductionHypothesis _ later)

theorem congr (keeps : scope.Keeps set scope')
    (same : ∀ name mark, set' name mark ↔ set name mark) :
    scope.Keeps set' scope' :=
  keeps.imp fun symbol _ kept => kept.congr (same symbol.name)

/-- In a scope the symbol of a name is marked and no other one. -/
theorem update (scope : Scope) (name : String) (made : Mark) :
    scope.Keeps (fun name' mark => name' = name ∧ mark = made) (scope.update name made.apply) := by
  rw [Keeps, toList_update, List.forall₂_map_right_iff, List.forall₂_same]
  exact fun symbol _ => .changedNamed name made symbol

end Keeps

end Scope

namespace Scopes

/-- The scopes that steps lead to. -/
def behindSteps (scopes : Scopes) (steps : List BlockStep) : Scopes :=
  (operations.run scopes (steps.map BlockStep.operation)).2

/-- The scopes by their level, the global one first. -/
def levels (scopes : Scopes) : List Scope :=
  scopes.all.reverse

theorem length_levels (scopes : Scopes) : scopes.levels.length = scopes.depth :=
  List.length_reverse

/-- No scope further inside than the level declares the name. -/
def Unshadowed (scopes : Scopes) (level : Nat) (name : String) : Prop :=
  ∀ scope ∈ scopes.levels.drop (level + 1), ∀ symbol ∈ scope.symbols.toList, symbol.name ≠ name

/-- The levels hold the same declarations, and of the marks exactly those are new that were set. -/
structure Keeps (set : Nat → String → Mark → Prop) (scopes scopes' : Scopes) : Prop where
  depth : scopes'.depth = scopes.depth
  symbols : ∀ {level : Nat} {scope : Scope}, scopes.levels[level]? = some scope →
    ∃ scope', scopes'.levels[level]? = some scope' ∧ scope.Keeps (set level) scope'

/-- While the steps are taken, the name is marked when nothing inside of the level hides it. -/
def Marks (scopes : Scopes) (steps : List BlockStep) (level : Nat) (name : String) (mark : Mark) :
    Prop :=
  ∃ earlier later, steps = earlier ++ .mark name mark :: later ∧
    (scopes.behindSteps earlier).Unshadowed level name

/-! ## Steps one after the other -/

section Steps

variable (scopes : Scopes)

theorem behindSteps_cons (step : BlockStep) (later : List BlockStep) :
    scopes.behindSteps (step :: later) = (scopes.behindSteps [step]).behindSteps later := rfl

theorem behindSteps_append (earlier later : List BlockStep) :
    scopes.behindSteps (earlier ++ later) = (scopes.behindSteps earlier).behindSteps later := by
  induction earlier generalizing scopes with
  | nil => rfl
  | cons step earlier inductionHypothesis =>
      rw [List.cons_append, behindSteps_cons, inductionHypothesis, ← behindSteps_cons]

variable {level : Nat} {name : String} {made : Mark}

theorem not_marks_nil : ¬ scopes.Marks [] level name made := by
  rintro ⟨earlier, later, split, _⟩
  cases earlier <;> cases split

theorem marks_singleton_iff (step : BlockStep) : scopes.Marks [step] level name made ↔
    step = .mark name made ∧ scopes.Unshadowed level name := by
  constructor
  · rintro ⟨earlier, later, split, unshadowed⟩
    rcases List.singleton_eq_append_iff.mp split with ⟨rfl, same⟩ | ⟨_, impossible⟩
    · exact ⟨(List.cons.inj same).1.symm, unshadowed⟩
    · cases impossible
  · rintro ⟨rfl, unshadowed⟩
    exact ⟨[], [], rfl, unshadowed⟩

/-- A mark is made during the earlier steps or during the later ones. -/
theorem marks_append_iff (earlier later : List BlockStep) :
    scopes.Marks (earlier ++ later) level name made ↔ scopes.Marks earlier level name made ∨
      (scopes.behindSteps earlier).Marks later level name made := by
  constructor
  · rintro ⟨before, behind, split, unshadowed⟩
    rcases List.append_eq_append_iff.mp split with ⟨between, rfl, rest⟩ | ⟨between, rfl, rest⟩
    · rw [behindSteps_append] at unshadowed
      exact .inr ⟨between, behind, rest, unshadowed⟩
    · cases between with
      | nil =>
          rw [List.append_nil]
          exact .inr ⟨[], behind, rest.symm, unshadowed⟩
      | cons step between =>
          rcases List.cons.inj rest with ⟨rfl, _⟩
          exact .inl ⟨before, between, rfl, unshadowed⟩
  · rintro (⟨before, behind, rfl, unshadowed⟩ | ⟨before, behind, rfl, unshadowed⟩)
    · exact ⟨before, behind ++ later, by rw [List.append_assoc, List.cons_append], unshadowed⟩
    · rw [← behindSteps_append] at unshadowed
      exact ⟨earlier ++ before, behind, (List.append_assoc _ _ _).symm, unshadowed⟩

theorem marks_cons_iff {step : BlockStep} (noMark : step ≠ .mark name made)
    (later : List BlockStep) : scopes.Marks (step :: later) level name made ↔
      (scopes.behindSteps [step]).Marks later level name made := by
  rw [← List.singleton_append, marks_append_iff, marks_singleton_iff]
  exact or_iff_right fun marks => noMark marks.1

end Steps

/-! ## What is kept -/

theorem map_declaration_symbols (scopes : Scopes) : scopes.symbols.map Symbol.declaration =
    (scopes.levels.map Scope.declarations).flatten := by
  rw [symbols, List.map_flatMap, List.flatMap_def]
  rfl

namespace Keeps

variable {scopes scopes' scopes'' : Scopes} {set set' : Nat → String → Mark → Prop}

theorem refl (scopes : Scopes) : Keeps (fun _ _ _ => False) scopes scopes where
  depth := rfl
  symbols {_ scope} found := ⟨scope, found, .of_absent fun _ _ _ => id⟩

theorem trans (first : Keeps set scopes scopes') (second : Keeps set' scopes' scopes'') :
    Keeps (fun level name made => set level name made ∨ set' level name made) scopes scopes'' where
  depth := second.depth.trans first.depth
  symbols {level scope} found := by
    rcases first.symbols found with ⟨scope', found', kept⟩
    rcases second.symbols found' with ⟨scope'', found'', kept'⟩
    exact ⟨scope'', found'', kept.trans kept'⟩

/-- What is said of levels that are not there does not matter. -/
theorem congr (keeps : Keeps set scopes scopes') (same : ∀ level < scopes.depth, ∀ name made,
    set' level name made ↔ set level name made) : Keeps set' scopes scopes' where
  depth := keeps.depth
  symbols {level scope} found := by
    rcases keeps.symbols found with ⟨scope', found', kept⟩
    rcases List.getElem?_eq_some_iff.mp found with ⟨inside, _⟩
    rw [levels, List.length_reverse] at inside
    exact ⟨scope', found', kept.congr (same level inside)⟩

theorem declarations_eq (keeps : Keeps set scopes scopes') :
    scopes'.symbols.map Symbol.declaration = scopes.symbols.map Symbol.declaration := by
  have sameLevels :
      scopes'.levels.map Scope.declarations = scopes.levels.map Scope.declarations := by
    refine List.ext_getElem? fun level => ?_
    rw [List.getElem?_map, List.getElem?_map]
    cases isLevel : scopes.levels[level]? with
    | none =>
        rw [List.getElem?_eq_none_iff, length_levels, ← keeps.depth, ← length_levels,
          ← List.getElem?_eq_none_iff] at isLevel
        rw [isLevel]
    | some scope =>
        rcases keeps.symbols isLevel with ⟨scope', isLevel', kept⟩
        rw [isLevel', Option.map_some, Option.map_some, kept.declarations_eq]
  rw [map_declaration_symbols, map_declaration_symbols, sameLevels]

end Keeps

/-! ## Scopes with others inside of them -/

/-- The scopes with further ones inside of them, innermost first. -/
def holding (scopes : Scopes) (inner : List Scope) : Scopes :=
  ⟨inner ++ scopes.entered, scopes.global⟩

section Holding

variable (scopes : Scopes) {inner : List Scope} {name : String} {level : Nat}

theorem levels_holding (inner : List Scope) :
    (scopes.holding inner).levels = scopes.levels ++ inner.reverse := by
  rw [levels, all, holding, levels, all, List.append_assoc, List.reverse_append]

/-- Nothing is hidden by the inner scopes where they do not declare the name, and otherwise
everything is. -/
theorem unshadowed_holding_iff (inner : List Scope) (within : level < scopes.depth) :
    (scopes.holding inner).Unshadowed level name ↔ scopes.Unshadowed level name ∧
      ∀ scope ∈ inner, scope.find? name = none := by
  rw [← length_levels] at within
  simp only [Unshadowed, levels_holding, List.drop_append_of_le_length (Nat.succ_le_of_lt within),
    List.forall_mem_append, List.mem_reverse, Scope.find?_eq_none_iff]

/-- Nothing is further inside than the innermost scope. -/
theorem unshadowed_innermost (scope : Scope) :
    (scopes.holding [scope]).Unshadowed scopes.depth name := by
  rw [Unshadowed, levels_holding, List.drop_eq_nil_of_le]
  · exact fun _ impossible => (List.not_mem_nil impossible).elim
  · apply Nat.le_of_eq
    rw [List.length_append, length_levels, List.length_reverse, List.length_singleton]

variable {scopes} {scopes' : Scopes} {set : Nat → String → Mark → Prop}

/-- The innermost scope is kept apart from those outside. -/
theorem Keeps.holding {scope scope' : Scope} (outside : Keeps set scopes scopes')
    (inside : scope.Keeps (set scopes.depth) scope') :
    Keeps set (scopes.holding [scope]) (scopes'.holding [scope']) where
  depth := by
    rw [← length_levels, ← length_levels, levels_holding, levels_holding, List.length_append,
      List.length_append, length_levels, length_levels, outside.depth]
    rfl
  symbols {level found} isLevel := by
    have lengths : scopes'.levels.length = scopes.levels.length := by
      rw [length_levels, length_levels, outside.depth]
    rw [levels_holding, List.reverse_singleton] at isLevel ⊢
    by_cases within : level < scopes.levels.length
    · rw [List.getElem?_append_left within] at isLevel
      rw [List.getElem?_append_left (lengths.symm ▸ within)]
      exact outside.symbols isLevel
    · have beyond := Nat.le_of_not_lt within
      rw [List.getElem?_append_right beyond, List.getElem?_singleton] at isLevel
      rw [List.getElem?_append_right (lengths.symm ▸ beyond), List.getElem?_singleton, lengths]
      split at isLevel
      · rename_i last
        cases isLevel
        have isDepth : level = scopes.depth := by
          rw [← length_levels]
          omega
        exact ⟨scope', if_pos last, isDepth ▸ inside⟩
      · cases isLevel

/-- What an update marks: the symbol that the name stands for, on the level where it is found. -/
def Reaches (scopes : Scopes) (name : String) (made : Mark) (level : Nat) (name' : String)
    (mark : Mark) : Prop :=
  name' = name ∧ mark = made ∧ scopes.Unshadowed level name

/-- An update goes no further outside than the first scope that declares the name. -/
theorem Keeps.update_holding {name : String} {made : Mark} (scope : Scope)
    (outside : Keeps (scopes.Reaches name made) scopes (scopes.update name made.apply)) :
    Keeps ((scopes.holding [scope]).Reaches name made) (scopes.holding [scope])
      ((scopes.holding [scope]).update name made.apply) := by
  have step : (scopes.holding [scope]).update name made.apply =
      if (scope.find? name).isSome then scopes.holding [scope.update name made.apply]
      else (scopes.update name made.apply).holding [scope] := rfl
  have further {level : Nat} (within : level < scopes.depth) :
      (scopes.holding [scope]).Unshadowed level name ↔
        scopes.Unshadowed level name ∧ scope.find? name = none := by
    rw [unshadowed_holding_iff scopes [scope] within, List.forall_mem_singleton]
  rw [step]
  cases found : scope.find? name with
  | some symbol =>
      refine Keeps.holding ((Keeps.refl scopes).congr ?_) ?_
      · intro level within name' mark
        refine iff_of_false (fun reached => ?_) id
        rw [Reaches, further within, found] at reached
        exact Option.some_ne_none symbol reached.2.2.2
      · refine (Scope.Keeps.update scope name made).congr fun name' mark => ?_
        rw [Reaches, and_iff_left (unshadowed_innermost scopes scope)]
  | none =>
      refine Keeps.holding (outside.congr ?_) (Scope.Keeps.of_absent ?_)
      · intro level within name' mark
        rw [Reaches, Reaches, further within, and_iff_left found]
      · exact fun symbol listed mark reached =>
          scope.find?_eq_none_iff.mp found symbol listed reached.1

/-- In scopes the symbol that a name stands for is marked and no other one. -/
theorem keeps_update (scopes : Scopes) (name : String) (made : Mark) :
    Keeps (scopes.Reaches name made) scopes (scopes.update name made.apply) := by
  rcases scopes with ⟨entered, global⟩
  induction entered with
  | nil =>
      refine ⟨rfl, fun {level scope} isLevel => ?_⟩
      cases level with
      | zero =>
          cases isLevel
          have unshadowed : Unshadowed ⟨[], global⟩ 0 name :=
            fun _ impossible => (List.not_mem_nil impossible).elim
          refine ⟨_, rfl, (Scope.Keeps.update global name made).congr fun name' mark => ?_⟩
          rw [Reaches, and_iff_left unshadowed]
      | succ level => cases isLevel
  | cons scope outer inductionHypothesis => exact inductionHypothesis.update_holding scope

/-- An update reaches the scopes outside exactly if none of those inside declares the name. -/
theorem update_holding (scopes : Scopes) (inner : List Scope) (name : String)
    (change : Symbol → Symbol) :
    ((∀ scope ∈ inner, scope.find? name = none) ∧
      (scopes.holding inner).update name change = (scopes.update name change).holding inner) ∨
    (¬ (∀ scope ∈ inner, scope.find? name = none) ∧ ∃ inner', inner'.length = inner.length ∧
      (scopes.holding inner).update name change = scopes.holding inner') := by
  induction inner with
  | nil => exact .inl ⟨fun _ impossible => (List.not_mem_nil impossible).elim, rfl⟩
  | cons scope inner inductionHypothesis =>
      have step : (scopes.holding (scope :: inner)).update name change =
          if (scope.find? name).isSome then scopes.holding (scope.update name change :: inner)
          else ((scopes.holding inner).update name change).holding [scope] := rfl
      rw [step, List.forall_mem_cons]
      cases found : scope.find? name with
      | some symbol =>
          exact .inr ⟨fun absent => Option.some_ne_none symbol absent.1,
            scope.update name change :: inner, rfl, rfl⟩
      | none =>
          rcases inductionHypothesis with ⟨absent, further⟩ | ⟨declared, inner', same, further⟩
          · exact .inl ⟨⟨rfl, absent⟩, by rw [further]; rfl⟩
          · refine .inr ⟨fun absent => declared absent.2, scope :: inner', ?_, by rw [further]; rfl⟩
            rw [List.length_cons, List.length_cons, same]

end Holding

/-! ## Blocks -/

/-- A declaration concerns the innermost scope alone. -/
theorem declare_holding (scopes : Scopes) {inner : List Scope} (present : inner ≠ [])
    (name : String) (type : DataType) (position : Position) :
    ∃ inner', inner'.length = inner.length ∧
      (scopes.holding inner).behindSteps [.declare name type position] = scopes.holding inner' := by
  cases inner with
  | nil => exact absurd rfl present
  | cons innermost outer =>
      have step : (scopes.holding (innermost :: outer)).declare name type position =
          (innermost.declare name type position).map fun scope => scopes.holding (scope :: outer) :=
        rfl
      simp only [behindSteps, List.map_cons, List.map_nil, Operations.run, Operations.perform,
        BlockStep.operation, operations, step]
      cases innermost.declare name type position with
      | ok scope => exact ⟨scope :: outer, rfl, rfl⟩
      | error duplicate => exact ⟨innermost :: outer, rfl, rfl⟩

/-- What a step that neither enters nor leaves a scope does to the scopes outside: it may mark the
symbol that a name stands for. -/
theorem exists_keeps_step (scopes : Scopes) {inner : List Scope} (present : inner ≠ [])
    {step : BlockStep} (notEnter : step ≠ .enter) (notLeave : step ≠ .leave) :
    ∃ scopes' inner', (scopes.holding inner).behindSteps [step] = scopes'.holding inner' ∧
      inner'.length = inner.length ∧
      scopes.Keeps ((scopes.holding inner).Marks [step]) scopes' := by
  have unmarked (noMark : ∀ name made, step ≠ .mark name made) :
      scopes.Keeps ((scopes.holding inner).Marks [step]) scopes :=
    (Keeps.refl scopes).congr fun level _ name made =>
      iff_of_false (fun marks => noMark name made ((marks_singleton_iff _ step).mp marks).1) id
  cases step with
  | enter => exact absurd rfl notEnter
  | leave => exact absurd rfl notLeave
  | declare name type position =>
      rcases scopes.declare_holding present name type position with ⟨inner', same, behind⟩
      exact ⟨scopes, inner', behind, same, unmarked fun _ _ => BlockStep.noConfusion⟩
  | lookup name => exact ⟨scopes, inner, rfl, rfl, unmarked fun _ _ => BlockStep.noConfusion⟩
  | mark name made =>
      rcases scopes.update_holding inner name made.apply with
        ⟨absent, behind⟩ | ⟨declared, inner', same, behind⟩
      · refine ⟨_, inner, behind, rfl, (scopes.keeps_update name made).congr ?_⟩
        intro level within name' mark
        rw [marks_singleton_iff, BlockStep.mark.injEq, Reaches, and_assoc, eq_comm (a := name),
          eq_comm (a := made)]
        refine and_congr_right fun isName => ?_
        rw [isName, unshadowed_holding_iff scopes inner within, and_iff_left absent]
      · refine ⟨scopes, inner', behind, same, (Keeps.refl scopes).congr ?_⟩
        intro level within name' mark
        refine iff_of_false (fun marks => ?_) id
        rcases (marks_singleton_iff _ _).mp marks with ⟨isMark, unshadowed⟩
        cases isMark
        exact declared ((unshadowed_holding_iff scopes inner within).mp unshadowed).2

/-- While a block is carried out, the scopes outside are neither left nor added to, and they are
marked whenever a mark gets past the scopes inside. -/
theorem exists_keeps (scopes : Scopes) {inner : List Scope} (present : inner ≠ [])
    {steps : List BlockStep} (balanced : BlockStep.Balanced steps) :
    ∃ scopes' inner', (scopes.holding inner).behindSteps steps = scopes'.holding inner' ∧
      inner'.length = inner.length ∧
      scopes.Keeps ((scopes.holding inner).Marks steps) scopes' := by
  induction balanced generalizing scopes inner with
  | nothing =>
      refine ⟨scopes, inner, rfl, rfl, (Keeps.refl scopes).congr ?_⟩
      exact fun level _ name made => iff_of_false (not_marks_nil _) id
  | @step step later notEnter notLeave _ inductionHypothesis =>
      rcases scopes.exists_keeps_step present notEnter notLeave with
        ⟨scopes₁, inner₁, first, length₁, keeps₁⟩
      have present₁ : inner₁ ≠ [] := List.ne_nil_of_length_pos
        (length₁ ▸ List.length_pos_iff.mpr present)
      rcases inductionHypothesis scopes₁ present₁ with ⟨scopes₂, inner₂, second, length₂, keeps₂⟩
      refine ⟨scopes₂, inner₂, ?_, length₂.trans length₁, (keeps₁.trans keeps₂).congr ?_⟩
      · rw [behindSteps_cons, first, second]
      · intro level _ name made
        rw [← List.singleton_append, marks_append_iff, first]
  | @scope block later _ _ inBlock inLater =>
      rcases inBlock scopes (List.cons_ne_nil Scope.empty inner) with
        ⟨scopes₁, entered, first, length₁, keeps₁⟩
      cases entered with
      | nil => cases length₁
      | cons innermost inner₁ =>
          have length₂ : inner₁.length = inner.length := Nat.succ.inj length₁
          have present₁ : inner₁ ≠ [] := List.ne_nil_of_length_pos
            (length₂ ▸ List.length_pos_iff.mpr present)
          rcases inLater scopes₁ present₁ with ⟨scopes₂, inner₂, second, length₃, keeps₂⟩
          have entering : (scopes.holding inner).behindSteps [.enter] =
              scopes.holding (.empty :: inner) := rfl
          have leaving : (scopes₁.holding (innermost :: inner₁)).behindSteps [.leave] =
              scopes₁.holding inner₁ := rfl
          refine ⟨scopes₂, inner₂, ?_, length₃.trans length₂, (keeps₁.trans keeps₂).congr ?_⟩
          · rw [behindSteps_cons, entering, behindSteps_append, first, behindSteps_cons, leaving,
              second]
          · intro level _ name made
            rw [marks_cons_iff _ BlockStep.noConfusion, entering, marks_append_iff, first,
              marks_cons_iff _ BlockStep.noConfusion, leaving]

/-- What a block leaves behind is marks.  Whatever scopes a block is carried out in, and whatever
scopes are entered, left and declared in inside of it, once it has been left there are as many
scopes as before with the same symbols in the same order, declared as before.  A symbol has the
marks that it had, and exactly those in addition that were made in the block by its name while no
scope further inside had a symbol of that name. -/
theorem leave_restores (scopes : Scopes) {block : List BlockStep}
    (balanced : BlockStep.Balanced block) :
    let restored := scopes.behindSteps (.enter :: (block ++ [.leave]))
    restored.depth = scopes.depth ∧
    restored.symbols.map Symbol.declaration = scopes.symbols.map Symbol.declaration ∧
    ∀ level scope, scopes.levels[level]? = some scope →
      ∃ scope', restored.levels[level]? = some scope' ∧
        List.Forall₂ (fun symbol symbol' => symbol'.declaration = symbol.declaration ∧
          ∀ mark, mark.isSet symbol' = true ↔ mark.isSet symbol = true ∨
            ∃ earlier later, block = earlier ++ .mark symbol.name mark :: later ∧
              (scopes.behindSteps (.enter :: earlier)).Unshadowed level symbol.name)
          scope.symbols.toList scope'.symbols.toList := by
  rcases scopes.exists_keeps (List.cons_ne_nil Scope.empty []) balanced with
    ⟨scopes', entered, behind, length, keeps⟩
  rcases List.length_eq_one_iff.mp length with ⟨innermost, rfl⟩
  have entering : scopes.behindSteps [.enter] = scopes.holding [.empty] := rfl
  have leaving : (scopes'.holding [innermost]).behindSteps [.leave] = scopes' := rfl
  have restored : scopes.behindSteps (.enter :: (block ++ [.leave])) = scopes' := by
    rw [behindSteps_cons, entering, behindSteps_append, behind, leaving]
  simp only [restored]
  exact ⟨keeps.depth, keeps.declarations_eq, fun level scope isLevel => keeps.symbols isLevel⟩

/-- The global scope declares `x` and `y`.  Inside, `x` is declared once more before it is marked,
so that the mark goes with the block; `y` is declared after one mark and before the other, so that
only the first of them reaches the global scope. -/
theorem leave_restores_shadowed :
    let global := behindSteps .empty [.declare "x" .integer ⟨1, 1⟩, .declare "y" .integer ⟨1, 5⟩]
    let block : List BlockStep := [.declare "x" .boolean ⟨2, 1⟩, .mark "x" .used, .enter,
      .mark "y" .used, .declare "y" .string ⟨3, 1⟩, .mark "y" .initialized, .leave]
    let restored := global.behindSteps (.enter :: (block ++ [.leave]))
    BlockStep.Balanced block ∧ restored.depth = global.depth ∧
    restored.symbols.map Symbol.declaration = global.symbols.map Symbol.declaration ∧
    restored.symbols =
      [⟨"x", .integer, ⟨1, 1⟩, false, false⟩, ⟨"y", .integer, ⟨1, 5⟩, true, false⟩] := by
  intro global block restored
  have inside : BlockStep.Balanced [.mark "y" .used, .declare "y" .string ⟨3, 1⟩,
      .mark "y" .initialized] := by
    repeat refine .step BlockStep.noConfusion BlockStep.noConfusion ?_
    exact .nothing
  have balanced : BlockStep.Balanced block :=
    .step BlockStep.noConfusion BlockStep.noConfusion
      (.step BlockStep.noConfusion BlockStep.noConfusion (.scope inside .nothing))
  rcases leave_restores global balanced with ⟨depth, declarations, _⟩
  exact ⟨balanced, depth, declarations, by decide +kernel⟩

end Scopes
end ExpressionChecker
