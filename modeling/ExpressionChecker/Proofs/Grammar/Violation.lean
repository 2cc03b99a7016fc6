import ExpressionChecker.Proofs.Assembly.Runs
import ExpressionChecker.Token.Stream
import Mathlib.Logic.ExistsUnique

namespace ExpressionChecker

/-!
# The leftmost violation

Tokens are viable if some statement goes on from them when nothing is limited.  A rejection points at
the first token behind which the tokens are no longer viable or no longer keep to the limits, and the
tokens up to there tell which rejection it is.  Being viable and keeping to the limits are handed
down to every shorter part from the front, so there is only one such token.
-/

namespace Token

/-- Some limits are wide enough for the tokens to be read to a tree. -/
def Accepted (tokens : List Token) : Prop :=
  ∃ limits tree, Tree.ofTokens limits tokens = .ok tree

/-- The tokens are the front of tokens that are accepted. -/
def Viable (tokens : List Token) : Prop :=
  ∃ later, Accepted (tokens ++ later)

theorem Viable.of_prefix {before tokens : List Token} (viable : Viable tokens)
    (isPrefix : before <+: tokens) : Viable before := by
  rcases viable with ⟨later, accepted⟩
  rcases isPrefix with ⟨between, rfl⟩
  rw [List.append_assoc] at accepted
  exact ⟨between ++ later, accepted⟩

/-! ## Rejections as a function of the tokens -/

/-- What is expected behind tokens. -/
def expectedBehind (tokens : List Token) : Expectation :=
  match tokens.getLast? with
  | some last =>
    if last.kind.endsFactor then
      if openedBehind tokens = 0 then .endOfStatement else .closingParenthesis
    else .operand
  | none => .operand

/-- The rejection of tokens that end too early, at a position. -/
def endBlamed (tokens : List Token) (position : Position) : Rejection :=
  match tokens.getLast? with
  | some last => .endedAfter (expectedBehind tokens) last.lexeme last.position
  | none => .unexpected (expectedBehind tokens) .nothing position

/-- The rejection of a token that no statement has behind the tokens before it, or of their end. -/
def blamed (before : List Token) : Option Token → Rejection
  | none => endBlamed before .start
  | some token =>
    match token.kind with
    | .fault error => .lexical error token.position
    | .endOfInput => endBlamed before token.position
    | kind => .unexpected (expectedBehind before) (.token kind token.lexeme) token.position

/-- Where an opening parenthesis is reported: at the name that it follows, or else at itself. -/
def openingReported (before : List Token) (token : Token) : Position :=
  match before.getLast? with
  | some last => if last.kind = .name then last.position else token.position
  | none => token.position

/-- What is wrong at the token behind others, or at their end, and how it is reported. -/
inductive Violation (limits : Limits) (before : List Token) : Option Token → Rejection → Prop where
  | misplaced {token : Token} (stuck : ¬ Viable (before ++ [token])) :
      Violation limits before (some token) (blamed before (some token))
  | unfinished (incomplete : ¬ Accepted before) :
      Violation limits before none (blamed before none)
  | operator {token : Token} (viable : Viable (before ++ [token]))
      (isOperator : (Assembly.operator? token).isSome = true)
      (further : operatorsIn (before ++ [token]) = limits.operators + 1) :
      Violation limits before (some token) (.tooManyOperators limits.operators token.position)
  | nesting {token : Token} (viable : Viable (before ++ [token]))
      (opens : token.kind = .openParenthesis)
      (deeper : openedBehind (before ++ [token]) = limits.depth + 1) :
      Violation limits before (some token)
        (.nestedTooDeep limits.depth (openingReported before token))

section Leftmost

variable {limits : Limits} {rejection : Rejection}

/-- Up to the token at which something is wrong, the tokens are not viable or exceed a limit. -/
theorem Violation.exceeds {before : List Token} {token : Token}
    (violation : Violation limits before (some token) rejection) :
    ¬ (Viable (before ++ [token]) ∧ KeepTo limits (before ++ [token])) := by
  rintro ⟨viable, keep⟩
  cases violation with
  | misplaced stuck => exact stuck viable
  | operator _ _ further =>
      have few := keep.few
      omega
  | nesting _ _ deeper =>
      have shallow := keep.shallow _ (List.prefix_refl _)
      omega

/-- Nothing viable that keeps to the limits goes beyond a token at which something is wrong. -/
theorem Violation.count_le {tokens : List Token} {count count' : Nat}
    (violation : Violation limits (tokens.take count) tokens[count]? rejection)
    (bounded : count' ≤ tokens.length) (viable : Viable (tokens.take count'))
    (keep : KeepTo limits (tokens.take count')) : count' ≤ count := by
  refine Nat.le_of_not_lt fun beyond => ?_
  have inside : count < tokens.length := by omega
  have isPrefix : tokens.take (count + 1) <+: tokens.take count' :=
    List.take_prefix_take_left (by omega)
  rw [List.take_succ_eq_append_getElem inside] at isPrefix
  rw [List.getElem?_eq_getElem inside] at violation
  exact violation.exceeds ⟨viable.of_prefix isPrefix, keep.of_prefix isPrefix⟩

end Leftmost

end Token

/-! ## Where the value of a statement begins -/

namespace Assembly

/-- The tokens are those of an assignment. -/
def IsAssignment (tokens : List Token) : Prop :=
  ∃ target equals value, tokens = target :: equals :: value ∧ target.kind = .name ∧
    equals.kind = .assign

/-- The value of a statement begins behind the first tokens of an assignment or at once, and this is
the assembly that reads it. -/
inductive Begins (tokens : List Token) : List Token → Assembly → List Token → Prop where
  | assignment {target equals : Token} {value : List Token} (named : target.kind = .name)
      (assigns : equals.kind = .assign) (split : tokens = target :: equals :: value) :
      Begins tokens [target, equals] (.start (some equals)) value
  | expression (other : ¬ IsAssignment tokens) : Begins tokens [] (.start none) tokens

/-- The statement that begins with certain tokens in front of its value. -/
def statement (opening : List Token) (value : Tree) : Tree :=
  match opening with
  | [target, equals] =>
    .assignment (.identifier target.lexeme ⟨target.position, none⟩) value ⟨equals.position, none⟩
  | _ => value

theorem exists_begins (tokens : List Token) :
    ∃ opening first value, Begins tokens opening first value := by
  by_cases assignment : IsAssignment tokens
  · rcases assignment with ⟨target, equals, value, rfl, named, assigns⟩
    exact ⟨_, _, _, .assignment named assigns rfl⟩
  · exact ⟨_, _, _, .expression assignment⟩

namespace Begins

variable {limits : Limits} {tokens opening value : List Token} {first : Assembly}

theorem append_eq (begins : Begins tokens opening first value) : tokens = opening ++ value := by
  cases begins with
  | assignment _ _ split => exact split
  | expression _ => rfl

/-- Whatever the value is, if it is read the statement is. -/
theorem accepted (begins : Begins tokens opening first value) {value' : List Token} {tree : Tree}
    (success : first.readAll limits value' = .ok tree) : Token.Accepted (opening ++ value') := by
  cases begins with
  | @assignment target equals _ named assigns _ =>
      refine ⟨limits, ?_⟩
      simp only [List.cons_append, List.nil_append, Tree.ofTokens, named, assigns, and_self, if_true,
        success]
      exact ⟨_, rfl⟩
  | expression _ => exact ⟨limits, tree, Tree.ofTokens_of_readAll success⟩

theorem ofTokens_expression (other : ¬ IsAssignment tokens) :
    Tree.ofTokens limits tokens = readAll limits (.start none) tokens := by
  unfold Tree.ofTokens
  split
  · rename_i target equals value
    exact if_neg fun kinds => other ⟨target, equals, value, rfl, kinds⟩
  · rfl

/-- A statement is its value behind the tokens that open it. -/
theorem ofTokens_eq (begins : Begins tokens opening first value) (limits : Limits) :
    Tree.ofTokens limits tokens = (first.readAll limits value).map (statement opening) := by
  cases begins with
  | assignment named assigns split =>
      subst split
      simp only [Tree.ofTokens, named, assigns, and_self, if_true]
      rfl
  | expression other =>
      rw [ofTokens_expression other]
      cases readAll limits (.start none) tokens <;> rfl

/-- A statement is rejected as its value is. -/
theorem ofTokens_eq_error_iff (begins : Begins tokens opening first value) {rejection : Rejection} :
    Tree.ofTokens limits tokens = .error rejection ↔
      first.readAll limits value = .error rejection := by
  rw [begins.ofTokens_eq]
  cases first.readAll limits value with
  | error rejection' => exact Iff.rfl
  | ok tree => constructor <;> intro impossible <;> cases impossible

/-- A statement is read only if its value is. -/
theorem exists_readAll (begins : Begins tokens opening first value)
    (accepted : Token.Accepted tokens) :
    ∃ limits tree, first.readAll limits value = .ok tree := by
  rcases accepted with ⟨limits, tree, success⟩
  cases read : first.readAll limits value with
  | ok tree => exact ⟨limits, tree, read⟩
  | error rejection =>
      rw [begins.ofTokens_eq_error_iff.mpr read] at success
      cases success

/-- Whether a statement is an assignment does not depend on what follows a token, unless the token is
a name at the front. -/
theorem replace {before later : List Token} {token : Token}
    (begins : Begins tokens opening first (before ++ token :: later))
    (stands : before = [] → token.kind ≠ .name) (later' : List Token) :
    Begins (opening ++ (before ++ token :: later')) opening first (before ++ token :: later') := by
  cases begins with
  | assignment named assigns split => exact .assignment named assigns rfl
  | expression other =>
      refine .expression ?_
      rintro ⟨target, equals, value, same, named, assigns⟩
      cases before with
      | nil =>
          cases same
          exact stands rfl named
      | cons front before =>
          cases before with
          | nil =>
              cases same
              exact other ⟨_, _, _, rfl, named, assigns⟩
          | cons second before =>
              cases same
              exact other ⟨_, _, _, rfl, named, assigns⟩

/-- Where the value begins, at most the tokens of an assignment have been read, and none of them
counts. -/
theorem follows (begins : Begins tokens opening first value) :
    first.Follows opening ∧ first.Within limits ∧ Token.KeepTo limits opening := by
  cases begins with
  | @assignment target equals _ named assigns _ =>
      have noOperators : Token.operatorsIn [target, equals] = 0 := by
        simp [Token.operatorsIn, operator?, named, assigns]
      have noOpenings : Token.openingsIn [target, equals] = 0 := by
        simp [Token.openingsIn, named, assigns]
      have noClosings : Token.closingsIn [target, equals] = 0 := by
        simp [Token.closingsIn, named, assigns]
      refine ⟨⟨rfl, noOperators.symm, ?_, ?_⟩, ⟨Nat.zero_le _, Nat.zero_le _⟩,
        .of_flat noOperators noOpenings⟩
      · rw [noClosings, noOpenings]
        rfl
      · intro last isLast
        cases Option.mem_some_iff.mp isLast
        show equals.kind.endsFactor = false
        rw [assigns]
        rfl
  | expression _ =>
      refine ⟨⟨rfl, rfl, rfl, ?_⟩, ⟨Nat.zero_le _, Nat.zero_le _⟩, .of_flat rfl rfl⟩
      rintro _ ⟨⟩

/-- At the beginning of a value no name is refused. -/
theorem kind_ne_name (begins : Begins tokens opening first value) {token : Token}
    {rejection : Rejection} (refused : first.read limits token = .error rejection) :
    token.kind ≠ .name := by
  intro named
  cases begins <;> simp only [Assembly.read, start, readOperand, named] at refused <;> cases refused

end Begins
end Assembly

/-! ## What an assembly refuses -/

namespace Assembly.Follows

variable {assembly : Assembly} {tokens : List Token} {token : Token}

theorem expectedBehind_eq (follows : assembly.Follows tokens) :
    Token.expectedBehind tokens = assembly.expectation := by
  have fits := follows.operand
  have filled {last : Token} (isLast : tokens.getLast? = some last)
      (ends : last.kind.endsFactor = true) (present : assembly.operand ≠ .missing) :
      Token.expectedBehind tokens = assembly.expectation := by
    rw [Token.expectedBehind, isLast, expectation_of_filled present]
    simp only [ends, if_true, follows.openedBehind_eq, List.length_eq_zero_iff]
  cases operand : assembly.operand with
  | missing =>
      rw [operand] at fits
      have expected : assembly.expectation = .operand := by
        simp only [expectation, operand]
      rw [expected, Token.expectedBehind]
      cases isLast : tokens.getLast? with
      | none => rfl
      | some last => simp only [fits last isLast, Bool.false_eq_true, if_false]
  | name name position =>
      rw [operand] at fits
      rcases fits with ⟨last, isLast, named, _⟩
      exact filled isLast (by rw [named]; rfl) (by rw [operand]; exact Operand.noConfusion)
  | complete factor =>
      rw [operand] at fits
      rcases fits with ⟨last, isLast, numeric | closes⟩
      · exact filled isLast (by rw [numeric]; rfl) (by rw [operand]; exact Operand.noConfusion)
      · exact filled isLast (by rw [closes]; rfl) (by rw [operand]; exact Operand.noConfusion)

theorem refuseEnd_eq (follows : assembly.Follows tokens) (position : Position) :
    assembly.refuseEnd assembly.expectation position = Token.endBlamed tokens position := by
  cases isLast : tokens.getLast? <;>
    simp only [refuseEnd, Token.endBlamed, follows.previous, follows.expectedBehind_eq, isLast]

theorem refuse_eq (follows : assembly.Follows tokens) :
    assembly.refuse assembly.expectation token = Token.blamed tokens (some token) := by
  cases kind : token.kind with
  | fault error => simp only [refuse, Token.blamed, kind]
  | endOfInput => simp only [refuse, Token.blamed, kind, follows.refuseEnd_eq]
  | _ => simp only [refuse, Token.blamed, kind, follows.expectedBehind_eq]

theorem openingPosition_eq (follows : assembly.Follows tokens) :
    assembly.openingPosition token = Token.openingReported tokens token := by
  have fits := follows.operand
  unfold openingPosition
  split
  · rename_i name position operand
    rw [operand] at fits
    rcases fits with ⟨last, isLast, named, rfl⟩
    simp only [Token.openingReported, isLast, if_pos named]
  · rename_i other
    have notName : ∀ last, tokens.getLast? = some last → last.kind ≠ .name := by
      intro last isLast named
      cases operand : assembly.operand with
      | missing =>
          rw [operand] at fits
          have unfinished := fits last isLast
          rw [named] at unfinished
          cases unfinished
      | name name position => exact other name position operand
      | complete factor =>
          rw [operand] at fits
          rcases fits with ⟨last', isLast', ends⟩
          cases isLast.symm.trans isLast'
          rcases ends with numeric | closes
          · exact TokenKind.noConfusion (named.symm.trans numeric)
          · exact TokenKind.noConfusion (named.symm.trans closes)
    unfold Token.openingReported
    split
    · rename_i last isLast
      rw [if_neg (notName last isLast)]
    · rfl

/-- An assembly that cannot finish where the tokens end expects more of them. -/
theorem finish_eq_error (follows : assembly.Follows tokens) {rejection : Rejection}
    (unfinished : assembly.finish = .error rejection) : rejection = Token.blamed tokens none := by
  rw [Token.blamed, ← follows.refuseEnd_eq]
  unfold finish at unfinished
  split at unfinished <;> cases unfinished <;> simp only [expectation, *]

end Assembly.Follows

namespace Assembly.Begins

variable {limits : Limits} {tokens opening value before later : List Token}
  {first last : Assembly} {token : Token} {rejection : Rejection}

/-- Every run from the beginning of a value can be completed. -/
theorem viable (begins : Begins tokens opening first value)
    (leads : Leads limits first before last) : Token.Viable (opening ++ before) := by
  rcases exists_completion limits last with ⟨later, tree, success⟩
  rw [← leads.readAll_append] at success
  refine ⟨later, ?_⟩
  rw [List.append_assoc]
  exact begins.accepted success

/-- A statement whose value is stuck somewhere under all limits is not accepted. -/
theorem not_accepted (begins : Begins tokens opening first (before ++ later))
    (leads : Leads limits first before last)
    (stuck : ∀ limits', last.readAll limits' later = .error rejection) :
    ¬ Token.Accepted tokens := by
  intro accepted
  rcases begins.exists_readAll accepted with ⟨limits', tree, success⟩
  exact leads.readAll_ne_ok stuck tree success

/-- No statement goes on with a token that is refused under all limits. -/
theorem not_viable (begins : Begins tokens opening first (before ++ token :: later))
    (leads : Leads limits first before last)
    (always : ∀ limits', last.read limits' token = .error rejection) :
    ¬ Token.Viable (opening ++ before ++ [token]) := by
  have stands : before = [] → token.kind ≠ .name := by
    rintro rfl
    cases leads
    exact begins.kind_ne_name (always limits)
  rintro ⟨later', accepted⟩
  simp only [List.append_assoc, List.singleton_append] at accepted
  have stuck (limits' : Limits) : last.readAll limits' (token :: later') = .error rejection := by
    rw [readAll, always]
  exact (begins.replace stands later').not_accepted leads stuck accepted

/-- A token that a run refuses is a violation behind the tokens of the run. -/
theorem violation (begins : Begins tokens opening first (before ++ token :: later))
    (leads : Leads limits first before last)
    (refused : last.read limits token = .error rejection) :
    Token.Violation limits (opening ++ before) (some token) rejection := by
  rcases begins.follows with ⟨followsFirst, within, keepFirst⟩
  rcases leads.follows followsFirst within keepFirst with ⟨follows, keep⟩
  have viable {limits' : Limits} {next : Assembly} (more : limits.AtMost limits')
      (passes : last.read limits' token = .ok (.ongoing next)) :
      Token.Viable (opening ++ before ++ [token]) := by
    rw [List.append_assoc]
    exact begins.viable ((leads.mono more).concat passes)
  cases refuses_of_read refused with
  | misplaced always =>
      rw [follows.refuse_eq]
      exact .misplaced (begins.not_viable leads always)
  | operator isOperator used passes =>
      let wider : Limits := ⟨limits.depth, last.operators + 1⟩
      have more : limits.AtMost wider := ⟨Nat.le_refl _, Nat.le_succ_of_le used⟩
      rcases passes wider (Nat.lt_succ_self _) with ⟨next, passes⟩
      refine .operator (viable more passes) isOperator ?_
      have few := keep.few
      rw [← follows.operators] at few
      rw [Token.operatorsIn_concat, if_pos isOperator, ← follows.operators,
        Nat.le_antisymm few used]
  | nesting opens deep passes =>
      let wider : Limits := ⟨last.brackets.length + 1, limits.operators⟩
      have more : limits.AtMost wider := ⟨Nat.le_succ_of_le deep, Nat.le_refl _⟩
      rcases passes wider (Nat.lt_succ_self _) with ⟨next, passes⟩
      rw [follows.openingPosition_eq]
      refine .nesting (viable more passes) opens ?_
      have shallow := keep.shallow _ (List.prefix_refl _)
      have brackets := follows.brackets
      rw [follows.openedBehind_eq] at shallow
      rw [Token.openedBehind, Token.openingsIn_concat, Token.closingsIn_concat, opens]
      simp only [reduceCtorEq, if_false, if_true]
      omega

/-- The end of the tokens, where a run cannot finish, is a violation. -/
theorem violation_end (begins : Begins tokens opening first value)
    (leads : Leads limits first value last) (unfinished : last.finish = .error rejection) :
    Token.Violation limits tokens none rejection := by
  rcases begins.follows with ⟨followsFirst, within, keepFirst⟩
  rcases leads.follows followsFirst within keepFirst with ⟨follows, _⟩
  rw [← begins.append_eq] at follows
  have incomplete : ¬ Token.Accepted tokens := by
    rw [← List.append_nil value] at begins
    exact begins.not_accepted leads fun _ => unfinished
  rw [follows.finish_eq_error unfinished]
  exact .unfinished incomplete

end Assembly.Begins

namespace Token

variable {limits : Limits} {tokens : List Token} {rejection : Rejection}

/-- A rejection points behind the first `count` tokens: they are viable and keep to the limits, and
the next token, or the end, is what the rejection reports. -/
structure Rejects (limits : Limits) (tokens : List Token) (rejection : Rejection) (count : Nat) :
    Prop where
  bounded : count ≤ tokens.length
  viable : Viable (tokens.take count)
  keep : KeepTo limits (tokens.take count)
  violation : Violation limits (tokens.take count) tokens[count]? rejection

theorem Rejects.of_append {before later : List Token} (viable : Viable before)
    (keep : KeepTo limits before) (violation : Violation limits before later.head? rejection) :
    Rejects limits (before ++ later) rejection before.length where
  bounded := by
    rw [List.length_append]
    exact Nat.le_add_right _ _
  viable := by rwa [List.take_left]
  keep := by rwa [List.take_left]
  violation := by
    rwa [List.take_left, List.getElem?_append_right (Nat.le_refl _), Nat.sub_self,
      ← List.head?_eq_getElem?]

theorem exists_rejects (rejected : Tree.ofTokens limits tokens = .error rejection) :
    ∃ count, Rejects limits tokens rejection count := by
  rcases Assembly.exists_begins tokens with ⟨opening, first, value, begins⟩
  rcases begins.follows with ⟨followsFirst, within, keepFirst⟩
  rcases Assembly.exists_leads_of_readAll (begins.ofTokens_eq_error_iff.mp rejected) with
    ⟨last, leads, unfinished⟩ | ⟨before, token, later, last, rfl, leads, refused⟩
  · have keep := (leads.follows followsFirst within keepFirst).2
    have viable := begins.viable leads
    have violation := begins.violation_end leads unfinished
    rw [← begins.append_eq] at keep viable
    have rejects : Rejects limits (tokens ++ []) rejection tokens.length :=
      .of_append viable keep violation
    rw [List.append_nil] at rejects
    exact ⟨_, rejects⟩
  · have keep := (leads.follows followsFirst within keepFirst).2
    have violation := begins.violation leads refused
    refine ⟨(opening ++ before).length, ?_⟩
    rw [begins.append_eq, ← List.append_assoc]
    exact .of_append (begins.viable leads) keep violation

/-- Tokens that are rejected are rejected at the leftmost violation, of which there is only one. -/
theorem rejected_at_leftmost (rejected : Tree.ofTokens limits tokens = .error rejection) :
    ∃! count, Rejects limits tokens rejection count := by
  rcases exists_rejects rejected with ⟨count, rejects⟩
  refine ⟨count, rejects, fun count' rejects' => Nat.le_antisymm ?_ ?_⟩
  · exact rejects.violation.count_le rejects'.bounded rejects'.viable rejects'.keep
  · exact rejects'.violation.count_le rejects.bounded rejects.viable rejects.keep

/-- One parenthesis is allowed, and the second one in `f(g(1))` is reported at `g`. -/
theorem rejected_at_leftmost_nested :
    Tree.ofTokens ⟨1, 0⟩ (stream "f(g(1))") = .error (.nestedTooDeep 1 ⟨1, 3⟩) ∧
      ∃! count, Rejects ⟨1, 0⟩ (stream "f(g(1))") (.nestedTooDeep 1 ⟨1, 3⟩) count := by
  have tokens : stream "f(g(1))" =
      [⟨.name, "f", ⟨1, 1⟩⟩, ⟨.openParenthesis, "(", ⟨1, 2⟩⟩, ⟨.name, "g", ⟨1, 3⟩⟩,
        ⟨.openParenthesis, "(", ⟨1, 4⟩⟩, ⟨.number, "1", ⟨1, 5⟩⟩, ⟨.closeParenthesis, ")", ⟨1, 6⟩⟩,
        ⟨.closeParenthesis, ")", ⟨1, 7⟩⟩, endOfInput ⟨1, 8⟩] := by
    decide +kernel
  have rejected : Tree.ofTokens ⟨1, 0⟩ (stream "f(g(1))") = .error (.nestedTooDeep 1 ⟨1, 3⟩) := by
    rw [tokens]
    rfl
  exact ⟨rejected, rejected_at_leftmost rejected⟩

end Token
end ExpressionChecker
