import ExpressionChecker.Proofs.Assembly.Refusals

namespace ExpressionChecker

/-!
# Runs over the tokens of a statement

A run of an assembly remembers little of the tokens: the last one, whether it completes an operand,
how many operators there were, and how many parentheses are still open.  All of this can be told from
the tokens alone.  A run that is rejected comes either to the end of the tokens or to a token that is
refused, and up to there it can be completed under any limits.
-/

/-- Whether a token of this kind may be the last one of a factor. -/
def TokenKind.endsFactor : TokenKind → Bool
  | name | number | closeParenthesis => true
  | _ => false

/-- An operand goes with the token that was read last. -/
def Operand.Fits (last? : Option Token) : Operand → Prop
  | .missing => ∀ last ∈ last?, last.kind.endsFactor = false
  | .name _ position => ∃ last, last? = some last ∧ last.kind = .name ∧ last.position = position
  | .complete _ => ∃ last, last? = some last ∧
      (last.kind = .number ∨ last.kind = .closeParenthesis)

namespace Token

/-! ## What is counted in tokens -/

/-- The number of binary operators among tokens. -/
def operatorsIn (tokens : List Token) : Nat :=
  tokens.countP fun token => (Assembly.operator? token).isSome

/-- The number of opening parentheses among tokens. -/
def openingsIn (tokens : List Token) : Nat :=
  tokens.countP fun token => token.kind = .openParenthesis

/-- The number of closing parentheses among tokens. -/
def closingsIn (tokens : List Token) : Nat :=
  tokens.countP fun token => token.kind = .closeParenthesis

/-- How many parentheses are still open behind tokens. -/
def openedBehind (tokens : List Token) : Nat :=
  openingsIn tokens - closingsIn tokens

/-- The tokens hold no more operators than allowed, and nowhere among them are more parentheses
open. -/
structure KeepTo (limits : Limits) (tokens : List Token) : Prop where
  few : operatorsIn tokens ≤ limits.operators
  shallow : ∀ before, before <+: tokens → openedBehind before ≤ limits.depth

theorem operatorsIn_concat (tokens : List Token) (token : Token) :
    operatorsIn (tokens ++ [token]) =
      operatorsIn tokens + if (Assembly.operator? token).isSome then 1 else 0 := by
  rw [operatorsIn, List.countP_append, List.countP_singleton]
  rfl

theorem openingsIn_concat (tokens : List Token) (token : Token) :
    openingsIn (tokens ++ [token]) =
      openingsIn tokens + if token.kind = .openParenthesis then 1 else 0 := by
  rw [openingsIn, List.countP_append, List.countP_singleton]
  simp only [decide_eq_true_eq]
  rfl

theorem closingsIn_concat (tokens : List Token) (token : Token) :
    closingsIn (tokens ++ [token]) =
      closingsIn tokens + if token.kind = .closeParenthesis then 1 else 0 := by
  rw [closingsIn, List.countP_append, List.countP_singleton]
  simp only [decide_eq_true_eq]
  rfl

namespace KeepTo

variable {limits : Limits} {tokens : List Token}

theorem of_prefix {before : List Token} (keep : KeepTo limits tokens)
    (isPrefix : before <+: tokens) : KeepTo limits before where
  few := Nat.le_trans isPrefix.sublist.countP_le keep.few
  shallow earlier isEarlier := keep.shallow earlier (isEarlier.trans isPrefix)

/-- Tokens among which there is no operator and no opening parenthesis keep to any limits. -/
theorem of_flat (noOperators : operatorsIn tokens = 0) (noOpenings : openingsIn tokens = 0) :
    KeepTo limits tokens where
  few := by
    rw [noOperators]
    exact Nat.zero_le _
  shallow before isPrefix := by
    have openings : openingsIn before ≤ openingsIn tokens := isPrefix.sublist.countP_le
    rw [openedBehind]
    omega

theorem concat (keep : KeepTo limits tokens) {token : Token}
    (few : operatorsIn (tokens ++ [token]) ≤ limits.operators)
    (shallow : openedBehind (tokens ++ [token]) ≤ limits.depth) :
    KeepTo limits (tokens ++ [token]) where
  few := few
  shallow before isPrefix := by
    rcases List.prefix_concat_iff.mp isPrefix with rfl | earlier
    · exact shallow
    · exact keep.shallow before earlier

end KeepTo
end Token

namespace Assembly

open Grammar

variable {limits limits' : Limits}

/-! ## What an assembly knows of the tokens -/

/-- The assembly is one behind the given tokens. -/
structure Follows (assembly : Assembly) (tokens : List Token) : Prop where
  previous : assembly.previous = tokens.getLast?
  operators : assembly.operators = Token.operatorsIn tokens
  brackets : assembly.brackets.length + Token.closingsIn tokens = Token.openingsIn tokens
  operand : assembly.operand.Fits tokens.getLast?

namespace Follows

variable {assembly next : Assembly} {tokens : List Token} {token : Token}

theorem openedBehind_eq (follows : assembly.Follows tokens) :
    Token.openedBehind tokens = assembly.brackets.length := by
  rw [Token.openedBehind, ← follows.brackets, Nat.add_sub_cancel]

/-- What a token adds to the counts is all that has to be known about it. -/
theorem of_concat (previous : next.previous = some token)
    (operators : next.operators =
      Token.operatorsIn tokens + if (operator? token).isSome then 1 else 0)
    (brackets : next.brackets.length +
        (Token.closingsIn tokens + if token.kind = .closeParenthesis then 1 else 0) =
      Token.openingsIn tokens + if token.kind = .openParenthesis then 1 else 0)
    (operand : next.operand.Fits (some token)) : next.Follows (tokens ++ [token]) where
  previous := by rw [previous, List.getLast?_concat]
  operators := by rw [operators, Token.operatorsIn_concat]
  brackets := by rw [Token.closingsIn_concat, Token.openingsIn_concat, brackets]
  operand := by rwa [List.getLast?_concat]

/-- Every token that passes is accounted for. -/
theorem step (follows : assembly.Follows tokens)
    (passes : assembly.read limits token = .ok (.ongoing next)) :
    next.Follows (tokens ++ [token]) := by
  have brackets := follows.brackets
  have operators (plain : token.kind ≠ .arithmetic) : assembly.operators =
      Token.operatorsIn tokens + if (operator? token).isSome then 1 else 0 := by
    rw [operator?_eq_none plain, follows.operators]
    rfl
  have missing (unfinished : token.kind.endsFactor = false) :
      Operand.missing.Fits (some token) := by
    rintro _ ⟨⟩
    exact unfinished
  rcases read_eq_ongoing passes with ⟨kind, rfl⟩ | ⟨kind, factor, rfl⟩ | ⟨kind, bracket, rfl⟩ |
    ⟨kind, isOperator, level, rfl⟩ | ⟨kind, bracket, outer, level, factor, interrupted, rfl⟩
  · refine .of_concat rfl (operators (by rw [kind]; decide)) ?_ ⟨token, rfl, kind, rfl⟩
    simpa [kind] using brackets
  · refine .of_concat rfl (operators (by rw [kind]; decide)) ?_ ⟨token, rfl, Or.inl kind⟩
    simpa [kind] using brackets
  · refine .of_concat rfl (operators (by rw [kind]; decide)) ?_ (missing (by rw [kind]; rfl))
    simp only [kind, reduceCtorEq, if_false, if_true, List.length_cons]
    omega
  · refine .of_concat rfl ?_ ?_ (missing (by rw [kind]; rfl))
    · rw [if_pos isOperator, follows.operators]
    · simpa [kind] using brackets
  · rw [interrupted, List.length_cons] at brackets
    refine .of_concat rfl (operators (by rw [kind]; decide)) ?_ ⟨token, rfl, Or.inr kind⟩
    simp only [kind, reduceCtorEq, if_false, if_true]
    omega

end Follows

/-! ## Runs -/

/-- Reading tokens one after the other leads from one assembly to another. -/
inductive Leads (limits : Limits) : Assembly → List Token → Assembly → Prop where
  | done (assembly : Assembly) : Leads limits assembly [] assembly
  | more {assembly next last : Assembly} {token : Token} {rest : List Token}
      (passes : assembly.read limits token = .ok (.ongoing next))
      (later : Leads limits next rest last) : Leads limits assembly (token :: rest) last

namespace Leads

variable {first last : Assembly} {tokens : List Token}

/-- What is read behind a run is read by its last assembly. -/
theorem readAll_append (leads : Leads limits first tokens last) (later : List Token) :
    first.readAll limits (tokens ++ later) = last.readAll limits later := by
  induction leads with
  | done assembly => rfl
  | more passes _ inductionHypothesis =>
      rw [List.cons_append, readAll]
      simp only [passes]
      exact inductionHypothesis

theorem mono (more : limits.AtMost limits') (leads : Leads limits first tokens last) :
    Leads limits' first tokens last := by
  induction leads with
  | done assembly => exact .done assembly
  | more passes _ inductionHypothesis => exact .more (read_mono more passes) inductionHypothesis

theorem concat {next : Assembly} {token : Token} (leads : Leads limits first tokens last)
    (passes : last.read limits token = .ok (.ongoing next)) :
    Leads limits first (tokens ++ [token]) next := by
  induction leads with
  | done assembly => exact .more passes (.done next)
  | more before _ inductionHypothesis => exact .more before (inductionHypothesis passes)

/-- A run accounts for its tokens and keeps to the limits. -/
theorem follows (leads : Leads limits first tokens last) {earlier : List Token}
    (begins : first.Follows earlier) (within : first.Within limits)
    (keep : Token.KeepTo limits earlier) :
    last.Follows (earlier ++ tokens) ∧ Token.KeepTo limits (earlier ++ tokens) := by
  induction leads generalizing earlier with
  | done assembly =>
      rw [List.append_nil]
      exact ⟨begins, keep⟩
  | @more assembly next last token rest passes _ inductionHypothesis =>
      have behind := begins.step passes
      have withinNext := within_of_read within passes
      have few : Token.operatorsIn (earlier ++ [token]) ≤ limits.operators := by
        rw [← behind.operators]
        exact withinNext.few
      have shallow : Token.openedBehind (earlier ++ [token]) ≤ limits.depth := by
        rw [behind.openedBehind_eq]
        exact withinNext.shallow
      have whole := inductionHypothesis behind withinNext (keep.concat few shallow)
      rwa [List.append_assoc, List.singleton_append] at whole

end Leads

/-! ## Runs that are rejected -/

/-- A run that is rejected comes to an end of the tokens where it cannot finish, or to a token that
is refused. -/
theorem exists_leads_of_readAll {first : Assembly} {tokens : List Token} {rejection : Rejection}
    (rejected : first.readAll limits tokens = .error rejection) :
    (∃ last, Leads limits first tokens last ∧ last.finish = .error rejection) ∨
    ∃ before token later last, tokens = before ++ token :: later ∧
      Leads limits first before last ∧ last.read limits token = .error rejection := by
  induction tokens generalizing first with
  | nil => exact Or.inl ⟨first, .done first, rejected⟩
  | cons token rest inductionHypothesis =>
      unfold readAll at rejected
      split at rejected
      · rename_i next passes
        rcases inductionHypothesis rejected with ⟨last, leads, unfinished⟩ |
          ⟨before, refused, later, last, rfl, leads, refuses⟩
        · exact Or.inl ⟨last, .more passes leads, unfinished⟩
        · exact Or.inr ⟨token :: before, refused, later, last, rfl, .more passes leads, refuses⟩
      · cases rejected
      · rename_i refuses
        cases rejected
        exact Or.inr ⟨[], token, rest, first, rfl, .done first, refuses⟩

theorem readAll_mono (more : limits.AtMost limits') {first : Assembly} {tokens : List Token}
    {tree : Tree} (success : first.readAll limits tokens = .ok tree) :
    first.readAll limits' tokens = .ok tree := by
  induction tokens generalizing first with
  | nil => exact success
  | cons token rest inductionHypothesis =>
      unfold readAll at success ⊢
      split at success
      · rename_i next passes
        simp only [read_mono more passes]
        exact inductionHypothesis success
      · rename_i finished passes
        simp only [read_mono more passes]
        exact success
      · cases success

/-- Where a run leads to what is stuck under all limits, no limits let the tokens pass. -/
theorem Leads.readAll_ne_ok {first last : Assembly} {tokens later : List Token}
    {rejection : Rejection} (leads : Leads limits first tokens last)
    (stuck : ∀ limits', last.readAll limits' later = .error rejection) (tree : Tree) :
    first.readAll limits' (tokens ++ later) ≠ .ok tree := by
  intro success
  -- Where both limits are allowed, the run is the same and what follows is still stuck.
  let both : Limits := ⟨max limits.depth limits'.depth, max limits.operators limits'.operators⟩
  have more : limits.AtMost both := ⟨Nat.le_max_left _ _, Nat.le_max_left _ _⟩
  have more' : limits'.AtMost both := ⟨Nat.le_max_right _ _, Nat.le_max_right _ _⟩
  have wide := readAll_mono more' success
  rw [(leads.mono more).readAll_append, stuck] at wide
  cases wide

/-! ## Completions -/

/-- Behind a factor, the parentheses that are open can be closed. -/
theorem exists_readAll_closings (limits : Limits) {level : Level} {factor : Tree}
    {brackets : List Bracket} {operators : Nat} {previous : Option Token} {closing : Token}
    (closes : closing.kind = .closeParenthesis) :
    ∃ tree, readAll limits ⟨level, .complete factor, brackets, operators, previous⟩
      (List.replicate brackets.length closing) = .ok tree := by
  induction brackets generalizing level factor previous with
  | nil => exact ⟨_, readAll_end endsStatement_nil⟩
  | cons bracket outer inductionHypothesis =>
      rcases bracket with ⟨opening, interrupted⟩
      rw [List.length_cons, List.replicate_succ, readAll_close closes]
      exact inductionHypothesis

/-- Whatever has been read, there are tokens that complete the statement. -/
theorem exists_completion (limits : Limits) (assembly : Assembly) :
    ∃ later tree, assembly.readAll limits later = .ok tree := by
  let closing : Token := ⟨.closeParenthesis, ")", .start⟩
  let closings := List.replicate assembly.brackets.length closing
  rcases assembly with ⟨level, operand, brackets, operators, previous⟩
  cases operand with
  | missing =>
      let operand : Token := ⟨.number, "0", .start⟩
      refine ⟨operand :: closings, ?_⟩
      rw [readAll_number rfl]
      exact exists_readAll_closings limits rfl
  | name name position =>
      have ends : EndsFactor closings := by
        intro token isFirst
        cases List.eq_of_mem_replicate (List.mem_of_mem_head? isFirst)
        exact TokenKind.noConfusion
      refine ⟨closings, ?_⟩
      rw [readAll_identifier ends]
      exact exists_readAll_closings limits rfl
  | complete factor => exact ⟨closings, exists_readAll_closings limits rfl⟩

end Assembly
end ExpressionChecker
