import ExpressionChecker.Proofs.Analysis.Interruption
import ExpressionChecker.Proofs.Grammar.Violation

namespace ExpressionChecker

/-!
# What a limit decides

A limit decides where a check gives up and has no other part in it.  So what a check finds without
giving up it also finds under greater limits.  Two runs over the same tokens go in step: a token
that passes still passes, and a token that is refused for what it is remains refused.  Two analyses
of one tree are compared by what they find, which the limits have no part in once no node stands too
deep.
-/

/-- The rejection reports that a limit was met. -/
inductive Rejection.MeetsLimit : Rejection → Prop where
  | nesting (limit : Nat) (position : Position) : MeetsLimit (.nestedTooDeep limit position)
  | operators (limit : Nat) (position : Position) : MeetsLimit (.tooManyOperators limit position)

variable {limits limits' : Limits}

/-! ## Statements -/

namespace Assembly

/-- What is refused for another reason than a limit is refused under all limits. -/
theorem read_eq_error {assembly : Assembly} {token : Token} {rejection : Rejection}
    (refused : assembly.read limits token = .error rejection) (otherwise : ¬ rejection.MeetsLimit) :
    assembly.read limits' token = .error rejection := by
  cases refuses_of_read refused with
  | misplaced always => exact always limits'
  | operator => exact absurd (.operators _ _) otherwise
  | nesting => exact absurd (.nesting _ _) otherwise

/-- Runs under both limits go in step until the first of them ends. -/
theorem readAll_eq_of_atMost (more : limits.AtMost limits') {first : Assembly} {tokens : List Token}
    (uncut : ∀ rejection, first.readAll limits tokens = .error rejection →
      ¬ rejection.MeetsLimit) :
    first.readAll limits' tokens = first.readAll limits tokens := by
  induction tokens generalizing first with
  | nil => rfl
  | cons token rest inductionHypothesis =>
      unfold readAll at uncut ⊢
      cases reads : first.read limits token with
      | error rejection =>
          simp only [reads] at uncut
          rw [read_eq_error reads (uncut rejection rfl)]
      | ok outcome =>
          simp only [reads] at uncut
          rw [read_mono more reads]
          cases outcome with
          | ongoing next => exact inductionHypothesis uncut
          | finished tree => rfl

end Assembly

theorem Tree.ofTokens_eq_of_atMost (more : limits.AtMost limits') {tokens : List Token}
    (uncut : ∀ rejection, ofTokens limits tokens = .error rejection → ¬ rejection.MeetsLimit) :
    ofTokens limits' tokens = ofTokens limits tokens := by
  rcases Assembly.exists_begins tokens with ⟨opening, first, value, begins⟩
  have inStep : first.readAll limits' value = first.readAll limits value :=
    Assembly.readAll_eq_of_atMost more fun rejection rejected =>
      uncut rejection (begins.ofTokens_eq_error_iff.mpr rejected)
  rw [begins.ofTokens_eq, begins.ofTokens_eq, inStep]

/-! ## Analyses -/

/-- Where no node stands too deep, the passes are the same under any limits. -/
theorem Passes.run_eq_of_complete {tree : Tree}
    (within : ∀ visit ∈ tree.visits, visit.calls ≤ limits.depth)
    (within' : ∀ visit ∈ tree.visits, visit.calls ≤ limits'.depth) :
    run limits' tree = run limits tree :=
  (run_eq_of_within within').trans (run_eq_of_within within).symm

theorem Analysis.ofTree_eq_of_atMost (more : limits.AtMost limits') {tree : Tree}
    (complete : .internalError ∉ (ofTree limits tree).codes) :
    ofTree limits' tree = ofTree limits tree := by
  have within := within_of_complete complete
  have within' : ∀ visit ∈ tree.visits, visit.calls ≤ limits'.depth :=
    fun visit visited => Nat.le_trans (within visit visited) more.depth
  exact congrArg (ofPasses tree) (Passes.run_eq_of_complete within within')

/-- The analysis of a statement that was read under the same limits is never interrupted. -/
theorem Analysis.complete_of_ofTokens {text : String} {tree : Tree}
    (read : Tree.ofTokens limits (Token.stream text) = .ok tree) :
    .internalError ∉ (ofTree limits tree).codes := by
  have image := Tree.isStatement_of_ofTokens read
  rw [codes, image.1.diagnostics_eq image.2, List.mem_map]
  rintro ⟨finding, found, internal⟩
  have listed := tree.verdict_code finding found
  rw [internal] at listed
  exact absurd listed (by decide)

/-! ## Reports -/

namespace Report

theorem ofText_eq_of_atMost (more : limits.AtMost limits') {text : String}
    (uncut : ∀ rejection, (ofText limits text).outcome = .rejected rejection →
      ¬ rejection.MeetsLimit) :
    ofText limits' text = ofText limits text := by
  have sameTree : Tree.ofTokens limits' (Token.stream text) =
      Tree.ofTokens limits (Token.stream text) := by
    apply Tree.ofTokens_eq_of_atMost more
    intro rejection rejected
    apply uncut
    simp only [ofText, Outcome.ofTokens, rejected]
  simp only [ofText, Outcome.ofTokens, sameTree]
  split
  · rename_i tree read
    rw [Analysis.ofTree_eq_of_atMost more (Analysis.complete_of_ofTokens read)]
  · rfl

/-- Greater limits change nothing but where a check gives up.  Tokens that are not rejected for a
limit yield the same tree or the same rejection, a tree whose analysis is not interrupted has the
same analysis, and so a text has the same report unless a limit was met in its statement: a text
that is analyzed is never rejected under greater limits.  -/
theorem unchanged_by_greater_limits (more : limits.AtMost limits') :
    (∀ tokens, (∀ rejection, Tree.ofTokens limits tokens = .error rejection →
        ¬ rejection.MeetsLimit) →
      Tree.ofTokens limits' tokens = Tree.ofTokens limits tokens) ∧
    (∀ tree, .internalError ∉ (Analysis.ofTree limits tree).codes →
      Analysis.ofTree limits' tree = Analysis.ofTree limits tree) ∧
    ∀ text, (∀ rejection, (ofText limits text).outcome = .rejected rejection →
        ¬ rejection.MeetsLimit) →
      ofText limits' text = ofText limits text :=
  ⟨fun _ => Tree.ofTokens_eq_of_atMost more, fun _ => Analysis.ofTree_eq_of_atMost more,
    fun _ => ofText_eq_of_atMost more⟩

/-- The first limits are met by the depth of each input, and the tokens are rejected for the
parenthesis that is missing. -/
theorem unchanged_by_greater_limits_nested :
    Limits.AtMost ⟨2, 1⟩ ⟨3, 2⟩ ∧
      Tree.ofTokens ⟨3, 2⟩ (Token.stream "f(g(1)") =
        .error (.endedAfter .closingParenthesis ")" ⟨1, 6⟩) ∧
      Analysis.ofTree ⟨3, 2⟩ .mixed = Analysis.ofTree ⟨2, 1⟩ .mixed ∧
      ofText ⟨3, 2⟩ "x = f(g(y)) + 2" = ofText ⟨2, 1⟩ "x = f(g(y)) + 2" := by
  have more : Limits.AtMost ⟨2, 1⟩ ⟨3, 2⟩ := ⟨by decide, by decide⟩
  have unchanged := unchanged_by_greater_limits more
  have tokens : Token.stream "f(g(1)" =
      [⟨.name, "f", ⟨1, 1⟩⟩, ⟨.openParenthesis, "(", ⟨1, 2⟩⟩, ⟨.name, "g", ⟨1, 3⟩⟩,
        ⟨.openParenthesis, "(", ⟨1, 4⟩⟩, ⟨.number, "1", ⟨1, 5⟩⟩,
        ⟨.closeParenthesis, ")", ⟨1, 6⟩⟩, Token.endOfInput ⟨1, 7⟩] := by
    decide +kernel
  have rejected : Tree.ofTokens ⟨2, 1⟩ (Token.stream "f(g(1)") =
      .error (.endedAfter .closingParenthesis ")" ⟨1, 6⟩) := by
    rw [tokens]
    rfl
  have analyzed : (ofText ⟨2, 1⟩ "x = f(g(y)) + 2").outcome.rejection? = none := by
    decide +kernel
  refine ⟨more, ?_, unchanged.2.1 _ (by decide +kernel), unchanged.2.2 _ ?_⟩
  · rw [unchanged.1, rejected]
    intro rejection same
    cases rejected.symm.trans same
    rintro ⟨⟩
  · intro rejection same
    rw [same] at analyzed
    cases analyzed

end Report
end ExpressionChecker
