import HandleProtocol.Implementation

/-!
Where two implementations differ.

Both carry out the same operations, each on a handle of its own, and the steps
whose outcomes differ are listed with their positions.
-/

namespace HandleProtocol

structure Difference where
  index : Nat
  operation : Operation
  expected : Outcome
  actual : Outcome
  deriving DecidableEq, Repr

namespace Difference

def message (difference : Difference) : String :=
  "step " ++ difference.index.repr ++ " (" ++ difference.operation.name ++
    "): expected " ++ difference.expected.summary ++ ", got " ++ difference.actual.summary

def inspect (difference : Difference) : String :=
  "Deviation \x7b index: " ++ difference.index.repr ++
    ", operation: " ++ difference.operation.inspect ++
    ", expected: " ++ difference.expected.inspect ++
    ", actual: " ++ difference.actual.inspect ++ " \x7d"

/-- The differences of two records of one run, whose first step has this index. -/
def between (index : Nat) : List Step → List Step → List Difference
  | expected :: expecteds, actual :: actuals =>
      if expected.outcome = actual.outcome then
        between (index + 1) expecteds actuals
      else
        ⟨index, expected.operation, expected.outcome, actual.outcome⟩ ::
          between (index + 1) expecteds actuals
  | _, _ => []

end Difference

/-- The steps at which a candidate's outcome is not that of the reference. -/
def differences {σ τ : Type} (reference : Implementation σ) (candidate : Implementation τ)
    (operations : List Operation) : List Difference :=
  Difference.between 0 (reference.runLife operations).answer
    (candidate.runLife operations).answer

end HandleProtocol
