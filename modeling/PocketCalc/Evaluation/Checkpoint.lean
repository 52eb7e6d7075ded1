/-
  PocketCalc.Evaluation.Checkpoint
  ────────────────────────────────
  **WHERE AN EVALUATION PASSES.**

  After each stage that succeeds, the evaluation of a formula passes a
  checkpoint: the stage and the formula that it leaves.  What brackets enclose
  passes its own checkpoints, between those of the formula around it.
-/
import PocketCalc.Evaluation.Basic

namespace PocketCalc

/-- The stages that leave a formula behind. -/
inductive Stage where
  | factorials
  | brackets
  | products
  deriving DecidableEq, Repr

/-- A stage that is done, and the formula it leaves. -/
structure Checkpoint where
  stage : Stage
  formula : Formula

/-- The checkpoint after products and quotients, if they succeed. -/
def productCheckpoints (f : Formula) : List Checkpoint :=
  match products.exhaust f with
  | .ok g => [⟨.products, g⟩]
  | .error _ => []

/-- The checkpoints of a formula without brackets and factorials: the first two
stages leave it as it is. -/
def flatCheckpoints (f : Formula) : List Checkpoint :=
  if f.isEmpty then [] else ⟨.factorials, f⟩ :: ⟨.brackets, f⟩ :: productCheckpoints f

/-- The checkpoints of what the brackets of a formula enclose, in the order in
which the pairs are replaced; the first pair that is refused is the last. -/
def enclosedCheckpoints (f : Formula) : List Checkpoint :=
  match _hc : innermost f with
  | .ok (some c) =>
      match evaluateFlat c.inner with
      | .ok v =>
          flatCheckpoints c.inner
            ++ enclosedCheckpoints (c.before ++ Token.ofDecimal v :: c.after)
      | .error _ => flatCheckpoints c.inner
  | _ => []
termination_by f.length
decreasing_by
  have := innermost_length _hc
  simp only [List.length_append, List.length_cons]
  omega

/-- All checkpoints of the evaluation of a formula, in order. -/
def checkpoints (f : Formula) : List Checkpoint :=
  if f.isEmpty then []
  else
    match factorials.exhaust f with
    | .error _ => []
    | .ok g =>
        ⟨.factorials, g⟩ :: enclosedCheckpoints g ++
          match brackets.exhaust g with
          | .error _ => []
          | .ok h => ⟨.brackets, h⟩ :: productCheckpoints h

end PocketCalc
