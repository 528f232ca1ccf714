import ViewBinding.Emission
import ViewBinding.Round

/-!
# Storing the companions of a round

`ViewBinding.Round.emit` stores the companions of a round. A round that failed stores nothing: its
failure is the error, and the way of storing is not asked.
-/

namespace ViewBinding

open Files

/-- Why not all companions of a round have been stored. -/
inductive EmissionError
  /-- The round failed. -/
  | round (failure : Failure)
  /-- A companion could not be stored. -/
  | write (error : WriteError)
deriving DecidableEq, Repr

/-- The wording of an error. -/
def EmissionError.message : EmissionError → String
  | round failure => failure.message
  | write error => error.message

/-- Stores the companions of a round that did not fail, and gives the paths where they are. -/
def Round.emit {m : Type → Type} [Monad m] (r : Round) (store : Store m) (l : Layout) :
    m (Except EmissionError (List Path)) :=
  match r.failure? with
  | some failure => pure (.error (.round failure))
  | none => do
    let out ← ViewBinding.emit store l r.companions
    pure (out.mapError .write)

end ViewBinding
