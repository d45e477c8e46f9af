/-
Chronicle/Gateway/Query.lean

Queries are passed to their handlers.  No unit of work is opened; handlers that
read the store ask for the stateless view.
-/
import Chronicle.Registry.Dispatch

namespace Chronicle.Gateway

variable {D : Domain} {σ : Type}

/-- Answers a query. -/
def query (r : Registry D σ) (key : String) (input output : D.ValueType) (value : D.Value input) :
    Task σ (D.Value output) :=
  r.dispatchQuery key input output value (.forQuery r.dependencies)

end Chronicle.Gateway
