import Mathlib

/-!
The kinds of a review finding's disposition.
-/

namespace Peritus.Review.Disposition

inductive DispositionKind
  | opened
  | fixed
  | disputed
  | supersessionProposed
  | waiverRequested
  | resolutionConfirmed
  | invalidationConfirmed
  | superseded
  | waived
deriving DecidableEq

end Peritus.Review.Disposition
