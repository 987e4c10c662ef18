import Peritus.Checked
import Peritus.Policy

/-!
Context nodes: their identities, their content and the errors of the context
crate.
-/

namespace Peritus.Context.Node

open Peritus.Types

abbrev ContextNodeId := OpaqueIdentifier

/-! ### Errors -/

inductive ContextErrorKind
  | invalidLimit
  | emptyContent
  | contentTooLarge
  | zeroTokenEstimate
  | zeroRecency
  | emptyCollection
  | nonCanonicalOrder
  | duplicateValue
  | selfDependency
  | tooManyDependencies
  | tooManyVisibilityRoles
  | incompatibleAuthority
  | incompatibleTrust
  | incompatibleContentKind
  | tooManyNodes
  | missingDependency
  | dependencyCycle
  | invalidTokenBudget
  | arithmeticOverflow
  | hiddenRequiredNode
  | hiddenRequiredDependency
  | requiredTokenBudgetExceeded
  | requiredNodeLimitExceeded
  | requiredByteLimitExceeded
  | invalidSelectionPolicy
  | planNodeMissing
  | selectionCertificateMismatch
deriving DecidableEq

/-- An error with its node, the related node and the two numbers compared. -/
structure ContextError where
  kind : ContextErrorKind
  nodeId : Option ContextNodeId
  relatedId : Option ContextNodeId
  expected : Option Nat
  actual : Option Nat
deriving DecidableEq

/-! ### Content -/

structure ContextContent where
  bytes : List UInt8
  digest : Sha256Digest
  nonempty : bytes ≠ []
deriving DecidableEq

namespace ContextContent

def len (content : ContextContent) : Nat :=
  content.bytes.length

end ContextContent

end Peritus.Context.Node
