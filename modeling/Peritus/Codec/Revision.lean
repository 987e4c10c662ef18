import Peritus.Codec.Canonicity

/-!
The revision tuple on the wire, as every crate writes it.
-/

namespace Peritus.Codec.Revision

open Peritus.Types Writer Reader Canonicity

def writeRevision (value : RevisionTuple) : Payload :=
  writeId value.acceptanceSpecId ++ writeId value.harnessId
    ++ writeId value.workspaceId ++ writeU64 value.workspaceGeneration.get
    ++ writeU64 value.workspaceRevision.get ++ writeId value.policyId
    ++ writeId value.providerProfileId

def readRevision : Reading RevisionTuple := do
  let acceptanceSpecId ← readId
  let harnessId ← readId
  let workspaceId ← readId
  let workspaceGeneration ← readPositive
  let workspaceRevision ← readPositive
  let policyId ← readId
  let providerProfileId ← readId
  return { acceptanceSpecId, harnessId, workspaceId, workspaceGeneration
           workspaceRevision, policyId, providerProfileId }

@[simp] theorem size_writeRevision (value : RevisionTuple) :
    size (writeRevision value) = 96 := by
  simp [writeRevision]

theorem reads_revision (value : RevisionTuple) :
    Reads readRevision (writeRevision value) value := by
  unfold readRevision writeRevision
  simp only [List.append_assoc]
  refine (Reads.id _).bind ?_
  refine (Reads.id _).bind ?_
  refine (Reads.id _).bind ?_
  refine (Reads.positive _).bind ?_
  refine (Reads.positive _).bind ?_
  refine (Reads.id _).bind ?_
  exact (Reads.id value.providerProfileId).map _

theorem takes_revision : Takes readRevision writeRevision := by
  intro reader value next h
  simp only [readRevision, reading_bind_eq_ok_iff,
    reading_pure_eq_ok_iff] at h
  obtain ⟨_, _, hacceptance, _, _, hharness, _, _, hworkspace, _, _,
    hgeneration, _, _, hrevision, _, _, hpolicy, _, _, hprovider, rfl, rfl⟩ := h
  exact ((((((takes_id _ _ _ hacceptance).append
    (takes_id _ _ _ hharness)).append
    (takes_id _ _ _ hworkspace)).append
    (takes_positive _ _ _ hgeneration)).append
    (takes_positive _ _ _ hrevision)).append
    (takes_id _ _ _ hpolicy)).append
    (takes_id _ _ _ hprovider)

end Peritus.Codec.Revision
