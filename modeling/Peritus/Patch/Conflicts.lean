import Peritus.Patch.Set

/-!
Conflicting targets of a patch.  The constructor accepts a set of targets as it
should exactly if one of the targets with another below it has no target that
sorts between the two.
-/

namespace Peritus.Patch.Conflicts

open Peritus.Types Checked Words Codec.Writer Patch.Path Patch.Set

/-! ### Ancestors by components -/

/-- The path is a proper ancestor directory of the other. -/
def ProperAncestor (path other : WorkspacePath) : Prop :=
  ∃ below, below ≠ [] ∧
    components other.value = components path.value ++ below

theorem intercalate_append {left right : List (List Char)} (hleft : left ≠ [])
    (hright : right ≠ []) :
    [separator].intercalate (left ++ right) =
      [separator].intercalate left ++
        separator :: [separator].intercalate right := by
  induction left with
  | nil => exact absurd rfl hleft
  | cons first left ih =>
      cases left with
      | nil =>
          obtain ⟨next, right, rfl⟩ := List.exists_cons_of_ne_nil hright
          simp
      | cons second left =>
          have hrest := ih (List.cons_ne_nil second left)
          simp only [List.cons_append, List.intercalate_cons_cons] at hrest ⊢
          rw [hrest]
          simp

theorem properAncestor_iff {path other : WorkspacePath} :
    ProperAncestor path other ↔ Extends separator path.chars other.chars := by
  unfold ProperAncestor Extends WorkspacePath.chars components
  constructor
  · rintro ⟨below, hbelow, hother⟩
    refine ⟨[separator].intercalate below, ?_⟩
    have hjoined : [separator].intercalate (other.value.toList.splitOn separator) =
        other.value.toList := List.intercalate_splitOn separator
    rw [← hjoined, hother,
      intercalate_append (List.splitOn_ne_nil _ _) hbelow,
      List.intercalate_splitOn]
  · rintro ⟨rest, hother⟩
    refine ⟨rest.splitOn separator, List.splitOn_ne_nil _ _, ?_⟩
    rw [hother, List.splitOn_append_cons_self]

/-! ### Directories -/

section Directories

/-- What the directories above a path are joined from. -/
def remaining (relative : List Char) (parts : List (List Char)) : List Char :=
  if relative.isEmpty then [separator].intercalate parts
  else relative ++ separator :: [separator].intercalate parts

theorem exists_directoriesAbove {path : WorkspacePath} {relative : List Char}
    {parts : List (List Char)} (hparts : ∀ part ∈ parts, part ≠ [])
    (hpath : path.chars = remaining relative parts) :
    ∃ directories, directoriesAbove relative parts = .ok directories := by
  induction parts generalizing relative with
  | nil => exact ⟨[], rfl⟩
  | cons part rest ih =>
      cases rest with
      | nil => exact ⟨[], rfl⟩
      | cons next rest =>
          obtain ⟨extended, hextended⟩ : ∃ extended, extended =
              if relative.isEmpty then part
              else relative ++ separator :: part := ⟨_, rfl⟩
          have hpart := hparts part List.mem_cons_self
          have hnonempty : extended.isEmpty = false := by
            rw [hextended]
            cases relative <;> simp [hpart]
          have hsplit : path.chars = extended ++ separator ::
              [separator].intercalate (next :: rest) := by
            rw [hpath, hextended, remaining, List.intercalate_cons_cons]
            cases relative <;> simp
          have hvalid := checkPath_directory path.valid hsplit
          have hcontinued : path.chars = remaining extended (next :: rest) := by
            rw [remaining, hnonempty]
            exact hsplit
          obtain ⟨directories, hdirectories⟩ := ih
            (fun part hpart => hparts part (List.mem_cons_of_mem _ hpart))
            hcontinued
          refine ⟨⟨_, hvalid⟩ :: directories, ?_⟩
          unfold directoriesAbove
          dsimp only
          rw [← hextended, WorkspacePath.new_eq_ok hvalid]
          dsimp only [bind, Except.bind]
          rw [hdirectories]

theorem exists_patchDirectories (operations : List PatchOperation) :
    ∃ directories, patchDirectories operations = .ok directories := by
  induction operations with
  | nil => exact ⟨[], rfl⟩
  | cons operation rest ih =>
      obtain ⟨others, hothers⟩ := ih
      have hparts : ∀ part ∈ components operation.path.value, part ≠ [] := by
        intro part hpart
        apply nonempty_of_checkComponent
        exact (checkPath_eq_ok_iff.mp operation.path.valid).2 part hpart
      have hpath : operation.path.chars =
          remaining [] (components operation.path.value) := by
        simp [remaining, components, List.intercalate_splitOn,
          WorkspacePath.chars]
      obtain ⟨above, habove⟩ := exists_directoriesAbove hparts hpath
      refine ⟨above ++ others, ?_⟩
      simp [patchDirectories, habove, hothers, bind, Except.bind]

end Directories

/-! ### The encoding -/

/-- The bytes that a list of operations brings to its targets. -/
def sumBytes (operations : List PatchOperation) : Nat :=
  (operations.map PatchOperation.finalBytes).sum

theorem totalBytes_eq {total : Nat} (operations : List PatchOperation)
    (htotal : total ≤ u64Max) : totalBytes total operations =
      if total + sumBytes operations ≤ u64Max then
        .ok (total + sumBytes operations)
      else .error arithmeticError := by
  induction operations generalizing total with
  | nil => simp [totalBytes, sumBytes, htotal]
  | cons operation rest ih =>
      have hsum : total + sumBytes (operation :: rest) =
          total + operation.finalBytes + sumBytes rest := by
        simp [sumBytes, Nat.add_assoc]
      unfold totalBytes
      dsimp only
      by_cases hnext : total + operation.finalBytes ≤ u64Max
      · rw [decide_eq_true hnext, hsum, ← ih hnext]
        rfl
      · rw [decide_eq_false hnext, hsum, if_neg (by omega)]
        rfl

theorem size_writeFinalFile (file : Option FinalFile) :
    (file.map fun found => found.bytes.length).getD 0 ≤
      size (writeFinalFile file) := by
  cases file with
  | none => exact Nat.zero_le _
  | some file =>
      have hbytes : size (writeBytes file.bytes) = 4 + file.bytes.length := by
        simp [size, canonical, Write.canonical, writeBytes]
      simp [writeFinalFile, hbytes]
      omega

theorem sumBytes_le_size (operations : List PatchOperation) :
    sumBytes operations ≤ size (operations.flatMap writeOperation) := by
  induction operations with
  | nil => exact Nat.le_refl 0
  | cons operation rest ih =>
      have hfile := size_writeFinalFile operation.finalFile
      simp only [sumBytes, List.map_cons, List.sum_cons, List.flatMap_cons,
        size_append, PatchOperation.finalBytes, writeOperation] at ih ⊢
      omega

section Fits

variable {workspaceId : WorkspaceId} {generation : Generation}
  {revision : RevisionNumber} {operations : List PatchOperation}
  {sha256 : List UInt8 → Sha256Digest} {identity : Sha256Digest}

/-- An encoded list of operations is within the bounds the constructor checks
before it sorts them. -/
theorem bounds_of_canonicalIdentity
    (h : canonicalIdentity workspaceId generation revision operations sha256 =
      .ok identity) :
    operations.length ≤ u64Max ∧ sumBytes operations ≤ u64Max := by
  unfold canonicalIdentity at h
  split at h
  · next writer hwritten =>
      obtain ⟨hbytes, hadmitted⟩ := perform_eq_ok hwritten
      have hlength := (fits_of_perform hwritten (fits_nil _)).payload
      constructor
      · unfold identityPayload writeList at hadmitted
        rw [admitted_append, admitted_append] at hadmitted
        have hcount := hadmitted.2.1.1
        exact hcount.trans (by decide)
      · have hsize : writer.bytes.length =
            size (identityPayload workspaceId generation revision
              operations) := by
          rw [hbytes]
          rfl
        have hsum := sumBytes_le_size operations
        rw [hsize] at hlength
        simp only [identityPayload, writeList, size_append, CanonicalWriter.new,
          localRecordCodecLimits] at hlength
        omega
  · cases h

end Fits

/-! ### Sorted operations -/

section Sorted

variable {operations others : List PatchOperation}

theorem perm_sortByPath (operations : List PatchOperation) :
    (sortByPath operations).Perm operations :=
  List.mergeSort_perm _ _

theorem pairwise_sortByPath (operations : List PatchOperation) :
    (sortByPath operations).Pairwise fun left right =>
      left.path ≤ right.path := by
  have hsorted : (sortByPath operations).Pairwise fun left right =>
      decide (left.path ≤ right.path) = true := by
    apply List.pairwise_mergeSort
    · intro a b c hab hbc
      simp only [decide_eq_true_eq] at hab hbc ⊢
      exact hab.trans hbc
    · intro a b
      simp only [Bool.or_eq_true, decide_eq_true_eq]
      exact le_total a.path b.path
  exact hsorted.imp of_decide_eq_true

theorem perm_sortByPath_of_perm (hperm : others.Perm operations) :
    (sortByPath others).Perm (sortByPath operations) :=
  (perm_sortByPath others).trans
    (hperm.trans (perm_sortByPath operations).symm)

/-- The sorted targets do not depend on the order they were given in. -/
theorem map_path_sortByPath (hperm : others.Perm operations) :
    (sortByPath others).map (·.path) =
      (sortByPath operations).map (·.path) := by
  have hleft : ((sortByPath others).map (·.path)).Pairwise (· ≤ ·) :=
    List.pairwise_map.mpr (pairwise_sortByPath others)
  have hright : ((sortByPath operations).map (·.path)).Pairwise (· ≤ ·) :=
    List.pairwise_map.mpr (pairwise_sortByPath operations)
  exact List.Perm.eq_of_pairwise (fun _ _ _ _ => le_antisymm) hleft hright
    ((perm_sortByPath_of_perm hperm).map _)

theorem sortByPath_eq (hnodup : (operations.map (·.path)).Nodup)
    (hperm : others.Perm operations) :
    sortByPath others = sortByPath operations := by
  refine List.Perm.eq_of_pairwise ?_ (pairwise_sortByPath others)
    (pairwise_sortByPath operations) (perm_sortByPath_of_perm hperm)
  intro left right hleft hright hle hge
  have hleft' := hperm.mem_iff.mp ((perm_sortByPath others).mem_iff.mp hleft)
  have hright' := (perm_sortByPath operations).mem_iff.mp hright
  exact List.inj_on_of_nodup_map hnodup hleft' hright' (le_antisymm hle hge)

theorem checkTargets_congr (hpaths : others.map (·.path) =
    operations.map (·.path)) : checkTargets others = checkTargets operations := by
  induction others generalizing operations with
  | nil =>
      rw [List.map_eq_nil_iff.mp hpaths.symm]
  | cons left others ih =>
      cases operations with
      | nil => cases hpaths
      | cons left' operations =>
          obtain ⟨hleft, hrest⟩ := List.cons.inj hpaths
          cases others with
          | nil => rw [List.map_eq_nil_iff.mp hrest.symm]; rfl
          | cons right others =>
              cases operations with
              | nil => cases hrest
              | cons right' operations =>
                  obtain ⟨hright, -⟩ := List.cons.inj hrest
                  dsimp only at hleft hright
                  unfold checkTargets
                  rw [ih hrest, hleft, hright]

theorem isChain_and_iff {α : Type*} {R S : α → α → Prop} {values : List α} :
    (values.IsChain fun left right => R left right ∧ S left right) ↔
      values.IsChain R ∧ values.IsChain S := by
  constructor
  · intro h
    exact ⟨h.imp fun _ _ h => h.1, h.imp fun _ _ h => h.2⟩
  · rintro ⟨hR, hS⟩
    induction hR with
    | nil => exact .nil
    | singleton a => exact .singleton a
    | cons_cons hhead _ ih =>
        rw [List.isChain_cons_cons] at hS
        exact .cons_cons ⟨hhead, hS.1⟩ (ih hS.2)

theorem checkTargets_eq_ok_iff : checkTargets operations = .ok () ↔
    (operations.map (·.path)).IsChain fun left right =>
      left ≠ right ∧ ¬ Extends separator left.chars right.chars := by
  induction operations with
  | nil => simp [checkTargets]
  | cons left operations ih =>
      cases operations with
      | nil => simp [checkTargets]
      | cons right operations =>
          simp only [List.map_cons, List.isChain_cons_cons] at ih ⊢
          unfold checkTargets
          rw [ensure_bind_eq_ok_iff, ensure_bind_eq_ok_iff, ih]
          simp only [Bool.not_eq_true', beq_eq_false_iff_ne, ne_eq,
            ← WorkspacePath.isAncestorOf_iff, Bool.not_eq_true, and_assoc]

/-- Sorted operations pass the check if their targets differ and no target is
above its neighbour. -/
theorem checkTargets_sortByPath_iff :
    checkTargets (sortByPath operations) = .ok () ↔
      (operations.map (·.path)).Nodup ∧
        ∀ target ∈ operations, (∃ lower ∈ operations,
            ProperAncestor target.path lower.path) →
          ∃ other ∈ operations,
            Undercuts separator target.path.chars other.path.chars := by
  have hperm := perm_sortByPath operations
  have hsorted := pairwise_sortByPath operations
  have hchain : checkTargets (sortByPath operations) = .ok () ↔
      ((sortByPath operations).map (·.path)).Pairwise (· < ·) ∧
      ((sortByPath operations).map (·.path)).IsChain fun left right =>
        ¬ Extends separator left.chars right.chars := by
    rw [checkTargets_eq_ok_iff, isChain_and_iff]
    apply and_congr_left
    intro _
    rw [← List.isChain_iff_pairwise]
    have hle : ((sortByPath operations).map (·.path)).IsChain (· ≤ ·) :=
      (List.pairwise_map.mpr hsorted).isChain
    constructor
    · intro hne
      exact (isChain_and_iff.mpr ⟨hle, hne⟩).imp fun _ _ h =>
        lt_of_le_of_ne h.1 h.2
    · intro hlt
      exact hlt.imp fun _ _ h => ne_of_lt h
  have hstrict : ((sortByPath operations).map (·.path)).Pairwise (· < ·) ↔
      (operations.map (·.path)).Nodup := by
    rw [← (hperm.map _).nodup_iff]
    constructor
    · intro hlt
      exact hlt.imp fun h => ne_of_lt h
    · intro hne
      exact (List.pairwise_and_iff.mpr
        ⟨List.pairwise_map.mpr hsorted, hne⟩).imp
          fun h => lt_of_le_of_ne h.1 h.2
  rw [hchain, ← hstrict]
  apply and_congr_right
  intro hlt
  have hwords : (((sortByPath operations).map (·.path)).map
      WorkspacePath.chars).Pairwise (· < ·) := by
    rw [List.pairwise_map]
    exact hlt.imp fun h => WorkspacePath.lt_iff.mp h
  have hcontinued := isChain_not_extends_iff separator hwords
  rw [List.isChain_map] at hcontinued
  rw [hcontinued]
  simp only [List.map_map, List.mem_map, hperm.mem_iff, Function.comp_apply,
    forall_exists_index, and_imp, forall_apply_eq_imp_iff₂,
    exists_exists_and_eq_and, properAncestor_iff]

end Sorted

/-! ### Targets -/

section Targets

variable (sha256 : List UInt8 → Sha256Digest) (workspaceId : WorkspaceId)
  (generation : Generation) (revision : RevisionNumber)

/-- The operations fit the codec limits in both records that carry them. -/
def Fits (operations : List PatchOperation) : Prop :=
  ∃ identity, canonicalIdentity workspaceId generation revision
      (sortByPath operations) sha256 = .ok identity ∧
    ∀ directories, patchDirectories (sortByPath operations) = .ok directories →
      ∃ bytes, (Manifest.fromPatch
        ⟨workspaceId, generation, revision, sortByPath operations, identity⟩
        (orderDirectories directories)).encode sha256 = .ok bytes

/-- Some targets, all different, and none above another. -/
def NoConflict (operations : List PatchOperation) : Prop :=
  operations ≠ [] ∧ (operations.map (·.path)).Nodup ∧
    ∀ target ∈ operations, ∀ other ∈ operations,
      ¬ ProperAncestor target.path other.path

/-- The constructor accepts exactly the lists without a conflict, and whatever
it answers does not depend on the order of the list. -/
def JudgesTargets (operations : List PatchOperation) : Prop :=
  ((∃ patch, PatchSet.new sha256 workspaceId generation revision operations =
      .ok patch) ↔ NoConflict operations) ∧
    ∀ others, others.Perm operations →
      PatchSet.new sha256 workspaceId generation revision others =
        PatchSet.new sha256 workspaceId generation revision operations

/-- Different targets of which some is above another have one above another
that no target goes on from with a character below the slash. -/
def Exposed (operations : List PatchOperation) : Prop :=
  (operations.map (·.path)).Nodup →
    (∃ target ∈ operations, ∃ lower ∈ operations,
      ProperAncestor target.path lower.path) →
    ∃ target ∈ operations,
      (∃ lower ∈ operations, ProperAncestor target.path lower.path) ∧
        ∀ other ∈ operations,
          ¬ Undercuts separator target.path.chars other.path.chars

variable {sha256 workspaceId generation revision}
  {operations others : List PatchOperation}

theorem new_of_fits
    (hfits : Fits sha256 workspaceId generation revision operations) :
    (∃ patch, PatchSet.new sha256 workspaceId generation revision operations =
      .ok patch) ↔
      operations ≠ [] ∧ checkTargets (sortByPath operations) = .ok () := by
  obtain ⟨identity, hidentity, hmanifest⟩ := hfits
  obtain ⟨directories, hdirectories⟩ :=
    exists_patchDirectories (sortByPath operations)
  obtain ⟨bytes, hbytes⟩ := hmanifest directories hdirectories
  obtain ⟨hcount, hsum⟩ := bounds_of_canonicalIdentity hidentity
  have hperm := perm_sortByPath operations
  have hcapacity : validatePatchManifestCapacity sha256 ⟨workspaceId,
      generation, revision, sortByPath operations, identity⟩ = .ok () := by
    simp only [validatePatchManifestCapacity, mapError_eq_ok_iff,
      validatePatchCapacity, bind_eq_ok_iff]
    exact ⟨directories, hdirectories, bytes, hbytes, trivial⟩
  have hbytes : sumBytes operations ≤ u64Max := by
    have heq : sumBytes (sortByPath operations) = sumBytes operations :=
      (hperm.map _).sum_nat
    rw [← heq]
    exact hsum
  have htotal : totalBytes 0 operations = .ok (sumBytes operations) := by
    rw [totalBytes_eq operations (Nat.zero_le _), Nat.zero_add, if_pos hbytes]
  have hlength : operations.length ≤ u64Max := by
    rw [← hperm.length_eq]
    exact hcount
  have hbounds : patchBoundsValid operations.length (sumBytes operations) u64Max
      u64Max = true ↔ operations ≠ [] := by
    simp only [patchBoundsValid, decide_eq_true hlength,
      decide_eq_true hbytes, Bool.and_true, decide_eq_true_eq,
      List.length_pos_iff]
  constructor
  · rintro ⟨patch, hpatch⟩
    unfold PatchSet.new at hpatch
    rw [htotal] at hpatch
    obtain ⟨_, htotal, hpatch⟩ := bind_eq_ok_iff.mp hpatch
    obtain ⟨hvalid, hpatch⟩ := ensure_bind_eq_ok_iff.mp hpatch
    obtain ⟨hchecked, -⟩ := check_bind_eq_ok_iff.mp hpatch
    cases htotal
    exact ⟨hbounds.mp hvalid, hchecked⟩
  · rintro ⟨hnonempty, hchecked⟩
    refine ⟨⟨workspaceId, generation, revision, sortByPath operations,
      identity⟩, ?_⟩
    refine bind_eq_ok_iff.mpr ⟨_, htotal, ?_⟩
    refine ensure_bind_eq_ok_iff.mpr ⟨hbounds.mpr hnonempty, ?_⟩
    refine check_bind_eq_ok_iff.mpr ⟨hchecked, ?_⟩
    refine bind_eq_ok_iff.mpr ⟨identity, hidentity, ?_⟩
    exact check_bind_eq_ok_iff.mpr ⟨hcapacity, rfl⟩

/-- A list with a repeated target is refused at the same pair in every order;
any other list sorts to the same operations. -/
theorem new_perm (hperm : others.Perm operations) :
    PatchSet.new sha256 workspaceId generation revision others =
      PatchSet.new sha256 workspaceId generation revision operations := by
  have htotal : totalBytes 0 others = totalBytes 0 operations := by
    have hsum : sumBytes others = sumBytes operations := (hperm.map _).sum_nat
    rw [totalBytes_eq others (Nat.zero_le _),
      totalBytes_eq operations (Nat.zero_le _), hsum]
  have hpaths := map_path_sortByPath hperm
  have hchecks := checkTargets_congr hpaths
  unfold PatchSet.new
  rw [htotal, hperm.length_eq]
  apply bind_congr_of_ok
  intro total _
  apply bind_congr_of_ok
  intro _ _
  dsimp only
  rw [hchecks]
  apply bind_congr_of_ok
  intro checked hchecked
  have hsorted : sortByPath others = sortByPath operations :=
    sortByPath_eq (checkTargets_sortByPath_iff.mp hchecked).1 hperm
  rw [hsorted]

/-- The constructor judges a list of targets as it should exactly if the
neighbours of the sorted list show the conflict there is. -/
theorem target_conflicts
    (hfits : Fits sha256 workspaceId generation revision operations) :
    JudgesTargets sha256 workspaceId generation revision operations ↔
      Exposed operations := by
  unfold JudgesTargets NoConflict
  rw [new_of_fits hfits, checkTargets_sortByPath_iff]
  constructor
  · rintro ⟨hjudges, -⟩ hnodup ⟨target, htarget, lower, hlower, habove⟩
    by_contra hhidden
    push Not at hhidden
    have haccepted := hjudges.mp
      ⟨List.ne_nil_of_mem htarget, hnodup, hhidden⟩
    exact haccepted.2.2 target htarget lower hlower habove
  · intro hexposed
    refine ⟨⟨?_, ?_⟩, fun others hperm => new_perm hperm⟩
    · rintro ⟨hnonempty, hnodup, hundercut⟩
      refine ⟨hnonempty, hnodup, ?_⟩
      intro target htarget lower hlower habove
      obtain ⟨shown, hshown, hlower, hnone⟩ :=
        hexposed hnodup ⟨target, htarget, lower, hlower, habove⟩
      obtain ⟨other, hother, hunder⟩ := hundercut shown hshown hlower
      exact hnone other hother hunder
    · rintro ⟨hnonempty, hnodup, hclear⟩
      refine ⟨hnonempty, hnodup, ?_⟩
      rintro target htarget ⟨lower, hlower, habove⟩
      exact absurd habove (hclear target htarget lower hlower)

end Targets

/-! ### A directory, a name beside it, and a file below it -/

def smallFile : FinalFile := ⟨[], .ofNat 0, 0, .regular, .preserve⟩

def smallPath : WorkspacePath := ⟨"a", by decide +kernel⟩

def besidePath : WorkspacePath := ⟨"a!", by decide +kernel⟩

def belowPath : WorkspacePath := ⟨"a/b", by decide +kernel⟩

def smallOperations : List PatchOperation :=
  [.create smallPath smallFile, .create besidePath smallFile,
    .create belowPath smallFile]

def smallId : OpaqueIdentifier := .ofNat 1

def smallHash : List UInt8 → Sha256Digest := fun _ => .ofNat 0

theorem sortByPath_of_pairwise {operations : List PatchOperation}
    (hsorted : operations.Pairwise fun left right => left.path ≤ right.path) :
    sortByPath operations = operations := by
  apply List.mergeSort_of_pairwise
  exact hsorted.imp decide_eq_true

theorem sortByPath_smallOperations :
    sortByPath smallOperations = smallOperations :=
  sortByPath_of_pairwise (by decide +kernel)

theorem fits_smallOperations :
    Fits smallHash smallId .first .first smallOperations := by
  unfold Fits
  rw [sortByPath_smallOperations]
  have hidentity : canonicalIdentity smallId .first .first smallOperations
      smallHash = .ok ⟨0, by decide⟩ := by decide +kernel
  refine ⟨_, hidentity, ?_⟩
  intro directories hdirectories
  have hcomputed : patchDirectories smallOperations = .ok [smallPath] := by
    decide +kernel
  rw [hcomputed] at hdirectories
  cases hdirectories
  have horder : orderDirectories [smallPath] = [smallPath] := by
    simp [orderDirectories]
  rw [horder]
  apply exists_ok_of_toOption_isSome
  decide +kernel

theorem exposed_smallOperations : ¬ Exposed smallOperations := by
  intro hexposed
  have habove : ProperAncestor smallPath belowPath :=
    properAncestor_iff.mpr ⟨['b'], by decide +kernel⟩
  have hunder : Undercuts separator smallPath.chars besidePath.chars :=
    ⟨'!', [], by decide, by decide +kernel⟩
  have hnone : ∀ target ∈ smallOperations, target.path ≠ smallPath →
      ∀ lower ∈ smallOperations,
        target.path.isAncestorOf lower.path = false := by decide +kernel
  obtain ⟨target, htarget, ⟨lower, hlower, hlow⟩, hclear⟩ := hexposed
    (by decide +kernel) ⟨_, .head _, .create belowPath smallFile,
      .tail _ (.tail _ (.head _)), habove⟩
  by_cases hpath : target.path = smallPath
  · apply hclear (.create besidePath smallFile) (.tail _ (.head _))
    rw [hpath]
    exact hunder
  · have hfalse := hnone target htarget hpath lower hlower
    rw [properAncestor_iff, ← WorkspacePath.isAncestorOf_iff, hfalse] at hlow
    cases hlow

/-- The name beside the directory sorts between it and the file below it. -/
theorem accepted_ancestor_target : ¬ ∀ sha256 workspaceId generation revision
    operations, Fits sha256 workspaceId generation revision operations →
      JudgesTargets sha256 workspaceId generation revision operations := by
  intro hclaim
  have hjudges := (hclaim _ _ _ _ _ fits_smallOperations).1
  rw [new_of_fits fits_smallOperations, sortByPath_smallOperations] at hjudges
  have hclear := (hjudges.mp ⟨by decide +kernel, by decide +kernel⟩).2.2
  apply hclear _ (.head _) (.create belowPath smallFile)
    (.tail _ (.tail _ (.head _)))
  exact properAncestor_iff.mpr ⟨['b'], by decide +kernel⟩

theorem target_conflicts_of_hidden :
    ¬ JudgesTargets smallHash smallId .first .first smallOperations := by
  rw [target_conflicts fits_smallOperations]
  exact exposed_smallOperations

end Peritus.Patch.Conflicts
