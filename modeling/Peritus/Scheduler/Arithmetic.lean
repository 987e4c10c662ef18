import Peritus.Scheduler.Resource

/-!
Resource vectors as finite functions: a vector is determined by its quantities,
the checked sum adds them kind by kind, and subtraction takes the sum back.
-/

namespace Peritus.Scheduler.Arithmetic

open Peritus.Types SortedTable Limits Resource

/-! ### Subtraction -/

/-- The walk over the entries; `none` is an underflow, and an entry of which
nothing remains is dropped. -/
def subtractEntries (other : ResourceVector) :
    List ResourceEntry → Option (List ResourceEntry)
  | [] => some []
  | entry :: rest =>
      if entry.quantity.get < other.quantity entry.kind then none
      else if hzero : entry.quantity.get - other.quantity entry.kind = 0 then
        subtractEntries other rest
      else
        (subtractEntries other rest).map
          (⟨entry.kind, entry.quantity.get - other.quantity entry.kind,
            Nat.pos_of_ne_zero hzero,
            (Nat.sub_le _ _).trans entry.quantity.bound⟩ :: ·)

def hasZeroSentinel (left other : ResourceVector) : Bool :=
  other.entries.any fun entry => decide (left.quantity entry.kind = 0)

inductive VectorSubtraction
  | value (vector : ResourceVector)
  | exactZero
  | underflow
  | absentDimension

section Entries

variable {left other : ResourceVector} {entries remaining : List ResourceEntry}
variable {kind : ResourceKind}

theorem exists_of_mem_subtractEntries
    (h : subtractEntries other entries = some remaining) :
    ∀ entry ∈ remaining, ∃ before ∈ entries, before.kind = entry.kind := by
  induction entries generalizing remaining with
  | nil =>
      cases h
      exact List.forall_mem_nil _
  | cons head rest ih =>
      unfold subtractEntries at h
      split at h
      · cases h
      · split at h
        · intro entry hentry
          obtain ⟨before, hbefore, hkind⟩ := ih h entry hentry
          exact ⟨before, List.mem_cons_of_mem _ hbefore, hkind⟩
        · obtain ⟨kept, hkept, rfl⟩ := Option.map_eq_some_iff.mp h
          rintro entry hentry
          rcases List.mem_cons.mp hentry with rfl | hentry
          · exact ⟨head, List.mem_cons_self, rfl⟩
          · obtain ⟨before, hbefore, hkind⟩ := ih hkept entry hentry
            exact ⟨before, List.mem_cons_of_mem _ hbefore, hkind⟩

/-- Dropping entries and lowering quantities keeps the order. -/
theorem sorted_subtractEntries
    (h : subtractEntries other entries = some remaining)
    (hsorted : Sorted entryTag entries) : Sorted entryTag remaining := by
  induction entries generalizing remaining with
  | nil =>
      cases h
      exact List.Pairwise.nil
  | cons head rest ih =>
      obtain ⟨hhead, hrest⟩ := List.pairwise_cons.mp hsorted
      unfold subtractEntries at h
      split at h
      · cases h
      · split at h
        · exact ih h hrest
        · obtain ⟨kept, hkept, rfl⟩ := Option.map_eq_some_iff.mp h
          refine List.pairwise_cons.mpr ⟨?_, ih hkept hrest⟩
          intro entry hentry
          obtain ⟨before, hbefore, hkind⟩ :=
            exists_of_mem_subtractEntries hkept entry hentry
          have hlt := hhead before hbefore
          unfold entryTag at hlt ⊢
          rwa [hkind] at hlt

end Entries

def subtract (left other : ResourceVector) : VectorSubtraction :=
  match h : subtractEntries other left.entries with
  | none => .underflow
  | some entries =>
      if hasZeroSentinel left other then .absentDimension
      else if hempty : entries = [] then .exactZero
      else .value ⟨entries, hempty, sorted_subtractEntries h left.canonical⟩

/-- `none` is an exact zero. -/
def checkedSubtract (left other : ResourceVector) :
    Except SchedulerError (Option ResourceVector) :=
  match subtract left other with
  | .value vector => .ok (some vector)
  | .exactZero => .ok none
  | .underflow =>
      .error (reject .resourceConflict "resource subtraction underflowed")
  | .absentDimension =>
      .error (reject .resourceConflict
        "resource subtraction names an absent dimension")

/-! ### Vectors as functions -/

/-- The kinds a vector has a quantity of. -/
def kinds (vector : ResourceVector) : Finset ResourceKind :=
  (vector.entries.map ResourceEntry.kind).toFinset

section Functions

variable {left right sum vector other : ResourceVector} {kind : ResourceKind}
variable {entry : ResourceEntry} {maximumDimensions : Nat}

theorem mem_entries_iff : entry ∈ vector.entries ↔
    vector.quantity entry.kind = entry.quantity.get := by
  constructor
  · exact quantity_of_mem
  · intro h
    have hpositive := entry.quantity.positive
    rw [quantity_eq_amount] at h
    obtain ⟨found, hfound, hkind⟩ := exists_of_amount_ne_zero
      (show amount entry.kind vector.entries ≠ 0 by omega)
    have hget := quantity_of_mem hfound
    rw [quantity_eq_amount, hkind, h] at hget
    obtain ⟨foundKind, foundGet, _, _⟩ := found
    obtain ⟨entryKind, entryGet, _, _⟩ := entry
    dsimp only at hkind hget
    subst hkind
    subst hget
    exact hfound

/-- A canonical vector is determined by its quantities. -/
theorem ext_quantity (h : ∀ kind, left.quantity kind = right.quantity kind) :
    left = right := by
  apply ResourceVector.ext
  apply left.canonical.ext right.canonical
  intro entry
  rw [mem_entries_iff, mem_entries_iff, h]

theorem mem_kinds_iff : kind ∈ kinds vector ↔ vector.quantity kind ≠ 0 := by
  rw [kinds, List.mem_toFinset, List.mem_map]
  constructor
  · rintro ⟨entry, hentry, rfl⟩
    rw [quantity_of_mem hentry]
    exact Nat.ne_of_gt entry.quantity.positive
  · intro h
    rw [quantity_eq_amount] at h
    exact exists_of_amount_ne_zero h

theorem card_kinds : (kinds vector).card = vector.entries.length := by
  have hdistinct : (vector.entries.map ResourceEntry.kind).Nodup := by
    have htags : ((vector.entries.map ResourceEntry.kind).map
        ResourceKind.tag).Nodup := by
      rw [List.map_map]
      exact vector.canonical.nodup_map
    exact htags.of_map _
  rw [kinds, List.toFinset_card_of_nodup hdistinct, List.length_map]

theorem kinds_of_sum (h : ∀ kind, sum.quantity kind =
    left.quantity kind + right.quantity kind) :
    kinds sum = kinds left ∪ kinds right := by
  ext kind
  rw [Finset.mem_union, mem_kinds_iff, mem_kinds_iff, mem_kinds_iff, h]
  omega

/-! ### The checked sum -/

/-- The outcome of a checked sum, by the quantities alone. -/
theorem checkedAdd_cases (left right : ResourceVector)
    (maximumDimensions : Nat) :
    ((∃ kind, u64Max < left.quantity kind + right.quantity kind) ∧
      left.checkedAdd right maximumDimensions =
        .error (reject .resourceConflict "resource addition overflowed")) ∨
    ((∀ kind, left.quantity kind + right.quantity kind ≤ u64Max) ∧
      maximumDimensions < (kinds left ∪ kinds right).card ∧
      left.checkedAdd right maximumDimensions =
        .error (reject .limitExceeded
          "resource vector is empty or exceeds its dimension bound")) ∨
    ((∀ kind, left.quantity kind + right.quantity kind ≤ u64Max) ∧
      (kinds left ∪ kinds right).card ≤ maximumDimensions ∧
      ∃ sum, left.checkedAdd right maximumDimensions = .ok sum ∧
        ∀ kind, sum.quantity kind =
          left.quantity kind + right.quantity kind) := by
  cases hmerge : mergeEntries left.entries right.entries with
  | none =>
      left
      obtain ⟨kind, hlarge⟩ := exists_of_mergeEntries_none hmerge
      refine ⟨⟨kind, ?_⟩, ?_⟩
      · rwa [quantity_eq_amount, quantity_eq_amount]
      · unfold ResourceVector.checkedAdd add
        split
        · rename_i hadd
          split at hadd
          · cases hadd
          · rename_i hsome
            rw [hmerge] at hsome
            cases hsome
        · rfl
        · rename_i hadd
          split at hadd
          · cases hadd
          · rename_i hsome
            rw [hmerge] at hsome
            cases hsome
  | some entries =>
      right
      obtain ⟨sum, rfl⟩ : ∃ sum : ResourceVector, sum.entries = entries :=
        ⟨⟨entries, nonempty_mergeEntries hmerge left.nonempty,
          sorted_mergeEntries hmerge left.canonical right.canonical⟩, rfl⟩
      have hsum : ∀ kind, sum.quantity kind =
          left.quantity kind + right.quantity kind := by
        intro kind
        rw [quantity_eq_amount, quantity_eq_amount, quantity_eq_amount]
        exact amount_mergeEntries hmerge
      have hbound : ∀ kind,
          left.quantity kind + right.quantity kind ≤ u64Max := by
        intro kind
        rw [← hsum]
        exact ResourceVector.quantity_le_u64Max kind
      have hcard : (kinds left ∪ kinds right).card = sum.entries.length := by
        rw [← kinds_of_sum hsum, card_kinds]
      rw [hcard]
      rcases Nat.lt_or_ge maximumDimensions sum.entries.length with hlarge | hfits
      · refine .inl ⟨hbound, hlarge, ?_⟩
        unfold ResourceVector.checkedAdd
        have hadd : add left right maximumDimensions = .limitExceeded := by
          unfold add
          split
          · rename_i hnone
            rw [hmerge] at hnone
            cases hnone
          · rename_i found hfound
            obtain rfl : sum.entries = found :=
              Option.some.inj (hmerge.symm.trans hfound)
            exact if_pos hlarge
        rw [hadd]
      · refine .inr ⟨hbound, hfits, sum, ?_, hsum⟩
        unfold ResourceVector.checkedAdd
        rw [ResourceVector.add_eq_value hmerge hfits]

/-! ### Taking the sum back -/

theorem exists_subtractEntries {entries : List ResourceEntry}
    (hle : ∀ entry ∈ entries, other.quantity entry.kind ≤ entry.quantity.get) :
    ∃ remaining, subtractEntries other entries = some remaining := by
  induction entries with
  | nil => exact ⟨[], rfl⟩
  | cons head rest ih =>
      obtain ⟨hhead, hrest⟩ := List.forall_mem_cons.mp hle
      obtain ⟨remaining, hremaining⟩ := ih hrest
      rw [subtractEntries, if_neg (Nat.not_lt.mpr hhead), hremaining]
      split
      · exact ⟨_, rfl⟩
      · exact ⟨_, rfl⟩

theorem amount_subtractEntries {entries remaining : List ResourceEntry}
    (h : subtractEntries other entries = some remaining)
    (hsorted : Sorted entryTag entries) :
    amount kind remaining = amount kind entries - other.quantity kind := by
  induction entries generalizing remaining with
  | nil =>
      cases h
      exact (Nat.zero_sub _).symm
  | cons head rest ih =>
      obtain ⟨hhead, hrest⟩ := List.pairwise_cons.mp hsorted
      have hlast : head.kind = kind → amount kind rest = 0 := by
        intro hkind
        by_contra hne
        obtain ⟨later, hlater, hsame⟩ := exists_of_amount_ne_zero hne
        have hlt := hhead later hlater
        unfold entryTag at hlt
        rw [hkind, hsame] at hlt
        exact Nat.lt_irrefl _ hlt
      unfold subtractEntries at h
      split at h
      · cases h
      · split at h
        · rename_i hzero
          rw [ih h hrest, amount_cons]
          split
          · rename_i hkind
            rw [hlast hkind, ← hkind]
            omega
          · omega
        · obtain ⟨kept, hkept, rfl⟩ := Option.map_eq_some_iff.mp h
          rw [amount_cons, amount_cons, ih hkept hrest]
          dsimp only
          split
          · rename_i hkind
            rw [hlast hkind, ← hkind]
            omega
          · omega

theorem checkedSubtract_of_sum (h : ∀ kind, sum.quantity kind =
    left.quantity kind + right.quantity kind) :
    checkedSubtract sum right = .ok (some left) := by
  have hle : ∀ entry ∈ sum.entries, right.quantity entry.kind ≤ entry.quantity.get := by
    intro entry hentry
    rw [← quantity_of_mem hentry, h]
    exact Nat.le_add_left _ _
  obtain ⟨remaining, hremaining⟩ := exists_subtractEntries hle
  have hamount : ∀ kind, amount kind remaining = left.quantity kind := by
    intro kind
    rw [amount_subtractEntries hremaining sum.canonical, ← quantity_eq_amount, h]
    exact Nat.add_sub_cancel _ _
  have hnonempty : remaining ≠ [] := by
    obtain ⟨entry, hentry⟩ := List.exists_mem_of_ne_nil _ left.nonempty
    rintro rfl
    have hzero := hamount entry.kind
    rw [amount_nil, quantity_of_mem hentry] at hzero
    exact absurd hzero.symm (Nat.ne_of_gt entry.quantity.positive)
  have hpresent : hasZeroSentinel sum right = false := by
    unfold hasZeroSentinel
    rw [List.any_eq_false]
    intro entry hentry
    rw [decide_eq_true_eq, h, quantity_of_mem hentry]
    have hpositive := entry.quantity.positive
    omega
  have hvalue : subtract sum right = .value left := by
    unfold subtract
    split
    · rename_i hnone
      rw [hremaining] at hnone
      cases hnone
    · rename_i entries hentries
      obtain rfl : remaining = entries :=
        Option.some.inj (hremaining.symm.trans hentries)
      rw [hpresent, dif_neg hnonempty]
      refine congrArg VectorSubtraction.value (ext_quantity fun kind => ?_)
      rw [quantity_eq_amount]
      exact hamount kind
  rw [checkedSubtract, hvalue]

/-- The checked sum is a commutative partial sum of functions, defined within
the limits, and subtraction inverts it. -/
theorem checkedAdd_algebra (left right : ResourceVector)
    (maximumDimensions : Nat) :
    (∀ sum, left.checkedAdd right maximumDimensions = .ok sum →
      Sorted entryTag sum.entries ∧
        (∀ entry ∈ sum.entries, 0 < entry.quantity.get) ∧
        sum.entries.length ≤ maximumDimensions ∧
        kinds sum = kinds left ∪ kinds right ∧
        (∀ kind, sum.quantity kind =
          left.quantity kind + right.quantity kind) ∧
        checkedSubtract sum right = .ok (some left)) ∧
    left.checkedAdd right maximumDimensions =
      right.checkedAdd left maximumDimensions ∧
    ((∃ error, left.checkedAdd right maximumDimensions = .error error) ↔
      (∃ kind, u64Max < left.quantity kind + right.quantity kind) ∨
        maximumDimensions < (kinds left ∪ kinds right).card) := by
  refine ⟨?_, ?_, ?_⟩
  · intro sum hsum
    rcases checkedAdd_cases left right maximumDimensions with
      ⟨_, herror⟩ | ⟨_, _, herror⟩ | ⟨_, hcard, found, hfound, hquantity⟩
    · cases hsum.symm.trans herror
    · cases hsum.symm.trans herror
    · obtain rfl : sum = found := Except.ok.inj (hsum.symm.trans hfound)
      have hkinds := kinds_of_sum hquantity
      refine ⟨sum.canonical, fun entry _ => entry.quantity.positive, ?_, hkinds,
        hquantity, checkedSubtract_of_sum hquantity⟩
      rwa [← card_kinds, hkinds]
  · have hcomm : ∀ kind, left.quantity kind + right.quantity kind =
        right.quantity kind + left.quantity kind := fun _ => Nat.add_comm _ _
    have hunion := Finset.union_comm (kinds left) (kinds right)
    rcases checkedAdd_cases left right maximumDimensions with
      ⟨⟨kind, hover⟩, hleft⟩ | ⟨hbound, hcard, hleft⟩ |
        ⟨hbound, hcard, sum, hleft, hsum⟩
    all_goals
      rcases checkedAdd_cases right left maximumDimensions with
        ⟨⟨kind', hover'⟩, hright⟩ | ⟨hbound', hcard', hright⟩ |
          ⟨hbound', hcard', sum', hright, hsum'⟩
      all_goals
        rw [hleft, hright]
    · have := hbound' kind
      omega
    · have := hbound' kind
      omega
    · have := hbound kind'
      omega
    · rw [hunion] at hcard
      omega
    · have := hbound kind'
      omega
    · rw [hunion] at hcard
      omega
    · refine congrArg Except.ok (ext_quantity fun kind => ?_)
      rw [hsum, hsum', hcomm]
  · rcases checkedAdd_cases left right maximumDimensions with
      ⟨hover, herror⟩ | ⟨_, hcard, herror⟩ | ⟨hbound, hcard, sum, hsum, _⟩
    · exact iff_of_true ⟨_, herror⟩ (.inl hover)
    · exact iff_of_true ⟨_, herror⟩ (.inr hcard)
    · refine iff_of_false ?_ ?_
      · rintro ⟨error, herror⟩
        cases hsum.symm.trans herror
      · rintro (⟨kind, hover⟩ | hlarge)
        · exact absurd (hbound kind) (Nat.not_le.mpr hover)
        · omega

end Functions

end Peritus.Scheduler.Arithmetic
