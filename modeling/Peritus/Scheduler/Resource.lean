import Peritus.Collections
import Peritus.SortedTable
import Peritus.Scheduler.Limits

/-!
Resource vectors: positive quantities in strictly ascending kind order, their
checked sum and their fit within a capacity.
-/

namespace Peritus.Scheduler.Resource

open Peritus.Types Collections SortedTable Limits

@[ext]
structure ResourceKind where
  tag : Nat
  nonzero : tag ≠ 0
  bound : tag ≤ 65535

instance : DecidableEq ResourceKind := fun _ _ =>
  decidable_of_iff _ ResourceKind.ext_iff.symm

theorem ResourceKind.one_bound : 1 ≤ 65535 := by decide

def ResourceKind.ofNat (tag : Nat) : ResourceKind :=
  if h : tag ≠ 0 ∧ tag ≤ 65535 then ⟨tag, h.1, h.2⟩
  else ⟨1, Nat.one_ne_zero, one_bound⟩

def ResourceKind.new (tag : Nat) (hbound : tag ≤ 65535) :
    Except SchedulerError ResourceKind :=
  if h : tag = 0 then .error (reject .invalidInput "resource-kind tag is zero")
  else .ok ⟨tag, h, hbound⟩

theorem ResourceKind.new_self (kind : ResourceKind) :
    new kind.tag kind.bound = .ok kind :=
  dif_neg kind.nonzero

theorem ResourceKind.tag_of_new {tag : Nat} {hbound : tag ≤ 65535}
    {kind : ResourceKind} (h : new tag hbound = .ok kind) : kind.tag = tag := by
  unfold new at h
  split at h
  · cases h
  · cases h
    rfl

@[ext]
structure ResourceQuantity where
  get : Nat
  positive : 0 < get
  bound : get ≤ u64Max

instance : DecidableEq ResourceQuantity := fun _ _ =>
  decidable_of_iff _ ResourceQuantity.ext_iff.symm

def ResourceQuantity.ofNat (value : Nat) : ResourceQuantity :=
  ⟨(PositiveNumber.ofNat value).get, (PositiveNumber.ofNat value).positive,
    (PositiveNumber.ofNat value).bound⟩

def ResourceQuantity.new (value : Nat) (hbound : value ≤ u64Max) :
    Except SchedulerError ResourceQuantity :=
  if h : value = 0 then .error (reject .invalidInput "resource quantity is zero")
  else .ok ⟨value, Nat.pos_of_ne_zero h, hbound⟩

theorem ResourceQuantity.new_self (quantity : ResourceQuantity) :
    new quantity.get quantity.bound = .ok quantity :=
  dif_neg (Nat.ne_of_gt quantity.positive)

theorem ResourceQuantity.get_of_new {value : Nat} {hbound : value ≤ u64Max}
    {quantity : ResourceQuantity} (h : new value hbound = .ok quantity) :
    quantity.get = value := by
  unfold new at h
  split at h
  · cases h
  · cases h
    rfl

structure ResourceEntry where
  kind : ResourceKind
  quantity : ResourceQuantity
deriving DecidableEq

def entryTag (entry : ResourceEntry) : Nat :=
  entry.kind.tag

@[ext]
structure ResourceVector where
  entries : List ResourceEntry
  nonempty : entries ≠ []
  canonical : Sorted entryTag entries
deriving DecidableEq

/-! ### Quantities -/

/-- The binary search for the quantity of one kind. -/
def indexedQuantity (entries : List ResourceEntry) (kind : ResourceKind) :
    Nat → Nat → Nat → Nat
  | 0, _, _ => 0
  | steps + 1, low, high =>
      if low < high then
        let middle := low + (high - low) / 2
        match entries[middle]? with
        | none => 0
        | some observed =>
            if observed.kind.tag = kind.tag then observed.quantity.get
            else if observed.kind.tag < kind.tag then
              indexedQuantity entries kind steps (middle + 1) high
            else indexedQuantity entries kind steps low middle
      else 0

def ResourceVector.quantity (vector : ResourceVector) (kind : ResourceKind) :
    Nat :=
  indexedQuantity vector.entries kind vector.entries.length 0
    vector.entries.length

def fitsFrom (capacity : ResourceVector) : List ResourceEntry → Bool
  | [] => true
  | entry :: rest =>
      decide (entry.quantity.get ≤ capacity.quantity entry.kind) &&
        fitsFrom capacity rest

def ResourceVector.fitsWithin (vector capacity : ResourceVector) : Bool :=
  fitsFrom capacity vector.entries

/-- What the entries of one kind add up to. -/
def amount (kind : ResourceKind) (entries : List ResourceEntry) : Nat :=
  (entries.map fun entry =>
    if entry.kind = kind then entry.quantity.get else 0).sum

section Quantity

variable {kind : ResourceKind} {entries : List ResourceEntry}
variable {entry : ResourceEntry}

@[simp] theorem amount_nil : amount kind [] = 0 := rfl

theorem amount_cons : amount kind (entry :: entries) =
    (if entry.kind = kind then entry.quantity.get else 0)
      + amount kind entries := by
  unfold amount
  rw [List.map_cons, List.sum_cons]

theorem le_amount (hmem : entry ∈ entries) :
    entry.quantity.get ≤ amount entry.kind entries := by
  have hle := le_sum_map
    (w := fun e : ResourceEntry =>
      if e.kind = entry.kind then e.quantity.get else 0) hmem
  unfold amount
  simpa only [if_true] using hle

theorem exists_of_amount_ne_zero (hne : amount kind entries ≠ 0) :
    ∃ entry ∈ entries, entry.kind = kind := by
  by_contra hnone
  push Not at hnone
  refine hne (sum_map_eq_zero fun entry hentry => ?_)
  exact if_neg (hnone entry hentry)

theorem amount_of_mem (hsorted : Sorted entryTag entries)
    (hmem : entry ∈ entries) :
    amount entry.kind entries = entry.quantity.get := by
  induction entries with
  | nil => cases hmem
  | cons head rest ih =>
      obtain ⟨hhead, htail⟩ := List.pairwise_cons.mp hsorted
      rw [amount_cons]
      rcases List.mem_cons.mp hmem with rfl | hrest
      · have hzero : amount entry.kind rest = 0 := by
          by_contra hne
          obtain ⟨other, hother, hkind⟩ := exists_of_amount_ne_zero hne
          have hlt := hhead other hother
          unfold entryTag at hlt
          rw [hkind] at hlt
          exact absurd hlt (Nat.lt_irrefl _)
        rw [if_pos rfl, hzero, Nat.add_zero]
      · have hne : head.kind ≠ entry.kind := fun hkind => by
          have hlt := hhead entry hrest
          unfold entryTag at hlt
          rw [hkind] at hlt
          exact absurd hlt (Nat.lt_irrefl _)
        rw [if_neg hne, Nat.zero_add, ih htail hrest]

/-- Every entry of the kind lies in the window the search keeps. -/
theorem indexedQuantity_eq (hsorted : Sorted entryTag entries)
    (steps low high : Nat) (hsteps : high - low ≤ steps)
    (hhigh : high ≤ entries.length)
    (hwindow : ∀ i entry, entries[i]? = some entry → entry.kind = kind →
      low ≤ i ∧ i < high) :
    indexedQuantity entries kind steps low high = amount kind entries := by
  have hempty : high ≤ low → amount kind entries = 0 := by
    intro hle
    by_contra hne
    obtain ⟨entry, hentry, hkind⟩ := exists_of_amount_ne_zero hne
    obtain ⟨i, hi⟩ := List.mem_iff_getElem?.mp hentry
    have hin := hwindow i entry hi hkind
    omega
  induction steps generalizing low high with
  | zero => exact (hempty (by omega)).symm
  | succ steps ih =>
      unfold indexedQuantity
      split
      · rename_i hlt
        have hmiddle : low + (high - low) / 2 < entries.length := by omega
        obtain ⟨observed, hget⟩ : ∃ observed,
            entries[low + (high - low) / 2]? = some observed :=
          ⟨_, List.getElem?_eq_getElem hmiddle⟩
        dsimp only
        rw [hget]
        dsimp only
        have hshift : ∀ (i : Nat) (entry : ResourceEntry),
            entries[i]? = some entry → entry.kind = kind →
            (observed.kind.tag < kind.tag → low + (high - low) / 2 < i) ∧
            (kind.tag < observed.kind.tag → i < low + (high - low) / 2) := by
          intro i entry hi hkind
          refine ⟨fun hsmall => ?_, fun hlarge => ?_⟩
          · by_contra hle
            rcases Nat.lt_or_eq_of_le (Nat.le_of_not_lt hle) with hij | rfl
            · have hord := hsorted.lt hij hi hget
              unfold entryTag at hord
              rw [hkind] at hord
              omega
            · rw [hget] at hi
              cases hi
              rw [hkind] at hsmall
              exact absurd hsmall (Nat.lt_irrefl _)
          · by_contra hle
            rcases Nat.lt_or_eq_of_le (Nat.le_of_not_lt hle) with hij | rfl
            · have hord := hsorted.lt hij hget hi
              unfold entryTag at hord
              rw [hkind] at hord
              omega
            · rw [hget] at hi
              cases hi
              rw [hkind] at hlarge
              exact absurd hlarge (Nat.lt_irrefl _)
        split
        · rename_i hequal
          have hkind : observed.kind = kind := ResourceKind.ext hequal
          rw [← hkind]
          exact (amount_of_mem hsorted (List.mem_of_getElem? hget)).symm
        · rename_i hne
          split
          · rename_i hsmall
            have hnext : ∀ i entry, entries[i]? = some entry →
                entry.kind = kind → low + (high - low) / 2 + 1 ≤ i ∧ i < high :=
              fun i entry hi hkind =>
                ⟨(hshift i entry hi hkind).1 hsmall,
                  (hwindow i entry hi hkind).2⟩
            refine ih _ _ (by omega) hhigh hnext fun hle => ?_
            by_contra hzero
            obtain ⟨entry, hentry, hkind⟩ := exists_of_amount_ne_zero hzero
            obtain ⟨i, hi⟩ := List.mem_iff_getElem?.mp hentry
            have hin := hnext i entry hi hkind
            omega
          · rename_i hlarge
            have hnext : ∀ i entry, entries[i]? = some entry →
                entry.kind = kind → low ≤ i ∧ i < low + (high - low) / 2 :=
              fun i entry hi hkind =>
                ⟨(hwindow i entry hi hkind).1,
                  (hshift i entry hi hkind).2 (by omega)⟩
            refine ih _ _ (by omega) (by omega) hnext fun hle => ?_
            by_contra hzero
            obtain ⟨entry, hentry, hkind⟩ := exists_of_amount_ne_zero hzero
            obtain ⟨i, hi⟩ := List.mem_iff_getElem?.mp hentry
            have hin := hnext i entry hi hkind
            omega
      · exact (hempty (by omega)).symm

theorem quantity_eq_amount (vector : ResourceVector) (kind : ResourceKind) :
    vector.quantity kind = amount kind vector.entries := by
  refine indexedQuantity_eq vector.canonical _ _ _ (by omega) (Nat.le_refl _)
    fun i entry hi _ => ⟨Nat.zero_le i, ?_⟩
  exact (List.getElem?_eq_some_iff.mp hi).1

theorem quantity_of_mem {vector : ResourceVector}
    (hmem : entry ∈ vector.entries) :
    vector.quantity entry.kind = entry.quantity.get := by
  rw [quantity_eq_amount, amount_of_mem vector.canonical hmem]

theorem fitsFrom_iff {capacity : ResourceVector} :
    fitsFrom capacity entries = true ↔
      ∀ entry ∈ entries, entry.quantity.get ≤ capacity.quantity entry.kind := by
  induction entries with
  | nil => simp [fitsFrom]
  | cons head rest ih =>
      simp only [fitsFrom, Bool.and_eq_true, decide_eq_true_eq, ih,
        List.forall_mem_cons]

theorem fitsWithin_iff {vector capacity : ResourceVector} :
    vector.fitsWithin capacity = true ↔
      ∀ kind, vector.quantity kind ≤ capacity.quantity kind := by
  unfold ResourceVector.fitsWithin
  rw [fitsFrom_iff]
  constructor
  · intro h kind
    rcases Nat.eq_zero_or_pos (vector.quantity kind) with hzero | hpos
    · omega
    · rw [quantity_eq_amount] at hpos
      obtain ⟨entry, hentry, rfl⟩ :=
        exists_of_amount_ne_zero (Nat.ne_of_gt hpos)
      rw [quantity_of_mem hentry]
      exact h entry hentry
  · intro h entry hentry
    have hle := h entry.kind
    rwa [quantity_of_mem hentry] at hle

/-- A vector within another has no more dimensions. -/
theorem length_le_of_fits {vector capacity : ResourceVector}
    (hfits : ∀ kind, vector.quantity kind ≤ capacity.quantity kind) :
    vector.entries.length ≤ capacity.entries.length := by
  have hsub : vector.entries.map entryTag ⊆ capacity.entries.map entryTag := by
    intro tag htag
    obtain ⟨entry, hentry, rfl⟩ := List.mem_map.mp htag
    have hle := hfits entry.kind
    rw [quantity_of_mem hentry, quantity_eq_amount] at hle
    have hpos := entry.quantity.positive
    obtain ⟨other, hother, hkind⟩ := exists_of_amount_ne_zero
      (show amount entry.kind capacity.entries ≠ 0 by omega)
    refine List.mem_map.mpr ⟨other, hother, ?_⟩
    unfold entryTag
    rw [hkind]
  have hle := (vector.canonical.nodup_map.subperm hsub).length_le
  rwa [List.length_map, List.length_map] at hle

end Quantity

/-! ### Addition -/

def combinedEntry (left right : ResourceEntry) : Option ResourceEntry :=
  if h : left.quantity.get + right.quantity.get ≤ u64Max then
    some ⟨left.kind, ⟨left.quantity.get + right.quantity.get,
      Nat.add_pos_left left.quantity.positive _, h⟩⟩
  else none

/-- The two-cursor merge; `none` is an overflow. -/
def mergeEntries : List ResourceEntry → List ResourceEntry →
    Option (List ResourceEntry)
  | [], right => some right
  | left, [] => some left
  | left :: lefts, right :: rights =>
      if left.kind.tag = right.kind.tag then
        match combinedEntry left right with
        | none => none
        | some next => (mergeEntries lefts rights).map (next :: ·)
      else if left.kind.tag < right.kind.tag then
        (mergeEntries lefts (right :: rights)).map (left :: ·)
      else (mergeEntries (left :: lefts) rights).map (right :: ·)
  termination_by left right => left.length + right.length

section Merge

variable {kind : ResourceKind} {lefts rights merged : List ResourceEntry}

theorem combinedEntry_eq_some {left right next : ResourceEntry}
    (h : combinedEntry left right = some next) :
    next.kind = left.kind ∧
      next.quantity.get = left.quantity.get + right.quantity.get := by
  unfold combinedEntry at h
  split at h
  · cases h
    exact ⟨rfl, rfl⟩
  · cases h

theorem amount_mergeEntries (h : mergeEntries lefts rights = some merged) :
    amount kind merged = amount kind lefts + amount kind rights := by
  fun_induction mergeEntries lefts rights generalizing merged with
  | case1 right => cases h; simp
  | case2 left _ => cases h; simp
  | case3 left lefts right rights htag hover => cases h
  | case4 left lefts right rights htag next hnext ih =>
      obtain ⟨rest, hrest, rfl⟩ := Option.map_eq_some_iff.mp h
      obtain ⟨hkind, hquantity⟩ := combinedEntry_eq_some hnext
      have hright : right.kind = left.kind := ResourceKind.ext htag.symm
      simp only [amount_cons, hkind, hright, hquantity, ih hrest]
      split <;> omega
  | case5 left lefts right rights htag hlt ih =>
      obtain ⟨rest, hrest, rfl⟩ := Option.map_eq_some_iff.mp h
      have hsum := ih hrest
      simp only [amount_cons] at hsum ⊢
      omega
  | case6 left lefts right rights htag hlt ih =>
      obtain ⟨rest, hrest, rfl⟩ := Option.map_eq_some_iff.mp h
      have hsum := ih hrest
      simp only [amount_cons] at hsum ⊢
      omega

theorem tag_mem_mergeEntries (h : mergeEntries lefts rights = some merged)
    {entry : ResourceEntry} (hmem : entry ∈ merged) :
    entry.kind.tag ∈ lefts.map entryTag ∨
      entry.kind.tag ∈ rights.map entryTag := by
  have hpos := entry.quantity.positive
  have hle := le_amount hmem
  rw [amount_mergeEntries h] at hle
  rcases Nat.eq_zero_or_pos (amount entry.kind lefts) with hzero | hleft
  · obtain ⟨other, hother, hkind⟩ := exists_of_amount_ne_zero
      (show amount entry.kind rights ≠ 0 by omega)
    exact .inr (List.mem_map.mpr ⟨other, hother, by rw [← hkind]; rfl⟩)
  · obtain ⟨other, hother, hkind⟩ :=
      exists_of_amount_ne_zero (Nat.ne_of_gt hleft)
    exact .inl (List.mem_map.mpr ⟨other, hother, by rw [← hkind]; rfl⟩)

/-- A head below both remainders stays below their merge. -/
theorem sorted_cons_merge {head : ResourceEntry}
    (hmerged : mergeEntries lefts rights = some merged)
    (hsorted : Sorted entryTag merged)
    (hleft : ∀ entry ∈ lefts, head.kind.tag < entry.kind.tag)
    (hright : ∀ entry ∈ rights, head.kind.tag < entry.kind.tag) :
    Sorted entryTag (head :: merged) := by
  refine List.pairwise_cons.mpr ⟨fun entry hentry => ?_, hsorted⟩
  change head.kind.tag < entry.kind.tag
  rcases tag_mem_mergeEntries hmerged hentry with htag | htag
  · obtain ⟨other, hother, hkind⟩ := List.mem_map.mp htag
    rw [← hkind]
    exact hleft other hother
  · obtain ⟨other, hother, hkind⟩ := List.mem_map.mp htag
    rw [← hkind]
    exact hright other hother

theorem sorted_mergeEntries (h : mergeEntries lefts rights = some merged)
    (hlefts : Sorted entryTag lefts) (hrights : Sorted entryTag rights) :
    Sorted entryTag merged := by
  fun_induction mergeEntries lefts rights generalizing merged with
  | case1 right => cases h; exact hrights
  | case2 left _ => cases h; exact hlefts
  | case3 left lefts right rights htag hover => cases h
  | case4 left lefts right rights htag next hnext ih =>
      obtain ⟨rest, hrest, rfl⟩ := Option.map_eq_some_iff.mp h
      obtain ⟨hkind, _⟩ := combinedEntry_eq_some hnext
      obtain ⟨hleft, hlefts⟩ := List.pairwise_cons.mp hlefts
      obtain ⟨hright, hrights⟩ := List.pairwise_cons.mp hrights
      refine sorted_cons_merge hrest (ih hrest hlefts hrights) ?_ ?_
      · intro entry hentry
        rw [hkind]
        exact hleft entry hentry
      · intro entry hentry
        rw [hkind, htag]
        exact hright entry hentry
  | case5 left lefts right rights htag hlt ih =>
      obtain ⟨rest, hrest, rfl⟩ := Option.map_eq_some_iff.mp h
      obtain ⟨hleft, hlefts⟩ := List.pairwise_cons.mp hlefts
      refine sorted_cons_merge hrest (ih hrest hlefts hrights) hleft ?_
      intro entry hentry
      rcases List.mem_cons.mp hentry with rfl | hentry
      · exact hlt
      · exact Nat.lt_trans hlt ((List.pairwise_cons.mp hrights).1 entry hentry)
  | case6 left lefts right rights htag hlt ih =>
      obtain ⟨rest, hrest, rfl⟩ := Option.map_eq_some_iff.mp h
      obtain ⟨hright, hrights⟩ := List.pairwise_cons.mp hrights
      have hgt : right.kind.tag < left.kind.tag := by omega
      refine sorted_cons_merge hrest (ih hrest hlefts hrights) ?_ hright
      intro entry hentry
      rcases List.mem_cons.mp hentry with rfl | hentry
      · exact hgt
      · exact Nat.lt_trans hgt ((List.pairwise_cons.mp hlefts).1 entry hentry)

theorem nonempty_mergeEntries (h : mergeEntries lefts rights = some merged)
    (hlefts : lefts ≠ []) : merged ≠ [] := by
  obtain ⟨entry, hentry⟩ := List.exists_mem_of_ne_nil lefts hlefts
  have hle := le_amount hentry
  have hpos := entry.quantity.positive
  rintro rfl
  have hsum : amount entry.kind [] = _ := amount_mergeEntries h
  rw [amount_nil] at hsum
  omega

/-- An overflow happens on one kind. -/
theorem exists_of_mergeEntries_none (h : mergeEntries lefts rights = none) :
    ∃ kind, u64Max < amount kind lefts + amount kind rights := by
  fun_induction mergeEntries lefts rights with
  | case1 right => cases h
  | case2 left _ => cases h
  | case3 left lefts right rights htag hover =>
      refine ⟨left.kind, ?_⟩
      have hkind : right.kind = left.kind := ResourceKind.ext htag.symm
      unfold combinedEntry at hover
      split at hover
      · cases hover
      · rename_i hlarge
        simp only [amount_cons, hkind, if_true]
        omega
  | case4 left lefts right rights htag next hnext ih =>
      obtain ⟨kind, hkind⟩ := ih (Option.map_eq_none_iff.mp h)
      refine ⟨kind, ?_⟩
      simp only [amount_cons]
      omega
  | case5 left lefts right rights htag hlt ih =>
      obtain ⟨kind, hkind⟩ := ih (Option.map_eq_none_iff.mp h)
      refine ⟨kind, ?_⟩
      simp only [amount_cons] at hkind ⊢
      omega
  | case6 left lefts right rights htag hlt ih =>
      obtain ⟨kind, hkind⟩ := ih (Option.map_eq_none_iff.mp h)
      refine ⟨kind, ?_⟩
      simp only [amount_cons] at hkind ⊢
      omega

end Merge

inductive VectorAddition
  | value (vector : ResourceVector)
  | overflow
  | limitExceeded

def add (left right : ResourceVector) (maximumDimensions : Nat) :
    VectorAddition :=
  match h : mergeEntries left.entries right.entries with
  | none => .overflow
  | some entries =>
      if entries.length > maximumDimensions then .limitExceeded
      else
        .value ⟨entries, nonempty_mergeEntries h left.nonempty,
          sorted_mergeEntries h left.canonical right.canonical⟩

namespace ResourceVector

def new (entries : List ResourceEntry) (maximumDimensions : Nat) :
    Except SchedulerError ResourceVector :=
  if hlimit : entries = [] ∨ entries.length > maximumDimensions then
    .error (reject .limitExceeded
      "resource vector is empty or exceeds its dimension bound")
  else if hcanonical : ascending entryTag entries = true then
    .ok ⟨entries, fun h => hlimit (.inl h), ascending_iff.mp hcanonical⟩
  else
    .error (reject .nonCanonical
      "resource entries are duplicated or not in ascending kind order")

def validate (vector : ResourceVector) (maximumDimensions : Nat) :
    Except SchedulerError Unit :=
  (new vector.entries maximumDimensions).map fun _ => ()

def checkedAdd (left right : ResourceVector) (maximumDimensions : Nat) :
    Except SchedulerError ResourceVector :=
  match add left right maximumDimensions with
  | .value vector => .ok vector
  | .overflow => .error (reject .resourceConflict "resource addition overflowed")
  | .limitExceeded =>
      .error (reject .limitExceeded
        "resource vector is empty or exceeds its dimension bound")

def aggregateAdd (left right : ResourceVector) : Option ResourceVector :=
  match add left right 65535 with
  | .value vector => some vector
  | .overflow => none
  | .limitExceeded => none

variable {left right vector : ResourceVector} {maximumDimensions : Nat}

theorem new_self (hlength : vector.entries.length ≤ maximumDimensions) :
    new vector.entries maximumDimensions = .ok vector := by
  unfold new
  rw [dif_neg (by
    rintro (hempty | hlarge)
    · exact vector.nonempty hempty
    · omega), dif_pos (ascending_iff.mpr vector.canonical)]

theorem entries_of_new {entries : List ResourceEntry}
    (h : new entries maximumDimensions = .ok vector) :
    vector.entries = entries := by
  unfold new at h
  split at h
  · cases h
  · split at h
    · cases h
      rfl
    · cases h

theorem validate_eq_ok_iff :
    vector.validate maximumDimensions = .ok () ↔
      vector.entries.length ≤ maximumDimensions := by
  unfold validate
  constructor
  · intro h
    unfold new at h
    split at h
    · cases h
    · rename_i hlimit
      push Not at hlimit
      exact hlimit.2
  · intro h
    rw [new_self h]
    rfl

theorem add_eq_value
    (h : mergeEntries left.entries right.entries = some vector.entries)
    (hlength : vector.entries.length ≤ maximumDimensions) :
    add left right maximumDimensions = .value vector := by
  unfold add
  split
  · rename_i hnone
    rw [h] at hnone
    cases hnone
  · rename_i entries hentries
    have heq := Option.some.inj (hentries.symm.trans h)
    rw [if_neg (by rw [heq]; omega)]
    exact congrArg VectorAddition.value (ResourceVector.ext heq)

theorem quantity_of_add (h : add left right maximumDimensions = .value vector)
    (kind : ResourceKind) :
    vector.quantity kind = left.quantity kind + right.quantity kind := by
  unfold add at h
  split at h
  · cases h
  · rename_i entries hentries
    split at h
    · cases h
    · cases h
      simp only [quantity_eq_amount]
      exact amount_mergeEntries hentries

theorem quantity_of_aggregateAdd (h : aggregateAdd left right = some vector)
    (kind : ResourceKind) :
    vector.quantity kind = left.quantity kind + right.quantity kind := by
  unfold aggregateAdd at h
  split at h
  · rename_i hadd
    cases h
    exact quantity_of_add hadd kind
  · cases h
  · cases h

theorem quantity_le_u64Max (kind : ResourceKind) :
    vector.quantity kind ≤ u64Max := by
  rcases Nat.eq_zero_or_pos (vector.quantity kind) with hzero | hpos
  · omega
  · rw [quantity_eq_amount] at hpos
    obtain ⟨entry, hentry, rfl⟩ := exists_of_amount_ne_zero (Nat.ne_of_gt hpos)
    rw [quantity_of_mem hentry]
    exact entry.quantity.bound

end ResourceVector

end Peritus.Scheduler.Resource
