import Mathlib

/-!
Tables kept as lists in strictly ascending key order: the halving search that
finds a row or the slot of a new one, and the updates that keep the order.
-/

namespace Peritus.SortedTable

variable {α κ : Type*} [LinearOrder κ]

def Sorted (key : α → κ) (values : List α) : Prop :=
  values.Pairwise fun a b => key a < key b

/-- Whether neighbours are strictly ascending. -/
def ascending (key : α → κ) : List α → Bool
  | a :: b :: rest => decide (key a < key b) && ascending key (b :: rest)
  | _ => true

/-- Where the halving loop stops, after at most `steps` halvings. -/
def searchBase (key : α → κ) (id : κ) (values : List α) :
    Nat → Nat → Nat → Nat
  | 0, base, _ => base
  | steps + 1, base, size =>
      if size ≤ 1 then base
      else
        let half := size / 2
        let mid := base + half
        match values[mid]? with
        | none => base
        | some observed =>
            searchBase key id values steps
              (if id < key observed then base else mid) (size - half)

def lookupIndex (key : α → κ) (id : κ) (values : List α) : Option Nat :=
  let base := searchBase key id values values.length 0 values.length
  match values[base]? with
  | none => none
  | some observed => if key observed = id then some base else none

def lookup (key : α → κ) (id : κ) (values : List α) : Option α :=
  let base := searchBase key id values values.length 0 values.length
  match values[base]? with
  | none => none
  | some observed => if key observed = id then some observed else none

def slot (key : α → κ) (id : κ) (values : List α) : Nat :=
  let base := searchBase key id values values.length 0 values.length
  match values[base]? with
  | none => 0
  | some observed => if key observed < id then base + 1 else base

def insertAt (position : Nat) (value : α) (values : List α) : List α :=
  values.take position ++ value :: values.drop position

/-- The first row that meets `p`, updated. -/
def updateFirst (p : α → Bool) (f : α → α) : List α → Option (List α)
  | [] => none
  | a :: rest =>
      if p a then some (f a :: rest)
      else (updateFirst p f rest).map (a :: ·)

/-- The first row that meets `p`, and the others. -/
def removeFirst (p : α → Bool) : List α → Option (α × List α)
  | [] => none
  | a :: rest =>
      if p a then some (a, rest)
      else (removeFirst p rest).map fun (b, others) => (b, a :: others)

/-- The table with the row of the same key replaced. -/
def replaceRow (key : α → κ) (row : α) (values : List α) : List α :=
  values.map fun a => if key a = key row then row else a

/-- The rows of other keys. -/
def others (key : α → κ) (row : α) (values : List α) : List α :=
  values.filter fun a => decide (key a ≠ key row)

section Order

variable {key : α → κ} {values : List α} {id : κ} {a b : α}

theorem ascending_iff : ascending key values = true ↔ Sorted key values := by
  have hchain : ascending key values = true ↔
      values.IsChain fun a b => key a < key b := by
    induction values with
    | nil => simp [ascending]
    | cons a rest ih =>
        cases rest with
        | nil => simp [ascending]
        | cons b rest =>
            simp only [ascending, Bool.and_eq_true, decide_eq_true_eq, ih,
              List.isChain_cons_cons]
  have htrans : IsTrans α fun a b => key a < key b := ⟨fun _ _ _ => lt_trans⟩
  rw [hchain, List.isChain_iff_pairwise]
  rfl

theorem Sorted.lt (hsorted : Sorted key values) {i j : Nat} (hij : i < j)
    (hi : values[i]? = some a) (hj : values[j]? = some b) : key a < key b := by
  obtain ⟨hi', rfl⟩ := List.getElem?_eq_some_iff.mp hi
  obtain ⟨hj', rfl⟩ := List.getElem?_eq_some_iff.mp hj
  exact List.pairwise_iff_getElem.mp hsorted i j hi' hj' hij

theorem Sorted.inj (hsorted : Sorted key values) (ha : a ∈ values)
    (hb : b ∈ values) (heq : key a = key b) : a = b := by
  obtain ⟨i, hi⟩ := List.mem_iff_getElem?.mp ha
  obtain ⟨j, hj⟩ := List.mem_iff_getElem?.mp hb
  rcases Nat.lt_trichotomy i j with hij | rfl | hij
  · exact absurd heq (ne_of_lt (hsorted.lt hij hi hj))
  · exact Option.some.inj (hi.symm.trans hj)
  · exact absurd heq.symm (ne_of_lt (hsorted.lt hij hj hi))

/-- A sorted table is determined by its rows. -/
theorem Sorted.ext {others : List α} (hsorted : Sorted key values)
    (hothers : Sorted key others) (hmem : ∀ a, a ∈ values ↔ a ∈ others) :
    values = others := by
  have hirrefl : ∀ {table : List α}, Sorted key table → table.Nodup :=
    fun h => h.imp fun hlt heq => absurd (heq ▸ hlt) (lt_irrefl _)
  have hperm : values.Perm others :=
    (List.perm_ext_iff_of_nodup (hirrefl hsorted) (hirrefl hothers)).mpr hmem
  exact hperm.eq_of_pairwise
    (fun _ _ _ _ hab hba => absurd (lt_trans hab hba) (lt_irrefl _)) hsorted
    hothers

theorem Sorted.nodup_map (hsorted : Sorted key values) :
    (values.map key).Nodup :=
  List.pairwise_map.mpr (hsorted.imp fun h => ne_of_lt h)

theorem Sorted.sublist (hsorted : Sorted key values) {kept : List α}
    (hsub : kept.Sublist values) : Sorted key kept :=
  List.Pairwise.sublist hsub hsorted

theorem Sorted.map (hsorted : Sorted key values) {f : α → α}
    (hkey : ∀ a, key (f a) = key a) : Sorted key (values.map f) :=
  List.pairwise_map.mpr (hsorted.imp fun h => by rwa [hkey, hkey])

/-- The rows from the stopping point on are above `id`, and the row at it is not,
unless the search never left the first row. -/
theorem searchBase_spec (hsorted : Sorted key values) (steps base size : Nat)
    (hsteps : size ≤ steps) (hsize : 0 < size)
    (hbound : base + size ≤ values.length)
    (hbelow : base = 0 ∨ ∀ a, values[base]? = some a → key a ≤ id)
    (habove : ∀ i a, base + size ≤ i → values[i]? = some a → id < key a) :
    searchBase key id values steps base size < values.length ∧
      (searchBase key id values steps base size = 0 ∨
        ∀ a, values[searchBase key id values steps base size]? = some a →
          key a ≤ id) ∧
      ∀ i a, searchBase key id values steps base size < i →
        values[i]? = some a → id < key a := by
  induction steps generalizing base size with
  | zero => omega
  | succ steps ih =>
      unfold searchBase
      split
      · refine ⟨by omega, hbelow, fun i a hi hget => habove i a (by omega) hget⟩
      · rename_i hlarge
        have hmid : base + size / 2 < values.length := by omega
        simp only [List.getElem?_eq_getElem hmid]
        split
        · rename_i hlt
          refine ih base (size - size / 2) (by omega) (by omega) (by omega)
            hbelow fun i a hi hget => ?_
          rcases Nat.lt_or_eq_of_le (show base + size / 2 ≤ i by omega)
            with hlt' | rfl
          · exact lt_trans hlt
              (hsorted.lt hlt' (List.getElem?_eq_getElem hmid) hget)
          · rw [List.getElem?_eq_getElem hmid, Option.some.injEq] at hget
            exact hget ▸ hlt
        · rename_i hle
          refine ih (base + size / 2) (size - size / 2) (by omega) (by omega)
            (by omega) (.inr fun a hget => ?_) fun i a hi hget =>
              habove i a (by omega) hget
          rw [List.getElem?_eq_getElem hmid, Option.some.injEq] at hget
          exact hget ▸ not_lt.mp hle

/-- Where the search over a whole sorted table stops. -/
theorem searchBase_sorted (id : κ) (hsorted : Sorted key values)
    (hpos : 0 < values.length) :
    searchBase key id values values.length 0 values.length < values.length ∧
      (searchBase key id values values.length 0 values.length = 0 ∨
        ∀ a, values[searchBase key id values values.length 0
          values.length]? = some a → key a ≤ id) ∧
      ∀ i a, searchBase key id values values.length 0 values.length < i →
        values[i]? = some a → id < key a :=
  searchBase_spec hsorted values.length 0 values.length (Nat.le_refl _) hpos
    (by omega) (.inl rfl) fun i a hi hget => by
      rw [List.getElem?_eq_none (by omega)] at hget
      cases hget

theorem lookupIndex_eq_some (hfound : lookupIndex key id values = some i) :
    ∃ a, values[i]? = some a ∧ key a = id := by
  unfold lookupIndex at hfound
  dsimp only at hfound
  split at hfound
  · cases hfound
  · rename_i observed hget
    split at hfound
    · rename_i hkey
      cases hfound
      exact ⟨observed, hget, hkey⟩
    · cases hfound

theorem lookup_eq_bind : lookup key id values =
    (lookupIndex key id values).bind fun i => values[i]? := by
  unfold lookup lookupIndex
  dsimp only
  split
  · rfl
  · rename_i observed hget
    split
    · exact hget.symm
    · rfl

theorem mem_of_lookup (hfound : lookup key id values = some a) :
    a ∈ values ∧ key a = id := by
  rw [lookup_eq_bind] at hfound
  obtain ⟨i, hindex, hget⟩ := Option.bind_eq_some_iff.mp hfound
  obtain ⟨b, hb, hkey⟩ := lookupIndex_eq_some hindex
  rw [hb] at hget
  cases hget
  exact ⟨List.mem_of_getElem? hb, hkey⟩

theorem lookupIndex_of_mem (hsorted : Sorted key values) (ha : a ∈ values)
    (hkey : key a = id) :
    ∃ i, lookupIndex key id values = some i ∧ values[i]? = some a := by
  obtain ⟨i, hi⟩ := List.mem_iff_getElem?.mp ha
  obtain ⟨hlt, hbelow, habove⟩ := searchBase_sorted id hsorted
    (List.length_pos_of_mem ha)
  have hstop : searchBase key id values values.length 0 values.length = i := by
    rcases Nat.lt_trichotomy
      (searchBase key id values values.length 0 values.length) i
      with hbase | hbase | hbase
    · exact absurd (habove i a hbase hi) (by rw [hkey]; exact lt_irrefl id)
    · exact hbase
    · rcases hbelow with hzero | hle
      · omega
      · have hget := List.getElem?_eq_getElem hlt
        have hsome := hle _ hget
        have hsmall := hsorted.lt hbase hi hget
        rw [hkey] at hsmall
        exact absurd hsome (not_le.mpr hsmall)
  refine ⟨i, ?_, hi⟩
  unfold lookupIndex
  dsimp only
  rw [hstop, hi]
  exact if_pos hkey

theorem lookup_of_mem (hsorted : Sorted key values) (ha : a ∈ values)
    (hkey : key a = id) : lookup key id values = some a := by
  obtain ⟨i, hindex, hget⟩ := lookupIndex_of_mem hsorted ha hkey
  rw [lookup_eq_bind, hindex]
  exact hget

theorem lookup_eq_some_iff (hsorted : Sorted key values) :
    lookup key id values = some a ↔ a ∈ values ∧ key a = id :=
  ⟨mem_of_lookup, fun h => lookup_of_mem hsorted h.1 h.2⟩

theorem lookup_eq_none_iff (hsorted : Sorted key values) :
    lookup key id values = none ↔ ∀ a ∈ values, key a ≠ id := by
  rw [Option.eq_none_iff_forall_ne_some]
  constructor
  · intro h a ha hkey
    exact h a (lookup_of_mem hsorted ha hkey)
  · intro h a hfound
    obtain ⟨ha, hkey⟩ := mem_of_lookup hfound
    exact h a ha hkey

end Order

/-! ### Insertion -/

section Insertion

variable {key : α → κ} {values : List α} {position : Nat} {value a : α}

theorem perm_insertAt :
    (insertAt position value values).Perm (value :: values) := by
  unfold insertAt
  refine List.perm_middle.trans ?_
  rw [List.take_append_drop]

theorem mem_insertAt :
    a ∈ insertAt position value values ↔ a = value ∨ a ∈ values := by
  rw [perm_insertAt.mem_iff, List.mem_cons]

@[simp] theorem length_insertAt :
    (insertAt position value values).length = values.length + 1 :=
  perm_insertAt.length_eq

theorem sorted_insertAt (hsorted : Sorted key values)
    (hbelow : ∀ i a, i < position → values[i]? = some a → key a < key value)
    (habove : ∀ i a, position ≤ i → values[i]? = some a → key value < key a) :
    Sorted key (insertAt position value values) := by
  have hleft : ∀ a ∈ values.take position, key a < key value := by
    intro a ha
    obtain ⟨i, hi⟩ := List.mem_iff_getElem?.mp ha
    rw [List.getElem?_take] at hi
    split at hi
    · rename_i hlt
      exact hbelow i a hlt hi
    · cases hi
  have hright : ∀ a ∈ values.drop position, key value < key a := by
    intro a ha
    obtain ⟨i, hi⟩ := List.mem_iff_getElem?.mp ha
    rw [List.getElem?_drop] at hi
    exact habove _ a (Nat.le_add_right _ _) hi
  refine List.pairwise_append.mpr ⟨hsorted.sublist (List.take_sublist _ _),
    List.pairwise_cons.mpr ⟨hright, hsorted.sublist (List.drop_sublist _ _)⟩,
    ?_⟩
  intro a ha b hb
  rcases List.mem_cons.mp hb with rfl | hb
  · exact hleft a ha
  · exact lt_trans (hleft a ha) (hright b hb)

theorem sorted_insertAt_slot (value : α) (hsorted : Sorted key values)
    (hfresh : ∀ a ∈ values, key a ≠ key value) :
    Sorted key (insertAt (slot key (key value) values) value values) := by
  rcases Nat.eq_zero_or_pos values.length with hzero | hpos
  · cases List.eq_nil_of_length_eq_zero hzero
    exact List.pairwise_singleton _ _
  · obtain ⟨hlt, hbelow, habove⟩ :=
      searchBase_sorted (key value) hsorted hpos
    have hget := List.getElem?_eq_getElem hlt
    have hne := hfresh _ (List.getElem_mem hlt)
    unfold slot
    dsimp only
    rw [hget]
    dsimp only
    split
    · rename_i hsmall
      refine sorted_insertAt hsorted (fun i a hi hgeti => ?_)
        fun i a hi hgeti => habove i a (by omega) hgeti
      rcases Nat.lt_or_eq_of_le (Nat.le_of_lt_succ hi) with hi' | rfl
      · exact lt_trans (hsorted.lt hi' hgeti hget) hsmall
      · rw [hget, Option.some.injEq] at hgeti
        exact hgeti ▸ hsmall
    · rename_i hlarge
      have hbase : searchBase key (key value) values values.length 0
          values.length = 0 := by
        rcases hbelow with hzero | hle
        · exact hzero
        · exact absurd (lt_of_le_of_ne (hle _ hget) hne) hlarge
      refine sorted_insertAt hsorted (fun i a hi _ => by omega)
        fun i a hi hgeti => ?_
      rcases Nat.eq_zero_or_pos i with rfl | hi'
      · have hfirst := lt_of_le_of_ne (not_lt.mp hlarge) hne.symm
        simp only [hbase] at hget hfirst
        rw [hget, Option.some.injEq] at hgeti
        exact hgeti ▸ hfirst
      · exact habove i a (by omega) hgeti

theorem sorted_orderedInsert (hsorted : Sorted key values)
    (hfresh : ∀ a ∈ values, key a ≠ key value) :
    Sorted key (values.orderedInsert (fun a b => key a < key b) value) := by
  induction values with
  | nil => exact List.pairwise_singleton _ _
  | cons head rest ih =>
      obtain ⟨hhead, hrest⟩ := List.pairwise_cons.mp hsorted
      rw [List.orderedInsert_cons]
      by_cases hlt : key value < key head
      · rw [if_pos hlt]
        refine List.pairwise_cons.mpr ⟨?_, hsorted⟩
        intro a ha
        rcases List.mem_cons.mp ha with rfl | ha
        · exact hlt
        · exact lt_trans hlt (hhead a ha)
      · rw [if_neg hlt]
        refine List.pairwise_cons.mpr ⟨?_, ih hrest fun a ha =>
          hfresh a (List.mem_cons_of_mem _ ha)⟩
        intro a ha
        rcases (List.perm_orderedInsert _ _ _).mem_iff.mp ha |> List.mem_cons.mp with
          rfl | ha
        · exact lt_of_le_of_ne (not_lt.mp hlt) (hfresh head List.mem_cons_self)
        · exact hhead a ha

end Insertion

/-! ### Updates in place -/

section Updates

variable {key : α → κ} {values : List α} {id : κ} {f : α → α} {a b row : α}

theorem replaceRow_of_forall_ne (hother : ∀ r ∈ values, key r ≠ key row) :
    replaceRow key row values = values := by
  unfold replaceRow
  conv_rhs => rw [← List.map_id values]
  exact List.map_congr_left fun r hr => if_neg (hother r hr)

theorem replaceRow_cons : replaceRow key row (a :: values) =
    (if key a = key row then row else a) :: replaceRow key row values :=
  rfl

theorem others_cons : others key row (a :: values) =
    if key a = key row then others key row values
    else a :: others key row values := by
  unfold others
  by_cases h : key a = key row <;> simp [h]

theorem others_of_forall_ne (hother : ∀ r ∈ values, key r ≠ key row) :
    others key row values = values :=
  List.filter_eq_self.mpr fun r hr => decide_eq_true (hother r hr)

theorem mem_others : b ∈ others key a values ↔ b ∈ values ∧ key b ≠ key a := by
  rw [others, List.mem_filter, decide_eq_true_eq]

theorem Sorted.others (hsorted : Sorted key values) :
    Sorted key (others key a values) :=
  hsorted.sublist List.filter_sublist

/-- The rows below the first one differ from it. -/
theorem Sorted.ne_of_cons (hsorted : Sorted key (a :: values)) :
    ∀ r ∈ values, key r ≠ key a := fun r hr =>
  ne_of_gt ((List.pairwise_cons.mp hsorted).1 r hr)

theorem perm_others (hsorted : Sorted key values) (ha : a ∈ values) :
    values.Perm (a :: SortedTable.others key a values) := by
  induction values with
  | nil => cases ha
  | cons head rest ih =>
      rw [others_cons]
      by_cases hsame : key head = key a
      · have heq : head = a := hsorted.inj List.mem_cons_self ha hsame
        rw [if_pos hsame, ← heq, others_of_forall_ne hsorted.ne_of_cons]
      · have hrest : a ∈ rest :=
          (List.mem_cons.mp ha).resolve_left fun h => hsame (by rw [h])
        rw [if_neg hsame]
        exact ((ih (List.pairwise_cons.mp hsorted).2 hrest).cons head).trans
          (List.Perm.swap ..)

theorem perm_replaceRow (hsorted : Sorted key values) (ha : a ∈ values)
    (hkey : key row = key a) :
    (replaceRow key row values).Perm
      (row :: SortedTable.others key a values) := by
  induction values with
  | nil => cases ha
  | cons head rest ih =>
      rw [replaceRow_cons, others_cons, hkey]
      by_cases hsame : key head = key a
      · have heq : head = a := hsorted.inj List.mem_cons_self ha hsame
        have hne := hsorted.ne_of_cons
        rw [heq] at hne
        rw [if_pos hsame, if_pos hsame, others_of_forall_ne hne,
          replaceRow_of_forall_ne fun r hr => by rw [hkey]; exact hne r hr]
      · have hrest : a ∈ rest :=
          (List.mem_cons.mp ha).resolve_left fun h => hsame (by rw [h])
        rw [if_neg hsame, if_neg hsame]
        exact ((ih (List.pairwise_cons.mp hsorted).2 hrest).cons head).trans
          (List.Perm.swap ..)

/-- Row by row, a replacement relates a table to what it becomes. -/
theorem forall₂_replaceRow {R : α → α → Prop} (hsorted : Sorted key values)
    (ha : a ∈ values) (hkey : key row = key a) (hrefl : ∀ b ∈ values, R b b)
    (hrow : R a row) : List.Forall₂ R values (replaceRow key row values) := by
  unfold replaceRow
  rw [List.forall₂_map_right_iff, List.forall₂_same]
  intro b hb
  split
  · rename_i hsame
    rw [hsorted.inj hb ha (hsame.trans hkey)]
    exact hrow
  · exact hrefl b hb

theorem Sorted.of_forall₂ {R : α → α → Prop} {values' : List α}
    (hsorted : Sorted key values) (hrel : List.Forall₂ R values values')
    (hkey : ∀ a b, R a b → key b = key a) : Sorted key values' := by
  have hmap : values'.map key = values.map key := by
    induction hrel with
    | nil => rfl
    | cons hhead _ ih =>
        rw [List.map_cons, List.map_cons, hkey _ _ hhead,
          ih (List.pairwise_cons.mp hsorted).2]
  have hkeys : (values'.map key).Pairwise (· < ·) := by
    rw [hmap]
    exact List.pairwise_map.mpr hsorted
  exact List.pairwise_map.mp hkeys

theorem mem_replaceRow (hsorted : Sorted key values) (ha : a ∈ values)
    (hkey : key row = key a) :
    b ∈ replaceRow key row values ↔ b = row ∨ b ∈ values ∧ key b ≠ key a := by
  rw [(perm_replaceRow hsorted ha hkey).mem_iff, List.mem_cons, mem_others]

/-- What a sum over the rows gains when one of them is replaced. -/
theorem sum_replaceRow (w : α → Nat) (hsorted : Sorted key values)
    (ha : a ∈ values) (hkey : key row = key a) :
    ((replaceRow key row values).map w).sum + w a =
      (values.map w).sum + w row := by
  rw [List.Perm.sum_nat ((perm_replaceRow hsorted ha hkey).map w),
    List.Perm.sum_nat ((perm_others hsorted ha).map w),
    List.map_cons, List.map_cons, List.sum_cons, List.sum_cons]
  omega

theorem countP_replaceRow (p : α → Bool) (hsorted : Sorted key values)
    (ha : a ∈ values) (hkey : key row = key a) :
    (replaceRow key row values).countP p + (if p a then 1 else 0) =
      values.countP p + (if p row then 1 else 0) := by
  rw [(perm_replaceRow hsorted ha hkey).countP_eq,
    (perm_others hsorted ha).countP_eq, List.countP_cons, List.countP_cons]
  omega

theorem countP_replaceRow_le (p : α → Bool) (hsorted : Sorted key values)
    (ha : a ∈ values) (hkey : key row = key a) (h : p row = true → p a = true) :
    (replaceRow key row values).countP p ≤ values.countP p := by
  have hcount := countP_replaceRow p hsorted ha hkey
  by_cases hrow : p row = true
  · rw [if_pos hrow, if_pos (h hrow)] at hcount
    omega
  · rw [if_neg hrow] at hcount
    omega

theorem sorted_replaceRow (hsorted : Sorted key values) :
    Sorted key (replaceRow key row values) := by
  have hsame : ∀ a, key (if key a = key row then row else a) = key a := by
    intro a
    split
    · rename_i h
      exact h.symm
    · rfl
  exact hsorted.map hsame

theorem length_replaceRow :
    (replaceRow key row values).length = values.length :=
  List.length_map _

theorem updateFirst_eq_replaceRow [DecidableEq κ] (hsorted : Sorted key values)
    (ha : a ∈ values) (hkey : key a = id) (hrow : key (f a) = key a) :
    updateFirst (fun r => decide (key r = id)) f values =
      some (replaceRow key (f a) values) := by
  induction values with
  | nil => cases ha
  | cons head rest ih =>
      obtain ⟨hhead, htail⟩ := List.pairwise_cons.mp hsorted
      rw [replaceRow_cons]
      by_cases hb : key head = id
      · have heq : head = a :=
          hsorted.inj (List.mem_cons_self ..) ha (hb.trans hkey.symm)
        have hmap : replaceRow key (f a) rest = rest := by
          refine replaceRow_of_forall_ne fun r hr h => ?_
          exact absurd (hhead r hr)
            (by rw [hb, h, hrow, hkey]; exact lt_irrefl id)
        rw [hmap, heq, if_pos hrow.symm]
        simp only [updateFirst, hkey, decide_true, if_true]
      · have hrest := ih htail
          ((List.mem_cons.mp ha).resolve_left fun h => hb (by rw [← h, hkey]))
        have hstay : ¬ key head = key (f a) := by rw [hrow, hkey]; exact hb
        rw [if_neg hstay]
        simp only [updateFirst, hb, decide_false, Bool.false_eq_true, if_false,
          hrest, Option.map_some]

theorem set_eq_replaceRow (hsorted : Sorted key values) {i : Nat}
    (hget : values[i]? = some a) (hkey : key row = key a) :
    values.set i row = replaceRow key row values := by
  refine List.ext_getElem? fun j => ?_
  unfold replaceRow
  rw [List.getElem?_map, List.getElem?_set]
  by_cases hij : i = j
  · subst hij
    rw [if_pos rfl, hget, if_pos (List.getElem?_eq_some_iff.mp hget).1,
      Option.map_some, if_pos hkey.symm]
  · rw [if_neg hij]
    cases hj : values[j]? with
    | none => rfl
    | some b =>
        rw [Option.map_some, if_neg fun h => hij ?_]
        rw [hkey] at h
        rcases Nat.lt_trichotomy i j with hlt | heq | hlt
        · exact absurd h.symm (ne_of_lt (hsorted.lt hlt hget hj))
        · exact heq
        · exact absurd h (ne_of_lt (hsorted.lt hlt hj hget))

theorem modify_eq_replaceRow (hsorted : Sorted key values) {i : Nat}
    (hget : values[i]? = some a) (hkey : key (f a) = key a) :
    values.modify i f = replaceRow key (f a) values := by
  rw [← set_eq_replaceRow hsorted hget hkey]
  refine List.ext_getElem? fun j => ?_
  rw [List.getElem?_modify, List.getElem?_set]
  by_cases hij : i = j
  · subst hij
    rw [if_pos rfl, if_pos (List.getElem?_eq_some_iff.mp hget).1, hget]
    simp
  · simp [hij]

theorem removeFirst_sorted [DecidableEq κ] (hsorted : Sorted key values)
    (ha : a ∈ values) (hkey : key a = id) :
    removeFirst (fun r => decide (key r = id)) values =
      some (a, SortedTable.others key a values) := by
  induction values with
  | nil => cases ha
  | cons head rest ih =>
      rw [others_cons]
      by_cases hb : key head = id
      · have heq : head = a :=
          hsorted.inj List.mem_cons_self ha (hb.trans hkey.symm)
        have hne := hsorted.ne_of_cons
        rw [heq] at hne
        rw [if_pos (hb.trans hkey.symm), others_of_forall_ne hne, heq]
        simp only [removeFirst, hkey, decide_true, if_true]
      · have hrest := ih (List.pairwise_cons.mp hsorted).2
          ((List.mem_cons.mp ha).resolve_left fun h => hb (by rw [← h, hkey]))
        rw [if_neg fun h => hb (h.trans hkey)]
        simp only [removeFirst, hb, decide_false, Bool.false_eq_true, if_false,
          hrest, Option.map_some]

end Updates

section UpdateRow

variable {α κ : Type*} [LinearOrder κ]

/-- Every row of one identity goes through `f`. -/
def updateRow (key : α → κ) (id : κ) (f : α → α) (values : List α) : List α :=
  values.map fun a => if key a = id then f a else a

variable {key : α → κ} {values : List α} {id : κ} {f : α → α} {a b : α}

theorem modify_eq_updateRow (hsorted : Sorted key values) {i : Nat}
    (hindex : lookupIndex key id values = some i) :
    values.modify i f = updateRow key id f values := by
  obtain ⟨a, hget, hkey⟩ := lookupIndex_eq_some hindex
  refine List.ext_getElem? fun j => ?_
  rw [updateRow, List.getElem?_map, List.getElem?_modify]
  cases hj : values[j]? with
  | none => rfl
  | some b =>
      have hsame : key b = id ↔ i = j := by
        constructor
        · intro hb
          rcases Nat.lt_trichotomy i j with hlt | heq | hlt
          · exact absurd (hkey.trans hb.symm) (ne_of_lt (hsorted.lt hlt hget hj))
          · exact heq
          · exact absurd (hb.trans hkey.symm) (ne_of_lt (hsorted.lt hlt hj hget))
        · rintro rfl
          rw [hget, Option.some.injEq] at hj
          rw [← hj, hkey]
      simp only [Option.map_eq_map, Option.map_some, hsame]

theorem updateRow_of_forall_ne (hother : ∀ a ∈ values, key a ≠ id) :
    updateRow key id f values = values := by
  unfold updateRow
  exact (List.map_congr_left fun a ha => if_neg (hother a ha)).trans
    (List.map_id' values)

theorem updateFirst_eq_updateRow [DecidableEq κ] {updated : List α}
    (hunique : (values.map key).Nodup)
    (h : updateFirst (fun r => decide (key r = id)) f values = some updated) :
    updated = updateRow key id f values := by
  induction values generalizing updated with
  | nil => cases h
  | cons head rest ih =>
      obtain ⟨hfresh, hunique⟩ := List.nodup_cons.mp hunique
      unfold updateFirst at h
      by_cases hhead : key head = id
      · rw [if_pos (decide_eq_true hhead)] at h
        cases h
        have hrest : updateRow key id f rest = rest := by
          refine updateRow_of_forall_ne ?_
          intro a ha hkey
          apply hfresh
          rw [hhead, ← hkey]
          exact List.mem_map_of_mem ha
        unfold updateRow at hrest ⊢
        rw [List.map_cons, if_pos hhead, hrest]
      · rw [if_neg (by simpa using hhead)] at h
        obtain ⟨others, hothers, rfl⟩ := Option.map_eq_some_iff.mp h
        rw [ih hunique hothers]
        unfold updateRow
        rw [List.map_cons, if_neg hhead]

theorem mem_updateRow : b ∈ updateRow key id f values ↔
    (∃ a ∈ values, key a = id ∧ b = f a) ∨ b ∈ values ∧ key b ≠ id := by
  unfold updateRow
  rw [List.mem_map]
  constructor
  · rintro ⟨a, ha, rfl⟩
    by_cases hkey : key a = id
    · rw [if_pos hkey]
      exact .inl ⟨a, ha, hkey, rfl⟩
    · rw [if_neg hkey]
      exact .inr ⟨ha, hkey⟩
  · rintro (⟨a, ha, hkey, rfl⟩ | ⟨hb, hkey⟩)
    · exact ⟨a, ha, if_pos hkey⟩
    · exact ⟨b, hb, if_neg hkey⟩

theorem forall₂_updateRow {R : α → α → Prop} (hrefl : ∀ a, R a a)
    (hrow : ∀ a ∈ values, key a = id → R a (f a)) :
    List.Forall₂ R values (updateRow key id f values) := by
  unfold updateRow
  rw [List.forall₂_map_right_iff, List.forall₂_same]
  intro a ha
  by_cases hkey : key a = id
  · rw [if_pos hkey]
    exact hrow a ha hkey
  · rw [if_neg hkey]
    exact hrefl a

end UpdateRow

section Maps

variable {α κ : Type*} [LinearOrder κ] {key : α → κ} {values : List α} {id : κ}
  {f : α → α}

theorem lookup_map (hsorted : Sorted key values)
    (hkey : ∀ a, key (f a) = key a) :
    lookup key id (values.map f) = (lookup key id values).map f := by
  cases hfound : lookup key id values with
  | some a =>
      obtain ⟨ha, hid⟩ := mem_of_lookup hfound
      exact lookup_of_mem (hsorted.map hkey) (List.mem_map_of_mem ha)
        ((hkey a).trans hid)
  | none =>
      refine (lookup_eq_none_iff (hsorted.map hkey)).mpr ?_
      rintro b hb hid
      obtain ⟨a, ha, rfl⟩ := List.mem_map.mp hb
      exact (lookup_eq_none_iff hsorted).mp hfound a ha ((hkey a).symm.trans hid)

theorem lookup_replaceRow {row : α} (hsorted : Sorted key values) :
    lookup key id (replaceRow key row values) =
      (lookup key id values).map fun a => if key a = key row then row else a := by
  apply lookup_map hsorted
  intro a
  split
  · rename_i hsame
    exact hsame.symm
  · rfl

/-- Sorting rows of distinct keys gives a table. -/
theorem sorted_insertionSort (hunique : (values.map key).Nodup) :
    Sorted key (values.insertionSort fun a b => key a ≤ key b) := by
  have htotal : Std.Total fun a b : α => key a ≤ key b :=
    ⟨fun a b => le_total (key a) (key b)⟩
  have htrans : IsTrans α fun a b => key a ≤ key b :=
    ⟨fun _ _ _ => le_trans⟩
  have hordered :=
    List.pairwise_insertionSort (fun a b : α => key a ≤ key b) values
  have hne : (values.insertionSort fun a b => key a ≤ key b).Pairwise
      fun a b => key a ≠ key b := by
    have hperm := List.perm_insertionSort (fun a b : α => key a ≤ key b) values
    exact List.pairwise_map.mp ((hperm.map key).nodup_iff.mpr hunique)
  exact (hordered.and hne).imp fun h => lt_of_le_of_ne h.1 h.2

end Maps

/-! ### Tables with the same keys -/

section Keys

variable {α κ : Type*} [LinearOrder κ] {key : α → κ} {values values' : List α}
  {id : κ}

/-- The search looks at the keys only. -/
theorem searchBase_congr (hkeys : values'.map key = values.map key)
    (steps base size : Nat) : searchBase key id values' steps base size =
      searchBase key id values steps base size := by
  induction steps generalizing base size with
  | zero => rfl
  | succ steps ih =>
      have hget : values'[base + size / 2]?.map key =
          values[base + size / 2]?.map key := by
        rw [← List.getElem?_map, hkeys, List.getElem?_map]
      unfold searchBase
      split
      · rfl
      · cases hold : values[base + size / 2]? with
        | none =>
            rw [hold, Option.map_none, Option.map_eq_none_iff] at hget
            simp only [hget, hold]
        | some a =>
            rw [hold, Option.map_some, Option.map_eq_some_iff] at hget
            obtain ⟨b, hnew, hsame⟩ := hget
            simp only [hnew, hold, hsame]
            exact ih _ _

/-- What a lookup finds depends on a view of the rows that has their keys. -/
theorem lookup_congr {β : Type*} {view : α → β}
    (hkey : ∀ a b, view a = view b → key a = key b)
    (hview : values'.map view = values.map view) :
    (lookup key id values').map view = (lookup key id values).map view := by
  have hkeys : values'.map key = values.map key := by
    have hlength : values'.length = values.length := by
      simpa using congrArg List.length hview
    refine List.ext_getElem (by simpa using hlength) ?_
    intro i hi hi'
    have hget := congrArg (fun rows => rows[i]?) hview
    rw [List.length_map] at hi hi'
    simp only [List.getElem?_map, List.getElem?_eq_getElem hi,
      List.getElem?_eq_getElem hi', Option.map_some, Option.some.injEq] at hget
    rw [List.getElem_map, List.getElem_map]
    exact hkey _ _ hget
  have hlength : values'.length = values.length := by
    simpa using congrArg List.length hkeys
  unfold lookup
  dsimp only
  rw [hlength, searchBase_congr hkeys]
  have hget : values'[searchBase key id values values.length 0
      values.length]?.map view = values[searchBase key id values values.length 0
        values.length]?.map view := by
    rw [← List.getElem?_map, hview, List.getElem?_map]
  cases hold : values[searchBase key id values values.length 0 values.length]? with
  | none =>
      rw [hold, Option.map_none, Option.map_eq_none_iff] at hget
      rw [hget]
  | some a =>
      rw [hold, Option.map_some, Option.map_eq_some_iff] at hget
      obtain ⟨b, hnew, hsame⟩ := hget
      rw [hnew]
      dsimp only
      rw [hkey _ _ hsame]
      split
      · rw [Option.map_some, Option.map_some, hsame]
      · rfl

/-- Row by row, what a lookup finds in a table and in what it has become. -/
theorem rel_lookup {R : α → α → Prop} (hsorted : Sorted key values)
    (hrel : List.Forall₂ R values values') (hkey : ∀ a b, R a b → key b = key a) :
    Option.Rel R (lookup key id values) (lookup key id values') := by
  have hsorted' := hsorted.of_forall₂ hrel hkey
  cases hfound : lookup key id values with
  | none =>
      have hnone : lookup key id values' = none := by
        refine (lookup_eq_none_iff hsorted').mpr ?_
        intro b hb hid
        obtain ⟨i, hi⟩ := List.mem_iff_getElem?.mp hb
        obtain ⟨hlt, -⟩ := List.getElem?_eq_some_iff.mp hi
        have hlt' : i < values.length := by rwa [hrel.length_eq]
        have hrow := List.forall₂_iff_get.mp hrel
        have hR := hrow.2 i hlt' hlt
        rw [List.getElem?_eq_getElem hlt, Option.some.injEq] at hi
        refine (lookup_eq_none_iff hsorted).mp hfound values[i]
          (List.getElem_mem hlt') ?_
        rw [← hid, ← hi]
        exact (hkey _ _ hR).symm
      rw [hnone]
      exact .none
  | some a =>
      obtain ⟨ha, hid⟩ := mem_of_lookup hfound
      obtain ⟨i, hi⟩ := List.mem_iff_getElem?.mp ha
      obtain ⟨hlt, hget⟩ := List.getElem?_eq_some_iff.mp hi
      have hlt' : i < values'.length := by rwa [← hrel.length_eq]
      have hR := (List.forall₂_iff_get.mp hrel).2 i hlt hlt'
      rw [List.get_eq_getElem, hget] at hR
      rw [lookup_of_mem hsorted' (List.getElem_mem hlt')
        ((hkey _ _ hR).trans hid)]
      exact .some hR

end Keys

end Peritus.SortedTable
