import Peritus.SortedTable

/-!
Maps kept as lists of pairs in strictly ascending key order, under the insertion
that replaces the value of a key it meets again.
-/

namespace Peritus.SortedMap

open SortedTable

variable {κ α : Type*} [LinearOrder κ]

def insert (key : κ) (value : α) : List (κ × α) → List (κ × α)
  | [] => [(key, value)]
  | (other, kept) :: rest =>
      if key < other then (key, value) :: (other, kept) :: rest
      else if key = other then (key, value) :: rest
      else (other, kept) :: insert key value rest

def get? (key : κ) : List (κ × α) → Option α
  | [] => none
  | (other, value) :: rest => if key = other then some value else get? key rest

def containsKey (key : κ) (members : List (κ × α)) : Bool :=
  members.any fun member => decide (member.1 = key)

/-- A map collected from pairs, the last of each key. -/
def collect (pairs : List (κ × α)) : List (κ × α) :=
  pairs.foldl (fun members pair => insert pair.1 pair.2 members) []

variable {key other : κ} {value : α} {members : List (κ × α)}

@[simp] theorem get?_nil : get? key ([] : List (κ × α)) = none := rfl

theorem get?_cons {kept : κ} {found : α} {rest : List (κ × α)} :
    get? other ((kept, found) :: rest) =
      if other = kept then some found else get? other rest := rfl

@[simp] theorem get?_insert :
    get? other (insert key value members) =
      if other = key then some value else get? other members := by
  induction members with
  | nil => rfl
  | cons member rest ih =>
      obtain ⟨kept, found⟩ := member
      unfold insert
      split
      · rfl
      · split
        · rename_i heq
          subst heq
          rw [get?_cons, get?_cons]
          split
          · rfl
          · rfl
        · rename_i hne
          rw [get?_cons, get?_cons, ih]
          by_cases hother : other = kept
          · have hkey : other ≠ key := fun h => hne (h.symm.trans hother)
            rw [if_pos hother, if_neg hkey, if_pos hother]
          · rw [if_neg hother, if_neg hother]

theorem mem_insert {member : κ × α} (h : member ∈ insert key value members) :
    member = (key, value) ∨ member ∈ members := by
  induction members with
  | nil => exact .inl (List.mem_singleton.mp h)
  | cons head rest ih =>
      obtain ⟨kept, found⟩ := head
      unfold insert at h
      split at h
      · exact List.mem_cons.mp h
      · split at h
        · exact (List.mem_cons.mp h).imp_right (List.mem_cons_of_mem _)
        · rcases List.mem_cons.mp h with rfl | h
          · exact .inr List.mem_cons_self
          · exact (ih h).imp_right (List.mem_cons_of_mem _)

theorem mem_insert_self : (key, value) ∈ insert key value members := by
  induction members with
  | nil => exact List.mem_cons_self
  | cons head rest ih =>
      obtain ⟨kept, found⟩ := head
      unfold insert
      split
      · exact List.mem_cons_self
      · split
        · exact List.mem_cons_self
        · exact List.mem_cons_of_mem _ ih

theorem containsKey_insert (h : containsKey other members = true) :
    containsKey other (insert key value members) = true := by
  induction members with
  | nil => cases h
  | cons head rest ih =>
      obtain ⟨kept, found⟩ := head
      simp only [containsKey, List.any_cons, Bool.or_eq_true,
        decide_eq_true_eq] at h ih ⊢
      unfold insert
      split
      · simp only [List.any_cons, Bool.or_eq_true, decide_eq_true_eq]
        exact .inr h
      · split
        · rename_i heq
          subst heq
          simpa only [List.any_cons, Bool.or_eq_true, decide_eq_true_eq] using h
        · simp only [List.any_cons, Bool.or_eq_true, decide_eq_true_eq]
          exact h.imp_right ih

theorem sorted_insert (hsorted : Sorted Prod.fst members) :
    Sorted Prod.fst (insert key value members) := by
  induction members with
  | nil => exact List.pairwise_singleton _ _
  | cons head rest ih =>
      obtain ⟨kept, found⟩ := head
      obtain ⟨hhead, hrest⟩ := List.pairwise_cons.mp hsorted
      unfold insert
      split
      · rename_i hlt
        refine List.pairwise_cons.mpr ⟨fun member hmember => ?_, hsorted⟩
        rcases List.mem_cons.mp hmember with rfl | hmember
        · exact hlt
        · exact hlt.trans (hhead member hmember)
      · rename_i hnotlt
        split
        · rename_i heq
          subst heq
          exact List.pairwise_cons.mpr ⟨hhead, hrest⟩
        · rename_i hne
          refine List.pairwise_cons.mpr ⟨fun member hmember => ?_, ih hrest⟩
          rcases mem_insert hmember with rfl | hmember
          · exact lt_of_le_of_ne (not_lt.mp hnotlt) fun h => hne h.symm
          · exact hhead member hmember

/-- The greatest key goes last. -/
theorem insert_of_greatest (h : ∀ member ∈ members, member.1 < key) :
    insert key value members = members ++ [(key, value)] := by
  induction members with
  | nil => rfl
  | cons head rest ih =>
      obtain ⟨kept, found⟩ := head
      have hlt : kept < key := h _ List.mem_cons_self
      unfold insert
      rw [if_neg hlt.not_gt, if_neg hlt.ne',
        ih fun member hmember => h member (List.mem_cons_of_mem _ hmember)]
      rfl

/-- Pairs in ascending key order are the map they are collected into. -/
theorem collect_of_sorted {pairs : List (κ × α)}
    (hsorted : Sorted Prod.fst pairs) : collect pairs = pairs := by
  have hfold : ∀ (pairs members : List (κ × α)),
      Sorted Prod.fst (members ++ pairs) →
      pairs.foldl (fun members pair => insert pair.1 pair.2 members) members =
        members ++ pairs := by
    intro pairs
    induction pairs with
    | nil => exact fun members _ => (List.append_nil members).symm
    | cons pair rest ih =>
        intro members hsorted
        obtain ⟨-, -, hbetween⟩ := List.pairwise_append.mp hsorted
        rw [List.foldl_cons, insert_of_greatest fun member hmember =>
          hbetween member hmember pair List.mem_cons_self]
        have hassoc : members ++ [(pair.1, pair.2)] ++ rest =
            members ++ pair :: rest := List.append_cons members pair rest |>.symm
        rw [← hassoc] at hsorted ⊢
        exact ih _ hsorted
  exact hfold pairs [] hsorted

end Peritus.SortedMap
