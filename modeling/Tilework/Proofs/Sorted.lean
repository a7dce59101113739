import Mathlib.Data.List.Forall2
import Tilework.Sorted

namespace Tilework.Sorted

variable {α β : Type}

section Dedup

variable [DecidableEq α]

theorem mem_dedup {items : List α} {x : α} : x ∈ dedup items ↔ x ∈ items := by
  fun_induction dedup items with
  | case1 => rfl
  | case2 y => rfl
  | case3 y rest ih =>
    rw [ih]
    simp
  | case4 y z rest apart ih => rw [List.mem_cons, ih, List.mem_cons (b := y)]

/-- In the result no two entries are equal, as an entry between two equal ones would be equal to both. -/
theorem dedup_pairwise {r : α → α → Prop} (antisymm : ∀ a b, r a b → r b a → a = b) {items : List α}
    (sorted : items.Pairwise r) : (dedup items).Pairwise fun a b => r a b ∧ a ≠ b := by
  fun_induction dedup items with
  | case1 => exact .nil
  | case2 y => exact List.pairwise_singleton _ _
  | case3 y rest ih => exact ih (List.pairwise_cons.mp sorted).2
  | case4 y z rest apart ih =>
    obtain ⟨before, later⟩ := List.pairwise_cons.mp sorted
    refine List.pairwise_cons.mpr ⟨?_, ih later⟩
    intro x member
    have listed := mem_dedup.mp member
    refine ⟨before x listed, ?_⟩
    rintro rfl
    rcases List.mem_cons.mp listed with rfl | beyond
    · exact apart rfl
    · exact apart (antisymm y z (before z (by simp)) ((List.pairwise_cons.mp later).1 y beyond))

end Dedup

variable {le : α → α → Bool}

theorem sort_key_pairwise (key : α → Nat) (items : List α) :
    (sort (fun a b => key a ≤ key b) items).Pairwise fun a b => key a ≤ key b := by
  apply (sort_pairwise _ _ items).imp of_decide_eq_true
  · intro a b
    simp only [decide_eq_true_eq]
    exact Nat.le_total _ _
  · intro a b c
    simp only [decide_eq_true_eq]
    exact Nat.le_trans

theorem sort_eq_of_perm (total : ∀ a b, le a b = true ∨ le b a = true)
    (trans : ∀ a b c, le a b = true → le b c = true → le a c = true) {items others : List α}
    (antisymm : ∀ a ∈ items, ∀ b ∈ items, le a b = true → le b a = true → a = b) (perm : items.Perm others) :
    sort le items = sort le others := by
  have sorted : (sort le items).Perm (sort le others) := ((sort_perm items).trans perm).trans (sort_perm others).symm
  refine sorted.eq_of_pairwise ?_ (sort_pairwise total trans items) (sort_pairwise total trans others)
  intro a b first second
  have inside := perm.mem_iff.mpr (mem_sort.mp second)
  exact antisymm a (mem_sort.mp first) b inside

section Stable

variable {p : α → Bool}

theorem filter_insert (alike : ∀ a b, p a = true → p b = true → le a b = true) (x : α) (items : List α) :
    (insert le x items).filter p = (x :: items).filter p := by
  induction items with
  | nil => rfl
  | cons y rest ih =>
    unfold insert
    split
    · rfl
    · rename_i after
      rw [List.filter_cons, ih]
      by_cases kind : p x = true
      · have other : ¬p y = true := fun same => after (alike x y kind same)
        simp [kind, other]
      · simp [List.filter_cons, kind]

theorem filter_sort (alike : ∀ a b, p a = true → p b = true → le a b = true) (items : List α) :
    (sort le items).filter p = items.filter p := by
  induction items with
  | nil => rfl
  | cons x rest ih =>
    rw [sort, filter_insert alike, List.filter_cons, List.filter_cons, ih]

end Stable

theorem sort_forall₂ {le' : β → β → Bool} {r : α → β → Prop} (alike : ∀ a b c d, r a c → r b d → le a b = le' c d)
    {items : List α} {others : List β} (same : List.Forall₂ r items others) :
    List.Forall₂ r (sort le items) (sort le' others) := by
  have insertion : ∀ {a c} {xs : List α} {ys : List β}, r a c → List.Forall₂ r xs ys →
      List.Forall₂ r (insert le a xs) (insert le' c ys) := by
    intro a c xs ys first rest
    induction rest with
    | nil => exact .cons first .nil
    | cons next others ih =>
      unfold insert
      rw [alike _ _ _ _ first next]
      split
      · exact .cons first (.cons next others)
      · exact .cons next ih
  induction same with
  | nil => exact .nil
  | cons first _ ih => exact insertion first ih

theorem firstRepeat?_eq_none {same : α → α → Bool} {items : List α}
    (apart : items.Pairwise fun a b => same a b = false) : firstRepeat? same items = none := by
  fun_induction firstRepeat? same items with
  | case1 => rfl
  | case2 => rfl
  | case3 first second rest equal =>
    have different := (List.pairwise_cons.mp apart).1 second (by simp)
    rw [equal] at different
    cases different
  | case4 first second rest different ih => exact ih (List.pairwise_cons.mp apart).2

theorem firstRepeat?_eq_some {same : α → α → Bool} {items : List α} {x : α} (h : firstRepeat? same items = some x) :
    ∃ before y after, items = before ++ x :: y :: after ∧ same x y = true := by
  fun_induction firstRepeat? same items with
  | case1 => cases h
  | case2 => cases h
  | case3 first second rest equal =>
    cases h
    exact ⟨[], second, rest, rfl, equal⟩
  | case4 first second rest different ih =>
    obtain ⟨before, y, after, split, equal⟩ := ih h
    exact ⟨first :: before, y, after, by rw [split, List.cons_append], equal⟩

theorem searchIn_map {f : α → β} {probe : β → Ordering} {items : Array α} {lo hi : Nat} :
    searchIn probe (items.map f) lo hi = searchIn (fun item => probe (f item)) items lo hi := by
  fun_induction searchIn (fun item => probe (f item)) items lo hi with
  | case1 lo hi less middle none =>
    rw [searchIn, if_pos less]
    simp [Array.getElem?_map, middle, none]
  | case2 lo hi less middle item found below ih =>
    rw [searchIn, if_pos less]
    simp [Array.getElem?_map, middle, found, below, ih]
  | case3 lo hi less middle item found above ih =>
    rw [searchIn, if_pos less]
    simp [Array.getElem?_map, middle, found, above, ih]
  | case4 lo hi less middle item found equal =>
    rw [searchIn, if_pos less]
    simp [Array.getElem?_map, middle, found, equal]
  | case5 lo hi empty => rw [searchIn, if_neg empty]

end Tilework.Sorted
