namespace Tilework.Sorted

def insert {α : Type} (le : α → α → Bool) (x : α) : List α → List α
  | [] => [x]
  | y :: rest => if le x y then x :: y :: rest else y :: insert le x rest

/-- Stable sort: entries that may precede each other keep their order. -/
def sort {α : Type} (le : α → α → Bool) : List α → List α
  | [] => []
  | x :: rest => insert le x (sort le rest)

def dedup {α : Type} [DecidableEq α] : List α → List α
  | [] => []
  | [x] => [x]
  | x :: y :: rest => if x = y then dedup (y :: rest) else x :: dedup (y :: rest)

def firstRepeat? {α : Type} (same : α → α → Bool) : List α → Option α
  | [] => none
  | [_] => none
  | x :: y :: rest => if same x y then some x else firstRepeat? same (y :: rest)

/-- The position, among those from `lo` up to but not including `hi`, of an entry that `probe` calls equal. -/
def searchIn {α : Type} (probe : α → Ordering) (items : Array α) (lo hi : Nat) : Option Nat :=
  if lo < hi then
    let middle := lo + (hi - lo) / 2
    match items[middle]? with
    | none => none
    | some item =>
      match probe item with
      | .lt => searchIn probe items (middle + 1) hi
      | .gt => searchIn probe items lo middle
      | .eq => some middle
  else none
termination_by hi - lo

def search? {α : Type} (probe : α → Ordering) (items : Array α) : Option Nat :=
  searchIn probe items 0 items.size

section Lemmas

variable {α : Type} {le : α → α → Bool}

theorem insert_perm (x : α) (items : List α) : (insert le x items).Perm (x :: items) := by
  induction items with
  | nil => exact .refl _
  | cons y rest ih =>
    unfold insert
    split
    · exact .refl _
    · exact (ih.cons y).trans (.swap x y rest)

theorem sort_perm (items : List α) : (sort le items).Perm items := by
  induction items with
  | nil => exact .refl _
  | cons x rest ih => exact (insert_perm x _).trans (ih.cons x)

theorem mem_sort {items : List α} {x : α} : x ∈ sort le items ↔ x ∈ items := (sort_perm items).mem_iff

theorem insert_pairwise (total : ∀ a b, le a b = true ∨ le b a = true)
    (trans : ∀ a b c, le a b = true → le b c = true → le a c = true) (x : α) {items : List α}
    (sorted : items.Pairwise fun a b => le a b = true) :
    (insert le x items).Pairwise fun a b => le a b = true := by
  induction items with
  | nil => simp [insert]
  | cons y rest ih =>
    obtain ⟨first, tail⟩ := List.pairwise_cons.mp sorted
    unfold insert
    split
    · rename_i before
      refine List.pairwise_cons.mpr ⟨?_, sorted⟩
      intro z member
      rcases List.mem_cons.mp member with rfl | member
      · exact before
      · exact trans _ _ _ before (first z member)
    · rename_i after
      refine List.pairwise_cons.mpr ⟨?_, ih tail⟩
      intro z member
      rcases List.mem_cons.mp ((insert_perm x rest).mem_iff.mp member) with rfl | member
      · exact (total z y).resolve_left after
      · exact first z member

theorem sort_pairwise (total : ∀ a b, le a b = true ∨ le b a = true)
    (trans : ∀ a b c, le a b = true → le b c = true → le a c = true) (items : List α) :
    (sort le items).Pairwise fun a b => le a b = true := by
  induction items with
  | nil => exact .nil
  | cons x rest ih => exact insert_pairwise total trans x ih

end Lemmas

end Tilework.Sorted
