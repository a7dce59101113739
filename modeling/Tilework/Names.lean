import Tilework.Sorted

namespace Tilework

class Named (α : Type) where
  name : α → String

export Named (name)

instance : Named String := ⟨id⟩

namespace Names

variable {α : Type} [Named α]

def le (a b : α) : Bool := decide (name a ≤ name b)

def sort (items : List α) : List α := Sorted.sort le items

/-- The first entry with the same name as its successor, in a list sorted by name. -/
def duplicate? (items : List α) : Option α := Sorted.firstRepeat? (fun a b => name a == name b) items

def index? (items : Array α) (key : String) : Option Nat :=
  Sorted.search? (fun item => compare (name item) key) items

def contains (items : Array α) (key : String) : Bool := (index? items key).isSome

theorem sort_pairwise (items : List α) : (sort items).Pairwise fun a b => name a ≤ name b := by
  have sorted : (sort items).Pairwise fun a b => le a b = true := by
    refine Sorted.sort_pairwise ?_ ?_ items
    · intro a b
      simp only [le, decide_eq_true_eq]
      exact String.le_total _ _
    · intro a b c
      simp only [le, decide_eq_true_eq]
      exact String.le_trans
  exact sorted.imp fun h => by simpa [le] using h

end Names

end Tilework
