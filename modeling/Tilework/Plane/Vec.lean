namespace Tilework

def Coord.least : Int := -2147483648

def Coord.greatest : Int := 2147483647

def Coord.Fits (n : Int) : Prop := Coord.least ≤ n ∧ n ≤ Coord.greatest

instance (n : Int) : Decidable (Coord.Fits n) :=
  inferInstanceAs (Decidable (Coord.least ≤ n ∧ n ≤ Coord.greatest))

/-- Arithmetic on vectors is exact. `Vec.Fits` marks the vectors that a map may use, whose coordinates are 32-bit
numbers. -/
structure Vec where
  x : Int
  y : Int
  deriving DecidableEq, Repr, Inhabited

namespace Vec

def splat (n : Int) : Vec := ⟨n, n⟩

def zero : Vec := ⟨0, 0⟩

def one : Vec := ⟨1, 1⟩

instance : Add Vec := ⟨fun a b => ⟨a.x + b.x, a.y + b.y⟩⟩

instance : Sub Vec := ⟨fun a b => ⟨a.x - b.x, a.y - b.y⟩⟩

instance : Neg Vec := ⟨fun a => ⟨-a.x, -a.y⟩⟩

instance : Mul Vec := ⟨fun a b => ⟨a.x * b.x, a.y * b.y⟩⟩

def scale (a : Vec) (k : Int) : Vec := ⟨a.x * k, a.y * k⟩

def abs (a : Vec) : Vec := ⟨a.x.natAbs, a.y.natAbs⟩

@[simp] theorem add_x (a b : Vec) : (a + b).x = a.x + b.x := rfl

@[simp] theorem add_y (a b : Vec) : (a + b).y = a.y + b.y := rfl

@[simp] theorem sub_x (a b : Vec) : (a - b).x = a.x - b.x := rfl

@[simp] theorem sub_y (a b : Vec) : (a - b).y = a.y - b.y := rfl

@[simp] theorem neg_x (a : Vec) : (-a).x = -a.x := rfl

@[simp] theorem neg_y (a : Vec) : (-a).y = -a.y := rfl

@[simp] theorem mul_x (a b : Vec) : (a * b).x = a.x * b.x := rfl

@[simp] theorem mul_y (a b : Vec) : (a * b).y = a.y * b.y := rfl

@[ext] theorem ext {a b : Vec} (hx : a.x = b.x) (hy : a.y = b.y) : a = b := by
  cases a; cases b; simp_all

def min (a b : Vec) : Vec := ⟨Min.min a.x b.x, Min.min a.y b.y⟩

def max (a b : Vec) : Vec := ⟨Max.max a.x b.x, Max.max a.y b.y⟩

/-- Raised to `lo` first, then lowered to `hi`, so `hi` wins where the two cross. -/
def clamp (a lo hi : Vec) : Vec := (a.max lo).min hi

def minElement (a : Vec) : Int := Min.min a.x a.y

def Within (a bounds : Vec) : Prop := 0 ≤ a.x ∧ 0 ≤ a.y ∧ a.x < bounds.x ∧ a.y < bounds.y

instance (a bounds : Vec) : Decidable (a.Within bounds) :=
  inferInstanceAs (Decidable (0 ≤ a.x ∧ 0 ≤ a.y ∧ a.x < bounds.x ∧ a.y < bounds.y))

def Fits (a : Vec) : Prop := Coord.Fits a.x ∧ Coord.Fits a.y

instance (a : Vec) : Decidable a.Fits :=
  inferInstanceAs (Decidable (Coord.Fits a.x ∧ Coord.Fits a.y))

def order (a b : Vec) : Ordering := (compare a.x b.x).then (compare a.y b.y)

def notAfter (a b : Vec) : Bool := a.order b != .gt

instance : ToString Vec := ⟨fun a => "[" ++ toString a.x ++ "," ++ toString a.y ++ "]"⟩

end Vec

end Tilework
