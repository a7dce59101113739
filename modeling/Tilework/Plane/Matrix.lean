import Tilework.Plane.Range

namespace Tilework

structure Matrix where
  /-- The image of the first unit vector. -/
  x : Vec
  y : Vec
  deriving DecidableEq, Repr, Inhabited

namespace Matrix

def identity : Matrix := ⟨⟨1, 0⟩, ⟨0, 1⟩⟩

def rotate90 : Matrix := ⟨⟨0, 1⟩, ⟨-1, 0⟩⟩

def rotate180 : Matrix := ⟨⟨-1, 0⟩, ⟨0, -1⟩⟩

def rotate270 : Matrix := ⟨⟨0, -1⟩, ⟨1, 0⟩⟩

def flipX : Matrix := ⟨⟨-1, 0⟩, ⟨0, 1⟩⟩

def flipY : Matrix := ⟨⟨1, 0⟩, ⟨0, -1⟩⟩

def image (m : Matrix) (v : Vec) : Vec := m.x.scale v.x + m.y.scale v.y

def apply (m : Matrix) (v : Vec) : Checked Vec := do
  let a ← (m.x.scale v.x).fit
  let b ← (m.y.scale v.y).fit
  (a + b).fit

end Matrix

end Tilework
