namespace Tilework

abbrev Bytes := List UInt8

namespace Bytes

def ofText (text : String) : Bytes := text.toUTF8.toList

def text? (bytes : Bytes) : Option String := String.fromUTF8? (ByteArray.mk bytes.toArray)

abbrev Range := Nat × Nat

def laterBytes : Range := (0x80, 0xBF)

/-- What may follow the first byte of a character. After a byte that starts none, nothing may. -/
def rangesAfter (first : Nat) : List Range :=
  if first < 0xC2 then []
  else if first ≤ 0xDF then [laterBytes]
  else if first = 0xE0 then [(0xA0, 0xBF), laterBytes]
  else if first = 0xED then [(0x80, 0x9F), laterBytes]
  else if first ≤ 0xEF then [laterBytes, laterBytes]
  else if first = 0xF0 then [(0x90, 0xBF), laterBytes, laterBytes]
  else if first ≤ 0xF3 then [laterBytes, laterBytes, laterBytes]
  else if first = 0xF4 then [(0x80, 0x8F), laterBytes, laterBytes]
  else []

def countWithin : List Range → Bytes → Nat
  | (least, greatest) :: ranges, byte :: bytes =>
    if least ≤ byte.toNat ∧ byte.toNat ≤ greatest then countWithin ranges bytes + 1 else 0
  | _, _ => 0

def appendShown (text : String) : Bytes → String
  | [] => text
  | first :: rest =>
    let count := countWithin (rangesAfter first.toNat) rest
    let shown := (text? (first :: rest.take count)).getD "\uFFFD"
    appendShown (text ++ shown) (rest.drop count)
termination_by bytes => bytes.length
decreasing_by
  simp only [List.length_drop, List.length_cons]
  omega

/-- A text to show for any bytes. The replacement character stands for each longest start of a character that
does not go on as one, and for each byte that starts none. -/
def shownText (bytes : Bytes) : String := appendShown "" bytes

end Bytes

end Tilework
