import Tilework.Json.Numeral
import Tilework.Json.Quoted

namespace Tilework.Json

inductive Token where
  | openArray
  | closeArray
  | openObject
  | closeObject
  | comma
  | colon
  | null
  | bool (value : Bool)
  | number (n : Numeral)
  | text (t : Option String)
  deriving DecidableEq, Repr

def isBlank (c : Char) : Bool := c = ' ' || c = '\t' || c = '\n' || c = '\r'

namespace Numeral

theorem length_lt_of_digits? {chars found after : List Char} (h : digits? chars = some (found, after)) :
    after.length < chars.length := by
  unfold digits? at h
  split at h
  · simp at h
  · rename_i nonempty
    simp only [Option.some.injEq, Prod.mk.injEq] at h
    have total := congrArg List.length (List.takeWhile_append_dropWhile (p := Char.isDigit) (l := chars))
    have positive : 0 < (chars.takeWhile Char.isDigit).length :=
      List.length_pos_iff.mpr fun empty => nonempty empty
    rw [List.length_append] at total
    rw [← h.2]
    omega

theorem length_le_of_fraction? {chars after : List Char} {found : Option (List Char)}
    (h : fraction? chars = some (found, after)) : after.length ≤ chars.length := by
  unfold fraction? at h
  split at h
  · obtain ⟨⟨digits, rest⟩, read, same⟩ := Option.map_eq_some_iff.mp h
    have := length_lt_of_digits? read
    simp only [Prod.mk.injEq] at same
    simp only [List.length_cons, ← same.2]
    omega
  · simp only [Option.some.injEq, Prod.mk.injEq] at h
    exact Nat.le_of_eq (congrArg List.length h.2.symm)

theorem length_lt_of_exponentDigits? {negative : Bool} {chars after : List Char} {found : Option Exponent}
    (h : exponentDigits? negative chars = some (found, after)) : after.length < chars.length := by
  obtain ⟨⟨digits, rest⟩, read, same⟩ := Option.map_eq_some_iff.mp h
  have := length_lt_of_digits? read
  simp only [Prod.mk.injEq] at same
  rw [← same.2]
  exact this

theorem length_le_of_exponent? {chars after : List Char} {found : Option Exponent}
    (h : exponent? chars = some (found, after)) : after.length ≤ chars.length := by
  unfold exponent? at h
  split at h
  · split at h
    · split at h <;> have := length_lt_of_exponentDigits? h <;> simp only [List.length_cons] at * <;> omega
    · simp only [Option.some.injEq, Prod.mk.injEq] at h
      exact Nat.le_of_eq (congrArg List.length h.2.symm)
  · simp only [Option.some.injEq, Prod.mk.injEq] at h
    exact Nat.le_of_eq (congrArg List.length h.2.symm)

theorem length_lt_of_unsigned? {negative : Bool} {chars after : List Char} {n : Numeral}
    (h : unsigned? negative chars = some (n, after)) : after.length < chars.length := by
  simp only [unsigned?, Option.bind_eq_bind, Option.bind_eq_some_iff, Option.pure_def, Option.some.injEq,
    Prod.mk.injEq, Prod.exists] at h
  obtain ⟨_, wholeRest, whole, _, fractionRest, fraction, _, exponentRest, exponent, _, rfl⟩ := h
  have first : wholeRest.length < chars.length := by
    unfold whole? at whole
    split at whole
    · simp at whole
    · exact length_lt_of_digits? whole
  have second := length_le_of_fraction? fraction
  have third := length_le_of_exponent? exponent
  omega

theorem length_lt_of_read? {chars after : List Char} {n : Numeral} (h : read? chars = some (n, after)) :
    after.length < chars.length := by
  unfold read? at h
  split at h
  · have := length_lt_of_unsigned? h
    simp only [List.length_cons]
    omega
  · exact length_lt_of_unsigned? h

end Numeral

def token? (c : Char) (rest : List Char) : Option (Token × List Char) :=
  match c, rest with
  | '[', rest => some (.openArray, rest)
  | ']', rest => some (.closeArray, rest)
  | '{', rest => some (.openObject, rest)
  | '}', rest => some (.closeObject, rest)
  | ',', rest => some (.comma, rest)
  | ':', rest => some (.colon, rest)
  | 'n', 'u' :: 'l' :: 'l' :: rest => some (.null, rest)
  | 't', 'r' :: 'u' :: 'e' :: rest => some (.bool true, rest)
  | 'f', 'a' :: 'l' :: 's' :: 'e' :: rest => some (.bool false, rest)
  | '"', rest =>
    (Quoted.pieces? rest).map fun (pieces, after) =>
      (.text ((Quoted.assemble? pieces).map String.ofList), after)
  | c, rest => (Numeral.read? (c :: rest)).map fun (n, after) => (.number n, after)

theorem length_le_of_token? {c : Char} {rest after : List Char} {token : Token}
    (h : token? c rest = some (token, after)) : after.length ≤ rest.length := by
  unfold token? at h
  split at h
  case h_10 rest =>
    obtain ⟨⟨pieces, left⟩, read, same⟩ := Option.map_eq_some_iff.mp h
    have := Quoted.length_lt_of_pieces? read
    simp only [Prod.mk.injEq] at same
    rw [← same.2]
    omega
  case h_11 =>
    obtain ⟨⟨n, left⟩, read, same⟩ := Option.map_eq_some_iff.mp h
    have := Numeral.length_lt_of_read? read
    simp only [Prod.mk.injEq] at same
    rw [← same.2]
    simp only [List.length_cons] at this
    omega
  all_goals
    simp only [Option.some.injEq, Prod.mk.injEq] at h
    obtain ⟨_, rfl⟩ := h
    grind

def tokens? : List Char → Option (List Token)
  | [] => some []
  | c :: rest =>
    if isBlank c then tokens? rest
    else
      match _read : token? c rest with
      | none => none
      | some (token, after) => (tokens? after).map (token :: ·)
termination_by chars => chars.length
decreasing_by
  · simp only [List.length_cons]; omega
  · have := length_le_of_token? _read
    simp only [List.length_cons]
    omega

end Tilework.Json
