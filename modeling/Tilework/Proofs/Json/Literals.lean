import Mathlib.Tactic.SplitIfs
import Tilework.Json.Write

namespace Tilework.Json

namespace Numeral

def Ends (rest : List Char) : Prop :=
  ∀ c after, rest = c :: after → c.isDigit = false ∧ c ≠ '.' ∧ c ≠ 'e' ∧ c ≠ 'E'

theorem ends_nil : Ends [] := fun _ _ h => nomatch h

theorem ends_cons {c : Char} (other : c.isDigit = false ∧ c ≠ '.' ∧ c ≠ 'e' ∧ c ≠ 'E') (after : List Char) :
    Ends (c :: after) := by
  intro d rest h
  cases h
  exact other

/-- The literal is read off from the front of what it is written before. -/
def Legible (n : Numeral) : Prop := ∀ rest, Ends rest → read? (n.chars ++ rest) = some (n, rest)

structure Digits (chars : List Char) : Prop where
  some_digit : chars ≠ []
  all : ∀ c ∈ chars, c.isDigit = true

structure Whole (chars : List Char) : Prop extends Digits chars where
  zero_alone : ∀ c rest, chars ≠ '0' :: c :: rest

inductive FractionWritten : Option (List Char) → List Char → Prop
  | none : FractionWritten none []
  | some {digits : List Char} : Digits digits → FractionWritten (some digits) ('.' :: digits)

inductive SignWritten : Bool → List Char → Prop
  | none : SignWritten false []
  | plus : SignWritten false ['+']
  | minus : SignWritten true ['-']

inductive ExponentWritten : Option Exponent → List Char → Prop
  | none : ExponentWritten none []
  | some {mark : Char} {negative : Bool} {sign digits : List Char} : mark = 'e' ∨ mark = 'E' →
    SignWritten negative sign → Digits digits → ExponentWritten (some ⟨negative, digits⟩) (mark :: (sign ++ digits))

inductive Written : Numeral → List Char → Prop
  | mk {negative : Bool} {whole f e : List Char} {fraction : Option (List Char)} {exponent : Option Exponent} :
    Whole whole → FractionWritten fraction f → ExponentWritten exponent e →
    Written ⟨negative, whole, fraction, exponent⟩ ((if negative then ['-'] else []) ++ (whole ++ (f ++ e)))

theorem digits?_append {digits rest : List Char} (run : Digits digits) (ends : ∀ c ∈ rest.head?, c.isDigit = false) :
    digits? (digits ++ rest) = some (digits, rest) := by
  have taken : (digits ++ rest).takeWhile Char.isDigit = digits := by
    rw [List.takeWhile_append_of_pos run.all]
    cases rest with
    | nil => simp
    | cons c after => simp [ends c rfl]
  have dropped : (digits ++ rest).dropWhile Char.isDigit = rest := by
    rw [List.dropWhile_append_of_pos run.all]
    cases rest with
    | nil => rfl
    | cons c after => simp [ends c rfl]
  unfold digits?
  rw [taken, dropped]
  cases digits with
  | nil => exact absurd rfl run.some_digit
  | cons c digits => rfl

theorem whole?_append {whole rest : List Char} (written : Whole whole) (ends : ∀ c ∈ rest.head?, c.isDigit = false) :
    whole? (whole ++ rest) = some (whole, rest) := by
  unfold whole?
  rw [digits?_append written.toDigits ends]
  split
  · rename_i second others after same
    simp only [Option.some.injEq, Prod.mk.injEq] at same
    exact absurd same.1 (written.zero_alone second others)
  · rfl

theorem fraction?_append {fraction : Option (List Char)} {chars rest : List Char}
    (written : FractionWritten fraction chars) (ends : ∀ c ∈ rest.head?, c.isDigit = false ∧ c ≠ '.') :
    fraction? (chars ++ rest) = some (fraction, rest) := by
  cases written with
  | none =>
    rw [List.nil_append]
    unfold fraction?
    split
    · exact absurd rfl (ends '.' rfl).2
    · rfl
  | some run => simp [fraction?, digits?_append run fun c first => (ends c first).1]

theorem exponentDigits?_append {negative : Bool} {digits rest : List Char} (run : Digits digits) (ends : Ends rest) :
    exponentDigits? negative (digits ++ rest) = some (some ⟨negative, digits⟩, rest) := by
  rw [exponentDigits?, digits?_append run]
  · rfl
  · intro c first
    obtain ⟨after, rfl⟩ := List.head?_eq_some_iff.mp first
    exact (ends c after rfl).1

theorem exponent?_append {exponent : Option Exponent} {chars rest : List Char}
    (written : ExponentWritten exponent chars) (ends : Ends rest) :
    exponent? (chars ++ rest) = some (exponent, rest) := by
  cases written with
  | none =>
    cases rest with
    | nil => rfl
    | cons c after =>
      obtain ⟨-, -, lower, upper⟩ := ends c after rfl
      simp [exponent?, lower, upper]
  | some mark sign run =>
    cases sign with
    | plus => simpa only [List.cons_append, List.nil_append, exponent?, if_pos mark] using exponentDigits?_append run ends
    | minus =>
      simpa only [List.cons_append, List.nil_append, exponent?, if_pos mark] using exponentDigits?_append run ends
    | none =>
      rename_i digits
      cases digits with
      | nil => exact absurd rfl run.some_digit
      | cons c others =>
        -- The first digit is not taken for a sign.
        have digit : c.isDigit = true := run.all c (by simp)
        have plus : c ≠ '+' := by
          rintro rfl
          cases digit
        have minus : c ≠ '-' := by
          rintro rfl
          cases digit
        rw [List.nil_append, List.cons_append, List.cons_append, exponent?, if_pos mark]
        · exact exponentDigits?_append run ends
        · rintro after ⟨⟩
          exact plus rfl
        · rintro after ⟨⟩
          exact minus rfl

theorem ExponentWritten.head {exponent : Option Exponent} {e rest : List Char} (written : ExponentWritten exponent e)
    (ends : Ends rest) : ∀ c ∈ (e ++ rest).head?, c.isDigit = false ∧ c ≠ '.' := by
  cases written with
  | none =>
    intro c first
    obtain ⟨after, rfl⟩ := List.head?_eq_some_iff.mp first
    obtain ⟨digit, point, -⟩ := ends c after rfl
    exact ⟨digit, point⟩
  | some mark =>
    rintro _ ⟨⟩
    rcases mark with rfl | rfl <;> decide

theorem FractionWritten.head {fraction : Option (List Char)} {f rest : List Char}
    (written : FractionWritten fraction f) (ends : ∀ c ∈ rest.head?, c.isDigit = false ∧ c ≠ '.') :
    ∀ c ∈ (f ++ rest).head?, c.isDigit = false := by
  cases written with
  | none => exact fun c first => (ends c first).1
  | some =>
    rintro _ ⟨⟩
    decide

theorem unsigned?_append {negative : Bool} {whole f e rest : List Char} {fraction : Option (List Char)}
    {exponent : Option Exponent} (digits : Whole whole) (part : FractionWritten fraction f)
    (power : ExponentWritten exponent e) (ends : Ends rest) :
    unsigned? negative (whole ++ (f ++ (e ++ rest))) = some (⟨negative, whole, fraction, exponent⟩, rest) := by
  have after := power.head ends
  simp [unsigned?, whole?_append digits (part.head after), fraction?_append part after, exponent?_append power ends]

theorem read?_append {n : Numeral} {chars rest : List Char} (written : Written n chars) (ends : Ends rest) :
    read? (chars ++ rest) = some (n, rest) := by
  cases written with
  | @mk negative whole f e fraction exponent digits part power =>
    have unsigned (sign : Bool) : unsigned? sign (whole ++ (f ++ (e ++ rest))) =
        some (⟨sign, whole, fraction, exponent⟩, rest) := unsigned?_append digits part power ends
    cases negative with
    | true => simpa only [if_true, List.append_assoc, List.cons_append, List.nil_append, read?] using unsigned true
    | false =>
      simp only [Bool.false_eq_true, if_false, List.nil_append, List.append_assoc]
      rw [← unsigned false]
      unfold read?
      split
      · rename_i same
        cases whole with
        | nil => exact absurd rfl digits.some_digit
        | cons c others =>
          cases same
          have digit := digits.all '-' (by simp)
          cases digit
      · rfl

theorem digits_of_digits? {chars digits rest : List Char} (read : digits? chars = some (digits, rest)) :
    Digits digits ∧ chars = digits ++ rest := by
  unfold digits? at read
  split at read
  · cases read
  · rename_i nonempty
    obtain ⟨rfl, rfl⟩ := Prod.mk.inj (Option.some.inj read)
    exact ⟨⟨nonempty, List.all_eq_true.mp List.all_takeWhile⟩, List.takeWhile_append_dropWhile.symm⟩

theorem whole_of_whole? {chars whole rest : List Char} (read : whole? chars = some (whole, rest)) :
    Whole whole ∧ chars = whole ++ rest := by
  unfold whole? at read
  split at read
  · cases read
  · rename_i alone
    obtain ⟨digits, split⟩ := digits_of_digits? read
    refine ⟨⟨digits, ?_⟩, split⟩
    rintro c others rfl
    exact alone c others rest read

theorem written_of_fraction? {chars rest : List Char} {fraction : Option (List Char)}
    (read : fraction? chars = some (fraction, rest)) : ∃ f, FractionWritten fraction f ∧ chars = f ++ rest := by
  unfold fraction? at read
  split at read
  · obtain ⟨⟨digits, after⟩, run, same⟩ := Option.map_eq_some_iff.mp read
    obtain ⟨rfl, rfl⟩ := Prod.mk.inj same
    obtain ⟨digits, rfl⟩ := digits_of_digits? run
    exact ⟨_, .some digits, rfl⟩
  · obtain ⟨rfl, rfl⟩ := Prod.mk.inj (Option.some.inj read)
    exact ⟨[], .none, rfl⟩

theorem written_of_exponentDigits? {negative : Bool} {mark : Char} {sign chars rest : List Char}
    {exponent : Option Exponent} (marked : mark = 'e' ∨ mark = 'E') (signed : SignWritten negative sign)
    (read : exponentDigits? negative chars = some (exponent, rest)) :
    ∃ e, ExponentWritten exponent e ∧ mark :: (sign ++ chars) = e ++ rest := by
  obtain ⟨⟨digits, after⟩, run, same⟩ := Option.map_eq_some_iff.mp read
  obtain ⟨rfl, rfl⟩ := Prod.mk.inj same
  obtain ⟨digits, rfl⟩ := digits_of_digits? run
  exact ⟨_, .some marked signed digits, by simp⟩

theorem written_of_exponent? {chars rest : List Char} {exponent : Option Exponent}
    (read : exponent? chars = some (exponent, rest)) : ∃ e, ExponentWritten exponent e ∧ chars = e ++ rest := by
  unfold exponent? at read
  split at read
  · split at read
    · rename_i marked
      split at read
      · exact written_of_exponentDigits? marked .plus read
      · exact written_of_exponentDigits? marked .minus read
      · exact written_of_exponentDigits? marked .none read
    · obtain ⟨rfl, rfl⟩ := Prod.mk.inj (Option.some.inj read)
      exact ⟨[], .none, rfl⟩
  · obtain ⟨rfl, rfl⟩ := Prod.mk.inj (Option.some.inj read)
    exact ⟨[], .none, rfl⟩

theorem written_of_unsigned? {negative : Bool} {chars rest : List Char} {n : Numeral}
    (read : unsigned? negative chars = some (n, rest)) :
    ∃ literal, Written n ((if negative then ['-'] else []) ++ literal) ∧ chars = literal ++ rest := by
  simp only [unsigned?, Option.bind_eq_bind, Option.bind_eq_some_iff, Option.pure_def, Option.some.injEq,
    Prod.mk.injEq, Prod.exists] at read
  obtain ⟨_, _, whole, _, _, fraction, _, _, exponent, rfl, rfl⟩ := read
  obtain ⟨digits, rfl⟩ := whole_of_whole? whole
  obtain ⟨f, part, rfl⟩ := written_of_fraction? fraction
  obtain ⟨e, power, rfl⟩ := written_of_exponent? exponent
  exact ⟨_, .mk digits part power, by simp⟩

theorem written_of_read? {chars rest : List Char} {n : Numeral} (read : read? chars = some (n, rest)) :
    ∃ literal, Written n literal ∧ chars = literal ++ rest := by
  unfold read? at read
  split at read
  all_goals
    obtain ⟨literal, written, rfl⟩ := written_of_unsigned? read
    exact ⟨_, written, rfl⟩

theorem Legible.written {n : Numeral} (legible : n.Legible) : n.Written n.chars := by
  obtain ⟨literal, written, same⟩ := written_of_read? (legible [] ends_nil)
  rw [List.append_nil, List.append_nil] at same
  rwa [same]

theorem head?_toDigits {n : Nat} (positive : 0 < n) : (Nat.toDigits 10 n).head? ≠ some '0' := by
  induction n using Nat.strongRecOn with
  | _ n ih =>
    by_cases small : n < 10
    · rw [Nat.toDigits_of_lt_base small]
      simp
      omega
    · have more := ih (n / 10) (by omega) (by omega)
      rw [Nat.toDigits_of_base_le (by decide) (Nat.le_of_not_lt small)]
      cases digits : Nat.toDigits 10 (n / 10) with
      | nil => exact absurd digits Nat.toDigits_ne_nil
      | cons c rest =>
        rw [digits] at more
        exact more

theorem whole_toDigits (n : Nat) : Whole (Nat.toDigits 10 n) := by
  refine ⟨⟨Nat.toDigits_ne_nil, fun c => Nat.isDigit_of_mem_toDigits (by decide) (by decide)⟩, ?_⟩
  intro c rest same
  rcases Nat.eq_zero_or_pos n with rfl | positive
  · rw [Nat.toDigits_zero] at same
    cases same
  · apply head?_toDigits positive
    rw [same]
    rfl

theorem ofInt_written (n : Int) : (ofInt n).Written (ofInt n).chars := by
  have written : Written (ofInt n) _ := .mk (whole_toDigits n.natAbs) .none .none
  simpa [ofInt, Numeral.chars] using written

theorem ofInt_legible (n : Int) : (ofInt n).Legible := fun _ => read?_append (ofInt_written n)

theorem digitsValue_toDigits (n : Nat) : Decimal.digitsValue (Nat.toDigits 10 n) = n := by
  have same : (fun n c => n * 10 + Decimal.digitValue c) = fun n c => 10 * n + (c.toNat - '0'.toNat) := by
    funext n c
    rw [Nat.mul_comm, Decimal.digitValue]
  rw [Decimal.digitsValue, same, ← Nat.ofDigitChars_eq_foldl]
  exact Nat.ofDigitChars_toDigits (by decide) (by decide)

theorem integer?_ofInt (n : Int) : (ofInt n).integer? = some n := by
  simp only [integer?, ofInt, digitsValue_toDigits, Option.isSome_none, Bool.or_self, Bool.false_eq_true, if_false,
    decide_eq_true_eq]
  split_ifs
  · omega
  · simp only [Option.some.injEq]
    omega
  · simp only [Option.some.injEq]
    omega

theorem integerIn?_ofInt {n lo hi : Int} (low : lo ≤ n) (high : n ≤ hi) : (ofInt n).integerIn? lo hi = some n := by
  simp [integerIn?, integer?_ofInt, low, high]

end Numeral

namespace Quoted

/-- The characters denote the piece: itself, an escape by a letter, or an escape by its code unit. -/
inductive Piece.Written : Piece → List Char → Prop
  | plain {c : Char} : c ≠ '"' → c ≠ '\\' → ¬c.toNat < 0x20 → Written (.char c) [c]
  | letter {letter c : Char} : escaped? letter = some c → Written (.char c) ['\\', letter]
  | unit {a b c d : Char} {n : Nat} : unit? a b c d = some n → Written (.ofUnit n) ['\\', 'u', a, b, c, d]

inductive PiecesWritten : List Piece → List Char → Prop
  | nil : PiecesWritten [] []
  | cons {piece : Piece} {pieces : List Piece} {chars more : List Char} : piece.Written chars →
    PiecesWritten pieces more → PiecesWritten (piece :: pieces) (chars ++ more)

/-- The characters are a literal of the text, quotes included, or of no text if the halves in it do not pair up. -/
inductive Written : Option String → List Char → Prop
  | mk {pieces : List Piece} {inner : List Char} : PiecesWritten pieces inner →
    Written ((assemble? pieces).map String.ofList) ('"' :: (inner ++ ['"']))

theorem pieces?_append {piece : Piece} {chars : List Char} (written : piece.Written chars) (tail : List Char) :
    pieces? (chars ++ tail) = (pieces? tail).map fun found => (piece :: found.1, found.2) := by
  cases written with
  | @plain c quote slash printed =>
    rw [List.singleton_append, pieces?.eq_def]
    split
    · contradiction
    · simp_all
    · simp_all
    · simp_all
    · rename_i same
      cases same
      rw [if_neg (by simp [slash, printed])]
      cases pieces? tail <;> rfl
  | @letter letter c known =>
    have other : letter ≠ 'u' := by
      rintro rfl
      cases known
    show pieces? ('\\' :: letter :: tail) = _
    rw [pieces?.eq_def]
    split
    · contradiction
    · simp_all
    · simp_all
    · rename_i same
      cases same
      rw [known]
      cases pieces? tail <;> rfl
    · rename_i escapes same
      cases same
      exact absurd rfl (escapes letter tail rfl)
  | unit known => cases read : pieces? tail <;> simp [pieces?, known, read]

theorem pieces?_written {pieces : List Piece} {inner : List Char} (written : PiecesWritten pieces inner)
    (rest : List Char) : pieces? (inner ++ '"' :: rest) = some (pieces, rest) := by
  induction written with
  | nil => rfl
  | cons first _ ih => rw [List.append_assoc, pieces?_append first, ih, Option.map_some]

theorem unit?_of_control {n : Nat} (control : n < 0x20) :
    unit? '0' '0' (Hexadecimal.digit (n / 16)) (Hexadecimal.digit (n % 16)) = some n := by
  have high := Hexadecimal.digitValue?_digit (n := n / 16) (by omega)
  have low := Hexadecimal.digitValue?_digit (n := n % 16) (by omega)
  have zero : Hexadecimal.digitValue? '0' = some 0 := by decide
  simp only [unit?, zero, high, low, Option.bind_eq_bind, Option.bind_some, Option.pure_def, Option.some.injEq]
  omega

theorem writeChar_written (c : Char) : (Piece.char c).Written (writeChar c) := by
  unfold writeChar
  split_ifs with quote slash backspace feed line carriage tab control
  · exact .letter (by rw [quote]; rfl)
  · exact .letter (by rw [slash]; rfl)
  · exact .letter (by rw [backspace]; rfl)
  · exact .letter (by rw [feed]; rfl)
  · exact .letter (by rw [line]; rfl)
  · exact .letter (by rw [carriage]; rfl)
  · exact .letter (by rw [tab]; rfl)
  · have unit : Piece.ofUnit c.toNat = .char c := by
      rw [Piece.ofUnit, if_neg (by omega), Char.ofNat_toNat]
    rw [← unit]
    exact .unit (unit?_of_control control)
  · exact .plain quote slash control

theorem writeChars_written (text : List Char) : PiecesWritten (text.map .char) (text.flatMap writeChar) := by
  induction text with
  | nil => exact .nil
  | cons c text ih => exact .cons (writeChar_written c) ih

theorem assemble?_chars (text : List Char) : assemble? (text.map .char) = some text := by
  induction text with
  | nil => rfl
  | cons c rest ih => simp [assemble?, ih]

theorem write_written (s : String) : Written (some s) (write s.toList) := by
  have written := Written.mk (writeChars_written s.toList)
  rwa [assemble?_chars, Option.map_some, String.ofList_toList] at written

end Quoted

end Tilework.Json
