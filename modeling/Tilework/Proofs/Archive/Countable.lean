import Tilework.Archive.Basic
import Tilework.Proofs.Archive.Record

namespace Tilework.Archive

def givenLength (bytes : Bytes) : Nat := ofLittleEndian ((bytes.drop 9).take 8)

/-- The mark and the flags are known ones, but what follows has another length than the header gives, and with the header
that length is more than can be counted. -/
structure Uncountable (bytes : Bytes) : Prop where
  whole : headerLength ≤ bytes.length
  mark : ofLittleEndian (bytes.take 4) = magic
  flags : bytes[4]? = some 0 ∨ bytes[4]? = some 1
  differs : bytes.length ≠ headerLength + givenLength bytes
  great : lengthLimit ≤ headerLength + givenLength bytes

theorem splitBytes?_eq_none {k : Nat} {bytes : Bytes} (h : splitBytes? k bytes = none) : bytes.length < k := by
  induction k generalizing bytes with
  | zero => cases h
  | succ k ih =>
    cases bytes with
    | nil => exact Nat.succ_pos k
    | cons b bytes => exact Nat.succ_lt_succ (ih (Option.map_eq_none_iff.mp h))

theorem header_append {word : Bytes} (count : word.length = headerLength) (payload : Bytes) :
    (word ++ payload).take 4 = word.take 4 ∧ (word ++ payload)[4]? = some ((word[4]?).getD 0) ∧
      givenLength (word ++ payload) = ofLittleEndian (word.drop 9) := by
  have width : word.length = 17 := count
  refine ⟨List.take_append_of_le_length (by omega), ?_, ?_⟩
  · rw [List.getElem?_append_left (by omega), List.getElem?_eq_getElem (by omega), Option.getD_some]
  · rw [givenLength, List.drop_append_of_le_length (by omega), List.take_left' (by rw [List.length_drop, width])]

theorem decode_eq_error_iff {bytes : Bytes} {cause : Fault} :
    decode bytes = .error cause ↔ cause = .overflow ∧ Uncountable bytes := by
  unfold decode decodeWithin
  cases split : splitBytes? headerLength bytes with
  | none =>
    have short := splitBytes?_eq_none split
    exact iff_of_false (fun h => nomatch h) fun h => Nat.not_le_of_lt short h.2.whole
  | some parts =>
    obtain ⟨word, payload⟩ := parts
    obtain ⟨rfl, count⟩ := splitBytes?_eq_some split
    obtain ⟨first, second, third⟩ := header_append count payload
    have total : (word ++ payload).length = headerLength + payload.length := by rw [List.length_append, count]
    simp only
    split
    · rename_i unmarked
      exact iff_of_false (fun h => nomatch h) fun h => unmarked (first ▸ h.2.mark)
    rename_i mark
    split
    · rename_i unknown
      refine iff_of_false (fun h => nomatch h) fun h => ?_
      have flags := h.2.flags
      rw [second, Option.some.injEq, Option.some.injEq] at flags
      exact flags.elim unknown.1 unknown.2
    rename_i known
    split
    · rename_i differs
      split
      · rename_i great
        refine ⟨fun h => ?_, fun h => h.1 ▸ rfl⟩
        cases h
        refine ⟨rfl, by omega, ?_, ?_, ?_, ?_⟩
        · rw [first]
          exact Decidable.not_not.mp mark
        · rw [second, Option.some.injEq, Option.some.injEq]
          exact Decidable.or_iff_not_not_and_not.mpr known
        · rw [total, third]
          exact fun same => differs (Nat.add_left_cancel same)
        · rw [third]
          exact great
      · rename_i counted
        exact iff_of_false (fun h => nomatch h) fun h => counted (third ▸ h.2.great)
    · rename_i same
      refine iff_of_false (fun h => nomatch h) fun h => h.2.differs ?_
      rw [total, third, Decidable.not_not.mp same]

theorem decode_ok_iff {bytes : Bytes} : (∃ found, decode bytes = .ok found) ↔ ¬Uncountable bytes := by
  cases decoded : decode bytes with
  | ok found =>
    refine iff_of_true ⟨found, rfl⟩ fun uncountable => ?_
    have faulted := decode_eq_error_iff.mpr ⟨rfl, uncountable⟩
    rw [decoded] at faulted
    cases faulted
  | error cause =>
    have uncountable := (decode_eq_error_iff.mp decoded).2
    exact iff_of_false (fun ⟨_, h⟩ => nomatch h) fun countable => countable uncountable

end Tilework.Archive
