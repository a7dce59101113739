import Tilework.Archive.Basic
import Tilework.Proofs.Bytes

namespace Tilework.Archive

theorem ofLittleEndian_lt (word : Bytes) : ofLittleEndian word < 1 <<< (8 * word.length) := by
  induction word with
  | nil => simp [ofLittleEndian]
  | cons b rest ih =>
    have low := b.toNat_lt
    rw [List.length_cons, Nat.mul_succ, Nat.shiftLeft_add, Nat.shiftLeft_eq _ 8]
    simp only [ofLittleEndian]
    omega

theorem littleEndian_ofLittleEndian (word : Bytes) : littleEndian word.length (ofLittleEndian word) = word := by
  induction word with
  | nil => rfl
  | cons b rest ih =>
    have low := b.toNat_lt
    have quotient : (b.toNat + 256 * ofLittleEndian rest) / 256 = ofLittleEndian rest := by omega
    have remainder : UInt8.ofNat (b.toNat + 256 * ofLittleEndian rest) = b := by
      apply UInt8.toNat_inj.mp
      rw [UInt8.toNat_ofNat']
      omega
    simp only [List.length_cons, ofLittleEndian, littleEndian, remainder, quotient, ih]

theorem splitBytes?_eq_some {k : Nat} {bytes word rest : Bytes} (h : splitBytes? k bytes = some (word, rest)) :
    bytes = word ++ rest ∧ word.length = k := by
  induction k generalizing bytes word with
  | zero =>
    cases h
    exact ⟨rfl, rfl⟩
  | succ k ih =>
    cases bytes with
    | nil => cases h
    | cons b bytes =>
      obtain ⟨⟨others, last⟩, split, same⟩ := Option.map_eq_some_iff.mp h
      cases same
      obtain ⟨rfl, rfl⟩ := ih split
      exact ⟨rfl, rfl⟩

theorem number?_eq_some {k n : Nat} {bytes rest : Bytes} (h : number? k bytes = some (n, rest)) :
    bytes = littleEndian k n ++ rest ∧ n < 1 <<< (8 * k) := by
  obtain ⟨⟨word, last⟩, split, same⟩ := Option.map_eq_some_iff.mp h
  cases same
  obtain ⟨rfl, rfl⟩ := splitBytes?_eq_some split
  rw [littleEndian_ofLittleEndian]
  exact ⟨rfl, ofLittleEndian_lt word⟩

section Laws

variable {α : Type}

/-- What was written is read, whatever follows it. -/
def ReadsBack (write : α → Bytes) (read : Reader α) (a : α) : Prop := ∀ rest, read (write a ++ rest) = some (a, rest)

/-- What is read is what would have been written. -/
def Canonical (write : α → Bytes) (read : Reader α) : Prop :=
  ∀ ⦃bytes a rest⦄, read bytes = some (a, rest) → bytes = write a ++ rest

variable {write : α → Bytes} {read : Reader α}

theorem readCount_writeCount {n : Nat} (short : n < lengthLimit) (rest : Bytes) :
    number? 8 (writeCount n ++ rest) = some (n, rest) := number?_littleEndian short rest

theorem readItems_flatMap {items : List α} (each : ∀ item ∈ items, ReadsBack write read item) (rest : Bytes) :
    readItems read items.length (items.flatMap write ++ rest) = some (items, rest) := by
  induction items with
  | nil => rfl
  | cons item items ih =>
    have first := each item (by simp) (items.flatMap write ++ rest)
    have others := ih fun other member => each other (by simp [member])
    simp [readItems, first, others]

theorem readItems_eq_some (canonical : Canonical write read) {n : Nat} {bytes rest : Bytes} {items : List α}
    (h : readItems read n bytes = some (items, rest)) : items.length = n ∧ bytes = items.flatMap write ++ rest := by
  induction n generalizing bytes items with
  | zero =>
    cases h
    exact ⟨rfl, rfl⟩
  | succ n ih =>
    obtain ⟨⟨item, bytes'⟩, first, h⟩ := Option.bind_eq_some_iff.mp h
    obtain ⟨⟨others, last⟩, later, h⟩ := Option.bind_eq_some_iff.mp h
    cases h
    obtain ⟨count, same⟩ := ih later
    constructor
    · rw [List.length_cons, count]
    · rw [canonical first, same, List.flatMap_cons, List.append_assoc]

theorem readList_writeList {items : List α} (short : items.length < lengthLimit)
    (each : ∀ item ∈ items, ReadsBack write read item) : ReadsBack (writeList write) (readList read) items := by
  intro rest
  rw [writeList, List.append_assoc, readList, readCount_writeCount short]
  exact readItems_flatMap each rest

theorem readList_canonical (canonical : Canonical write read) : Canonical (writeList write) (readList read) := by
  intro bytes items rest h
  obtain ⟨⟨n, bytes'⟩, count, content⟩ := Option.bind_eq_some_iff.mp h
  obtain ⟨length, same⟩ := readItems_eq_some canonical content
  rw [(number?_eq_some count).1, same, writeList, length, List.append_assoc]
  rfl

theorem length_le_writeList {items : List α} (some_bytes : ∀ item ∈ items, 1 ≤ (write item).length) :
    items.length ≤ (writeList write items).length := by
  rw [writeList, List.length_append]
  induction items with
  | nil => exact Nat.zero_le _
  | cons item items ih =>
    have first := some_bytes item (by simp)
    have others := ih fun other member => some_bytes other (by simp [member])
    simp only [writeCount, length_littleEndian, List.flatMap_cons, List.length_cons, List.length_append] at others ⊢
    omega

theorem length_le_of_mem_writeList {items : List α} {item : α} (member : item ∈ items) :
    (write item).length ≤ (writeList write items).length := by
  rw [writeList, List.length_append]
  induction items with
  | nil => cases member
  | cons first items ih =>
    simp only [writeCount, length_littleEndian, List.flatMap_cons, List.length_append] at ih ⊢
    rcases List.mem_cons.mp member with rfl | member
    · omega
    · have others := ih member
      omega

theorem readOption_writeOption {slot : Option α} (each : ∀ a ∈ slot, ReadsBack write read a) :
    ReadsBack (writeOption write) (readOption read) slot := by
  intro rest
  cases slot with
  | none => rfl
  | some a =>
    have content := each a rfl rest
    simp [writeOption, readOption, content]

theorem readOption_canonical (canonical : Canonical write read) :
    Canonical (writeOption write) (readOption read) := by
  intro bytes slot rest h
  unfold readOption at h
  split at h
  · cases h
    rfl
  · obtain ⟨⟨a, last⟩, content, h⟩ := Option.bind_eq_some_iff.mp h
    cases h
    rw [canonical content]
    rfl
  · cases h

end Laws

theorem readCoordinate_writeCoordinate {n : Int} (fits : Coord.Fits n) :
    ReadsBack writeCoordinate readCoordinate n := by
  intro rest
  have small : (n % 0x100000000).toNat < 1 <<< (8 * 4) := by
    simp only [Nat.reduceMul, Nat.reduceShiftLeft]
    omega
  rw [writeCoordinate, readCoordinate, number?_littleEndian small]
  simp only [Coord.Fits, Coord.least, Coord.greatest] at fits
  simp only [Option.bind_eq_bind, Option.bind_some, Option.pure_def, Option.some.injEq, Prod.mk.injEq, and_true]
  split <;> omega

theorem readCoordinate_canonical : Canonical writeCoordinate readCoordinate := by
  intro bytes n rest h
  obtain ⟨⟨m, last⟩, number, h⟩ := Option.bind_eq_some_iff.mp h
  cases h
  obtain ⟨same, small⟩ := number?_eq_some number
  simp only [Nat.reduceMul, Nat.reduceShiftLeft] at small
  have back : ((if m < 0x80000000 then (m : Int) else m - 0x100000000) % 0x100000000).toNat = m := by
    split <;> omega
  rw [same, writeCoordinate, back]

theorem readWord_writeWord (n : UInt32) : ReadsBack writeWord readWord n := by
  intro rest
  rw [writeWord, readWord, number?_littleEndian n.toNat_lt]
  simp

theorem readWord_canonical : Canonical writeWord readWord := by
  intro bytes n rest h
  obtain ⟨⟨m, last⟩, number, h⟩ := Option.bind_eq_some_iff.mp h
  cases h
  obtain ⟨same, small⟩ := number?_eq_some number
  rw [same, writeWord, UInt32.toNat_ofNat_of_lt' small]

theorem writeString_eq (s : String) : writeString s = writeCount (Bytes.ofText s).length ++ Bytes.ofText s := by
  rw [writeString, writeList, List.flatMap_singleton']

theorem readString_writeString {s : String} (short : (Bytes.ofText s).length < lengthLimit) :
    ReadsBack writeString readString s := by
  intro rest
  rw [writeString_eq, List.append_assoc, readString, readCount_writeCount short]
  simp [splitBytes?_append, Bytes.text?_ofText]

theorem readString_canonical : Canonical writeString readString := by
  intro bytes s rest h
  obtain ⟨⟨n, bytes'⟩, count, h⟩ := Option.bind_eq_some_iff.mp h
  obtain ⟨⟨text, last⟩, split, h⟩ := Option.bind_eq_some_iff.mp h
  obtain ⟨t, decoded, h⟩ := Option.bind_eq_some_iff.mp h
  cases h
  obtain ⟨same, length⟩ := splitBytes?_eq_some split
  rw [Bytes.text?_eq_some.mp decoded] at same length
  rw [(number?_eq_some count).1, same, writeString_eq, length, List.append_assoc]
  rfl

theorem length_writeSlots (slots : List (Option UInt32)) :
    (writeList (writeOption writeWord) slots).length ≤ 8 + 5 * slots.length := by
  rw [writeList, List.length_append, writeCount, length_littleEndian]
  induction slots with
  | nil => simp
  | cons slot slots ih =>
    have width : (writeOption writeWord slot).length ≤ 5 := by
      cases slot <;> simp [writeOption, writeWord, length_littleEndian]
    simp only [List.flatMap_cons, List.length_append, List.length_cons] at ih ⊢
    omega

end Tilework.Archive
