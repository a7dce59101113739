import Tilework.Files.Basic

namespace Tilework

/-- After a save that succeeded, the path leads to the bytes that were saved. -/
structure Files.Faithful (δ : Type) [Files (StateM δ)] : Prop where
  read_save : ∀ {path : String} {bytes : Bytes} {d e : δ}, (Files.save path bytes : StateM δ Bool) d = (true, e) →
    ((Files.read? path : StateM δ (Option Bytes)) e).1 = some bytes

theorem Files.write_of_save {δ : Type} [Files (StateM δ)] {path : String} {bytes : Bytes} {d e : δ}
    (h : (Files.save path bytes : StateM δ Bool) d = (true, e)) :
    ∃ between, (Files.write path bytes : StateM δ Bool) between = (true, e) := by
  change (match (Files.makeNested (Path.above path) : StateM δ Bool) d with
    | (there, between) => (if there then Files.write path bytes else pure false : StateM δ Bool) between) = _ at h
  cases made : (Files.makeNested (Path.above path) : StateM δ Bool) d with
  | mk there between =>
    rw [made] at h
    cases there with
    | true => exact ⟨between, h⟩
    | false => cases h

section Steps

variable {ε δ α β : Type} {x : ExceptT ε (StateM δ) α} {d e : δ}

theorem bind_apply_ok {a : α} (h : x d = (.ok a, e)) (f : α → ExceptT ε (StateM δ) β) : (x >>= f) d = f a e := by
  show ExceptT.bindCont f (x d).1 (x d).2 = _
  rw [h]
  rfl

theorem bind_apply_error {cause : ε} (h : x d = (.error cause, e)) (f : α → ExceptT ε (StateM δ) β) :
    (x >>= f) d = (.error cause, e) := by
  show ExceptT.bindCont f (x d).1 (x d).2 = _
  rw [h]
  rfl

theorem state_bind_apply {y : StateM δ α} {a : α} (h : y d = (a, e)) (f : α → StateM δ β) : (y >>= f) d = f a e := by
  show f (y d).1 (y d).2 = _
  rw [h]

theorem lift_apply (y : StateM δ α) (d : δ) : (liftM y : ExceptT ε (StateM δ) α) d = (.ok (y d).1, (y d).2) := rfl

end Steps

namespace Faulting

variable {δ α β : Type} {d e : δ}

theorem bind_eq_ok {x : Faulting (StateM δ) α} {f : α → Faulting (StateM δ) β} {b : β} :
    (x >>= f) d = (.ok b, e) ↔ ∃ a between, x d = (.ok a, between) ∧ f a between = (.ok b, e) := by
  have unfolded : (x >>= f) d = ExceptT.bindCont f (x d).1 (x d).2 := rfl
  rw [unfolded]
  cases taken : x d with
  | mk result between =>
    cases result with
    | error cause => exact iff_of_false (fun h => nomatch h) (fun ⟨_, _, h, _⟩ => nomatch h)
    | ok a =>
      constructor
      · intro h
        exact ⟨a, between, rfl, h⟩
      · rintro ⟨_, _, same, h⟩
        cases same
        exact h

theorem pure_eq_ok {a b : α} : (pure a : Faulting (StateM δ) α) d = (.ok b, e) ↔ a = b ∧ d = e := by
  constructor
  · intro h
    cases h
    exact ⟨rfl, rfl⟩
  · rintro ⟨rfl, rfl⟩
    rfl

theorem checked_eq_ok {x : Checked α} {a : α} :
    (liftM x : Faulting (StateM δ) α) d = (.ok a, e) ↔ x = .ok a ∧ d = e := by
  have unfolded : (liftM x : Faulting (StateM δ) α) d = (x, d) := rfl
  rw [unfolded, Prod.mk.injEq]

end Faulting

/-- A file system that is no more than the contents of its files. -/
structure Shelf where
  content : String → Option Bytes

namespace Shelf

def empty : Shelf := ⟨fun _ => none⟩

def put (shelf : Shelf) (path : String) (bytes : Bytes) : Shelf :=
  ⟨fun other => if other = path then some bytes else shelf.content other⟩

instance : Files (StateM Shelf) where
  read? path := fun shelf => (shelf.content path, shelf)
  write path bytes := fun shelf => (true, shelf.put path bytes)
  isPresent path := fun shelf => ((shelf.content path).isSome, shelf)
  isDirectory _ := fun shelf => (true, shelf)
  makeDirectory _ := fun shelf => (.refused, shelf)

variable (shelf : Shelf) {path : String} {bytes : Bytes}

theorem read?_put : (Files.read? path : StateM Shelf (Option Bytes)) (shelf.put path bytes) =
    (some bytes, shelf.put path bytes) := by
  have found : (shelf.put path bytes).content path = some bytes := if_pos rfl
  show ((shelf.put path bytes).content path, _) = _
  rw [found]

theorem makeNested_eq (dirs : List String) : (Files.makeNested dirs : StateM Shelf Bool) shelf = (true, shelf) := by
  cases dirs <;> rfl

theorem save_eq : (Files.save path bytes : StateM Shelf Bool) shelf = (true, shelf.put path bytes) := by
  have made := shelf.makeNested_eq (Path.above path)
  show (match (Files.makeNested (Path.above path) : StateM Shelf Bool) shelf with
    | (there, after) => (if there then Files.write path bytes else pure false : StateM Shelf Bool) after) = _
  rw [made]
  rfl

theorem faithful : Files.Faithful Shelf := by
  constructor
  intro path bytes before after saved
  rw [save_eq] at saved
  cases saved
  rw [read?_put]

end Shelf

end Tilework
