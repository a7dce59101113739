import Tilework.Proofs.Files.Basic

namespace Tilework

class Files.Reliable (δ : Type) [Files (StateM δ)] where
  content : δ → String → Option Bytes
  put : δ → String → Bytes → δ
  read?_eq : ∀ (path : String) (d : δ), (Files.read? path : StateM δ (Option Bytes)) d = (content d path, d)
  isPresent_eq : ∀ (path : String) (d : δ), (Files.isPresent path : StateM δ Bool) d = ((content d path).isSome, d)
  save_eq : ∀ (path : String) (bytes : Bytes) (d : δ),
    (Files.save path bytes : StateM δ Bool) d = (true, put d path bytes)
  content_put : ∀ (d : δ) (path : String) (bytes : Bytes) (other : String),
    content (put d path bytes) other = if other = path then some bytes else content d other

export Files.Reliable (content)

namespace Files.Reliable

variable {δ : Type} [Files (StateM δ)] [Files.Reliable δ] {d : δ} {path other : String} {bytes : Bytes}

theorem content_put_self : content (put d path bytes) path = some bytes := by
  rw [content_put, if_pos rfl]

theorem content_put_of_ne (apart : other ≠ path) : content (put d path bytes) other = content d other := by
  rw [content_put, if_neg apart]

theorem readText?_eq (path : String) (d : δ) :
    (Files.readText? path : StateM δ (Option String)) d = ((content d path).bind Bytes.text?, d) := by
  show (match (Files.read? path : StateM δ (Option Bytes)) d with | (bytes, e) => (bytes.bind Bytes.text?, e)) = _
  rw [read?_eq]

end Files.Reliable

instance : Files.Reliable Shelf where
  content := Shelf.content
  put := Shelf.put
  read?_eq _ _ := rfl
  isPresent_eq _ _ := rfl
  save_eq _ _ shelf := shelf.save_eq
  content_put _ _ _ _ := rfl

structure Ledger where
  shelf : Shelf
  writes : List (String × Bytes)

namespace Ledger

def put (ledger : Ledger) (path : String) (bytes : Bytes) : Ledger :=
  ⟨ledger.shelf.put path bytes, ledger.writes ++ [(path, bytes)]⟩

instance : Files (StateM Ledger) where
  read? path := fun ledger => (ledger.shelf.content path, ledger)
  write path bytes := fun ledger => (true, ledger.put path bytes)
  isPresent path := fun ledger => ((ledger.shelf.content path).isSome, ledger)
  isDirectory _ := fun ledger => (true, ledger)
  makeDirectory _ := fun ledger => (.refused, ledger)

theorem save_eq (ledger : Ledger) {path : String} {bytes : Bytes} :
    (Files.save path bytes : StateM Ledger Bool) ledger = (true, ledger.put path bytes) := by
  have made : (Files.makeNested (Path.above path) : StateM Ledger Bool) ledger = (true, ledger) := by
    cases Path.above path <;> rfl
  show (match (Files.makeNested (Path.above path) : StateM Ledger Bool) ledger with
    | (there, after) => (if there then Files.write path bytes else pure false : StateM Ledger Bool) after) = _
  rw [made]
  rfl

instance : Files.Reliable Ledger where
  content ledger := ledger.shelf.content
  put := put
  read?_eq _ _ := rfl
  isPresent_eq _ _ := rfl
  save_eq _ _ ledger := ledger.save_eq
  content_put _ _ _ _ := rfl

end Ledger

end Tilework
