import Mathlib.Data.List.Nodup
import Tilework.Json.Record

namespace Tilework.Json

def members : Json → List (Option String × Json)
  | object members => members
  | _ => []

def valuesOf (members : List (Option String × Json)) (key : String) : List Json :=
  (members.filter fun m => m.1 == some key).map Prod.snd

theorem valuesOf_cons (key : String) (value : Json) (members : List (Option String × Json)) :
    valuesOf ((some key, value) :: members) =
      Function.update (valuesOf members) key (value :: valuesOf members key) := by
  funext other
  by_cases same : other = key
  · subst same
    simp [valuesOf]
  · have different : key ≠ other := fun h => same h.symm
    simp [valuesOf, Function.update_of_ne same, different]

theorem valuesOf_perm {members others : List (Option String × Json)} (order : members.Perm others) (key : String) :
    (valuesOf members key).Perm (valuesOf others key) :=
  (order.filter _).map _

theorem valuesOf_append (members others : List (Option String × Json)) (key : String) :
    valuesOf (members ++ others) key = valuesOf members key ++ valuesOf others key := by
  simp [valuesOf]

theorem valuesOf_eq_nil {members : List (Option String × Json)} {key : String}
    (other : ∀ m ∈ members, m.1 ≠ some key) : valuesOf members key = [] := by
  have none : (members.filter fun m => m.1 == some key) = [] := by
    rw [List.filter_eq_nil_iff]
    intro m member
    simpa using other m member
  rw [valuesOf, none, List.map_nil]

theorem length_valuesOf (members : List (Option String × Json)) (key : String) :
    (valuesOf members key).length = (members.map Prod.fst).count (some key) := by
  rw [valuesOf, List.length_map, List.count, List.countP_map, List.countP_eq_length_filter]
  rfl

theorem eq_of_perm {values others : List Json} (order : others.Perm values) (short : values.length ≤ 1) :
    others = values := by
  match values, short with
  | [], _ => exact order.eq_nil
  | [_], _ => exact List.perm_singleton.mp order

/-- Each declared field has at most one value, and what is found for it is that value. -/
structure Fielded (declared : List String) (members : List (Option String × Json)) (found : List (Option Json)) :
    Prop where
  keyed : ∀ m ∈ members, m.1.isSome = true
  once : ∀ key ∈ declared, (valuesOf members key).length ≤ 1
  found_eq : found = declared.map fun key => (valuesOf members key).head?

namespace Fielded

variable {declared : List String} {members others : List (Option String × Json)} {found : List (Option Json)}

theorem of_valuesOf_eq (read : Fielded declared members found) (keyed : ∀ m ∈ others, m.1.isSome = true)
    (values : ∀ key ∈ declared, valuesOf others key = valuesOf members key) : Fielded declared others found := by
  refine ⟨keyed, ?_, ?_⟩
  · intro key field
    rw [values key field]
    exact read.once key field
  · rw [read.found_eq]
    apply List.map_congr_left
    intro key field
    rw [values key field]

theorem additions {extras : List (String × Json)} (read : Fielded declared members found)
    (foreign : ∀ x ∈ extras, x.1 ∉ declared)
    (order : others.Perm (members ++ extras.map fun x => (some x.1, x.2))) : Fielded declared others found := by
  refine read.of_valuesOf_eq ?_ ?_
  · intro m member
    rcases List.mem_append.mp (order.mem_iff.mp member) with own | extra
    · exact read.keyed m own
    · obtain ⟨x, -, rfl⟩ := List.mem_map.mp extra
      rfl
  · intro key field
    have skipped : valuesOf (extras.map fun x => (some x.1, x.2)) key = [] := by
      apply valuesOf_eq_nil
      rintro _ extra same
      obtain ⟨x, present, rfl⟩ := List.mem_map.mp extra
      obtain rfl : x.1 = key := Option.some.inj same
      exact foreign x present field
    have perm := valuesOf_perm order key
    rw [valuesOf_append, skipped, List.append_nil] at perm
    exact eq_of_perm perm (read.once key field)

theorem nil_iff : Fielded declared [] found ↔ declared.map (fun _ => none) = found :=
  ⟨fun read => read.found_eq.symm, fun same => ⟨by simp, fun _ _ => Nat.zero_le 1, same.symm⟩⟩

theorem cons_iff_of_notMem {key : String} (foreign : key ∉ declared) (value : Json) :
    Fielded declared ((some key, value) :: members) found ↔ Fielded declared members found := by
  have values : ∀ other ∈ declared, valuesOf ((some key, value) :: members) other = valuesOf members other := by
    intro other field
    rw [valuesOf_cons, Function.update_of_ne]
    rintro rfl
    exact foreign field
  constructor
  · intro read
    exact read.of_valuesOf_eq (fun m member => read.keyed m (List.mem_cons_of_mem _ member))
      fun other field => (values other field).symm
  · intro read
    exact read.of_valuesOf_eq (List.forall_mem_cons.mpr ⟨rfl, read.keyed⟩) values

theorem cons_iff_of_mem {key : String} (distinct : declared.Nodup) (field : key ∈ declared) (value : Json) :
    Fielded declared ((some key, value) :: members) found ↔
      ∃ prior, Fielded declared members prior ∧ prior[declared.idxOf key]? = some none ∧
        prior.set (declared.idxOf key) (some value) = found := by
  have found_eq : (declared.map fun other => (valuesOf ((some key, value) :: members) other).head?) =
      (declared.map fun other => (valuesOf members other).head?).set (declared.idxOf key) (some value) := by
    have values : (fun other => (valuesOf ((some key, value) :: members) other).head?) =
        Function.update (fun other => (valuesOf members other).head?) key (some value) := by
      rw [valuesOf_cons]
      exact Function.comp_update List.head? (valuesOf members) key _
    rw [values, distinct.map_update, if_pos field]
  have place : (declared.map fun other => (valuesOf members other).head?)[declared.idxOf key]? =
      some (valuesOf members key).head? := by
    rw [List.getElem?_map, List.getElem?_idxOf field, Option.map_some]
  constructor
  · rintro ⟨keyed, once, rfl⟩
    have none : valuesOf members key = [] := by
      have short := once key field
      rw [valuesOf_cons, Function.update_self, List.length_cons] at short
      exact List.length_eq_zero_iff.mp (by omega)
    refine ⟨_, ⟨fun m member => keyed m (List.mem_cons_of_mem _ member), ?_, rfl⟩, ?_, found_eq.symm⟩
    · intro other declares
      by_cases same : other = key
      · rw [same, none]
        exact Nat.zero_le 1
      · have short := once other declares
        rwa [valuesOf_cons, Function.update_of_ne same] at short
    · rw [place, none, List.head?_nil]
  · rintro ⟨_, ⟨keyed, once, rfl⟩, empty, rfl⟩
    have none : valuesOf members key = [] := by
      rw [place, Option.some.injEq, List.head?_eq_none_iff] at empty
      exact empty
    refine ⟨List.forall_mem_cons.mpr ⟨rfl, keyed⟩, ?_, found_eq.symm⟩
    intro other declares
    by_cases same : other = key
    · rw [same, valuesOf_cons, Function.update_self, none]
      exact Nat.le_refl 1
    · rw [valuesOf_cons, Function.update_of_ne same]
      exact once other declares

end Fielded

theorem findIdx?_beq (declared : List String) (key : String) :
    declared.findIdx? (· == key) = if key ∈ declared then some (declared.idxOf key) else none := by
  rw [List.findIdx?_eq_guard_findIdx_lt]
  simp [Option.guard, List.idxOf]

theorem memberFields?_eq_some_iff {declared : List String} (distinct : declared.Nodup)
    {members : List (Option String × Json)} {found : List (Option Json)} :
    memberFields? .skip declared members = some found ↔ Fielded declared members found := by
  induction members generalizing found with
  | nil => rw [Fielded.nil_iff, memberFields?, Option.some.injEq]
  | cons m members ih =>
    obtain ⟨key, value⟩ := m
    cases key with
    | none =>
      refine iff_of_false nofun ?_
      intro read
      exact absurd (read.keyed (none, value) List.mem_cons_self) nofun
    | some key =>
      rw [memberFields?, Option.bind_eq_bind, Option.bind_eq_some_iff, findIdx?_beq]
      by_cases field : key ∈ declared
      · rw [Fielded.cons_iff_of_mem distinct field, if_pos field]
        refine exists_congr fun prior => and_congr ih ?_
        dsimp only
        split
        · rename_i empty
          rw [Option.some.injEq, and_iff_right empty]
        · rename_i taken
          exact iff_of_false nofun fun place => taken place.1
      · rw [Fielded.cons_iff_of_notMem field, if_neg field]
        simp [ih]

theorem fields?_additions {declared : List String} (distinct : declared.Nodup)
    {members others : List (Option String × Json)} {extras : List (String × Json)} {found : List (Option Json)}
    (read : (object members).fields? .skip declared = some found) (foreign : ∀ x ∈ extras, x.1 ∉ declared)
    (order : others.Perm (members ++ extras.map fun x => (some x.1, x.2))) :
    (object others).fields? .skip declared = some found := by
  have own : Fielded declared members found := (memberFields?_eq_some_iff distinct).mp read
  exact (memberFields?_eq_some_iff distinct).mpr (own.additions foreign order)

end Tilework.Json
