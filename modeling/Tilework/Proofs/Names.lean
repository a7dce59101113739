import Mathlib.Data.List.Nodup
import Tilework.Names
import Tilework.Proofs.Sorted

namespace Tilework

variable {α : Type}

theorem Sorted.searchIn_eq_some {probe : α → Ordering} {items : Array α} {lo hi i : Nat}
    (h : searchIn probe items lo hi = some i) : ∃ item, items[i]? = some item ∧ probe item = .eq := by
  fun_induction searchIn probe items lo hi with
  | case1 => cases h
  | case2 lo hi _ middle item found less ih => exact ih h
  | case3 lo hi _ middle item found greater ih => exact ih h
  | case4 lo hi _ middle item found equal =>
    rw [← Option.some.inj h]
    exact ⟨item, found, equal⟩
  | case5 => cases h

/-- Where no entry before the `i`-th is too great and none after it too small, the half that is given up is never the one
that holds the `i`-th entry. -/
theorem Sorted.exists_searchIn {probe : α → Ordering} {items : Array α} {lo hi i : Nat} {item : α}
    (before : ∀ {j : Nat} {other : α}, j < i → items[j]? = some other → probe other ≠ .gt)
    (after : ∀ {j : Nat} {other : α}, i < j → items[j]? = some other → probe other ≠ .lt)
    (found : items[i]? = some item) (equal : probe item = .eq) (low : lo ≤ i) (high : i < hi)
    (inside : hi ≤ items.size) : ∃ k, searchIn probe items lo hi = some k := by
  fun_induction searchIn probe items lo hi with
  | case1 lo hi _ middle none =>
    have := Array.getElem?_eq_none_iff.mp none
    omega
  | case2 lo hi _ middle other read less ih =>
    have right : middle < i := by
      rcases Nat.lt_trichotomy middle i with right | same | left
      · exact right
      · rw [same, found] at read
        cases read
        rw [equal] at less
        cases less
      · exact absurd less (after left read)
    exact ih (by omega) high inside
  | case3 lo hi _ middle other read greater ih =>
    have left : i < middle := by
      rcases Nat.lt_trichotomy i middle with left | same | right
      · exact left
      · rw [← same, found] at read
        cases read
        rw [equal] at greater
        cases greater
      · exact absurd greater (before right read)
    exact ih low left (by omega)
  | case4 lo hi _ middle => exact ⟨middle, rfl⟩
  | case5 lo hi empty => omega

theorem Sorted.exists_search? {probe : α → Ordering} {items : Array α} {r : α → α → Prop}
    (sorted : items.toList.Pairwise r) {item : α} (member : item ∈ items) (equal : probe item = .eq)
    (before : ∀ other, r other item → probe other ≠ .gt) (after : ∀ other, r item other → probe other ≠ .lt) :
    ∃ k, search? probe items = some k := by
  obtain ⟨i, found⟩ := Array.mem_iff_getElem?.mp member
  obtain ⟨inside, rfl⟩ := Array.getElem?_eq_some_iff.mp found
  have pairs := List.pairwise_iff_getElem.mp sorted
  refine exists_searchIn ?_ ?_ found equal (Nat.zero_le i) inside (Nat.le_refl _)
  · intro j other less read
    obtain ⟨further, rfl⟩ := Array.getElem?_eq_some_iff.mp read
    exact before _ (pairs j i further inside less)
  · intro j other greater read
    obtain ⟨further, rfl⟩ := Array.getElem?_eq_some_iff.mp read
    exact after _ (pairs i j inside further greater)

namespace Names

variable [Named α]

theorem compare_ne_gt {a b : String} (le : a ≤ b) : compare a b ≠ .gt := by
  intro greater
  have := (compareOfLessAndEq_eq_gt String.le_antisymm String.le_total String.not_le _ _).mp greater
  exact String.not_lt.mpr le this

theorem compare_ne_lt {a b : String} (le : b ≤ a) : compare a b ≠ .lt := by
  intro less
  exact String.not_lt.mpr le (compareOfLessAndEq_eq_lt.mp less)

/-- Each entry comes after all those before it by name, so that no two have the same name. -/
def Ascending (items : Array α) : Prop :=
  ∀ ⦃i j : Nat⦄ ⦃a b : α⦄, i < j → items[i]? = some a → items[j]? = some b → name a < name b

theorem index?_eq_some {items : Array α} {key : String} {i : Nat} (h : index? items key = some i) :
    ∃ item, items[i]? = some item ∧ name item = key := by
  obtain ⟨item, found, equal⟩ := Sorted.searchIn_eq_some h
  exact ⟨item, found, Std.LawfulEqOrd.eq_of_compare equal⟩

theorem exists_index? {items : Array α} (sorted : items.toList.Pairwise fun a b => name a ≤ name b) {item : α}
    (member : item ∈ items) : ∃ i, index? items (name item) = some i :=
  Sorted.exists_search? sorted member Std.ReflOrd.compare_self (fun _ => compare_ne_gt) fun _ => compare_ne_lt

theorem index?_eq_none_iff {items : Array α} (sorted : items.toList.Pairwise fun a b => name a ≤ name b)
    {key : String} : index? items key = none ↔ ∀ item ∈ items, name item ≠ key := by
  constructor
  · rintro missing item member rfl
    obtain ⟨i, found⟩ := exists_index? sorted member
    rw [missing] at found
    cases found
  · intro others
    cases found : index? items key with
    | none => rfl
    | some i =>
      obtain ⟨item, read, called⟩ := index?_eq_some found
      exact absurd called (others item (Array.mem_of_getElem? read))

theorem place_of_nodup {items : Array α} (apart : (items.toList.map name).Nodup) {i j : Nat} {a b : α}
    (first : items[i]? = some a) (second : items[j]? = some b) (same : name a = name b) : i = j := by
  have places : ∀ {k : Nat} {c : α}, items[k]? = some c → (items.toList.map name)[k]? = some (name c) := by
    intro k c found
    rw [List.getElem?_map, Array.getElem?_toList, found, Option.map_some]
  have twice := (places first).trans ((congrArg some same).trans (places second).symm)
  obtain ⟨inside, -⟩ := List.getElem?_eq_some_iff.mp (places first)
  exact (List.getElem?_inj inside apart).mp twice

theorem ascending_iff {items : Array α} : Ascending items ↔ (items.toList.map name).Pairwise (· < ·) := by
  rw [List.pairwise_map, List.pairwise_iff_getElem]
  constructor
  · intro ascending i j first second less
    exact ascending less (by simp) (by simp)
  · intro pairs i j a b less first second
    obtain ⟨inside, rfl⟩ := Array.getElem?_eq_some_iff.mp first
    obtain ⟨further, rfl⟩ := Array.getElem?_eq_some_iff.mp second
    exact pairs i j inside further less

theorem Ascending.sorted {items : Array α} (ascending : Ascending items) :
    items.toList.Pairwise fun a b => name a ≤ name b :=
  (List.pairwise_map.mp (ascending_iff.mp ascending)).imp Std.le_of_lt

theorem Ascending.nodup {items : Array α} (ascending : Ascending items) : (items.toList.map name).Nodup :=
  (ascending_iff.mp ascending).imp Std.ne_of_lt

theorem Ascending.index?_eq {items : Array α} (ascending : Ascending items) {i : Nat} {item : α}
    (found : items[i]? = some item) : index? items (name item) = some i := by
  obtain ⟨k, looked⟩ := exists_index? ascending.sorted (Array.mem_of_getElem? found)
  obtain ⟨other, read, called⟩ := index?_eq_some looked
  rw [looked, place_of_nodup ascending.nodup read found called]

theorem Ascending.index?_eq_some_iff {items : Array α} (ascending : Ascending items) {key : String} {i : Nat} :
    index? items key = some i ↔ ∃ item, items[i]? = some item ∧ name item = key := by
  constructor
  · exact index?_eq_some
  · rintro ⟨item, found, rfl⟩
    exact ascending.index?_eq found

theorem pairwise_ne_of_duplicate? {items : List α} (sorted : items.Pairwise fun a b => name a ≤ name b)
    (h : duplicate? items = none) : items.Pairwise fun a b => name a ≠ name b := by
  induction items with
  | nil => exact .nil
  | cons first rest ih =>
    cases rest with
    | nil => exact List.pairwise_singleton _ _
    | cons second rest =>
      obtain ⟨before, later⟩ := List.pairwise_cons.mp sorted
      have apart : name first ≠ name second := by
        intro same
        simp [duplicate?, Sorted.firstRepeat?, same] at h
      have others : duplicate? (second :: rest) = none := by
        simpa [duplicate?, Sorted.firstRepeat?, apart] using h
      refine List.pairwise_cons.mpr ⟨?_, ih later others⟩
      intro third member same
      rcases List.mem_cons.mp member with rfl | member
      · exact apart same
      · -- Between two equal names there is room for no other one.
        have below := (List.pairwise_cons.mp later).1 third member
        rw [← same] at below
        exact apart (String.le_antisymm (before second (by simp)) below)

theorem ascending_of_duplicate? {items : List α} (h : duplicate? (sort items) = none) :
    Ascending (sort items).toArray := by
  have sorted := sort_pairwise items
  have apart := pairwise_ne_of_duplicate? sorted h
  intro i j a b less first second
  rw [List.getElem?_toArray] at first second
  obtain ⟨_, rfl⟩ := List.getElem?_eq_some_iff.mp first
  obtain ⟨_, rfl⟩ := List.getElem?_eq_some_iff.mp second
  obtain ⟨le, ne⟩ := List.pairwise_iff_getElem.mp (sorted.and apart) i j _ _ less
  exact Std.lt_of_le_of_ne le ne

theorem map_sort_perm (items : List α) : ((sort items).map name).Perm (items.map name) :=
  (Sorted.sort_perm items).map name

theorem duplicate?_sort_eq_none_iff {items : List α} : duplicate? (sort items) = none ↔ (items.map name).Nodup := by
  rw [← (map_sort_perm items).nodup_iff, List.Nodup, List.pairwise_map]
  constructor
  · exact pairwise_ne_of_duplicate? (sort_pairwise items)
  · intro apart
    exact Sorted.firstRepeat?_eq_none (apart.imp fun different => beq_eq_false_iff_ne.mpr different)

theorem le_total (a b : α) : le a b = true ∨ le b a = true := by
  simp only [le, decide_eq_true_eq]
  exact String.le_total _ _

theorem le_trans (a b c : α) : le a b = true → le b c = true → le a c = true := by
  simp only [le, decide_eq_true_eq]
  exact String.le_trans

theorem sort_eq_of_perm {items others : List α}
    (apart : ∀ ⦃a⦄, a ∈ items → ∀ ⦃b⦄, b ∈ items → name a = name b → a = b) (perm : items.Perm others) :
    sort items = sort others := by
  apply Sorted.sort_eq_of_perm le_total le_trans _ perm
  intro a first b second before after
  simp only [le, decide_eq_true_eq] at before after
  exact apart first second (String.le_antisymm before after)

theorem sort_eq_of_nodup {items others : List α} (apart : (items.map name).Nodup) (perm : items.Perm others) :
    sort items = sort others := sort_eq_of_perm (List.inj_on_of_nodup_map apart) perm

theorem index?_eq_search (items : Array α) (key : String) : index? items key = index? (items.map name) key := by
  rw [index?, index?, Sorted.search?, Sorted.search?, Sorted.searchIn_map, Array.size_map]
  rfl

theorem index?_congr {β : Type} [Named β] {items : Array α} {others : Array β}
    (same : items.toList.map name = others.toList.map name) (key : String) : index? items key = index? others key := by
  have names : items.map name = others.map name := by
    rw [← Array.toList_inj, Array.toList_map, Array.toList_map, same]
  rw [index?_eq_search, index?_eq_search others, names]

/-- The table ascends by name and has an entry for each of these names, and no other one. -/
structure Tabulates (items : Array α) (names : List String) : Prop where
  ascending : Ascending items
  names_perm : (items.toList.map name).Perm names

theorem tabulates_sort {items : List α} (apart : (items.map name).Nodup) :
    Tabulates (sort items).toArray (items.map name) :=
  ⟨ascending_of_duplicate? (duplicate?_sort_eq_none_iff.mpr apart), map_sort_perm items⟩

namespace Tabulates

variable {β : Type} [Named β] {items : Array α} {others : Array β} {names : List String} {key : String}

theorem congr (table : Tabulates items names) (same : others.toList.map name = items.toList.map name) :
    Tabulates others names := by
  refine ⟨ascending_iff.mpr ?_, ?_⟩
  · rw [same]
    exact ascending_iff.mp table.ascending
  · rw [same]
    exact table.names_perm

theorem exists_index?_iff (table : Tabulates items names) : (∃ i, index? items key = some i) ↔ key ∈ names := by
  rw [← table.names_perm.mem_iff, List.mem_map]
  constructor
  · rintro ⟨i, found⟩
    obtain ⟨item, inside, called⟩ := index?_eq_some found
    exact ⟨item, Array.mem_toList_iff.mpr (Array.mem_of_getElem? inside), called⟩
  · rintro ⟨item, member, rfl⟩
    obtain ⟨i, inside⟩ := Array.mem_iff_getElem?.mp (Array.mem_toList_iff.mp member)
    exact ⟨i, table.ascending.index?_eq inside⟩

theorem contains_iff (table : Tabulates items names) : contains items key = true ↔ key ∈ names := by
  rw [← table.exists_index?_iff, contains, Option.isSome_iff_exists]

theorem exists_of_source {γ : Type} {f : γ → String} {sources : List γ} {R : γ → α → Prop}
    (table : Tabulates items (sources.map f))
    (origin : ∀ {i : Nat} {a : α}, items[i]? = some a → ∃ s ∈ sources, name a = f s ∧ R s a) {s : γ}
    (member : s ∈ sources) : ∃ i a, index? items (f s) = some i ∧ items[i]? = some a ∧ R s a := by
  obtain ⟨i, found⟩ := table.exists_index?_iff.mpr (List.mem_map_of_mem member)
  obtain ⟨a, place, called⟩ := index?_eq_some found
  obtain ⟨t, among, named, related⟩ := origin place
  have apart := table.names_perm.nodup_iff.mp table.ascending.nodup
  obtain rfl := List.inj_on_of_nodup_map apart among member (named.symm.trans called)
  exact ⟨i, a, found, place, related⟩

end Tabulates

/-- The items by name, those of one name in the order in which they stood. -/
structure Arranges (items sorted : List α) : Prop where
  perm : sorted.Perm items
  ordered : sorted.Pairwise fun a b => name a ≤ name b
  stable : ∀ key, (sorted.filter fun a => name a = key) = items.filter fun a => name a = key

theorem sort_arranges (items : List α) : Arranges items (sort items) := by
  refine ⟨Sorted.sort_perm items, sort_pairwise items, ?_⟩
  intro key
  apply Sorted.filter_sort
  intro a b first second
  simp only [le, decide_eq_true_eq] at first second ⊢
  have same : name a = name b := first.trans second.symm
  exact same ▸ String.le_refl (name a)

theorem repeated_of_duplicate? {items : List α} {a : α} (h : duplicate? (sort items) = some a) :
    a ∈ items ∧ 2 ≤ (items.map name).count (name a) := by
  obtain ⟨before, b, after, split, same⟩ := Sorted.firstRepeat?_eq_some h
  have perm : items.Perm (before ++ a :: b :: after) := by
    rw [← split]
    exact (Sorted.sort_perm items).symm
  refine ⟨perm.mem_iff.mpr (by simp), ?_⟩
  have called : name b = name a := (eq_of_beq same).symm
  rw [(perm.map name).count_eq, List.map_append, List.count_append, List.map_cons, List.map_cons, called,
    List.count_cons_self, List.count_cons_self]
  omega

end Names

/-- Whatever is named can be tabulated: sorting by name keeps all items, those of one name in their order, a name that
repeats is reported if there is one, and in a sorted table a name is found if and only if it is there. -/
theorem names_tabulated [Named α] :
    (∀ items : List α, Names.Arranges items (Names.sort items) ∧
      (Names.duplicate? (Names.sort items) = none ↔ (items.map name).Nodup) ∧
      ∀ a, Names.duplicate? (Names.sort items) = some a → a ∈ items ∧ 2 ≤ (items.map name).count (name a)) ∧
    ∀ table : Array α, (table.toList.Pairwise fun a b => name a ≤ name b) → ∀ key,
      (Names.index? table key = none ↔ ∀ a ∈ table, name a ≠ key) ∧
      (Names.contains table key = true ↔ ∃ a ∈ table, name a = key) ∧
      ∀ i, Names.index? table key = some i → ∃ a, table[i]? = some a ∧ name a = key ∧
        ((table.toList.map name).Nodup → ∀ j b, table[j]? = some b → name b = key → j = i) := by
  constructor
  · intro items
    exact ⟨Names.sort_arranges items, Names.duplicate?_sort_eq_none_iff, fun _ => Names.repeated_of_duplicate?⟩
  · intro table sorted key
    have missing : Names.index? table key = none ↔ _ := Names.index?_eq_none_iff sorted
    refine ⟨missing, ?_, ?_⟩
    · rw [Names.contains, Option.isSome_iff_ne_none, Ne, missing]
      simp
    · intro i found
      obtain ⟨a, read, called⟩ := Names.index?_eq_some found
      refine ⟨a, read, called, ?_⟩
      intro apart j b other same
      exact Names.place_of_nodup apart other read (same.trans called.symm)

def woodNames : List String := ["oak", "ash", "oak", "elm"]

def woodTable : Array String := #["ash", "elm", "oak", "oak"]

theorem names_tabulated_wood :
    (Names.sort woodNames).toArray = woodTable ∧ Names.Arranges woodNames woodTable.toList ∧
    Names.duplicate? woodTable.toList = some "oak" ∧ 2 ≤ (woodNames.map name).count "oak" ∧
    (woodTable.toList.Pairwise fun a b => name a ≤ name b) ∧ Names.index? woodTable "fir" = none ∧
    ∃ i, Names.index? woodTable "oak" = some i ∧ woodTable[i]? = some "oak" := by
  have same : Names.sort woodNames = woodTable.toList := by decide +kernel
  have twice : Names.duplicate? (Names.sort woodNames) = some "oak" := by decide +kernel
  have sorted : woodTable.toList.Pairwise fun a b => name a ≤ name b := by decide +kernel
  obtain ⟨arranged, looked⟩ := names_tabulated (α := String)
  obtain ⟨arranges, -, repeats⟩ := arranged woodNames
  have absent : Names.index? woodTable "fir" = none := (looked woodTable sorted "fir").1.mpr (by decide +kernel)
  have oak : Names.index? woodTable "oak" = some 2 := by decide +kernel
  obtain ⟨a, read, rfl, -⟩ := (looked woodTable sorted "oak").2.2 2 oak
  refine ⟨by rw [same], ?_, ?_, (repeats "oak" twice).2, sorted, absent, 2, oak, read⟩
  · rw [← same]
    exact arranges
  · rw [← same]
    exact twice

end Tilework
