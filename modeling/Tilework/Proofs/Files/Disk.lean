import Mathlib.Tactic.Linarith
import Tilework.Files.Disk
import Tilework.Proofs.Files.Basic

namespace Tilework

namespace Entries

variable {entries : Entries} {name other : String} {node : Node}

theorem lookup_put_self : (entries.put name node).lookup name = some node := List.lookup_cons_self

theorem lookup_put_of_ne (apart : other ≠ name) : (entries.put name node).lookup other = entries.lookup other := by
  have differ : (other == name) = false := beq_false_of_ne apart
  rw [put, List.lookup_cons, differ]
  induction entries with
  | nil => rfl
  | cons entry rest ih =>
    obtain ⟨found, content⟩ := entry
    by_cases dropped : found = name
    · subst dropped
      rw [erase, List.filter_cons_of_neg (by simp), List.lookup_cons, differ]
      exact ih
    · rw [erase, List.filter_cons_of_pos (by simpa using dropped), List.lookup_cons, List.lookup_cons]
      cases other == found
      · exact ih
      · rfl

end Entries

namespace Node

def at? : Node → List String → Option Node
  | node, [] => some node
  | directory entries, name :: names => (entries.lookup name).bind (at? · names)
  | file _, _ :: _ => none

def IsDirectoryAt (node : Node) (names : List String) : Prop := ∃ entries, node.at? names = some (directory entries)

theorem at?_append (node : Node) (names more : List String) :
    node.at? (names ++ more) = (node.at? names).bind (·.at? more) := by
  induction names generalizing node with
  | nil => rfl
  | cons name names ih =>
    cases node with
    | file _ => rfl
    | directory entries =>
      rw [List.cons_append, at?, at?]
      cases entries.lookup name with
      | none => rfl
      | some child => exact ih child

end Node

namespace Place

open Node (IsDirectoryAt)

variable {root : Node} {above : List (String × Entries)}

def names : List (String × Entries) → List String
  | [] => []
  | (name, _) :: above => names above ++ [name]

def Passed (root : Node) : List (String × Entries) → Prop
  | [] => True
  | (_, entries) :: above => root.at? (names above) = some (.directory entries) ∧ Passed root above

structure Within (root : Node) (p : Place) : Prop where
  node : p.node? = root.at? (names p.above)
  passed : Passed root p.above

theorem Within.step {p : Place} (within : p.Within root) {entries : Entries}
    (here : p.node? = some (.directory entries)) (segment : String) : (p.step entries segment).Within root := by
  unfold Place.step
  split
  · exact within
  split
  · split
    · exact within
    · rename_i name before rest same
      have passed := within.passed
      rw [same] at passed
      exact ⟨passed.1.symm, passed.2⟩
  · have found := within.node
    rw [here] at found
    refine ⟨?_, found.symm, within.passed⟩
    show _ = root.at? (names p.above ++ [segment])
    rw [Node.at?_append, ← found, Option.bind_some, Node.at?]
    cases entries.lookup segment <;> rfl

theorem names_step {p q : Place} (same : names p.above = names q.above) (entries others : Entries) (segment : String) :
    names (p.step entries segment).above = names (q.step others segment).above := by
  unfold Place.step
  split
  · exact same
  split
  · cases first : p.above with
    | nil =>
      cases second : q.above with
      | nil => simp [first, second]
      | cons => simp [first, second, names] at same
    | cons _ before =>
      cases second : q.above with
      | nil => simp [first, second, names] at same
      | cons _ rest =>
        rw [first, second, names, names] at same
        exact List.append_inj_left' same rfl
  · simp only [names, same]

theorem at?_rootWith (above : List (String × Entries)) (node : Node) (more : List String) :
    (rootWith above node).at? (names above ++ more) = node.at? more := by
  induction above generalizing node more with
  | nil => rfl
  | cons entry above ih =>
    obtain ⟨name, entries⟩ := entry
    rw [names, List.append_assoc, rootWith, List.foldl_cons]
    refine (ih _ _).trans ?_
    rw [List.singleton_append, Node.at?, Entries.lookup_put_self, Option.bind_some]

theorem isDirectoryAt_rootWith (passed : Passed root above) (node : Node) {trail : List String}
    (apart : ¬names above <+: trail) (directory : root.IsDirectoryAt trail) :
    (rootWith above node).IsDirectoryAt trail := by
  induction above generalizing node with
  | nil => exact absurd List.nil_prefix apart
  | cons entry above ih =>
    obtain ⟨name, entries⟩ := entry
    rw [rootWith, List.foldl_cons]
    by_cases below : names above <+: trail
    · obtain ⟨more, rfl⟩ := below
      show ∃ _, (rootWith above _).at? _ = _
      rw [at?_rootWith]
      cases more with
      | nil => exact ⟨_, rfl⟩
      | cons next rest =>
        have other : next ≠ name := by
          rintro rfl
          apply apart
          exact ⟨rest, by simp [names]⟩
        obtain ⟨content, found⟩ := directory
        rw [Node.at?_append, passed.1, Option.bind_some, Node.at?] at found
        exact ⟨content, by rw [Node.at?, Entries.lookup_put_of_ne other, found]⟩
    · exact ih passed.2 _ below

theorem Within.isDirectoryAt_rootWith {p : Place} (within : p.Within root) (free : p.isDirectory = false)
    (node : Node) {trail : List String} (directory : root.IsDirectoryAt trail) :
    (rootWith p.above node).IsDirectoryAt trail := by
  refine Place.isDirectoryAt_rootWith within.passed node ?_ directory
  rintro ⟨more, rfl⟩
  obtain ⟨entries, found⟩ := directory
  rw [Node.at?_append, ← within.node] at found
  cases here : p.node? with
  | none => rw [here] at found; cases found
  | some other =>
    rw [here, Option.bind_some] at found
    cases other with
    | directory _ => simp [isDirectory, here, Node.isDirectory] at free
    | file _ => cases more <;> cases found

end Place

namespace Disk

open Node (IsDirectoryAt)

variable {root changed : Node} {p q : Place} {d e : Disk} {path : String} {bytes : Bytes}

theorem walk_within (within : p.Within root) {segments : List String} (h : walk p segments = .toPlace q) :
    q.Within root := by
  induction segments generalizing p with
  | nil =>
    cases h
    exact within
  | cons segment rest ih =>
    unfold walk at h
    split at h
    · cases h
    · cases h
    · rename_i entries here
      split at h
      · exact ih (within.step here segment) h
      · cases h

/-- Where every directory is still a directory, the same segments lead along the same names. -/
theorem walk_of_directories (kept : ∀ trail, root.IsDirectoryAt trail → changed.IsDirectoryAt trail)
    (before : p.Within root) {p' : Place} (after : p'.Within changed)
    (same : Place.names p.above = Place.names p'.above) {segments : List String}
    (h : walk p segments = .toPlace q) :
    ∃ q', walk p' segments = .toPlace q' ∧ q'.Within changed ∧ Place.names q.above = Place.names q'.above := by
  induction segments generalizing p p' with
  | nil =>
    cases h
    exact ⟨p', rfl, after, same⟩
  | cons segment rest ih =>
    unfold walk at h
    split at h
    · cases h
    · cases h
    · rename_i entries here
      obtain ⟨others, found⟩ := kept (Place.names p.above) ⟨entries, by rw [← before.node, here]⟩
      rw [same, ← after.node] at found
      split at h
      · rename_i short
        obtain ⟨q', walked, within, ending⟩ := ih (before.step here segment) (after.step found segment)
          (Place.names_step same entries others segment) h
        refine ⟨q', ?_, within, ending⟩
        rw [walk, found]
        simp only [if_pos short, walked]
      · cases h

theorem root_within (root : Node) : (⟨some root, []⟩ : Place).Within root := ⟨rfl, trivial⟩

theorem locate?_eq_some {place : Place} (h : d.locate? path = some place) :
    ∃ segments, walk ⟨d.root, []⟩ segments = .toPlace place ∧
      ∀ e : Disk, e.current = d.current → e.route path = walk ⟨e.root, []⟩ segments := by
  unfold locate? at h
  split at h
  · rename_i found routed
    cases h
    unfold route at routed
    split at routed
    · cases routed
    · rename_i reachable
      refine ⟨_, routed, ?_⟩
      intro e current
      rw [route, if_neg reachable, current]
  · cases h
  · cases h

theorem read?_of_write? (h : d.write? path bytes = some e) : e.read? path = some bytes := by
  obtain ⟨place, located, h⟩ := Option.bind_eq_some_iff.mp h
  have free : place.isDirectory = false := by
    by_contra directory
    rw [if_pos (by simpa using directory)] at h
    cases h
  rw [if_neg (by simp [free]), Option.some.injEq] at h
  obtain ⟨segments, walked, routes⟩ := locate?_eq_some located
  have within := walk_within (root_within d.root) walked
  have kept : ∀ trail, d.root.IsDirectoryAt trail → e.root.IsDirectoryAt trail := by
    intro trail directory
    rw [← h]
    exact within.isDirectoryAt_rootWith free (.file bytes) directory
  obtain ⟨last, again, ending, same⟩ := walk_of_directories kept (root_within d.root) (root_within e.root) rfl walked
  have found : last.node? = some (.file bytes) := by
    have here := Place.at?_rootWith place.above (.file bytes) []
    rw [List.append_nil] at here
    rw [ending.node, ← same, ← h]
    exact here
  have current : e.current = d.current := by rw [← h]; rfl
  rw [read?, find?, locate?, routes e current, again]
  simp only [Option.bind_some, found, Node.bytes?]

theorem faithful : Files.Faithful Disk := by
  constructor
  intro path bytes before after saved
  obtain ⟨between, written⟩ := Files.write_of_save saved
  change attempt (fun d => d.write? path bytes) between = _ at written
  unfold attempt at written
  split at written
  · rename_i changed wrote
    cases written
    exact read?_of_write? wrote
  · cases written

end Disk

end Tilework
