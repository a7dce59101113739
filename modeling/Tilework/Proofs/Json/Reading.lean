import Tilework.Proofs.Json.Layout

namespace Tilework.Json

section Building

open State (step?)

def run (start : State) (ts : List Token) : Option State := ts.foldlM step? start

theorem run_append (start : State) (ts us : List Token) : run start (ts ++ us) = (run start ts).bind (run · us) :=
  List.foldlM_append

theorem run_cons {start next : State} {t : Token} (step : step? start t = some next) (ts : List Token) :
    run start (t :: ts) = run next ts := by
  simp [run, step]

theorem tokens_cons (value : Json) : ∃ t ts, value.tokens = t :: ts ∧ t ≠ .closeArray := by
  cases value <;> simp [tokens]

theorem run_firstItem (item : Json) (items : List Json) (stack : List Frame) (after : List Token) :
    run (.firstItem stack) (itemTokens (item :: items) ++ after) =
      run (.value (.array [] :: stack)) (itemTokens (item :: items) ++ after) := by
  obtain ⟨t, ts, first, other⟩ := tokens_cons item
  have same : step? (.firstItem stack) t = step? (.value (.array [] :: stack)) t := by
    cases t <;> first | rfl | exact absurd rfl other
  have start : ∃ us, itemTokens (item :: items) ++ after = t :: us := by
    cases items <;> simp [itemTokens, first]
  obtain ⟨us, start⟩ := start
  rw [start, run, run, List.foldlM_cons, List.foldlM_cons, same]

theorem run_firstKey (member : Option String × Json) (members : List (Option String × Json)) (stack : List Frame)
    (after : List Token) :
    run (.firstKey stack) (memberTokens (member :: members) ++ after) =
      run (.key [] stack) (memberTokens (member :: members) ++ after) := by
  cases members <;> rfl

mutual

theorem run_tokens : ∀ (value : Json) (stack : List Frame), run (.value stack) value.tokens = some (.complete value stack)
  | null, _ => rfl
  | bool _, _ => rfl
  | number _, _ => rfl
  | text _, _ => rfl
  | array [], _ => rfl
  | array (item :: items), stack => by
    have content := run_itemTokens (item :: items) (by simp) [] stack
    rw [tokens, List.cons_append, run_cons rfl, run_firstItem, content]
    rfl
  | object [], _ => rfl
  | object (member :: members), stack => by
    have content := run_memberTokens (member :: members) (by simp) [] stack
    rw [tokens, List.cons_append, run_cons rfl, run_firstKey, content]
    rfl

theorem run_itemTokens : ∀ (items : List Json), items ≠ [] → ∀ (before : List Json) (stack : List Frame),
    run (.value (.array before :: stack)) (itemTokens items ++ [.closeArray]) =
      some (.complete (.array (before.reverse ++ items)) stack)
  | [], empty, _, _ => absurd rfl empty
  | [item], _, before, stack => by
    rw [itemTokens, run_append, run_tokens item, Option.bind_some, run_cons rfl, List.reverse_cons]
    rfl
  | item :: next :: others, _, before, stack => by
    have content := run_itemTokens (next :: others) (by simp) (item :: before) stack
    rw [itemTokens, List.append_assoc, run_append, run_tokens item, Option.bind_some, List.cons_append, run_cons rfl,
      content]
    · simp
    · exact List.cons_ne_nil next others

theorem run_memberTokens : ∀ (members : List (Option String × Json)), members ≠ [] →
    ∀ (before : List (Option String × Json)) (stack : List Frame),
      run (.key before stack) (memberTokens members ++ [.closeObject]) =
        some (.complete (.object (before.reverse ++ members)) stack)
  | [], empty, _, _ => absurd rfl empty
  | [(key, value)], _, before, stack => by
    rw [memberTokens, List.cons_append, run_cons rfl, List.cons_append, run_cons rfl, run_append, run_tokens value,
      Option.bind_some, run_cons rfl, List.reverse_cons]
    rfl
  | (key, value) :: next :: others, _, before, stack => by
    have content := run_memberTokens (next :: others) (by simp) ((key, value) :: before) stack
    rw [memberTokens, List.append_assoc, List.cons_append, run_cons rfl, List.cons_append, run_cons rfl, run_append,
      run_tokens value, Option.bind_some, List.cons_append, run_cons rfl, content]
    · simp
    · exact List.cons_ne_nil next others

end

theorem ofTokens?_tokens (value : Json) : ofTokens? value.tokens = some value := by
  have read := run_tokens value []
  rw [run] at read
  rw [ofTokens?, read]

end Building

theorem Laid.parse?_eq {value : Json} {text : String} (laid : Laid value.tokens text.toList) :
    parse? text = some value := by
  rw [parse?, laid.tokens?_eq (tokens_apart value)]
  exact ofTokens?_tokens value

mutual

/-- Its numbers are legible, and its literals denote texts. -/
def Legible : Json → Prop
  | null => True
  | bool _ => True
  | number n => n.Legible
  | text t => t.isSome = true
  | array items => ItemsLegible items
  | object members => MembersLegible members

def ItemsLegible : List Json → Prop
  | [] => True
  | item :: rest => item.Legible ∧ ItemsLegible rest

def MembersLegible : List (Option String × Json) → Prop
  | [] => True
  | (key, value) :: rest => key.isSome = true ∧ value.Legible ∧ MembersLegible rest

end

section Forms

namespace Laid

variable {ts us : List Token} {chars more : List Char}

theorem single {t : Token} {literal : List Char} (written : t.Written literal) : Laid [t] literal := by
  simpa using Laid.token written .nil

theorem newLine (depth : Nat) : Laid [] (newLine depth) := by
  have spaces : ∀ n, Laid [] (List.replicate n ' ') := by
    intro n
    induction n with
    | zero => exact .nil
    | succ n ih => exact .blank rfl ih
  exact .blank rfl (spaces _)

theorem trail (laid : Laid ts chars) (depth : Nat) : Laid ts (chars ++ Json.newLine depth) := by
  simpa using laid.append (newLine depth)

theorem separate (first : Laid ts chars) (second : Laid us more) : Laid (ts ++ .comma :: us) (chars ++ ',' :: more) :=
  first.append (.token .comma second)

theorem enclose (laid : Laid ts chars) {left right : Char} {first last : Token} (opening : first.Written [left])
    (closing : last.Written [right]) : Laid (first :: ts ++ [last]) (left :: chars ++ [right]) :=
  (single opening).append (laid.append (single closing))

theorem text {t : Option String} (known : t.isSome = true) : Laid [.text t] (writeText t) := by
  obtain ⟨s, rfl⟩ := Option.isSome_iff_exists.mp known
  exact .single (.text (Quoted.write_written s))

theorem member (depth : Nat) {key : Option String} (known : key.isSome = true) (laid : Laid ts chars) :
    Laid (.text key :: .colon :: ts) (Json.newLine depth ++ writeText key ++ ':' :: ' ' :: chars) :=
  ((newLine depth).append (text known)).append (.token .colon (.blank rfl laid))

theorem entry {key : Option String} (known : key.isSome = true) (laid : Laid ts chars) :
    Laid (.text key :: .colon :: ts) (writeText key ++ ':' :: chars) :=
  (text known).append (.token .colon laid)

end Laid

mutual

theorem laid_prettyChars (depth : Nat) : ∀ value : Json, value.Legible → Laid value.tokens (prettyChars depth value)
  | null, _ => .single .null
  | bool b, _ => .single (.bool b)
  | number _, legible => .single (.number legible.written)
  | text _, known => .text known
  | array [], _ => .enclose .nil .openArray .closeArray
  | array (item :: items), legible =>
    ((laid_prettyItems (depth + 1) (item :: items) legible).trail depth).enclose .openArray .closeArray
  | object [], _ => .enclose .nil .openObject .closeObject
  | object (member :: members), legible =>
    ((laid_prettyMembers (depth + 1) (member :: members) legible).trail depth).enclose .openObject .closeObject

theorem laid_prettyItems (depth : Nat) : ∀ items : List Json, ItemsLegible items →
    Laid (itemTokens items) (prettyItems depth items)
  | [], _ => .nil
  | [item], legible => (Laid.newLine depth).append (laid_prettyChars depth item legible.1)
  | item :: next :: others, legible =>
    have first := (Laid.newLine depth).append (laid_prettyChars depth item legible.1)
    first.separate (laid_prettyItems depth (next :: others) legible.2)

theorem laid_prettyMembers (depth : Nat) : ∀ members : List (Option String × Json), MembersLegible members →
    Laid (memberTokens members) (prettyMembers depth members)
  | [], _ => .nil
  | [(_, value)], legible => (laid_prettyChars depth value legible.2.1).member depth legible.1
  | (_, value) :: next :: others, legible =>
    ((laid_prettyChars depth value legible.2.1).member depth legible.1).separate
      (laid_prettyMembers depth (next :: others) legible.2.2)

end

mutual

theorem laid_compactChars : ∀ value : Json, value.Legible → Laid value.tokens (compactChars value)
  | null, _ => .single .null
  | bool b, _ => .single (.bool b)
  | number _, legible => .single (.number legible.written)
  | text _, known => .text known
  | array items, legible => (laid_compactItems items legible).enclose .openArray .closeArray
  | object members, legible => (laid_compactMembers members legible).enclose .openObject .closeObject

theorem laid_compactItems : ∀ items : List Json, ItemsLegible items → Laid (itemTokens items) (compactItems items)
  | [], _ => .nil
  | [item], legible => laid_compactChars item legible.1
  | item :: next :: others, legible =>
    (laid_compactChars item legible.1).separate (laid_compactItems (next :: others) legible.2)

theorem laid_compactMembers : ∀ members : List (Option String × Json), MembersLegible members →
    Laid (memberTokens members) (compactMembers members)
  | [], _ => .nil
  | [(_, value)], legible => (laid_compactChars value legible.2.1).entry legible.1
  | (_, value) :: next :: others, legible =>
    ((laid_compactChars value legible.2.1).entry legible.1).separate
      (laid_compactMembers (next :: others) legible.2.2)

end

end Forms

theorem parse?_pretty {value : Json} (legible : value.Legible) : parse? value.pretty = some value := by
  apply Laid.parse?_eq
  rw [pretty, String.toList_ofList]
  exact laid_prettyChars 0 value legible

theorem parse?_compact {value : Json} (legible : value.Legible) : parse? value.compact = some value := by
  apply Laid.parse?_eq
  rw [compact, String.toList_ofList]
  exact laid_compactChars value legible

end Tilework.Json
