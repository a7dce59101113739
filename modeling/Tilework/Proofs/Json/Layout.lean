import Mathlib.Data.List.Chain
import Tilework.Proofs.Json.Literals

namespace Tilework.Json

mutual

def tokens : Json → List Token
  | null => [.null]
  | bool b => [.bool b]
  | number n => [.number n]
  | text t => [.text t]
  | array items => .openArray :: itemTokens items ++ [.closeArray]
  | object members => .openObject :: memberTokens members ++ [.closeObject]

def itemTokens : List Json → List Token
  | [] => []
  | [item] => item.tokens
  | item :: rest => item.tokens ++ .comma :: itemTokens rest

def memberTokens : List (Option String × Json) → List Token
  | [] => []
  | [(key, value)] => .text key :: .colon :: value.tokens
  | (key, value) :: rest => .text key :: .colon :: value.tokens ++ .comma :: memberTokens rest

end

inductive Token.Written : Token → List Char → Prop
  | openArray : Written .openArray ['[']
  | closeArray : Written .closeArray [']']
  | openObject : Written .openObject ['{']
  | closeObject : Written .closeObject ['}']
  | comma : Written .comma [',']
  | colon : Written .colon [':']
  | null : Written .null ['n', 'u', 'l', 'l']
  | bool (b : Bool) : Written (.bool b) (writeBool b)
  | number {n : Numeral} {literal : List Char} : n.Written literal → Written (.number n) literal
  | text {t : Option String} {literal : List Char} : Quoted.Written t literal → Written (.text t) literal

/-- The characters are the tokens in their order, with any blanks before, between and after them. -/
inductive Laid : List Token → List Char → Prop
  | nil : Laid [] []
  | blank {c : Char} {ts : List Token} {chars : List Char} : isBlank c = true → Laid ts chars → Laid ts (c :: chars)
  | token {t : Token} {ts : List Token} {literal chars : List Char} : t.Written literal → Laid ts chars →
    Laid (t :: ts) (literal ++ chars)

section Characters

theorem tokens?_blank {c : Char} (blank : isBlank c = true) (rest : List Char) : tokens? (c :: rest) = tokens? rest := by
  rw [tokens?, if_pos blank]

theorem tokens?_token {c : Char} {rest after : List Char} {token : Token} (visible : isBlank c = false)
    (read : token? c rest = some (token, after)) : tokens? (c :: rest) = (tokens? after).map (token :: ·) := by
  rw [tokens?, if_neg (by simp [visible])]
  split
  · rename_i none
    rw [read] at none
    cases none
  · rename_i token' after' same
    rw [read] at same
    cases same
    rfl

theorem token?_of_read? {c : Char} {rest after : List Char} {n : Numeral}
    (read : Numeral.read? (c :: rest) = some (n, after)) :
    isBlank c = false ∧ token? c rest = some (.number n, after) := by
  have start : c = '-' ∨ c.isDigit = true := by
    by_contra other
    push Not at other
    have unsigned : Numeral.read? (c :: rest) = Numeral.unsigned? false (c :: rest) := by
      unfold Numeral.read?
      split
      · rename_i same
        cases same
        exact absurd rfl other.1
      · rfl
    have none : (c :: rest).takeWhile Char.isDigit = [] := by simp [other.2]
    rw [unsigned] at read
    simp [Numeral.unsigned?, Numeral.whole?, Numeral.digits?, none] at read
  constructor
  · cases blank : isBlank c with
    | false => rfl
    | true =>
      simp only [isBlank, Bool.or_eq_true, decide_eq_true_eq] at blank
      rcases blank with ((rfl | rfl) | rfl) | rfl <;> revert start <;> decide
  · unfold token?
    split
    case h_11 => rw [read]; rfl
    all_goals exact absurd start (by decide)

theorem tokens?_number {n : Numeral} {literal rest : List Char}
    (read : Numeral.read? (literal ++ rest) = some (n, rest)) :
    tokens? (literal ++ rest) = (tokens? rest).map (.number n :: ·) := by
  cases chars : literal ++ rest with
  | nil =>
    rw [chars] at read
    cases read
  | cons c others =>
    rw [chars] at read
    obtain ⟨visible, token⟩ := token?_of_read? read
    exact tokens?_token visible token

theorem tokens?_text {t : Option String} {literal : List Char} (written : Quoted.Written t literal)
    (rest : List Char) : tokens? (literal ++ rest) = (tokens? rest).map (.text t :: ·) := by
  cases written with
  | @mk pieces inner between =>
    have read : token? '"' (inner ++ '"' :: rest) =
        some (.text ((Quoted.assemble? pieces).map String.ofList), rest) := by
      show (Quoted.pieces? _).map _ = _
      rw [Quoted.pieces?_written between, Option.map_some]
    rw [List.cons_append, List.append_assoc, List.singleton_append]
    exact tokens?_token (by decide) read

end Characters

namespace Token

def Closes (t : Token) : Prop := t = .comma ∨ t = .closeArray ∨ t = .closeObject

/-- A number is not followed by what could be taken for a part of it. -/
def Apart (t next : Token) : Prop := ∀ n, t = .number n → next.Closes

theorem isChain_append {ts us : List Token} {t : Token} (first : ts.IsChain Apart) (closes : t.Closes)
    (second : (t :: us).IsChain Apart) : (ts ++ t :: us).IsChain Apart := by
  refine first.append second ?_
  rintro _ _ _ ⟨⟩ _ _
  exact closes

theorem isChain_cons {ts : List Token} {t : Token} (other : ∀ n, t ≠ .number n) (later : ts.IsChain Apart) :
    (t :: ts).IsChain Apart := by
  refine List.isChain_cons.mpr ⟨?_, later⟩
  intro _ _ n same
  exact absurd same (other n)

theorem Written.tokens?_eq {t : Token} {literal rest : List Char} (written : t.Written literal)
    (ends : ∀ n, t = .number n → Numeral.Ends rest) : tokens? (literal ++ rest) = (tokens? rest).map (t :: ·) := by
  cases written with
  | number digits => exact tokens?_number (Numeral.read?_append digits (ends _ rfl))
  | text quoted => exact tokens?_text quoted rest
  | bool b => cases b <;> exact tokens?_token (by decide) rfl
  | _ => exact tokens?_token (by decide) rfl

theorem Written.ends {t : Token} {literal : List Char} (written : t.Written literal) (closes : t.Closes)
    (rest : List Char) : Numeral.Ends (literal ++ rest) := by
  rcases closes with rfl | rfl | rfl <;> cases written <;> exact Numeral.ends_cons (by decide) rest

end Token

section Values

open Token (isChain_append isChain_cons)

mutual

theorem tokens_apart : ∀ value : Json, value.tokens.IsChain Token.Apart
  | null => .singleton _
  | bool _ => .singleton _
  | number _ => .singleton _
  | text _ => .singleton _
  | array items =>
    isChain_cons (fun _ => nofun) (isChain_append (itemTokens_apart items) (.inr (.inl rfl)) (.singleton _))
  | object members =>
    isChain_cons (fun _ => nofun) (isChain_append (memberTokens_apart members) (.inr (.inr rfl)) (.singleton _))

theorem itemTokens_apart : ∀ items : List Json, (itemTokens items).IsChain Token.Apart
  | [] => .nil
  | [item] => tokens_apart item
  | item :: next :: others =>
    isChain_append (tokens_apart item) (.inl rfl) (isChain_cons (fun _ => nofun) (itemTokens_apart (next :: others)))

theorem memberTokens_apart : ∀ members : List (Option String × Json), (memberTokens members).IsChain Token.Apart
  | [] => .nil
  | [(_, value)] => isChain_cons (fun _ => nofun) (isChain_cons (fun _ => nofun) (tokens_apart value))
  | (_, value) :: next :: others =>
    isChain_cons (fun _ => nofun) (isChain_cons (fun _ => nofun) (isChain_append (tokens_apart value) (.inl rfl)
      (isChain_cons (fun _ => nofun) (memberTokens_apart (next :: others)))))

end

end Values

namespace Laid

variable {ts : List Token} {chars : List Char}

theorem ends (laid : Laid ts chars) (closes : ∀ t ∈ ts.head?, t.Closes) : Numeral.Ends chars := by
  cases laid with
  | nil => exact Numeral.ends_nil
  | @blank c _ later blank _ =>
    simp only [isBlank, Bool.or_eq_true, decide_eq_true_eq] at blank
    rcases blank with ((rfl | rfl) | rfl) | rfl <;> exact Numeral.ends_cons (by decide) later
  | token written _ => exact written.ends (closes _ rfl) _

theorem tokens?_eq (laid : Laid ts chars) (apart : ts.IsChain Token.Apart) : tokens? chars = some ts := by
  induction laid with
  | nil => rw [tokens?]
  | blank blank _ ih => rw [tokens?_blank blank, ih apart]
  | token written later ih =>
    obtain ⟨next, tail⟩ := List.isChain_cons.mp apart
    rw [written.tokens?_eq fun n same => later.ends fun t first => next t first n same, ih tail, Option.map_some]

theorem append {us : List Token} {more : List Char} (first : Laid ts chars) (second : Laid us more) :
    Laid (ts ++ us) (chars ++ more) := by
  induction first with
  | nil => exact second
  | blank blank _ ih => exact .blank blank ih
  | token written _ ih =>
    rw [List.append_assoc]
    exact .token written ih

end Laid

end Tilework.Json
