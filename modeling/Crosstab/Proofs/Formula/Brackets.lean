import Crosstab.Proofs.Formula.Names
import Mathlib.Data.List.TakeWhile

/-!
# Names in brackets

A formula refers to a field by its name in brackets. The name ends at the first closing bracket, and
white space at its ends does not count. So a name is read back from brackets if and only if it has no
closing bracket in it; opening brackets do no harm.
-/

namespace Crosstab

/-! ### From characters to tokens -/

theorem Text.trim_of_enclosed {s : String} {first last : Char} {cs : List Char}
    (hs : s.toList = first :: (cs ++ [last])) (hfirst : isBlank first = false)
    (hlast : isBlank last = false) : trim s = s := by
  have hhead : s.toList.dropWhile isBlank = s.toList := by
    rw [hs, List.dropWhile_cons_of_neg (by simp [hfirst])]
  have hreverse : s.toList.reverse = last :: (first :: cs).reverse := by
    rw [hs, ← List.cons_append, List.reverse_concat]
  have htail : s.toList.reverse.dropWhile isBlank = s.toList.reverse := by
    rw [hreverse, List.dropWhile_cons_of_neg (by simp [hlast])]
  rw [trim, trimBlank, hhead, htail, List.reverse_reverse, String.ofList_toList]

namespace Formula

theorem Token.splitAtClose_of_notMem {close : Char} {inner : List Char} (h : close ∉ inner)
    (rest : List Char) : splitAtClose close (inner ++ close :: rest) = some (inner, rest) := by
  induction inner with
  | nil => rw [List.nil_append, splitAtClose, if_pos rfl]
  | cons c inner ih =>
    obtain ⟨hc, hinner⟩ := List.ne_and_not_mem_of_not_mem_cons h
    rw [List.cons_append, splitAtClose, if_neg hc.symm, ih hinner, Option.map_some]

namespace Cursor

variable {c : Cursor} {ch : Char} {cs : List Char}

theorem lexemes_eq_nil_iff : c.lexemes = [] ↔ ∀ ch ∈ c.rest, Text.isBlank ch = true := by
  rw [← List.dropWhile_eq_nil_iff, lexemes]
  split
  · next hnil => exact iff_of_true rfl hnil
  · next hcons => exact iff_of_false (List.cons_ne_nil _ _) (hcons ▸ List.cons_ne_nil _ _)

section
variable (h : c.rest = ch :: cs) (hch : Text.isBlank ch = false)
include h hch

theorem dropWhile_isBlank : c.rest.dropWhile Text.isBlank = ch :: cs := by
  rw [h, List.dropWhile_cons_of_neg (by simp [hch])]

theorem lexemes_of_nonblank : c.lexemes = c.next.1 :: c.next.2.lexemes := by
  have hdrop := dropWhile_isBlank h hch
  rw [lexemes]
  split
  · next hnil => cases hnil.symm.trans hdrop
  · rfl

theorem next_of_nonblank :
    c.next.1.token = (Token.scan ch cs).1 ∧ c.next.2.rest = (Token.scan ch cs).2 := by
  rw [next, dropWhile_isBlank h hch]
  exact ⟨rfl, rfl⟩

end

/-- A bracket is read up to the first closing one. -/
theorem tokens_of_bracket {inner after : List Char} (h : c.rest = '[' :: (inner ++ ']' :: after))
    (hinner : ']' ∉ inner) :
    ∃ d : Cursor, d.rest = after ∧
      c.lexemes.map (·.token) =
        .field (String.ofList (Text.trimBlank inner)) :: d.lexemes.map (·.token) := by
  have hscan : Token.scan '[' (inner ++ ']' :: after) =
      (.field (String.ofList (Text.trimBlank inner)), after) := by
    change Token.scanField _ = _
    rw [Token.scanField, Token.splitAtClose_of_notMem hinner]
  have hblank : Text.isBlank '[' = false := by decide
  obtain ⟨htoken, hrest⟩ := next_of_nonblank h hblank
  rw [hscan] at htoken hrest
  refine ⟨c.next.2, hrest, ?_⟩
  rw [lexemes_of_nonblank h hblank, List.map_cons, htoken]

end Cursor

/-! ### From tokens to trees -/

def bracketed (name : String) : String := "[" ++ name ++ "]"

theorem toList_bracketed (name : String) :
    (bracketed name).toList = '[' :: (name.toList ++ [']']) := by
  rw [bracketed, String.toList_append, String.toList_append]
  rfl

theorem trim_bracketed (name : String) : Text.trim (bracketed name) = bracketed name :=
  Text.trim_of_enclosed (toList_bracketed name) (by decide) (by decide)

variable {resolve : String → Option FieldId} {name : String} {id : FieldId}

/-- A reference that begins with a name in brackets ends with it. -/
theorem eq_nil_of_derives_field {room : Nat} {phrase : Phrase} {ts : List Token}
    (h : Derives resolve room phrase (.field name :: ts) (.field id)) : ts = [] := by
  generalize hus : Token.field name :: ts = us at h
  generalize he : Expr.field id = e at h
  induction h with
  | part _ ih | unsigned _ ih | base _ ih => exact ih hus he
  | field hid => exact (List.cons.inj hus).2
  | parenthesized _ => cases hus
  | join | negation | exponent | number | boolean | summary | call | conditional => cases he

theorem parse_bracketed (h : ']' ∉ name.toList) (hid : resolve (Text.trim name) = some id) :
    parse resolve (bracketed name) = .ok (.field id) := by
  obtain ⟨d, hd, htokens⟩ := Cursor.tokens_of_bracket (c := .start (bracketed name))
    (toList_bracketed name) h
  have hnil : d.lexemes = [] := by
    rw [Cursor.lexemes_eq_nil_iff, hd]
    exact nofun
  have hderives : Derives resolve 1 (.chain .disjunction)
      ((lexemes (bracketed name)).map (·.token)) (.field id) := by
    rw [lexemes, htokens, hnil]
    exact .part (.part (.part (.part (.part (.unsigned (.base (.field hid)))))))
  exact parse_of_derives hderives (by decide) (by simp [Expr.depth, nestingLimit])

theorem parse_bracketed_ne (h : ']' ∈ name.toList) :
    parse resolve (bracketed name) ≠ .ok (.field id) := by
  obtain ⟨inner, after, hname, hinner⟩ := List.eq_append_cons_of_mem h
  have hrest : (Cursor.start (bracketed name)).rest =
      '[' :: (inner ++ ']' :: (after ++ [']'])) := by
    change (bracketed name).toList = _
    rw [toList_bracketed, hname, List.append_assoc, List.cons_append]
  obtain ⟨d, hd, htokens⟩ := Cursor.tokens_of_bracket hrest hinner
  intro hparse
  have hderives := derives_of_parse hparse
  rw [lexemes, htokens] at hderives
  have hnil : d.lexemes = [] := List.map_eq_nil_iff.1 (eq_nil_of_derives_field hderives)
  -- but the bracket that ends the formula is left to be read
  have hblank := Cursor.lexemes_eq_nil_iff.1 hnil ']' (hd ▸ List.mem_concat_self)
  exact absurd hblank (by decide)

theorem parse_bracketed_iff (hid : resolve (Text.trim name) = some id) :
    parse resolve (bracketed name) = .ok (.field id) ↔ ']' ∉ name.toList :=
  ⟨fun h hmem => parse_bracketed_ne hmem h, fun h => parse_bracketed h hid⟩

end Formula

end Crosstab
