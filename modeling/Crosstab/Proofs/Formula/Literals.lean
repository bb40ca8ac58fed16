import Mathlib
import Crosstab.Proofs.Formula.Brackets
import Crosstab.Proofs.Text

/-!
# The numbers in a formula

The numbers that a tree holds are written in its formula: each of them is one of its tokens. A
number may have any number of digits, and one with more than 310 before the point is infinite.
-/

namespace Crosstab

namespace Formula

namespace Expr

mutual

def literals : Expr → List Float
  | number x => [x]
  | boolean _ | field _ | summary _ _ => []
  | binary _ l r => l.literals ++ r.literals
  | negate e => e.literals
  | conditional c y n => c.literals ++ (y.literals ++ n.literals)
  | call _ args => literalsAll args

def literalsAll : List Expr → List Float
  | [] => []
  | e :: es => e.literals ++ literalsAll es

end

theorem mem_literalsAll {x : Float} {es : List Expr} :
    x ∈ literalsAll es ↔ ∃ e ∈ es, x ∈ e.literals := by
  induction es with
  | nil => simp [literalsAll]
  | cons e es ih => simp [literalsAll, ih]

end Expr

theorem mem_separated {t : Token} {ts : List Token} {tss : List (List Token)} (hts : ts ∈ tss)
    (ht : t ∈ ts) : t ∈ separated tss := by
  cases tss with
  | nil => cases hts
  | cons us uss =>
    rw [separated_cons, List.mem_append, List.mem_flatMap]
    rcases List.mem_cons.1 hts with rfl | hts
    · exact .inl ht
    · exact .inr ⟨ts, hts, List.mem_cons_of_mem _ ht⟩

/-- A number of a tree is one of the tokens that the tree is made of. -/
theorem mem_of_mem_literals {resolve : String → Option FieldId} {room : Nat} {phrase : Phrase}
    {ts : List Token} {e : Expr} (h : Derives resolve room phrase ts e) {x : Float}
    (hx : x ∈ e.literals) : Token.number x ∈ ts := by
  induction h with
  | part _ ih | unsigned _ ih | base _ ih => exact ih hx
  | join _ _ _ ihl ihr | exponent _ _ ihl ihr =>
    rcases List.mem_append.1 hx with hx | hx
    · exact List.mem_append_left _ (ihl hx)
    · exact List.mem_append_right _ (List.mem_cons_of_mem _ (ihr hx))
  | negation _ ih => exact List.mem_cons_of_mem _ (ih hx)
  | number y =>
    obtain rfl := List.mem_singleton.1 hx
    exact List.mem_singleton_self _
  | boolean b => cases hx
  | field hid => cases hx
  | summary hs hid => cases hx
  | parenthesized _ ih => exact List.mem_cons_of_mem _ (List.mem_append_left _ (ih hx))
  | call _ _ _ _ ih =>
    obtain ⟨e, he, hx⟩ := Expr.mem_literalsAll.1 hx
    obtain ⟨a, ha, rfl⟩ := List.mem_map.1 he
    have hargument := mem_separated (List.mem_map_of_mem (f := Prod.fst) ha) (ih a ha hx)
    exact List.mem_cons_of_mem _ (List.mem_cons_of_mem _ (List.mem_append_left _ hargument))
  | @conditional _ cs ys ns c y n _ _ _ ihc ihy ihn =>
    have hargument : Token.number x ∈ separated [cs, ys, ns] := by
      rcases List.mem_append.1 hx with hx | hx
      · exact mem_separated (by simp) (ihc hx)
      · rcases List.mem_append.1 hx with hx | hx
        · exact mem_separated (by simp) (ihy hx)
        · exact mem_separated (by simp) (ihn hx)
    exact List.mem_cons_of_mem _ (List.mem_cons_of_mem _ (List.mem_append_left _ hargument))

def numbersIn (formula : String) : List Float :=
  (lexemes formula).filterMap fun l =>
    match l.token with
    | .number x => some x
    | _ => none

/-- The numbers of the tree of a formula are written in it. -/
theorem literals_subset_of_parse {resolve : String → Option FieldId} {formula : String} {e : Expr}
    (h : parse resolve formula = .ok e) : e.literals ⊆ numbersIn formula := by
  intro x hx
  obtain ⟨l, hl, htoken⟩ := List.mem_map.1 (mem_of_mem_literals (derives_of_parse h) hx)
  exact List.mem_filterMap.2 ⟨l, hl, by rw [htoken]⟩

end Formula

/-! ### Long numbers -/

namespace Decimal

theorem lt_digitCount {n k : Nat} (h : 10 ^ k ≤ n) : k < digitCount n := by
  have hpos : 0 < n := Nat.lt_of_lt_of_le (Nat.pow_pos (by decide)) h
  rw [digitCount, dif_neg (Nat.ne_of_gt hpos)]
  cases k with
  | zero => exact Nat.succ_pos _
  | succ k =>
    have hrest : 10 ^ k ≤ n / 10 := by rwa [Nat.le_div_iff_mul_le (by decide), ← Nat.pow_succ]
    exact Nat.succ_lt_succ (lt_digitCount hrest)

theorem pow_length_le_digitsValue {d : Char} (hd : '0' < d) (ds : List Char) :
    10 ^ ds.length ≤ digitsValue (d :: ds) := by
  have hfold (n : Nat) : n * 10 ^ ds.length ≤
      ds.foldl (fun n c => 10 * n + (c.toNat - '0'.toNat)) n := by
    induction ds generalizing n with
    | nil => simp
    | cons c cs ih =>
      calc n * 10 ^ (cs.length + 1) = 10 * n * 10 ^ cs.length := by
            rw [Nat.pow_succ', Nat.mul_left_comm, Nat.mul_assoc]
        _ ≤ (10 * n + (c.toNat - '0'.toNat)) * 10 ^ cs.length :=
          Nat.mul_le_mul_right _ (Nat.le_add_right _ _)
        _ ≤ _ := ih _
  have hfirst : 1 ≤ 10 * 0 + (d.toNat - '0'.toNat) := by
    rw [Nat.mul_zero, Nat.zero_add]
    exact Nat.sub_pos_of_lt hd
  calc 10 ^ ds.length = 1 * 10 ^ ds.length := (Nat.one_mul _).symm
    _ ≤ (10 * 0 + (d.toNat - '0'.toNat)) * 10 ^ ds.length := Nat.mul_le_mul_right _ hfirst
    _ ≤ _ := hfold _

namespace Numeral

theorem toFloat_of_long {n k : Nat} (hk : 310 ≤ k) (h : 10 ^ k ≤ n) :
    toFloat ⟨false, n, 0⟩ = 1.0 / 0.0 := by
  have horder := lt_digitCount h
  have hne : n ≠ 0 := Nat.ne_of_gt (Nat.lt_of_lt_of_le (Nat.pow_pos (by decide)) h)
  have hsmall : ¬(n = 0 ∨ (digitCount n : Int) + 0 < -330) := by omega
  have hlarge : (310 : Int) < digitCount n + 0 := by omega
  simp only [toFloat, if_neg hsmall, if_pos hlarge, Bool.false_eq_true, if_false]

theorem magnitude?_of_digits {cs : List Char} (hne : cs ≠ []) (h : ∀ c ∈ cs, isDigit c = true) :
    magnitude? false cs = some ⟨false, digitsValue cs, 0⟩ := by
  have htake : cs.takeWhile isDigit = cs := List.takeWhile_eq_self_iff.2 h
  have hdrop : cs.dropWhile isDigit = [] := List.dropWhile_eq_nil_iff.2 h
  simp [magnitude?, htake, hdrop, hne, exponent?]

end Numeral

end Decimal

namespace Formula

open Decimal (isDigit digitsValue Numeral)

theorem Token.numberTail_of_digits {cs : List Char} (h : ∀ c ∈ cs, isDigit c = true)
    (pointSeen : Bool) : numberTail pointSeen cs = (cs, []) := by
  induction cs with
  | nil => rfl
  | cons c cs ih =>
    obtain ⟨hc, hcs⟩ := List.forall_mem_cons.1 h
    rw [numberTail, if_pos hc, ih hcs]

section
variable {d : Char} {ds : List Char} (h : ∀ c ∈ d :: ds, isDigit c = true)
include h

theorem Token.scan_of_digits :
    scan d ds = (.number (Numeral.toFloat ⟨false, digitsValue (d :: ds), 0⟩), []) := by
  obtain ⟨hd, hds⟩ := List.forall_mem_cons.1 h
  have hchar : ofChar? d = none := by
    unfold ofChar?
    split <;> first | rfl | cases hd
  have hpair : ofPair? d = none := by
    unfold ofPair?
    split <;> first | rfl | cases hd
  have hquote : d ≠ '"' := by
    rintro rfl
    cases hd
  have hbracket : d ≠ '[' := by
    rintro rfl
    cases hd
  simp only [scan, hchar, hpair, if_neg hquote, if_neg hbracket, scanOther, hd, Bool.true_or,
    if_true, numberTail_of_digits hds, ofNumber,
    Numeral.magnitude?_of_digits (List.cons_ne_nil d ds) h]

theorem Cursor.tokens_of_digits {c : Cursor} (hrest : c.rest = d :: ds) :
    c.lexemes.map (·.token) =
      [.number (Numeral.toFloat ⟨false, digitsValue (d :: ds), 0⟩)] := by
  have hblank : Text.isBlank d = false :=
    Text.isBlank_of_isDigit (List.forall_mem_cons.1 h).1
  obtain ⟨htoken, hend⟩ := next_of_nonblank hrest hblank
  rw [Token.scan_of_digits h] at htoken hend
  have hnil : c.next.2.lexemes = [] := by
    rw [lexemes_eq_nil_iff, hend]
    exact nofun
  rw [lexemes_of_nonblank hrest hblank, List.map_cons, htoken, hnil, List.map_nil]

/-- More than 310 digits after a minus are read as the negation of an infinite number. -/
theorem parse_minus_long {resolve : String → Option FieldId} (hd : '0' < d)
    (hlong : 310 ≤ ds.length) :
    parse resolve (String.ofList ('-' :: d :: ds)) = .ok (.negate (.number (1.0 / 0.0))) := by
  have hminus : (Cursor.start (String.ofList ('-' :: d :: ds))).rest = '-' :: d :: ds :=
    String.toList_ofList
  have hblank : Text.isBlank '-' = false := by decide
  obtain ⟨htoken, hrest⟩ := Cursor.next_of_nonblank hminus hblank
  have hlarge := Numeral.toFloat_of_long hlong (Decimal.pow_length_le_digitsValue hd ds)
  have htokens : (lexemes (String.ofList ('-' :: d :: ds))).map (·.token) =
      [.minus, .number (1.0 / 0.0)] := by
    rw [lexemes, Cursor.lexemes_of_nonblank hminus hblank, List.map_cons, htoken,
      Cursor.tokens_of_digits h hrest, hlarge]
    rfl
  have hderives : Derives resolve 2 (.chain .disjunction)
      ((lexemes (String.ofList ('-' :: d :: ds))).map (·.token))
      (.negate (.number (1.0 / 0.0))) := by
    rw [htokens]
    exact .part (.part (.part (.part (.part (.negation (.unsigned (.base (.number _))))))))
  exact parse_of_derives hderives (by decide) (by simp [Expr.depth, nestingLimit])

end

end Formula

end Crosstab
