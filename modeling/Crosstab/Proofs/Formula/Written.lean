import Crosstab.Proofs.Formula.Literals

/-!
# How tokens are written

Each token has its ways of being written. Symbols are written as they are shown, and words in any
case. A quote or a bracket runs to its closing character, or to the end of the formula without one.
What is read as a token is written in one of the ways of that token, and only the end is written
with nothing.
-/

namespace Crosstab

namespace Decimal.Numeral

theorem magnitude?_of_point {ds es : List Char} (hne : ds ++ es ≠ [])
    (h : ∀ d ∈ ds ++ es, isDigit d = true) :
    magnitude? false (ds ++ '.' :: es) =
      some ⟨false, digitsValue (ds ++ es), -es.length⟩ := by
  obtain ⟨hds, hes⟩ := List.forall_mem_append.1 h
  have hpoint : ¬isDigit '.' = true := by decide
  have hwhole : (ds ++ '.' :: es).takeWhile isDigit = ds := by
    rw [List.takeWhile_append_of_pos hds, List.takeWhile_cons_of_neg hpoint, List.append_nil]
  have hrest : (ds ++ '.' :: es).dropWhile isDigit = '.' :: es := by
    rw [List.dropWhile_append_of_pos hds, List.dropWhile_cons_of_neg hpoint]
  have hfraction : es.takeWhile isDigit = es := List.takeWhile_eq_self_iff.2 hes
  have hend : es.dropWhile isDigit = [] := List.dropWhile_eq_nil_iff.2 hes
  have hdigits : ¬(ds = [] ∧ es = []) := fun hnil => hne (List.append_eq_nil_iff.2 hnil)
  simp only [magnitude?, hwhole, hrest, hfraction, hend, if_neg hdigits,
    exponent?, Option.map_some, Int.zero_sub]

end Decimal.Numeral

namespace Formula

open Decimal (isDigit digitsValue Numeral)

/-- The tokens that are written with symbols, as they are shown. -/
def symbols : List Token :=
  [.plus, .minus, .asterisk, .slash, .percent, .caret, .equal, .notEqual, .less, .greater,
    .lessEqual, .greaterEqual, .leftParen, .rightParen, .comma]

def keywords : List Token := [.boolean true, .boolean false, .and, .or]

inductive Written : Token → List Char → Prop
  | symbol {t : Token} (ht : t ∈ symbols) : Written t t.text.toList
  | ampersands : Written .and ['&', '&']
  | bars : Written .or ['|', '|']
  | keyword {t : Token} {text : List Char} (ht : t ∈ keywords)
      (htext : text.map Char.toUpper = t.text.toList) : Written t text
  | word {c : Char} {cs : List Char} (hc : Token.isLetter c = true)
      (hcs : ∀ d ∈ cs, Token.continuesWord d = true)
      (hname : ∀ t ∈ keywords, t.text.toList ≠ (c :: cs).map Char.toUpper) :
      Written (.word (String.ofList ((c :: cs).map Char.toUpper))) (c :: cs)
  | whole {ds : List Char} (hne : ds ≠ []) (hds : ∀ d ∈ ds, isDigit d = true) :
      Written (.number (Numeral.toFloat ⟨false, digitsValue ds, 0⟩)) ds
  | decimal {ds es : List Char} (hne : ds ++ es ≠ []) (hds : ∀ d ∈ ds ++ es, isDigit d = true) :
      Written (.number (Numeral.toFloat ⟨false, digitsValue (ds ++ es), -es.length⟩))
        (ds ++ '.' :: es)
  | quoted {name : List Char} (hname : '"' ∉ name) :
      Written (.quoted (String.ofList name)) ('"' :: (name ++ ['"']))
  /-- Up to the end of the formula. -/
  | unclosedQuoted {name : List Char} (hname : '"' ∉ name) :
      Written (.quoted (String.ofList name)) ('"' :: name)
  | field {name : List Char} (hname : ']' ∉ name) :
      Written (.field (String.ofList (Text.trimBlank name))) ('[' :: (name ++ [']']))
  /-- Up to the end of the formula. -/
  | unclosedField {name : List Char} (hname : ']' ∉ name) :
      Written (.unclosedField (String.ofList name)) ('[' :: name)
  | illegal {c : Char} (hc : Text.isBlank c = false) : Written (.illegal c) [c]
  | endOfFormula : Written .endOfFormula []

namespace Token

/-! ### Numbers -/

/-- After a point only digits belong to a number. -/
theorem numberTail_true (cs : List Char) : ∀ d ∈ (numberTail true cs).1, isDigit d = true := by
  induction cs with
  | nil => exact List.forall_mem_nil _
  | cons c cs ih =>
    rw [numberTail]
    by_cases hc : isDigit c = true
    · rw [if_pos hc]
      exact List.forall_mem_cons.2 ⟨hc, ih⟩
    · rw [if_neg hc, if_neg (fun hpoint => Bool.noConfusion hpoint.2)]
      exact List.forall_mem_nil _

/-- The rest of a number is digits, and a point and digits if there was no point before. -/
theorem numberTail_cases (b : Bool) (cs : List Char) :
    (∀ d ∈ (numberTail b cs).1, isDigit d = true) ∨
      b = false ∧ ∃ ds es : List Char, (∀ d ∈ ds ++ es, isDigit d = true) ∧
        (numberTail b cs).1 = ds ++ '.' :: es := by
  fun_induction numberTail b cs with
  | case1 => exact .inl (List.forall_mem_nil _)
  | case2 b c cs hc tail rest hrun ih =>
    rw [hrun] at ih
    rcases ih with htail | ⟨hb, ds, es, hdigits, htail⟩
    · exact .inl (List.forall_mem_cons.2 ⟨hc, htail⟩)
    · exact .inr ⟨hb, c :: ds, es, List.forall_mem_cons.2 ⟨hc, hdigits⟩, congrArg (c :: ·) htail⟩
  | case3 b c cs _ hpoint tail rest hrun _ =>
    have htail := numberTail_true cs
    rw [hrun] at htail
    exact .inr ⟨hpoint.2, [], tail, htail, congrArg (· :: tail) hpoint.1⟩
  | case4 => exact .inl (List.forall_mem_nil _)

section
variable {c : Char} {cs ds es : List Char}

theorem written_of_digits (hne : ds ≠ []) (hds : ∀ d ∈ ds, isDigit d = true) :
    Written (ofNumber c ds) ds := by
  rw [ofNumber, Numeral.magnitude?_of_digits hne hds]
  exact .whole hne hds

theorem written_of_decimal (hne : ds ++ es ≠ []) (hds : ∀ d ∈ ds ++ es, isDigit d = true) :
    Written (ofNumber c (ds ++ '.' :: es)) (ds ++ '.' :: es) := by
  rw [ofNumber, Numeral.magnitude?_of_point hne hds]
  exact .decimal hne hds

/-- A point is illegal only if it stands alone. -/
theorem written_pointFirst (hcs : ∀ d ∈ cs, isDigit d = true) :
    Written (ofNumber '.' ('.' :: cs)) ('.' :: cs) := by
  cases cs with
  | nil => exact .illegal (by decide)
  | cons d ds => exact @written_of_decimal '.' [] (d :: ds) (List.cons_ne_nil d ds) hcs

theorem written_digitFirst (hc : isDigit c = true) (b : Bool) (cs : List Char) :
    Written (ofNumber c (c :: (numberTail b cs).1)) (c :: (numberTail b cs).1) := by
  rcases numberTail_cases b cs with htail | ⟨-, ds, es, hdigits, htail⟩
  · exact written_of_digits (List.cons_ne_nil _ _) (List.forall_mem_cons.2 ⟨hc, htail⟩)
  · rw [htail]
    have hdigits : ∀ d ∈ (c :: ds) ++ es, isDigit d = true :=
      List.forall_mem_cons.2 ⟨hc, hdigits⟩
    exact written_of_decimal (List.cons_ne_nil _ _) hdigits

theorem written_ofNumber (hc : (isDigit c || c == '.') = true) (cs : List Char) :
    Written (ofNumber c (c :: (numberTail (c == '.') cs).1))
      (c :: (numberTail (c == '.') cs).1) := by
  by_cases hpoint : c = '.'
  · subst hpoint
    exact written_pointFirst (numberTail_true cs)
  · exact written_digitFirst (by simpa [hpoint] using hc) _ cs

end

/-! ### Words -/

theorem written_ofWord {c : Char} {cs : List Char} (hc : isLetter c = true)
    (hcs : ∀ d ∈ cs, continuesWord d = true) : Written (ofWord (c :: cs)) (c :: cs) := by
  generalize hname : String.ofList ((c :: cs).map Char.toUpper) = name
  have hupper : (c :: cs).map Char.toUpper = name.toList := by rw [← hname, String.toList_ofList]
  rw [ofWord, hname]
  split
  · exact .keyword (by decide) hupper
  · exact .keyword (by decide) hupper
  · exact .keyword (by decide) hupper
  · exact .keyword (by decide) hupper
  · next htrue hfalse hand hor =>
    rw [← hname]
    refine .word hc hcs fun t ht htext => ?_
    have hshown : name = t.text := String.toList_inj.1 (hupper.symm.trans htext.symm)
    simp only [keywords, List.mem_cons, List.not_mem_nil, or_false] at ht
    rcases ht with rfl | rfl | rfl | rfl
    · exact htrue hshown
    · exact hfalse hshown
    · exact hand hshown
    · exact hor hshown

/-! ### Quotes and brackets -/

theorem notMem_of_splitAtClose {close : Char} {cs inner rest : List Char}
    (h : splitAtClose close cs = some (inner, rest)) : close ∉ inner := by
  induction cs generalizing inner with
  | nil => cases h
  | cons c cs ih =>
    rw [splitAtClose] at h
    by_cases hc : c = close
    · rw [if_pos hc] at h
      obtain ⟨rfl, rfl⟩ := Prod.mk.inj (Option.some.inj h)
      exact List.not_mem_nil
    · rw [if_neg hc] at h
      obtain ⟨⟨i, r⟩, hs, he⟩ := Option.map_eq_some_iff.1 h
      obtain ⟨rfl, rfl⟩ := Prod.mk.inj he
      exact List.not_mem_cons_of_ne_of_not_mem (Ne.symm hc) (ih hs)

theorem notMem_of_splitAtClose_none {close : Char} {cs : List Char}
    (h : splitAtClose close cs = none) : close ∉ cs := by
  intro hmem
  obtain ⟨inner, rest, rfl, hinner⟩ := List.eq_append_cons_of_mem hmem
  rw [splitAtClose_of_notMem hinner] at h
  cases h

/-! ### Tokens -/

def Begins (cs : List Char) (r : Token × List Char) : Prop :=
  ∃ text, cs = text ++ r.2 ∧ Written r.1 text

section
variable {c : Char} {t : Token}

theorem written_ofChar? (h : ofChar? c = some t) : Written t [c] := by
  unfold ofChar? at h
  split at h <;> cases h <;> exact .symbol (by decide)

theorem written_ofPair? {second : Char} {paired single : Token}
    (h : ofPair? c = some (second, paired, single)) :
    Written paired [c, second] ∧ Written single [c] := by
  unfold ofPair? at h
  split at h <;> cases h
  · exact ⟨.symbol (t := .equal) (by decide), .illegal (by decide)⟩
  · exact ⟨.symbol (t := .notEqual) (by decide), .illegal (by decide)⟩
  · exact ⟨.ampersands, .illegal (by decide)⟩
  · exact ⟨.bars, .illegal (by decide)⟩
  · exact ⟨.symbol (t := .lessEqual) (by decide), .symbol (t := .less) (by decide)⟩
  · exact ⟨.symbol (t := .greaterEqual) (by decide), .symbol (t := .greater) (by decide)⟩

theorem begins_pair {second : Char} {paired single : Token}
    (h : ofPair? c = some (second, paired, single)) (cs : List Char) :
    Begins (c :: cs) (pair second paired single cs) := by
  obtain ⟨hpaired, hsingle⟩ := written_ofPair? h
  cases cs with
  | nil => exact ⟨[c], rfl, hsingle⟩
  | cons d cs =>
    by_cases hd : d = second
    · rw [pair, if_pos hd]
      exact ⟨[c, second], hd ▸ rfl, hpaired⟩
    · rw [pair, if_neg hd]
      exact ⟨[c], rfl, hsingle⟩

theorem begins_scanQuoted (cs : List Char) : Begins ('"' :: cs) (scanQuoted cs) := by
  unfold scanQuoted
  split
  · next inner rest h =>
    refine ⟨'"' :: (inner ++ ['"']), ?_, .quoted (notMem_of_splitAtClose h)⟩
    simp [← splitAtClose_append h]
  · next h =>
    exact ⟨'"' :: cs, (List.append_nil _).symm, .unclosedQuoted (notMem_of_splitAtClose_none h)⟩

theorem begins_scanField (cs : List Char) : Begins ('[' :: cs) (scanField cs) := by
  unfold scanField
  split
  · next inner rest h =>
    refine ⟨'[' :: (inner ++ [']']), ?_, .field (notMem_of_splitAtClose h)⟩
    simp [← splitAtClose_append h]
  · next h =>
    exact ⟨'[' :: cs, (List.append_nil _).symm, .unclosedField (notMem_of_splitAtClose_none h)⟩

theorem begins_scanOther (hc : Text.isBlank c = false) (cs : List Char) :
    Begins (c :: cs) (scanOther c cs) := by
  unfold scanOther
  split
  · next hnumber =>
    refine ⟨c :: (numberTail (c == '.') cs).1, ?_, written_ofNumber hnumber cs⟩
    exact congrArg (c :: ·) (numberTail_append (c == '.') cs).symm
  · split
    · next hletter =>
      refine ⟨c :: cs.takeWhile continuesWord, ?_, written_ofWord hletter fun d hd => ?_⟩
      · exact congrArg (c :: ·) List.takeWhile_append_dropWhile.symm
      · exact List.mem_takeWhile_imp hd
    · exact ⟨[c], rfl, .illegal hc⟩

/-- A token is written with the characters that are taken for it. -/
theorem begins_scan (hc : Text.isBlank c = false) (cs : List Char) :
    Begins (c :: cs) (scan c cs) := by
  unfold scan
  split
  · next t h => exact ⟨[c], rfl, written_ofChar? h⟩
  · split
    · next h => exact begins_pair h cs
    · by_cases hquote : c = '"'
      · rw [if_pos hquote, hquote]
        exact begins_scanQuoted cs
      · by_cases hbracket : c = '['
        · rw [if_neg hquote, if_pos hbracket, hbracket]
          exact begins_scanField cs
        · rw [if_neg hquote, if_neg hbracket]
          exact begins_scanOther hc cs

end

end Token

/-! ### The end -/

/-- Only the end is written with nothing. -/
theorem Written.eq_nil_iff {t : Token} {text : List Char} (h : Written t text) :
    text = [] ↔ t = .endOfFormula := by
  have hshown : ∀ t ∈ symbols ++ keywords, t.text.toList ≠ [] ∧ t ≠ .endOfFormula := by decide
  cases h with
  | symbol ht =>
    have ht := hshown t (List.mem_append_left _ ht)
    exact iff_of_false ht.1 ht.2
  | keyword ht htext =>
    have ht := hshown t (List.mem_append_right _ ht)
    refine iff_of_false (fun hnil => ht.1 ?_) ht.2
    rw [← htext, hnil, List.map_nil]
  | whole hne hds => exact iff_of_false hne nofun
  | decimal hne hds => exact iff_of_false (List.append_ne_nil_of_right_ne_nil _ nofun) nofun
  | endOfFormula => exact iff_of_true rfl rfl
  | _ => exact iff_of_false nofun nofun

end Formula

end Crosstab
