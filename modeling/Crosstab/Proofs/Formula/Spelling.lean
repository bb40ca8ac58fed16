import Mathlib
import Crosstab.Proofs.Formula.Completeness
import Crosstab.Proofs.Formula.Soundness

/-!
# Formulas and their trees

Reading a formula is one with the grammar: a tree that is read is spelled by the tokens of the
formula, and a tree that they spell is read unless it nests too deeply. With enough room nothing
nests too deeply, so no tokens spell two trees.
-/

namespace Crosstab.Formula
open Crosstab.Formula.Parser
variable {resolve : String → Option FieldId}

/-- With enough room the step of a phrase returns its tree. -/
theorem run_of_derives {s : Setting} {room n : Nat} {phrase : Phrase} {ts : List Lexeme} {e : Expr}
    (h : Derives s.resolve n phrase (ts.map (·.token)) e) (hroom : n ≤ room)
    (hdepth : e.depth ≤ s.limit) : run (step s room phrase) ts = .ok (e, []) := by
  have hread : Reaches s (Tight s room n e) (run (step s room phrase) (ts ++ [])) (.ok (e, [])) :=
    (complete_of_derives h room).reaches rfl (closed_endOfFormula _)
  have hloose : ¬Tight s room n e := by
    unfold Tight
    omega
  rw [List.append_nil] at hread
  exact hread.eq_of_not hloose

/-- Tokens make up a phrase for one tree at most. -/
theorem derives_unique {n m : Nat} {phrase : Phrase} {ts : List Token} {e e' : Expr}
    (h : Derives resolve n phrase ts e) (h' : Derives resolve m phrase ts e') : e = e' := by
  let s : Setting := ⟨resolve, max e.depth e'.depth, 0⟩
  have htokens : (ts.map fun t => Lexeme.mk t 0 0).map (·.token) = ts := by
    rw [List.map_map]
    exact List.map_id' ts
  rw [← htokens] at h h'
  have hread := run_of_derives (s := s) h (Nat.le_max_left n m) (Nat.le_max_left _ _)
  have hread' := run_of_derives (s := s) h' (Nat.le_max_right n m) (Nat.le_max_right _ _)
  exact congrArg Prod.fst (Except.ok.inj (hread.symm.trans hread'))

theorem spellsWithin_tokenize {room : Nat} {formula : String} {e : Expr} :
    SpellsWithin resolve room ((tokenize formula).map (·.token)) e ↔
      Derives resolve room (.chain .disjunction) ((lexemes formula).map (·.token)) e := by
  rw [tokenize, List.map_append]
  constructor
  · rintro ⟨body, hbody, hd⟩
    rwa [(List.append_inj' hbody rfl).1]
  · exact fun hd => ⟨_, rfl, hd⟩

/-- Reading follows the grammar. A tree that is read is spelled by the formula. A tree that is
spelled is read, unless nesting is refused, and then every spelling needs more room than there is
or the tree is too high. No tokens spell two trees. -/
theorem parse_grammar (resolve : String → Option FieldId) :
    (∀ formula e, parse resolve formula = .ok e →
      Spells resolve ((tokenize formula).map (·.token)) e) ∧
    (∀ formula room e, SpellsWithin resolve room ((tokenize formula).map (·.token)) e →
      parse resolve formula = .ok e ∨
        (nestingLimit < room ∨ nestingLimit < e.depth) ∧
          ∃ position, parse resolve formula = .error (.nestingTooDeep nestingLimit position)) ∧
    ∀ ts e e', Spells resolve ts e → Spells resolve ts e' → e = e' := by
  refine ⟨?_, ?_, ?_⟩
  · intro formula e h
    exact ⟨nestingLimit, spellsWithin_tokenize.2 (derives_of_whole h)⟩
  · intro formula room e h
    let s : Setting := ⟨resolve, nestingLimit, formula.length⟩
    have hd : Derives s.resolve room (.chain .disjunction) ((lexemes formula).map (·.token)) e :=
      spellsWithin_tokenize.1 h
    exact reaches_whole hd
  · rintro ts e e' ⟨_, body, rfl, h⟩ ⟨_, body', hbody, h'⟩
    obtain rfl := (List.append_inj' hbody rfl).1
    exact derives_unique h h'

section Sample

def columns : String → Option FieldId
  | "A" => some "a"
  | "B" => some "b"
  | _ => none

def powersFormula : String := "OR([A], [B]) OR [B] - -[A] ^ [B] ^ [A] - [B]"

def powersTree : Expr :=
  .binary .or (.call .or [.field "a", .field "b"])
    (.binary .subtract
      (.binary .subtract (.field "b")
        (.negate (.binary .power (.field "a") (.binary .power (.field "b") (.field "a")))))
      (.field "b"))

/-- A word that heads a call and then joins, a chain of differences, a sign before a power and a
power of a power. -/
theorem powers_spelled :
    parse columns powersFormula = .ok powersTree ∧
      ∀ e, Spells columns ((tokenize powersFormula).map (·.token)) e ↔ e = powersTree := by
  have hparse : parse columns powersFormula = .ok powersTree := by cbv
  have hspells := (parse_grammar columns).1 powersFormula powersTree hparse
  refine ⟨hparse, fun e => ⟨fun h => ?_, fun h => h ▸ hspells⟩⟩
  exact (parse_grammar columns).2.2 _ e powersTree h hspells

end Sample

end Crosstab.Formula
