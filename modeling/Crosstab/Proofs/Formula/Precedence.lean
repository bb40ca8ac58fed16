import Mathlib.Data.List.Basic
import Crosstab.Proofs.Formula.Grammar

/-!
# The ends of a phrase

One token of lookahead decides where a phrase ends: `Closed` says that what follows does not bind
tightly enough to continue it. Only some tokens begin a phrase, and no phrase that begins with a
sign is a power.
-/

namespace Crosstab.Formula

namespace Token

def opens : Token → Bool
  | number _ | boolean _ | word _ | field _ | and | or | leftParen => true
  | _ => false

end Token

def Operator.strength : Operator → Nat
  | or => 0
  | and => 1
  | equal | notEqual | less | greater | lessEqual | greaterEqual => 2
  | add | subtract => 3
  | multiply | divide | modulo => 4
  | power => 5

def Level.strength : Level → Nat
  | disjunction => 0
  | conjunction => 1
  | comparison => 2
  | sum => 3
  | product => 4

/-- An operator continues a phrase that is no stronger than the operator. -/
def Phrase.strength : Phrase → Nat
  | chain level => level.strength
  | operand | power => 5
  | primary => 6

theorem strength_of_level {op : Operator} {level : Level} (h : op.level? = some level) :
    op.strength = level.strength := by
  cases op <;> cases h <;> rfl

theorem strength_lt_part (level : Level) : level.strength < level.part.strength := by
  cases level <;> decide

theorem Operator.token_injective {op op' : Operator} (h : op.token = op'.token) : op = op' := by
  cases op <;> cases op' <;> first | rfl | cases h

/-- Only operators looser than a phrase may follow it. -/
def Closed (phrase : Phrase) (t : Token) : Prop :=
  ∀ op : Operator, t = op.token → op.strength < phrase.strength

theorem Closed.mono {phrase phrase' : Phrase} {t : Token} (h : Closed phrase t)
    (hle : phrase.strength ≤ phrase'.strength) : Closed phrase' t :=
  fun op hop => Nat.lt_of_lt_of_le (h op hop) hle

theorem closed_token {phrase : Phrase} {op : Operator} (h : op.strength < phrase.strength) :
    Closed phrase op.token :=
  fun _ hop => Operator.token_injective hop ▸ h

theorem closed_primary (t : Token) : Closed .primary t := by
  intro op _
  cases op <;> decide

/-- Tokens that are no operators close every phrase. -/
theorem closed_of_ne {t : Token} (h : ∀ op : Operator, t ≠ op.token) (phrase : Phrase) :
    Closed phrase t :=
  fun op hop => absurd hop (h op)

theorem closed_rightParen {t : Token} (h : t = .rightParen) (phrase : Phrase) :
    Closed phrase t :=
  closed_of_ne (fun op => by subst h; cases op <;> nofun) phrase

theorem closed_comma {t : Token} (h : t = .comma) (phrase : Phrase) : Closed phrase t :=
  closed_of_ne (fun op => by subst h; cases op <;> nofun) phrase

theorem closed_endOfFormula (phrase : Phrase) : Closed phrase .endOfFormula :=
  closed_of_ne (fun op => by cases op <;> nofun) phrase

def Begins (phrase : Phrase) (t : Token) : Prop :=
  t.opens = true ∨ t = .minus ∧ phrase ≠ .power ∧ phrase ≠ .primary

theorem Begins.ne_rightParen {phrase : Phrase} {t : Token} (h : Begins phrase t) :
    t ≠ .rightParen := by
  rintro rfl
  obtain h | ⟨h, -⟩ := h <;> cases h

theorem Begins.ne_quoted {phrase : Phrase} {t : Token} (h : Begins phrase t) (name : String) :
    t ≠ .quoted name := by
  rintro rfl
  obtain h | ⟨h, -⟩ := h <;> cases h

theorem Begins.ne_minus {t : Token} (h : Begins .power t) : t ≠ .minus := by
  rintro rfl
  obtain h | ⟨-, h, -⟩ := h
  · cases h
  · exact h rfl

variable {resolve : String → Option FieldId}

theorem begins_of_derives {room : Nat} {phrase : Phrase} {ts : List Token} {e : Expr}
    (h : Derives resolve room phrase ts e) :
    ∃ t more, ts = t :: more ∧ Begins phrase t := by
  induction h with
  | part _ ih =>
    obtain ⟨t, more, rfl, ht⟩ := ih
    exact ⟨t, more, rfl, ht.imp_right fun ht => ⟨ht.1, nofun, nofun⟩⟩
  | join _ _ _ ihl _ =>
    obtain ⟨t, more, rfl, ht⟩ := ihl
    exact ⟨t, _, rfl, ht⟩
  | negation _ _ => exact ⟨_, _, rfl, .inr ⟨rfl, nofun, nofun⟩⟩
  | unsigned _ ih =>
    obtain ⟨t, more, rfl, ht⟩ := ih
    exact ⟨t, more, rfl, ht.imp_right fun ht => absurd rfl ht.2.1⟩
  | base _ ih =>
    obtain ⟨t, more, rfl, ht⟩ := ih
    exact ⟨t, more, rfl, ht.imp_right fun ht => absurd rfl ht.2.2⟩
  | exponent _ _ ihl _ =>
    obtain ⟨t, more, rfl, ht⟩ := ihl
    exact ⟨t, _, rfl, ht.imp_right fun ht => absurd rfl ht.2.2⟩
  | number x => exact ⟨_, _, rfl, .inl rfl⟩
  | boolean b => exact ⟨_, _, rfl, .inl rfl⟩
  | field _ => exact ⟨_, _, rfl, .inl rfl⟩
  | parenthesized _ _ => exact ⟨_, _, rfl, .inl rfl⟩
  | summary _ _ => exact ⟨_, _, rfl, .inl rfl⟩
  | call hhead _ _ _ _ => exact ⟨_, _, rfl, .inl (by cases hhead <;> rfl)⟩
  | conditional _ _ _ _ _ _ => exact ⟨_, _, rfl, .inl rfl⟩

theorem begins_current {room : Nat} {phrase : Phrase} {used : List Lexeme} {e : Expr}
    (h : Derives resolve room phrase (used.map (·.token)) e) (rest : List Lexeme) :
    Begins phrase (Parser.current (used ++ rest)) := by
  obtain ⟨t, more, hts, ht⟩ := begins_of_derives h
  obtain ⟨l, used', rfl, rfl, -⟩ := List.map_eq_cons_iff.1 hts
  exact ht

end Crosstab.Formula
