import Crosstab.Proofs.Formula.Reading

/-!
# Nothing too high is read

A leaf has height 1, and any other tree is measured when it is made. So no step returns a tree that
is higher than the nesting limit, as long as the room for operands does not exceed the limit.
-/

namespace Crosstab.Formula.Parser
variable {s : Setting} {room : Nat}

def Low (s : Setting) (p : Step Expr) : Prop :=
  ∀ ts e rest, run p ts = .ok (e, rest) → e.depth ≤ s.limit

theorem depth_le_of_bounded {e e' : Expr} {rest : List Lexeme}
    (h : bounded s e rest = .ok e') : e'.depth ≤ s.limit := by
  unfold bounded at h
  split at h
  · cases h
  · obtain rfl := Except.ok.inj h
    omega

theorem depth_le_of_runTail {part : Step Expr} {operator? : Token → Option Operator} {n : Nat}
    {ts rest : List Lexeme} {left e : Expr} (hn : ts.length < n) (hleft : left.depth ≤ s.limit)
    (h : runTail s part operator? left ts = .ok (e, rest)) : e.depth ≤ s.limit := by
  induction n generalizing ts left with
  | zero => exact absurd hn (Nat.not_lt_zero _)
  | succ n ih =>
    cases ts with
    | nil =>
      rw [runTail_nil] at h
      cases h
      exact hleft
    | cons l after =>
      cases hop : operator? l.token with
      | none =>
        rw [runTail_stop s _ _ left hop] at h
        cases h
        exact hleft
      | some op =>
        rw [runTail_step s _ _ left hop] at h
        obtain ⟨⟨right, after'⟩, hright, hrest⟩ := bind_eq_ok.1 h
        obtain ⟨e', he', htail⟩ := bind_eq_ok.1 hrest
        have hshort : after'.length < n := by
          have := length_of_run hright
          simp only [List.length_cons] at hn
          omega
        exact ih hshort (depth_le_of_bounded he') htail

theorem low_chain {part : Step Expr} (hpart : Low s part) (operator? : Token → Option Operator) :
    Low s (chain s part operator?) := by
  intro ts e rest h
  rw [run_chain] at h
  obtain ⟨⟨left, after⟩, hleft, htail⟩ := bind_eq_ok.1 h
  exact depth_le_of_runTail (Nat.lt_succ_self _) (hpart _ _ _ hleft) htail

theorem low_expression {operand : Step Expr} (h : Low s operand) :
    Low s (expression s operand) :=
  low_chain (low_chain (low_chain (low_chain (low_chain h _) _) _) _) _

theorem low_call (operand : Step Expr) (name : String) : Low s (call s operand name) := by
  intro ts e rest h
  rw [run_call] at h
  obtain ⟨f, -, h₁⟩ := bind_eq_ok.1 h
  obtain ⟨⟨es, after⟩, -, h₂⟩ := bind_eq_ok.1 h₁
  obtain ⟨final, -, h₃⟩ := bind_eq_ok.1 h₂
  split at h₃
  · obtain ⟨e', he', hok⟩ := bind_eq_ok.1 h₃
    cases hok
    exact depth_le_of_bounded he'
  · cases h₃

theorem low_connective (operand : Step Expr) (name : String) (place : Nat) :
    Low s (connective s operand name place) := by
  intro ts e rest h
  cases ts with
  | nil => cases h
  | cons l after =>
    by_cases hl : l.token = .leftParen
    · rw [run_connective s _ hl] at h
      exact low_call operand name _ _ _ h
    · simp only [run, connective, if_neg hl] at h
      cases h

section Primary
variable (hlimit : 1 ≤ s.limit)
include hlimit

theorem low_summary (name fieldName : String) : Low s (summary s name fieldName) := by
  intro ts e rest h
  cases hs : Summary.ofName? name with
  | none =>
    unfold run summary at h
    rw [hs] at h
    cases h
  | some f =>
    rw [run_summary s hs] at h
    obtain ⟨id, -, h₁⟩ := bind_eq_ok.1 h
    obtain ⟨final, -, hok⟩ := bind_eq_ok.1 h₁
    cases hok
    exact hlimit

theorem low_application (operand : Step Expr) (name : String) :
    Low s (application s operand name) := by
  intro ts e rest h
  by_cases hquoted : ∃ fieldName, current ts = .quoted fieldName
  · obtain ⟨fieldName, hcurrent⟩ := hquoted
    cases ts with
    | nil => cases hcurrent
    | cons l after =>
      exact low_summary hlimit name fieldName _ _ _ (summary_of_application s _ hcurrent h)
  · rw [run_application_call s _ fun fieldName hl => hquoted ⟨fieldName, hl⟩] at h
    exact low_call operand name _ _ _ h

theorem low_word (operand : Step Expr) (name : String) : Low s (word s operand name) := by
  intro ts e rest h
  cases ts with
  | nil => cases h
  | cons l after =>
    by_cases hl : l.token = .leftParen
    · rw [run_word s _ hl] at h
      exact low_application hlimit operand name _ _ _ h
    · simp only [run, word, if_neg hl] at h
      cases h

theorem low_primary {operand : Step Expr} (hoperand : Low s operand) :
    Low s (primary s operand) := by
  intro ts e rest h
  cases ts with
  | nil => cases h
  | cons l after =>
    cases hl : l.token with
    | number x =>
      rw [run_primary_number s _ _ hl] at h
      cases h
      exact hlimit
    | boolean b =>
      rw [run_primary_boolean s _ _ hl] at h
      cases h
      exact hlimit
    | field name =>
      rw [run_primary_field s _ _ hl] at h
      obtain ⟨id, -, hok⟩ := bind_eq_ok.1 h
      cases hok
      exact hlimit
    | leftParen =>
      rw [run_primary_parenthesis s _ _ hl] at h
      obtain ⟨⟨e', after'⟩, he, h₁⟩ := bind_eq_ok.1 h
      obtain ⟨final, -, hok⟩ := bind_eq_ok.1 h₁
      cases hok
      exact low_expression hoperand _ _ _ he
    | word name =>
      rw [run_primary_word s _ _ hl] at h
      exact low_word hlimit operand name _ _ _ h
    | and =>
      rw [run_primary_and s _ _ hl] at h
      exact low_connective operand _ _ _ _ _ h
    | or =>
      rw [run_primary_or s _ _ hl] at h
      exact low_connective operand _ _ _ _ _ h
    | _ =>
      simp only [run, primary, hl] at h
      cases h

theorem low_power {operand : Step Expr} (hoperand : Low s operand) : Low s (power s operand) := by
  intro ts e rest h
  rw [run_power] at h
  obtain ⟨⟨base, after⟩, hbase, hexponent⟩ := bind_eq_ok.1 h
  have hlow := low_primary hlimit hoperand _ _ _ hbase
  cases after with
  | nil =>
    cases hexponent
    exact hlow
  | cons l more =>
    by_cases hl : l.token = .caret
    · rw [runExponent, if_pos hl] at hexponent
      obtain ⟨⟨exponent, final⟩, -, h₁⟩ := bind_eq_ok.1 hexponent
      obtain ⟨e', he', hok⟩ := bind_eq_ok.1 h₁
      cases hok
      exact depth_le_of_bounded he'
    · rw [runExponent, if_neg hl] at hexponent
      cases hexponent
      exact hlow

end Primary

/-- Where there is room for an operand there is a limit above 0, so leaves are not too high. -/
theorem low_operand (hroom : room ≤ s.limit) : Low s (operand s room) := by
  induction room with
  | zero => nofun
  | succ room ih =>
    intro ts e rest h
    change run (signed s (operand s room)) ts = _ at h
    by_cases hminus : current ts = .minus
    · cases ts with
      | nil => cases hminus
      | cons l after =>
        rw [run_signed_minus s _ hminus] at h
        obtain ⟨⟨e', final⟩, -, h₁⟩ := bind_eq_ok.1 h
        obtain ⟨e'', he'', hok⟩ := bind_eq_ok.1 h₁
        cases hok
        exact depth_le_of_bounded he''
    · rw [run_signed_unsigned s _ hminus] at h
      exact low_power (by omega) (ih (by omega)) _ _ _ h

theorem depth_le_of_whole {ts : List Lexeme} {e : Expr} (h : whole s ts = .ok e) :
    e.depth ≤ s.limit := by
  rw [whole_eq] at h
  obtain ⟨⟨e', rest⟩, he, hend⟩ := bind_eq_ok.1 h
  have hlow := low_expression (low_operand (Nat.le_refl s.limit)) _ _ _ he
  cases rest with
  | nil =>
    cases hend
    exact hlow
  | cons l more =>
    dsimp only at hend
    split at hend <;> cases hend

end Crosstab.Formula.Parser
