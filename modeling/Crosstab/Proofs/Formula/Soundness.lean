import Mathlib.Data.List.Basic
import Crosstab.Proofs.Formula.Reading

/-!
# What is read is derived

A step that succeeds has used up tokens from the front, and the grammar derives its tree from them.
A chain grows to the left while its tail is read, so the invariant of the tail is that all that was
read so far is a chain. The step for operands is the only one that counts, and the induction on its
room carries all the others along.
-/

namespace Crosstab.Formula.Parser
variable {s : Setting} {room : Nat}

/-- The step of a phrase reads only what is derived as that phrase. -/
def Sound (s : Setting) (room : Nat) (phrase : Phrase) : Prop :=
  ∀ ts e rest, run (step s room phrase) ts = .ok (e, rest) →
    ∃ used, ts = used ++ rest ∧ Derives s.resolve room phrase (used.map (·.token)) e

theorem eq_of_bounded {e e' : Expr} {rest : List Lexeme} (h : bounded s e rest = .ok e') :
    e = e' := by
  unfold bounded at h
  split at h
  · cases h
  · exact Except.ok.inj h

theorem resolve_eq_ok {name : String} {id : FieldId} (h : resolve s name = .ok id) :
    s.resolve name = some id := by
  unfold resolve at h
  split at h <;> cases h
  assumption

theorem name_of_function {name : String} {ts : List Lexeme} {f : Function}
    (h : function s name ts = .ok f) : name = f.name := by
  unfold function at h
  split at h
  · cases h
    exact Function.eq_name_of_ofName? ‹_›
  · split at h <;> cases h

theorem derives_of_runTail {level : Level} (hpart : Sound s room level.part) {n : Nat}
    {ts rest : List Lexeme} {ls : List Token} {left e : Expr} (hn : ts.length < n)
    (hleft : Derives s.resolve room (.chain level) ls left)
    (h : runTail s (step s room level.part) (operator? level) left ts = .ok (e, rest)) :
    ∃ used, ts = used ++ rest ∧
      Derives s.resolve room (.chain level) (ls ++ used.map (·.token)) e := by
  induction n generalizing ts ls left with
  | zero => exact absurd hn (Nat.not_lt_zero _)
  | succ n ih =>
    cases ts with
    | nil =>
      rw [runTail_nil] at h
      cases h
      exact ⟨[], rfl, by rwa [List.map_nil, List.append_nil]⟩
    | cons l after =>
      cases hop : operator? level l.token with
      | none =>
        rw [runTail_stop s _ _ left hop] at h
        cases h
        exact ⟨[], rfl, by rwa [List.map_nil, List.append_nil]⟩
      | some op =>
        rw [runTail_step s _ _ left hop] at h
        obtain ⟨⟨right, after'⟩, hright, hrest⟩ := bind_eq_ok.1 h
        obtain ⟨e', he', htail⟩ := bind_eq_ok.1 hrest
        obtain rfl := eq_of_bounded he'
        obtain ⟨used, rfl, hd⟩ := hpart _ _ _ hright
        obtain ⟨hlevel, htoken⟩ := operator?_eq_some hop
        have hshort : after'.length < n := by
          simp only [List.length_cons, List.length_append] at hn
          omega
        -- the chain so far becomes the left operand of the next operator
        obtain ⟨used', rfl, hd'⟩ := ih hshort (.join hlevel hleft hd) htail
        refine ⟨l :: used ++ used', by simp, ?_⟩
        simpa [htoken] using hd'

theorem sound_chain (level : Level) (hpart : Sound s room level.part) :
    Sound s room (.chain level) := by
  intro ts e rest h
  rw [step_chain, run_chain] at h
  obtain ⟨⟨left, after⟩, hleft, htail⟩ := bind_eq_ok.1 h
  obtain ⟨used, rfl, hd⟩ := hpart _ _ _ hleft
  obtain ⟨used', rfl, hd'⟩ := derives_of_runTail hpart (Nat.lt_succ_self _) (.part hd) htail
  exact ⟨used ++ used', by simp, by simpa using hd'⟩

/-- Operands carry the chains of all levels. -/
theorem sound_chains (h : Sound s room .operand) (level : Level) :
    Sound s room (.chain level) := by
  have product := sound_chain .product h
  have sum := sound_chain .sum product
  have comparison := sound_chain .comparison sum
  have conjunction := sound_chain .conjunction comparison
  have disjunction := sound_chain .disjunction conjunction
  cases level <;> assumption

/-- The arguments between the parentheses of a call make up a primary with its head. -/
theorem derives_of_build {head : Token} {f : Function} (hhead : Names head f)
    {args : List (List Token × Expr)} (harity : f.arity.accepts args.length = true)
    (hargs : ∀ a ∈ args, Derives s.resolve room (.chain .disjunction) a.1 a.2) :
    Derives s.resolve room .primary
      (head :: .leftParen :: (separated (args.map Prod.fst) ++ [.rightParen]))
      (build f (args.map Prod.snd)) := by
  by_cases hf : f = .choose
  · subst hf
    obtain ⟨c, y, n, rfl⟩ := List.length_eq_three.1 (of_decide_eq_true harity)
    cases hhead
    exact .conditional (hargs c (by simp)) (hargs y (by simp)) (hargs n (by simp))
  · rw [build_of_ne_choose hf]
    exact .call hhead hf harity hargs

theorem derives_of_summary {name fieldName : String} {ts rest : List Lexeme} {e : Expr}
    (h : run (summary s name fieldName) ts = .ok (e, rest)) :
    ∃ used, ts = used ++ rest ∧
      Derives s.resolve room .primary
        (.word name :: .leftParen :: .quoted fieldName :: used.map (·.token)) e := by
  cases hs : Summary.ofName? name with
  | none =>
    unfold run summary at h
    rw [hs] at h
    cases h
  | some f =>
    rw [run_summary s hs] at h
    obtain ⟨id, hid, h₁⟩ := bind_eq_ok.1 h
    obtain ⟨final, hfinal, hok⟩ := bind_eq_ok.1 h₁
    cases hok
    obtain ⟨l, rfl, hl⟩ := runClose_eq_ok s hfinal
    refine ⟨[l], rfl, ?_⟩
    rw [List.map_singleton, hl]
    exact .summary (Summary.ofName?_eq_some_iff.1 hs) (resolve_eq_ok hid)

section Primary
variable (hexpr : Sound s room (.chain .disjunction))
include hexpr

theorem derives_of_runArgumentsTail {n : Nat} {ts rest : List Lexeme} {es : List Expr}
    (hn : ts.length < n) (h : runArgumentsTail s (operand s room) ts = .ok (es, rest)) :
    ∃ (used : List Lexeme) (args : List (List Token × Expr)), ts = used ++ rest ∧
      used.map (·.token) = (args.map Prod.fst).flatMap (Token.comma :: ·) ∧
      es = args.map Prod.snd ∧
      ∀ a ∈ args, Derives s.resolve room (.chain .disjunction) a.1 a.2 := by
  induction n generalizing ts es with
  | zero => exact absurd hn (Nat.not_lt_zero _)
  | succ n ih =>
    cases ts with
    | nil =>
      rw [runArgumentsTail_nil] at h
      cases h
      exact ⟨[], [], rfl, rfl, rfl, nofun⟩
    | cons l after =>
      by_cases hl : l.token = .comma
      · rw [runArgumentsTail_comma s _ hl] at h
        obtain ⟨⟨e, after'⟩, he, hrest⟩ := bind_eq_ok.1 h
        obtain ⟨⟨es', final⟩, hes, hok⟩ := bind_eq_ok.1 hrest
        cases hok
        obtain ⟨used, rfl, hd⟩ := hexpr _ _ _ he
        have hshort : after'.length < n := by
          simp only [List.length_cons, List.length_append] at hn
          omega
        obtain ⟨used', args, rfl, htokens, rfl, hargs⟩ := ih hshort hes
        refine ⟨l :: used ++ used', (used.map (·.token), e) :: args, by simp, ?_, rfl, ?_⟩
        · simp [hl, htokens]
        · exact List.forall_mem_cons.2 ⟨hd, hargs⟩
      · rw [runArgumentsTail_stop s _ hl] at h
        cases h
        exact ⟨[], [], rfl, rfl, rfl, nofun⟩

theorem derives_of_runArguments {ts rest : List Lexeme} {es : List Expr}
    (hsome : current ts ≠ .rightParen)
    (h : runArguments s (operand s room) ts = .ok (es, rest)) :
    ∃ (used : List Lexeme) (args : List (List Token × Expr)), ts = used ++ rest ∧
      used.map (·.token) = separated (args.map Prod.fst) ∧ es = args.map Prod.snd ∧
      ∀ a ∈ args, Derives s.resolve room (.chain .disjunction) a.1 a.2 := by
  rw [runArguments_some s _ hsome] at h
  obtain ⟨⟨e, after⟩, he, hrest⟩ := bind_eq_ok.1 h
  obtain ⟨⟨es', final⟩, hes, hok⟩ := bind_eq_ok.1 hrest
  cases hok
  obtain ⟨used, rfl, hd⟩ := hexpr _ _ _ he
  obtain ⟨used', args, rfl, htokens, rfl, hargs⟩ :=
    derives_of_runArgumentsTail hexpr (Nat.lt_succ_self _) hes
  refine ⟨used ++ used', (used.map (·.token), e) :: args, by simp, ?_, rfl, ?_⟩
  · rw [List.map_append, htokens, List.map_cons, separated_cons]
  · exact List.forall_mem_cons.2 ⟨hd, hargs⟩

theorem derives_of_call {name : String} {head : Token}
    (hhead : ∀ f : Function, name = f.name → Names head f) {ts rest : List Lexeme} {e : Expr}
    (h : run (call s (operand s room) name) ts = .ok (e, rest)) :
    ∃ used, ts = used ++ rest ∧
      Derives s.resolve room .primary (head :: .leftParen :: used.map (·.token)) e := by
  rw [run_call] at h
  obtain ⟨f, hf, h₁⟩ := bind_eq_ok.1 h
  obtain ⟨⟨es, after⟩, hes, h₂⟩ := bind_eq_ok.1 h₁
  obtain ⟨final, hfinal, h₃⟩ := bind_eq_ok.1 h₂
  by_cases harity : f.arity.accepts es.length = true
  · rw [if_pos harity] at h₃
    obtain ⟨e', he', hok⟩ := bind_eq_ok.1 h₃
    cases hok
    obtain rfl := eq_of_bounded he'
    obtain ⟨l, rfl, hl⟩ := runClose_eq_ok s hfinal
    have hsome : current ts ≠ .rightParen := by
      intro hnone
      rw [runArguments_none s _ hnone] at hes
      cases hes
      cases (Function.not_accepts_zero f).symm.trans harity
    obtain ⟨used, args, rfl, htokens, rfl, hargs⟩ := derives_of_runArguments hexpr hsome hes
    rw [List.length_map] at harity
    have hd := derives_of_build (hhead f (name_of_function hf)) harity hargs
    refine ⟨used ++ [l], by simp, ?_⟩
    rwa [List.map_append, htokens, List.map_singleton, hl]
  · rw [if_neg harity] at h₃
    cases h₃

theorem derives_of_application {name : String} {ts rest : List Lexeme} {e : Expr}
    (h : run (application s (operand s room) name) ts = .ok (e, rest)) :
    ∃ used, ts = used ++ rest ∧
      Derives s.resolve room .primary (.word name :: .leftParen :: used.map (·.token)) e := by
  by_cases hquoted : ∃ fieldName, current ts = .quoted fieldName
  · obtain ⟨fieldName, hcurrent⟩ := hquoted
    cases ts with
    | nil => cases hcurrent
    | cons l after =>
      have hl : l.token = .quoted fieldName := hcurrent
      obtain ⟨used, rfl, hd⟩ := derives_of_summary (summary_of_application s _ hl h)
      exact ⟨l :: used, rfl, by rwa [List.map_cons, hl]⟩
  · rw [run_application_call s _ fun fieldName hl => hquoted ⟨fieldName, hl⟩] at h
    exact derives_of_call hexpr (fun f hf => hf ▸ .word f) h

theorem derives_of_connective {head : Token} {f : Function} (hhead : Names head f) {place : Nat}
    {ts rest : List Lexeme} {e : Expr}
    (h : run (connective s (operand s room) f.name place) ts = .ok (e, rest)) :
    ∃ used, ts = used ++ rest ∧
      Derives s.resolve room .primary (head :: used.map (·.token)) e := by
  cases ts with
  | nil => cases h
  | cons l after =>
    by_cases hl : l.token = .leftParen
    · rw [run_connective s _ hl] at h
      have hname (g : Function) (hg : f.name = g.name) : Names head g :=
        Function.name_injective hg ▸ hhead
      obtain ⟨used, rfl, hd⟩ := derives_of_call hexpr hname h
      exact ⟨l :: used, rfl, by rwa [List.map_cons, hl]⟩
    · simp only [run, connective, if_neg hl] at h
      cases h

theorem derives_of_word {name : String} {ts rest : List Lexeme} {e : Expr}
    (h : run (word s (operand s room) name) ts = .ok (e, rest)) :
    ∃ used, ts = used ++ rest ∧
      Derives s.resolve room .primary (.word name :: used.map (·.token)) e := by
  cases ts with
  | nil => cases h
  | cons l after =>
    by_cases hl : l.token = .leftParen
    · rw [run_word s _ hl] at h
      obtain ⟨used, rfl, hd⟩ := derives_of_application hexpr h
      exact ⟨l :: used, rfl, by rwa [List.map_cons, hl]⟩
    · simp only [run, word, if_neg hl] at h
      cases h

theorem sound_primary : Sound s room .primary := by
  intro ts e rest h
  change run (primary s (operand s room)) ts = _ at h
  cases ts with
  | nil => cases h
  | cons l after =>
    cases hl : l.token with
    | number x =>
      rw [run_primary_number s _ _ hl] at h
      cases h
      exact ⟨[l], rfl, by rw [List.map_singleton, hl]; exact .number x⟩
    | boolean b =>
      rw [run_primary_boolean s _ _ hl] at h
      cases h
      exact ⟨[l], rfl, by rw [List.map_singleton, hl]; exact .boolean b⟩
    | field name =>
      rw [run_primary_field s _ _ hl] at h
      obtain ⟨id, hid, hok⟩ := bind_eq_ok.1 h
      cases hok
      exact ⟨[l], rfl, by rw [List.map_singleton, hl]; exact .field (resolve_eq_ok hid)⟩
    | leftParen =>
      rw [run_primary_parenthesis s _ _ hl] at h
      obtain ⟨⟨e', after'⟩, he, h₁⟩ := bind_eq_ok.1 h
      obtain ⟨final, hfinal, hok⟩ := bind_eq_ok.1 h₁
      cases hok
      obtain ⟨used, rfl, hd⟩ := hexpr _ _ _ he
      obtain ⟨r, rfl, hr⟩ := runClose_eq_ok s hfinal
      refine ⟨l :: used ++ [r], by simp, ?_⟩
      rw [List.map_append, List.map_cons, List.map_singleton, hl, hr]
      exact .parenthesized hd
    | word name =>
      rw [run_primary_word s _ _ hl] at h
      obtain ⟨used, rfl, hd⟩ := derives_of_word hexpr h
      exact ⟨l :: used, rfl, by rwa [List.map_cons, hl]⟩
    | and =>
      rw [run_primary_and s _ _ hl] at h
      obtain ⟨used, rfl, hd⟩ := derives_of_connective hexpr .and h
      exact ⟨l :: used, rfl, by rwa [List.map_cons, hl]⟩
    | or =>
      rw [run_primary_or s _ _ hl] at h
      obtain ⟨used, rfl, hd⟩ := derives_of_connective hexpr .or h
      exact ⟨l :: used, rfl, by rwa [List.map_cons, hl]⟩
    | _ =>
      simp only [run, primary, hl] at h
      cases h

end Primary

theorem sound_power (h : Sound s room .operand) : Sound s room .power := by
  intro ts e rest hrun
  change run (power s (operand s room)) ts = _ at hrun
  rw [run_power] at hrun
  obtain ⟨⟨base, after⟩, hbase, hexponent⟩ := bind_eq_ok.1 hrun
  obtain ⟨used, rfl, hd⟩ := sound_primary (sound_chains h _) _ _ _ hbase
  cases after with
  | nil =>
    cases hexponent
    exact ⟨used, rfl, .base hd⟩
  | cons l more =>
    by_cases hl : l.token = .caret
    · rw [runExponent, if_pos hl] at hexponent
      obtain ⟨⟨exponent, final⟩, hpower, h₁⟩ := bind_eq_ok.1 hexponent
      obtain ⟨e', he', hok⟩ := bind_eq_ok.1 h₁
      cases hok
      obtain rfl := eq_of_bounded he'
      obtain ⟨used', rfl, hd'⟩ := h _ _ _ hpower
      refine ⟨used ++ l :: used', by simp, ?_⟩
      rw [List.map_append, List.map_cons, hl]
      exact .exponent hd hd'
    · rw [runExponent, if_neg hl] at hexponent
      cases hexponent
      exact ⟨used, rfl, .base hd⟩

theorem sound_operand (room : Nat) : Sound s room .operand := by
  induction room with
  | zero => nofun
  | succ room ih =>
    intro ts e rest h
    change run (signed s (operand s room)) ts = _ at h
    by_cases hminus : current ts = .minus
    · cases ts with
      | nil => cases hminus
      | cons l after =>
        have hl : l.token = .minus := hminus
        rw [run_signed_minus s _ hl] at h
        obtain ⟨⟨e', final⟩, he, h₁⟩ := bind_eq_ok.1 h
        obtain ⟨e'', he'', hok⟩ := bind_eq_ok.1 h₁
        cases hok
        obtain rfl := eq_of_bounded he''
        obtain ⟨used, rfl, hd⟩ := ih _ _ _ he
        exact ⟨l :: used, rfl, by rw [List.map_cons, hl]; exact .negation hd⟩
    · rw [run_signed_unsigned s _ hminus] at h
      obtain ⟨used, rfl, hd⟩ := sound_power ih _ _ _ h
      exact ⟨used, rfl, .unsigned hd⟩

/-- A formula that is read is spelled by its tokens. -/
theorem derives_of_whole {ts : List Lexeme} {e : Expr} (h : whole s ts = .ok e) :
    Derives s.resolve s.limit (.chain .disjunction) (ts.map (·.token)) e := by
  rw [whole_eq] at h
  obtain ⟨⟨e', rest⟩, he, hend⟩ := bind_eq_ok.1 h
  cases rest with
  | nil =>
    cases hend
    obtain ⟨used, hused, hd⟩ := sound_chains (sound_operand s.limit) .disjunction _ _ _ he
    rwa [hused, List.append_nil]
  | cons l more =>
    dsimp only at hend
    split at hend <;> cases hend

end Crosstab.Formula.Parser
