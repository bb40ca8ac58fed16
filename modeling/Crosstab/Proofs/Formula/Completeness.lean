import Crosstab.Proofs.Formula.Precedence
import Crosstab.Proofs.Formula.Reading

/-!
# What is derived is read

A step that is given the tokens of a phrase returns the tree of the phrase, whatever tokens follow,
as long as they do not continue it. The only other ending is the refusal of too much nesting, and
it needs a reason: too little room, or a tree that is too high. Chains lean to the left while they
are read from the left, so the induction stops each chain in the middle, where its tail goes on.
-/

namespace Crosstab.Formula.Parser
variable {s : Setting} {α β : Type} {hard : Prop}

/-- A result is as expected, or a refusal for too much nesting where nesting is hard. -/
def Reaches (s : Setting) (hard : Prop) (x y : Except ParseError α) : Prop :=
  x = y ∨ hard ∧ ∃ position, x = .error (.nestingTooDeep s.limit position)

namespace Reaches

theorem of_eq {x y : Except ParseError α} (h : x = y) : Reaches s hard x y := .inl h

theorem trans {x y z : Except ParseError α} (hxy : Reaches s hard x y)
    (hyz : Reaches s hard y z) : Reaches s hard x z := by
  obtain rfl | hxy := hxy
  · exact hyz
  · exact .inr hxy

theorem mono {hard' : Prop} {x y : Except ParseError α} (h : Reaches s hard x y)
    (himp : hard → hard') : Reaches s hard' x y :=
  h.imp_right fun ⟨hh, hx⟩ => ⟨himp hh, hx⟩

theorem bind {x : Except ParseError α} {a : α} {f : α → Except ParseError β}
    {y : Except ParseError β} (hx : Reaches s hard x (.ok a)) (hf : Reaches s hard (f a) y) :
    Reaches s hard (x >>= f) y := by
  obtain rfl | ⟨hh, position, rfl⟩ := hx
  · exact hf
  · exact .inr ⟨hh, position, rfl⟩

theorem eq_of_not {x y : Except ParseError α} (h : Reaches s hard x y) (hnot : ¬hard) : x = y :=
  h.resolve_right fun hh => hnot hh.1

end Reaches

theorem reaches_bounded {e : Expr} (h : s.limit < e.depth → hard) (rest : List Lexeme) :
    Reaches s hard (bounded s e rest) (.ok e) := by
  by_cases hdepth : s.limit < e.depth
  · exact .inr ⟨h hdepth, _, if_pos hdepth⟩
  · exact .inl (if_neg hdepth)

/-- A tree that was derived with room for `n` operands needs more room, or it is too high. -/
def Tight (s : Setting) (room n : Nat) (e : Expr) : Prop := room < n ∨ s.limit < e.depth

theorem Tight.mono {room room' n n' : Nat} {e e' : Expr} (h : Tight s room n e)
    (hroom : room < n → room' < n') (hdepth : e.depth ≤ e'.depth) : Tight s room' n' e' :=
  h.imp hroom fun h => Nat.lt_of_lt_of_le h hdepth

theorem resolve_of_eq_some {name : String} {id : FieldId} (h : s.resolve name = some id) :
    resolve s name = pure id := by
  rw [resolve, h]
  rfl

theorem function_name (f : Function) (ts : List Lexeme) : function s f.name ts = pure f := by
  rw [function, Function.ofName?_name]
  rfl

theorem runTail_of_closed {level : Level} {rest : List Lexeme}
    (h : Closed (.chain level) (current rest)) (part : Step Expr) (e : Expr) :
    runTail s part (operator? level) e rest = .ok (e, rest) := by
  cases rest with
  | nil => exact runTail_nil s part _ e
  | cons l more =>
    refine runTail_stop s part _ e ?_ more
    rw [Option.eq_none_iff_forall_ne_some]
    intro op hop
    obtain ⟨hlevel, htoken⟩ := operator?_eq_some hop
    exact Nat.ne_of_lt (h op htoken) (strength_of_level hlevel)

theorem runExponent_of_closed {rest : List Lexeme} (h : Closed .power (current rest))
    (operand : Step Expr) (e : Expr) : runExponent s operand e rest = .ok (e, rest) := by
  cases rest with
  | nil => rfl
  | cons l more =>
    refine if_neg fun hl => ?_
    exact Nat.ne_of_lt (h .power hl) rfl

def after (s : Setting) (room : Nat) :
    Phrase → Expr → List Lexeme → Except ParseError (Expr × List Lexeme)
  | .chain level, e, rest => runTail s (step s room level.part) (operator? level) e rest
  | _, e, rest => .ok (e, rest)

/-- What may follow a phrase; an operator of its own level may follow a chain. -/
def Follows : Phrase → Token → Prop
  | .chain level => Closed level.part
  | phrase => Closed phrase

theorem follows_of_closed {phrase : Phrase} {t : Token} (h : Closed phrase t) :
    Follows phrase t := by
  cases phrase with
  | chain level => exact h.mono (Nat.le_of_lt (strength_lt_part level))
  | _ => exact h

theorem after_of_closed {phrase : Phrase} {rest : List Lexeme} (h : Closed phrase (current rest))
    (room : Nat) (e : Expr) : after s room phrase e rest = .ok (e, rest) := by
  cases phrase with
  | chain level => exact runTail_of_closed h _ e
  | _ => rfl

/-- The step of a phrase, given tokens that make up the phrase for a tree, reaches the tree. -/
def Complete (s : Setting) (room n : Nat) (phrase : Phrase) (ts : List Token) (e : Expr) : Prop :=
  ∀ used rest, used.map (·.token) = ts → Follows phrase (current rest) →
    Reaches s (Tight s room n e) (run (step s room phrase) (used ++ rest))
      (after s room phrase e rest)

theorem Complete.reaches {room n : Nat} {phrase : Phrase} {ts : List Token} {e : Expr}
    (h : Complete s room n phrase ts e) {used rest : List Lexeme}
    (hused : used.map (·.token) = ts) (hclosed : Closed phrase (current rest)) :
    Reaches s (Tight s room n e) (run (step s room phrase) (used ++ rest)) (.ok (e, rest)) :=
  after_of_closed hclosed room e ▸ h used rest hused (follows_of_closed hclosed)

section Chains
variable {room n : Nat} {level : Level}

theorem complete_part {ts : List Token} {e : Expr} (h : Complete s room n level.part ts e) :
    Complete s room n (.chain level) ts e := by
  intro used rest hused hfollows
  rw [step_chain, run_chain]
  exact (h.reaches hused hfollows).bind (.of_eq rfl)

theorem complete_join {op : Operator} {ls rs : List Token} {l r : Expr}
    (hop : op.level? = some level) (hl : Complete s room n (.chain level) ls l)
    (hr : Complete s room n level.part rs r) :
    Complete s room n (.chain level) (ls ++ op.token :: rs) (.binary op l r) := by
  intro used rest hused hfollows
  obtain ⟨usedl, used', rfl, rfl, hused'⟩ := List.map_eq_append_iff.1 hused
  obtain ⟨o, usedr, rfl, ho, rfl⟩ := List.map_eq_cons_iff.1 hused'
  have hstrength : op.strength < level.part.strength :=
    strength_of_level hop ▸ strength_lt_part level
  -- the operator may follow the chain on its left, though it does not close it
  have hfollows' : Follows (.chain level) o.token := ho ▸ closed_token hstrength
  have hleft := hl usedl (o :: (usedr ++ rest)) rfl hfollows'
  rw [List.append_assoc, List.cons_append]
  refine (hleft.mono fun h => h.mono id (Expr.depth_left_le op l r)).trans ?_
  rw [after, runTail_step s _ _ l (ho ▸ operator?_token hop)]
  refine ((hr.reaches rfl hfollows).mono fun h => h.mono id (Expr.depth_right_le op l r)).bind ?_
  exact (reaches_bounded .inr rest).bind (.of_eq rfl)

end Chains

section Operands
variable {n : Nat} {ts : List Token} {e : Expr}

/-- Without room no operand is read. -/
theorem complete_zero : Complete s 0 (n + 1) .operand ts e :=
  fun _ _ _ _ => .inr ⟨.inl (Nat.succ_pos n), _, rfl⟩

theorem complete_negation {room : Nat} (h : Complete s room n .operand ts e) :
    Complete s (room + 1) (n + 1) .operand (.minus :: ts) (.negate e) := by
  intro used rest hused hfollows
  obtain ⟨m, used', rfl, hm, rfl⟩ := List.map_eq_cons_iff.1 hused
  change Reaches s _ (run (signed s (operand s room)) (m :: (used' ++ rest))) _
  rw [run_signed_minus s _ hm]
  have hdepth : e.depth ≤ (Expr.negate e).depth := Nat.le_succ _
  refine ((h.reaches rfl hfollows).mono fun h => h.mono Nat.succ_lt_succ hdepth).bind ?_
  exact (reaches_bounded .inr rest).bind (.of_eq rfl)

theorem complete_unsigned {room : Nat} (hd : Derives s.resolve n .power ts e)
    (h : Complete s room n .power ts e) : Complete s (room + 1) (n + 1) .operand ts e := by
  intro used rest hused hfollows
  have hminus := (begins_current (hused ▸ hd) rest).ne_minus
  change Reaches s _ (run (signed s (operand s room)) (used ++ rest)) _
  rw [run_signed_unsigned s _ hminus]
  exact (h.reaches hused hfollows).mono fun h => h.mono Nat.succ_lt_succ (Nat.le_refl _)

end Operands

section Powers
variable {room n : Nat}

theorem complete_base {ts : List Token} {e : Expr} (h : Complete s room n .primary ts e) :
    Complete s room n .power ts e := by
  intro used rest hused hfollows
  change Reaches s _ (run (power s (operand s room)) (used ++ rest)) _
  rw [run_power]
  exact (h.reaches hused (closed_primary _)).bind (.of_eq (runExponent_of_closed hfollows _ e))

theorem complete_exponent {ls rs : List Token} {l r : Expr}
    (hl : Complete s room n .primary ls l) (hr : Complete s room n .operand rs r) :
    Complete s room n .power (ls ++ .caret :: rs) (.binary .power l r) := by
  intro used rest hused hfollows
  obtain ⟨usedl, used', rfl, rfl, hused'⟩ := List.map_eq_append_iff.1 hused
  obtain ⟨c, usedr, rfl, hc, rfl⟩ := List.map_eq_cons_iff.1 hused'
  change Reaches s _ (run (power s (operand s room)) _) _
  rw [run_power, List.append_assoc, List.cons_append]
  have hbase := hl usedl (c :: (usedr ++ rest)) rfl (closed_primary c.token)
  refine (hbase.mono fun h => h.mono id (Expr.depth_left_le _ l r)).bind ?_
  rw [runExponent, if_pos hc]
  refine ((hr.reaches rfl hfollows).mono fun h => h.mono id (Expr.depth_right_le _ l r)).bind ?_
  exact (reaches_bounded .inr rest).bind (.of_eq rfl)

end Powers

section Primaries
variable {room n : Nat}

theorem complete_number (x : Float) : Complete s room n .primary [.number x] (.number x) := by
  intro used rest hused _
  obtain ⟨l, rfl, hl⟩ := List.map_eq_singleton_iff.1 hused
  exact .of_eq (run_primary_number s _ rest hl)

theorem complete_boolean (b : Bool) : Complete s room n .primary [.boolean b] (.boolean b) := by
  intro used rest hused _
  obtain ⟨l, rfl, hl⟩ := List.map_eq_singleton_iff.1 hused
  exact .of_eq (run_primary_boolean s _ rest hl)

theorem complete_field {name : String} {id : FieldId} (hid : s.resolve name = some id) :
    Complete s room n .primary [.field name] (.field id) := by
  intro used rest hused _
  obtain ⟨l, rfl, hl⟩ := List.map_eq_singleton_iff.1 hused
  refine .of_eq ((run_primary_field s _ rest hl).trans ?_)
  rw [resolve_of_eq_some hid]
  rfl

theorem complete_parenthesized {ts : List Token} {e : Expr}
    (h : Complete s room n (.chain .disjunction) ts e) :
    Complete s room n .primary (.leftParen :: (ts ++ [.rightParen])) e := by
  intro used rest hused _
  obtain ⟨l, used', rfl, hl, hused'⟩ := List.map_eq_cons_iff.1 hused
  obtain ⟨body, close, rfl, rfl, hclose⟩ := List.map_eq_append_iff.1 hused'
  obtain ⟨r, rfl, hr⟩ := List.map_eq_singleton_iff.1 hclose
  change Reaches s _ (run (primary s (operand s room)) _) _
  rw [List.cons_append, run_primary_parenthesis s _ _ hl, List.append_assoc]
  have hclosed : Closed (.chain .disjunction) (current ([r] ++ rest)) := closed_rightParen hr _
  refine (h.reaches rfl hclosed).bind (.of_eq ?_)
  rw [List.singleton_append, runClose_cons s hr]
  rfl

theorem complete_summary {f : Summary} {word name : String} {id : FieldId}
    (hf : Decimal.lowerAscii word = f.name) (hid : s.resolve name = some id) :
    Complete s room n .primary [.word word, .leftParen, .quoted name, .rightParen]
      (.summary f id) := by
  intro used rest hused _
  obtain ⟨w, used₁, rfl, hw, hused₁⟩ := List.map_eq_cons_iff.1 hused
  obtain ⟨l, used₂, rfl, hl, hused₂⟩ := List.map_eq_cons_iff.1 hused₁
  obtain ⟨q, used₃, rfl, hq, hused₃⟩ := List.map_eq_cons_iff.1 hused₂
  obtain ⟨r, rfl, hr⟩ := List.map_eq_singleton_iff.1 hused₃
  have hname := Summary.ofName?_eq_some_iff.2 hf
  change Reaches s _ (run (primary s (operand s room)) (w :: l :: q :: r :: rest)) _
  rw [run_primary_word s _ _ hw, run_word s _ hl,
    run_application_quoted s _ hq (Option.isSome_of_eq_some hname), run_summary s hname,
    resolve_of_eq_some hid]
  refine .of_eq ?_
  rw [pure_bind, runClose_cons s hr]
  rfl

end Primaries

section Calls
variable {room n : Nat} {args : List (List Token × Expr)}

/-- What stands after an argument closes it. -/
theorem closed_argument {tss : List (List Token)} {used rest : List Lexeme}
    (hused : used.map (·.token) = tss.flatMap (Token.comma :: ·))
    (hrest : current rest = .rightParen) (phrase : Phrase) :
    Closed phrase (current (used ++ rest)) := by
  cases tss with
  | nil =>
    obtain rfl := List.map_eq_nil_iff.1 hused
    exact closed_rightParen hrest phrase
  | cons ts tss =>
    obtain ⟨c, used', rfl, hc, -⟩ := List.map_eq_cons_iff.1 hused
    exact closed_comma hc phrase

theorem reaches_argumentsTail
    (hargs : ∀ a ∈ args, Complete s room n (.chain .disjunction) a.1 a.2)
    (hhard : ∀ a ∈ args, Tight s room n a.2 → hard) {used rest : List Lexeme}
    (hused : used.map (·.token) = (args.map Prod.fst).flatMap (Token.comma :: ·))
    (hrest : current rest = .rightParen) :
    Reaches s hard (runArgumentsTail s (operand s room) (used ++ rest))
      (.ok (args.map Prod.snd, rest)) := by
  induction args generalizing used with
  | nil =>
    obtain rfl := List.map_eq_nil_iff.1 hused
    cases rest with
    | nil => cases hrest
    | cons l more =>
      have hl : l.token ≠ .comma := fun h => nomatch h.symm.trans hrest
      exact .of_eq (runArgumentsTail_stop s _ hl more)
  | cons a args ih =>
    obtain ⟨ha, hargs⟩ := List.forall_mem_cons.1 hargs
    obtain ⟨hhead, hhard⟩ := List.forall_mem_cons.1 hhard
    obtain ⟨c, used', rfl, hc, hused'⟩ := List.map_eq_cons_iff.1 hused
    obtain ⟨used₁, used₂, rfl, h₁, h₂⟩ := List.map_eq_append_iff.1 hused'
    rw [List.cons_append, List.append_assoc, runArgumentsTail_comma s _ hc]
    refine ((ha.reaches h₁ (closed_argument h₂ hrest _)).mono hhead).bind ?_
    exact (ih hargs hhard h₂).bind (.of_eq rfl)

theorem reaches_arguments (hne : args ≠ [])
    (hargs : ∀ a ∈ args, Complete s room n (.chain .disjunction) a.1 a.2)
    (hhard : ∀ a ∈ args, Tight s room n a.2 → hard) {used rest : List Lexeme}
    (hused : used.map (·.token) = separated (args.map Prod.fst))
    (hfirst : current (used ++ rest) ≠ .rightParen) (hrest : current rest = .rightParen) :
    Reaches s hard (runArguments s (operand s room) (used ++ rest))
      (.ok (args.map Prod.snd, rest)) := by
  cases args with
  | nil => exact absurd rfl hne
  | cons a args =>
    obtain ⟨ha, hargs⟩ := List.forall_mem_cons.1 hargs
    obtain ⟨hhead, hhard⟩ := List.forall_mem_cons.1 hhard
    rw [List.map_cons, separated_cons] at hused
    obtain ⟨used₁, used₂, rfl, h₁, h₂⟩ := List.map_eq_append_iff.1 hused
    rw [runArguments_some s _ hfirst, List.append_assoc]
    refine ((ha.reaches h₁ (closed_argument h₂ hrest _)).mono hhead).bind ?_
    exact (reaches_argumentsTail hargs hhard h₂ hrest).bind (.of_eq rfl)

theorem depth_le_build (f : Function) {e : Expr} {es : List Expr} (h : e ∈ es) :
    e.depth ≤ (build f es).depth := by
  rw [depth_build]
  exact Nat.le_succ_of_le (Expr.depth_le_depthAll h)

/-- The first argument begins what stands between the parentheses. -/
theorem begins_arguments {f : Function} (harity : f.arity.accepts args.length = true)
    (hd : ∀ a ∈ args, Derives s.resolve n (.chain .disjunction) a.1 a.2) {used : List Lexeme}
    (hused : used.map (·.token) = separated (args.map Prod.fst) ++ [.rightParen])
    (rest : List Lexeme) : Begins (.chain .disjunction) (current (used ++ rest)) := by
  cases args with
  | nil => cases (Function.not_accepts_zero f).symm.trans harity
  | cons a args =>
    rw [List.map_cons, separated_cons, List.append_assoc] at hused
    obtain ⟨used₁, used₂, rfl, h₁, -⟩ := List.map_eq_append_iff.1 hused
    rw [List.append_assoc]
    exact begins_current (h₁ ▸ hd a (List.mem_cons_self ..)) _

/-- A call after its opening parenthesis. -/
theorem reaches_call {f : Function} (harity : f.arity.accepts args.length = true)
    (hargs : ∀ a ∈ args, Complete s room n (.chain .disjunction) a.1 a.2)
    {used : List Lexeme}
    (hused : used.map (·.token) = separated (args.map Prod.fst) ++ [.rightParen])
    (rest : List Lexeme) (hfirst : current (used ++ rest) ≠ .rightParen) :
    Reaches s (Tight s room n (build f (args.map Prod.snd)))
      (run (call s (operand s room) f.name) (used ++ rest))
      (.ok (build f (args.map Prod.snd), rest)) := by
  have hne : args ≠ [] := by
    rintro rfl
    cases (Function.not_accepts_zero f).symm.trans harity
  have hhard : ∀ a ∈ args, Tight s room n a.2 → Tight s room n (build f (args.map Prod.snd)) :=
    fun a ha h => h.mono id (depth_le_build f (List.mem_map_of_mem ha))
  obtain ⟨used', close, rfl, h₁, h₂⟩ := List.map_eq_append_iff.1 hused
  obtain ⟨r, rfl, hr⟩ := List.map_eq_singleton_iff.1 h₂
  rw [List.append_assoc] at hfirst ⊢
  rw [run_call, function_name, pure_bind]
  refine (reaches_arguments hne hargs hhard h₁ hfirst hr).bind ?_
  rw [List.singleton_append, runClose_cons s hr]
  change Reaches s _ (if f.arity.accepts (args.map Prod.snd).length = true then _ else _) _
  rw [List.length_map, if_pos harity]
  exact (reaches_bounded .inr rest).bind (.of_eq rfl)

/-- A call from its head on. -/
theorem complete_call {head : Token} {f : Function} (hhead : Names head f)
    (harity : f.arity.accepts args.length = true)
    (hd : ∀ a ∈ args, Derives s.resolve n (.chain .disjunction) a.1 a.2)
    (hargs : ∀ a ∈ args, Complete s room n (.chain .disjunction) a.1 a.2) :
    Complete s room n .primary
      (head :: .leftParen :: (separated (args.map Prod.fst) ++ [.rightParen]))
      (build f (args.map Prod.snd)) := by
  intro used rest hused _
  obtain ⟨h, used₁, rfl, hh, hused₁⟩ := List.map_eq_cons_iff.1 hused
  obtain ⟨l, used₂, rfl, hl, hused₂⟩ := List.map_eq_cons_iff.1 hused₁
  have hbegins := begins_arguments harity hd hused₂ rest
  have hcall := reaches_call harity hargs hused₂ rest hbegins.ne_rightParen
  change Reaches s _ (run (primary s (operand s room)) (h :: l :: (used₂ ++ rest))) _
  cases hhead with
  | word f =>
    rw [run_primary_word s _ _ hh, run_word s _ hl, run_application_call s _ hbegins.ne_quoted]
    exact hcall
  | and =>
    rw [run_primary_and s _ _ hh, run_connective s _ hl]
    exact hcall
  | or =>
    rw [run_primary_or s _ _ hh, run_connective s _ hl]
    exact hcall

end Calls

/-- Tokens that make up a phrase are read as the phrase, however much room there is. -/
theorem complete_of_derives {n : Nat} {phrase : Phrase} {ts : List Token} {e : Expr}
    (h : Derives s.resolve n phrase ts e) (room : Nat) : Complete s room n phrase ts e := by
  induction h generalizing room with
  | part _ ih => exact complete_part (ih room)
  | join hop _ _ ihl ihr => exact complete_join hop (ihl room) (ihr room)
  | negation _ ih =>
    cases room with
    | zero => exact complete_zero
    | succ room => exact complete_negation (ih room)
  | unsigned hd ih =>
    cases room with
    | zero => exact complete_zero
    | succ room => exact complete_unsigned hd (ih room)
  | base _ ih => exact complete_base (ih room)
  | exponent _ _ ihl ihr => exact complete_exponent (ihl room) (ihr room)
  | number x => exact complete_number x
  | boolean b => exact complete_boolean b
  | field hid => exact complete_field hid
  | parenthesized _ ih => exact complete_parenthesized (ih room)
  | summary hs hid => exact complete_summary hs hid
  | @call _ _ f args hhead hf harity hargs ih =>
    rw [← build_of_ne_choose hf]
    exact complete_call hhead harity hargs fun a ha => ih a ha room
  | @conditional m cs ys ns c y n hc hy hn ihc ihy ihn =>
    have hd : ∀ a ∈ [(cs, c), (ys, y), (ns, n)],
        Derives s.resolve m (.chain .disjunction) a.1 a.2 := by simp [hc, hy, hn]
    have hargs : ∀ a ∈ [(cs, c), (ys, y), (ns, n)],
        Complete s room m (.chain .disjunction) a.1 a.2 := by simp [ihc, ihy, ihn]
    exact complete_call (.word .choose) rfl hd hargs

/-- Tokens that make up a formula are read as the formula. -/
theorem reaches_whole {room : Nat} {ts : List Lexeme} {e : Expr}
    (h : Derives s.resolve room (.chain .disjunction) (ts.map (·.token)) e) :
    Reaches s (Tight s s.limit room e) (whole s ts) (.ok e) := by
  have hstep : Reaches s (Tight s s.limit room e)
      (run (step s s.limit (.chain .disjunction)) (ts ++ [])) (.ok (e, [])) :=
    (complete_of_derives h s.limit).reaches rfl (closed_endOfFormula _)
  rw [List.append_nil] at hstep
  rw [whole_eq]
  exact hstep.bind (.of_eq rfl)

end Crosstab.Formula.Parser
