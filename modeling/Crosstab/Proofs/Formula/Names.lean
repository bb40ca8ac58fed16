import Crosstab.Proofs.Formula.Completeness
import Crosstab.Proofs.Formula.Height
import Crosstab.Proofs.Formula.Soundness

/-!
# The names in a formula

Tokens name fields in brackets and in quotes. A tree refers to what its tokens name, one by one and
from left to right, and apart from that it does not depend on how names are resolved: with any other
ids for the names the same tokens make up a tree of the same shape.
-/

namespace Crosstab.Formula
variable {resolve resolve' : String → Option FieldId}

def Token.fieldName? : Token → Option String
  | .field name | .quoted name => some name
  | _ => none

def fieldNames (ts : List Token) : List String := ts.filterMap Token.fieldName?

theorem fieldNames_append (ts us : List Token) :
    fieldNames (ts ++ us) = fieldNames ts ++ fieldNames us :=
  List.filterMap_append

theorem fieldNames_cons_of_none {t : Token} (h : t.fieldName? = none) (ts : List Token) :
    fieldNames (t :: ts) = fieldNames ts :=
  List.filterMap_cons_none h

theorem fieldName?_operator (op : Operator) : op.token.fieldName? = none := by
  cases op <;> rfl

theorem Names.fieldName? {head : Token} {f : Function} (h : Names head f) :
    head.fieldName? = none := by
  cases h <;> rfl

theorem fieldNames_join {t : Token} (h : t.fieldName? = none) (ls rs : List Token) :
    fieldNames (ls ++ t :: rs) = fieldNames ls ++ fieldNames rs := by
  rw [fieldNames_append, fieldNames_cons_of_none h]

theorem fieldNames_closed (ts : List Token) :
    fieldNames (ts ++ [.rightParen]) = fieldNames ts := by
  rw [fieldNames_append]
  exact List.append_nil _

theorem fieldNames_separated (tss : List (List Token)) :
    fieldNames (separated tss) = tss.flatMap fieldNames := by
  have hcommas (uss : List (List Token)) :
      fieldNames (uss.flatMap (Token.comma :: ·)) = uss.flatMap fieldNames := by
    induction uss with
    | nil => rfl
    | cons us uss ih =>
      rw [List.flatMap_cons, List.flatMap_cons, fieldNames_append, ih,
        fieldNames_cons_of_none rfl]
  cases tss with
  | nil => rfl
  | cons ts tss => rw [separated_cons, fieldNames_append, hcommas, List.flatMap_cons]

theorem fieldNames_call {head : Token} {f : Function} (h : Names head f)
    (tss : List (List Token)) :
    fieldNames (head :: .leftParen :: (separated tss ++ [.rightParen])) =
      tss.flatMap fieldNames := by
  rw [fieldNames_cons_of_none h.fieldName?, fieldNames_cons_of_none rfl, fieldNames_closed,
    fieldNames_separated]

/-! ### What a tree refers to -/

theorem map_readsAll {args : List (List Token × Expr)}
    (h : ∀ a ∈ args, (fieldNames a.1).map resolve = a.2.reads.map some) :
    ((args.map Prod.fst).flatMap fieldNames).map resolve =
      (Expr.readsAll (args.map Prod.snd)).map some := by
  induction args with
  | nil => rfl
  | cons a args ih =>
    obtain ⟨ha, hargs⟩ := List.forall_mem_cons.1 h
    rw [List.map_cons, List.flatMap_cons, List.map_append, ha, ih hargs, List.map_cons,
      Expr.readsAll, List.map_append]

/-- No name is left out or comes twice, and none comes in another place. -/
theorem map_reads_of_derives {room : Nat} {phrase : Phrase} {ts : List Token} {e : Expr}
    (h : Derives resolve room phrase ts e) :
    (fieldNames ts).map resolve = e.reads.map some := by
  induction h with
  | part _ ih | unsigned _ ih | base _ ih => exact ih
  | join _ _ _ ihl ihr =>
    rw [fieldNames_join (fieldName?_operator _), List.map_append, ihl, ihr, Expr.reads,
      List.map_append]
  | exponent _ _ ihl ihr =>
    rw [fieldNames_join rfl, List.map_append, ihl, ihr, Expr.reads, List.map_append]
  | negation _ ih => rwa [fieldNames_cons_of_none rfl, Expr.reads]
  | number x => rfl
  | boolean b => rfl
  | field hid =>
    change [resolve _] = [some _]
    rw [hid]
  | summary _ hid =>
    change [resolve _] = [some _]
    rw [hid]
  | parenthesized _ ih => rwa [fieldNames_cons_of_none rfl, fieldNames_closed]
  | call hhead _ _ _ ih =>
    rw [fieldNames_call hhead, Expr.reads]
    exact map_readsAll ih
  | @conditional _ cs ys ns c y n _ _ _ ihc ihy ihn =>
    rw [fieldNames_call (.word .choose)]
    simp only [List.flatMap_cons, List.flatMap_nil, List.append_nil, List.map_append, Expr.reads,
      ihc, ihy, ihn]

/-! ### Other ids for the names -/

/-- Two trees for some tokens that differ only in the ids of the names. -/
structure Alike (resolve resolve' : String → Option FieldId) (ts : List Token) (e e' : Expr) :
    Prop where
  depth : e'.depth = e.depth
  eq : (∀ name ∈ fieldNames ts, resolve' name = resolve name) → e' = e

theorem forall_fieldNames_join {t : Token} (h : t.fieldName? = none) {ls rs : List Token}
    {p : String → Prop} :
    (∀ name ∈ fieldNames (ls ++ t :: rs), p name) ↔
      (∀ name ∈ fieldNames ls, p name) ∧ ∀ name ∈ fieldNames rs, p name := by
  rw [fieldNames_join h, List.forall_mem_append]

theorem Alike.binary {t : Token} (h : t.fieldName? = none) (op : Operator) {ls rs : List Token}
    {l l' r r' : Expr} (hl : Alike resolve resolve' ls l l') (hr : Alike resolve resolve' rs r r') :
    Alike resolve resolve' (ls ++ t :: rs) (.binary op l r) (.binary op l' r') := by
  constructor
  · simp only [Expr.depth, hl.depth, hr.depth]
  · intro heq
    obtain ⟨hls, hrs⟩ := (forall_fieldNames_join h).1 heq
    rw [hl.eq hls, hr.eq hrs]

/-- A name whose token is a leaf of the tree. -/
theorem Alike.leaf {ts : List Token} {name : String} (h : fieldNames ts = [name])
    {id id' : FieldId} (hid : resolve name = some id) (hid' : resolve' name = some id')
    {leaf : FieldId → Expr} (hdepth : (leaf id').depth = (leaf id).depth) :
    Alike resolve resolve' ts (leaf id) (leaf id') := by
  refine ⟨hdepth, fun heq => ?_⟩
  have hname := heq name (h ▸ List.mem_singleton_self name)
  rw [hid, hid'] at hname
  rw [Option.some.inj hname]

theorem exists_arguments {room : Nat} {args : List (List Token × Expr)}
    (h : ∀ a ∈ args, ∃ e', Derives resolve' room (.chain .disjunction) a.1 e' ∧
      Alike resolve resolve' a.1 a.2 e') :
    ∃ args' : List (List Token × Expr), args'.map Prod.fst = args.map Prod.fst ∧
      (∀ a ∈ args', Derives resolve' room (.chain .disjunction) a.1 a.2) ∧
      Expr.depthAll (args'.map Prod.snd) = Expr.depthAll (args.map Prod.snd) ∧
      ((∀ name ∈ (args.map Prod.fst).flatMap fieldNames, resolve' name = resolve name) →
        args'.map Prod.snd = args.map Prod.snd) := by
  induction args with
  | nil => exact ⟨[], rfl, nofun, rfl, fun _ => rfl⟩
  | cons a args ih =>
    obtain ⟨⟨e', hd, halike⟩, hargs⟩ := List.forall_mem_cons.1 h
    obtain ⟨args', hfst, hd', hdepth, heq⟩ := ih hargs
    refine ⟨(a.1, e') :: args', ?_, List.forall_mem_cons.2 ⟨hd, hd'⟩, ?_, ?_⟩
    · rw [List.map_cons, List.map_cons, hfst]
    · simp only [List.map_cons, Expr.depthAll, halike.depth, hdepth]
    · intro hnames
      rw [List.map_cons, List.flatMap_cons, List.forall_mem_append] at hnames
      rw [List.map_cons, List.map_cons, halike.eq hnames.1, heq hnames.2]

/-- Tokens make up a tree as soon as all their names have ids. -/
theorem exists_derives {room : Nat} {phrase : Phrase} {ts : List Token} {e : Expr}
    (h : Derives resolve room phrase ts e)
    (hsome : ∀ name ∈ fieldNames ts, (resolve' name).isSome) :
    ∃ e', Derives resolve' room phrase ts e' ∧ Alike resolve resolve' ts e e' := by
  induction h with
  | part _ ih =>
    obtain ⟨e', hd, halike⟩ := ih hsome
    exact ⟨e', .part hd, halike⟩
  | @join _ _ op _ _ _ _ hop _ _ ihl ihr =>
    have hop' := fieldName?_operator op
    obtain ⟨hls, hrs⟩ := (forall_fieldNames_join hop').1 hsome
    obtain ⟨l', hl, halikel⟩ := ihl hls
    obtain ⟨r', hr, haliker⟩ := ihr hrs
    exact ⟨_, .join hop hl hr, halikel.binary hop' op haliker⟩
  | negation _ ih =>
    obtain ⟨e', hd, halike⟩ := ih hsome
    refine ⟨_, .negation hd, ?_, fun heq => congrArg _ (halike.eq heq)⟩
    simp only [Expr.depth, halike.depth]
  | unsigned _ ih =>
    obtain ⟨e', hd, halike⟩ := ih hsome
    exact ⟨e', .unsigned hd, halike⟩
  | base _ ih =>
    obtain ⟨e', hd, halike⟩ := ih hsome
    exact ⟨e', .base hd, halike⟩
  | exponent _ _ ihl ihr =>
    obtain ⟨hls, hrs⟩ := (forall_fieldNames_join rfl).1 hsome
    obtain ⟨l', hl, halikel⟩ := ihl hls
    obtain ⟨r', hr, haliker⟩ := ihr hrs
    exact ⟨_, .exponent hl hr, halikel.binary rfl .power haliker⟩
  | number x => exact ⟨_, .number x, rfl, fun _ => rfl⟩
  | boolean b => exact ⟨_, .boolean b, rfl, fun _ => rfl⟩
  | @field _ name id hid =>
    obtain ⟨id', hid'⟩ := Option.isSome_iff_exists.1 (hsome name (List.mem_singleton_self name))
    exact ⟨_, .field hid', .leaf rfl hid hid' rfl⟩
  | @summary _ s word name id hs hid =>
    obtain ⟨id', hid'⟩ := Option.isSome_iff_exists.1 (hsome name (List.mem_singleton_self name))
    exact ⟨_, .summary hs hid', .leaf rfl hid hid' rfl⟩
  | @parenthesized _ ts _ _ ih =>
    have hnames : fieldNames (.leftParen :: (ts ++ [.rightParen])) = fieldNames ts :=
      fieldNames_closed ts
    obtain ⟨e', hd, hdepth, heq⟩ := ih (hnames ▸ hsome)
    exact ⟨e', .parenthesized hd, hdepth, hnames ▸ heq⟩
  | @call _ _ f args hhead hf harity _ ih =>
    rw [fieldNames_call hhead] at hsome
    obtain ⟨args', hfst, hd, hdepth, heq⟩ := exists_arguments fun a ha => ih a ha fun name hname =>
      hsome name (List.mem_flatMap.2 ⟨a.1, List.mem_map_of_mem ha, hname⟩)
    have hlength : args'.length = args.length := by
      rw [← List.length_map Prod.fst, hfst, List.length_map]
    have hcall := Derives.call hhead hf (hlength ▸ harity) hd
    rw [hfst] at hcall
    refine ⟨_, hcall, ?_, ?_⟩
    · simp only [Expr.depth, hdepth]
    · rw [fieldNames_call hhead]
      exact fun hnames => congrArg _ (heq hnames)
  | @conditional _ cs ys ns c y n _ _ _ ihc ihy ihn =>
    have hnames {p : String → Prop} : (∀ name ∈ fieldNames (.word Function.choose.name ::
        .leftParen :: (separated [cs, ys, ns] ++ [.rightParen])), p name) ↔
          (∀ name ∈ fieldNames cs, p name) ∧ (∀ name ∈ fieldNames ys, p name) ∧
            ∀ name ∈ fieldNames ns, p name := by
      rw [fieldNames_call (.word .choose)]
      simp only [List.flatMap_cons, List.flatMap_nil, List.append_nil, List.forall_mem_append]
    obtain ⟨hcs, hys, hns⟩ := hnames.1 hsome
    obtain ⟨c', hc, halikec⟩ := ihc hcs
    obtain ⟨y', hy, halikey⟩ := ihy hys
    obtain ⟨n', hn, haliken⟩ := ihn hns
    refine ⟨_, .conditional hc hy hn, ?_, ?_⟩
    · simp only [Expr.depth, halikec.depth, halikey.depth, haliken.depth]
    · intro heq
      obtain ⟨hcs, hys, hns⟩ := hnames.1 heq
      rw [halikec.eq hcs, halikey.eq hys, haliken.eq hns]

/-! ### Whole formulas -/

def namesIn (formula : String) : List String := fieldNames ((tokenize formula).map (·.token))

theorem namesIn_eq (formula : String) :
    namesIn formula = fieldNames ((lexemes formula).map (·.token)) := by
  rw [namesIn, tokenize, List.map_append, fieldNames_append]
  exact List.append_nil _

/-- Tokens that make up a formula without too much nesting are read as the formula. -/
theorem parse_of_derives {formula : String} {room : Nat} {e : Expr}
    (h : Derives resolve room (.chain .disjunction) ((lexemes formula).map (·.token)) e)
    (hroom : room ≤ nestingLimit) (hdepth : e.depth ≤ nestingLimit) :
    parse resolve formula = .ok e := by
  let s : Setting := ⟨resolve, nestingLimit, formula.length⟩
  have hloose : ¬Parser.Tight s nestingLimit room e := by
    rintro (hshort | hhigh)
    · exact Nat.not_lt.2 hroom hshort
    · exact Nat.not_lt.2 hdepth hhigh
  exact (Parser.reaches_whole (s := s) h).eq_of_not hloose

section
variable {formula : String} {e : Expr} (h : parse resolve formula = .ok e)
include h

theorem derives_of_parse :
    Derives resolve nestingLimit (.chain .disjunction) ((lexemes formula).map (·.token)) e :=
  Parser.derives_of_whole h

theorem map_reads_of_parse : (namesIn formula).map resolve = e.reads.map some := by
  rw [namesIn_eq]
  exact map_reads_of_derives (derives_of_parse h)

theorem isSome_of_mem_namesIn {name : String} (hname : name ∈ namesIn formula) :
    (resolve name).isSome := by
  have hid : resolve name ∈ e.reads.map some :=
    map_reads_of_parse h ▸ List.mem_map_of_mem hname
  obtain ⟨id, -, hid⟩ := List.mem_map.1 hid
  exact Option.isSome_of_eq_some hid.symm

theorem mem_dependencies_of_parse {id : FieldId} :
    id ∈ e.dependencies ↔ ∃ name ∈ namesIn formula, resolve name = some id := by
  have hsome : some id ∈ e.reads.map some ↔ id ∈ e.reads := by simp
  rw [Expr.mem_dependencies, ← hsome, ← map_reads_of_parse h, List.mem_map]

/-- A formula is read with other ids for its names as soon as all of them have one. -/
theorem exists_parse (hsome : ∀ name ∈ namesIn formula, (resolve' name).isSome) :
    ∃ e', parse resolve' formula = .ok e' ∧
      ((∀ name ∈ namesIn formula, resolve' name = resolve name) → e' = e) := by
  rw [namesIn_eq] at hsome ⊢
  obtain ⟨e', hd, halike⟩ := exists_derives (derives_of_parse h) hsome
  have hdepth : e'.depth ≤ nestingLimit := by
    rw [halike.depth]
    exact Parser.depth_le_of_whole h
  exact ⟨e', parse_of_derives hd (Nat.le_refl _) hdepth, halike.eq⟩

end

end Crosstab.Formula
