import Crosstab.Field.Basic

/-!
# The field catalog

A catalog has base fields, which never change, and calculated fields in the order in which they were
registered. Ids and display names of registered fields are new to the catalog. A name in a formula
is a display name first and an id second.

A `Change` reads and writes the current catalog one step after the other. What it wrote before it
failed stays written. Changes are made one after the other, whatever came of the ones before.
-/

namespace Crosstab

structure Catalog where
  base : List Field
  calculated : List Field

namespace Catalog
variable (c : Catalog)

def ofBase (fields : List Field) : Catalog := ⟨fields, []⟩

def financial : Catalog :=
  ofBase [
    .base "dataPrevisao" "Data de Previsão" .date none,
    .base "clienteFornecedor" "Cliente ou Fornecedor" .string none,
    .base "telefone" "Telefone 1" .string none,
    .base "tipo" "Tipo" .string none,
    .base "valorConta" "Valor da Conta" .number (some .sum),
    .base "aPagarReceber" "A Pagar ou Receber" .number (some .sum),
    .base "jurosPercentual" "% de Juros ao Mês do Boleto" .number (some .avg),
    .base "multaPercentual" "% de Multa por Atraso do Boleto" .number (some .avg),
    .base "banco" "Banco para Transferência" .string none,
    .base "agencia" "Agência para Transferência" .string none]

def fields : List Field := c.base ++ c.calculated

def size : Nat := c.base.length + c.calculated.length

def get? (id : FieldId) : Option Field := c.fields.find? (·.id = id)

def find? (name : String) : Option Field :=
  (c.fields.find? (·.displayName = name)).or (c.get? name)

def resolve (name : String) : Option FieldId := (c.find? name).map (·.id)

def hasSeparator : List Char → Bool
  | ':' :: ':' :: _ => true
  | _ :: cs => hasSeparator cs
  | [] => false

/-- Adds a calculated field. Its id must not contain `::`, which separates the parts of cross-tab
labels, and neither its id nor its display name may be taken. -/
def register (f : Field) : Except ConfigError Catalog :=
  if f.isCalculated = false then .error (.notCalculated f.id)
  else if hasSeparator f.id.toList then .error (.invalidOption .fieldId f.id)
  else if (c.get? f.id).isSome then .error (.duplicateField f.id)
  else if c.fields.any (·.displayName = f.displayName) then
    .error (.duplicateField f.displayName)
  else .ok { c with calculated := c.calculated ++ [f] }

def create (id : FieldId) (displayName formula : String) : Except ConfigError (Field × Catalog) := do
  let f ← Field.calculated id displayName c.resolve formula
  let c' ← c.register f
  return (f, c')

/-- Takes a calculated field out. Fields that refer to it stay. -/
def remove (id : FieldId) : Except ConfigError (Field × Catalog) :=
  match c.calculated.find? (·.id = id) with
  | some f => .ok (f, { c with calculated := c.calculated.eraseP (·.id = id) })
  | none =>
    if c.base.any (·.id = id) then .error (.notCalculated id)
    else .error (.unknownField id .calculated)

def isWellFormed (formula : String) : Bool := Formula.isWellFormed c.resolve formula

end Catalog

end Crosstab

/-! ### Changes -/

namespace Crosstab.Catalog

inductive Change where
  | register (f : Field)
  | create (id : FieldId) (displayName formula : String)
  | remove (id : FieldId)

namespace Change

inductive Answer where
  | done
  | field (f : Field)

abbrev Action (α : Type) := ExceptT ConfigError (StateM Catalog) α

def Action.of {α : Type} (x : Except ConfigError α) : Action α := ExceptT.mk (pure x)

def registering (f : Field) : Action Unit := do
  let c ← get
  let c' ← Action.of (c.register f)
  set c'

def act : Change → Action Answer
  | register f => do
    registering f
    return .done
  | create id displayName formula => do
    let c ← get
    let f ← Action.of (Field.calculated id displayName c.resolve formula)
    registering f
    let c' ← get
    match c'.get? f.id with
    | some g => return .field g
    | none => Action.of (.error (.unknownField f.id .calculated))
  | remove id => do
    let c ← get
    let (f, c') ← Action.of (c.remove id)
    set c'
    return .field f

end Change

abbrev Log := List (Change × Except ConfigError Change.Answer)

def run (c : Catalog) : List Change → Log × Catalog
  | [] => ([], c)
  | change :: changes =>
    let (answer, c') := change.act c
    let (log, c'') := run c' changes
    ((change, answer) :: log, c'')

end Crosstab.Catalog
