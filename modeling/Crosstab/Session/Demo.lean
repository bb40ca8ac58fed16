import Crosstab.Record

/-!
# Demo data

Twenty payables and receivables of a spring. Their dates are text.
-/

namespace Crosstab.Session

def payable : String := "Contas a Pagar"

def receivable : String := "Contas a Receber"

def demoRecord (date party phone type : String) (amount due : Float) (bank branch : String) :
    Record :=
  .ofList [
    ("dataPrevisao", .text date),
    ("clienteFornecedor", .text party),
    ("telefone", .text phone),
    ("tipo", .text type),
    ("valorConta", .number amount),
    ("aPagarReceber", .number due),
    ("banco", .text bank),
    ("agencia", .text branch)]

def demoRecords : List Record := [
    demoRecord "2025-03-23" "BANCO DO BRASIL" "(35) 9851-0000" payable
      (-622.94) (-622.94) "Banco do Brasil" "1234-5",
    demoRecord "2025-03-24" "Cliente ABC Ltda" "(11) 99999-1234" receivable
      55724.87 32185.75 "Itaú" "0567-8",
    demoRecord "2025-03-24" "Fornecedor XYZ" "(21) 3333-4444" payable
      (-19867.40) (-19867.40) "Bradesco" "2345-6",
    demoRecord "2025-03-26" "CEMIG Distribuição" "(31) 116" payable
      (-1041.80) (-1041.80) "Caixa" "0001",
    demoRecord "2025-03-27" "Empresa Tech Solutions" "(11) 4002-8922" receivable
      28500.00 28500.00 "Santander" "7890-1",
    demoRecord "2025-03-28" "Locadora de Veículos SA" "(31) 3245-6789" payable
      (-3250.00) (-3250.00) "Banco do Brasil" "4567-8",
    demoRecord "2025-04-02" "Cliente Premium LTDA" "(19) 98765-4321" receivable
      42800.00 42800.00 "Itaú" "1234-5",
    demoRecord "2025-04-05" "Copasa MG" "(31) 115" payable
      (-456.78) (-456.78) "Caixa" "0001",
    demoRecord "2025-04-08" "Distribuidora Nacional" "(11) 2222-3333" payable
      (-15680.50) (-15680.50) "Bradesco" "5678-9",
    demoRecord "2025-04-10" "Consultoria Empresarial" "(21) 99887-6655" receivable
      18900.00 18900.00 "Banco do Brasil" "9012-3",
    demoRecord "2025-04-12" "Operadora Telecom" "(0800) 123-4567" payable
      (-890.00) (-890.00) "Itaú" "3456-7",
    demoRecord "2025-04-15" "Indústria Metalúrgica" "(35) 3456-7890" receivable
      67500.00 45000.00 "Santander" "2345-6",
    demoRecord "2025-04-18" "Gráfica Impressa" "(31) 3111-2222" payable
      (-2340.00) (-2340.00) "Caixa" "0023",
    demoRecord "2025-04-20" "Supermercado Atacadão" "(11) 4444-5555" payable
      (-5678.90) (-5678.90) "Bradesco" "8901-2",
    demoRecord "2025-05-02" "Comercial Alimentos" "(19) 3333-4444" receivable
      33250.00 33250.00 "Itaú" "6789-0",
    demoRecord "2025-05-05" "Seguradora Nacional" "(11) 3030-4040" payable
      (-4500.00) (-4500.00) "Banco do Brasil" "1111-1",
    demoRecord "2025-05-10" "Loja Virtual Online" "(21) 5555-6666" receivable
      12890.50 12890.50 "Nubank" "0001",
    demoRecord "2025-05-15" "Transportadora Rápida" "(35) 9999-8888" payable
      (-8760.00) (-8760.00) "Santander" "4321-0",
    demoRecord "2025-05-20" "Escritório Contábil" "(31) 7777-8888" payable
      (-1850.00) (-1850.00) "Itaú" "5432-1",
    demoRecord "2025-05-25" "Fábrica de Móveis" "(19) 2222-1111" receivable
      89000.00 62300.00 "Bradesco" "6543-2"
  ]

end Crosstab.Session
