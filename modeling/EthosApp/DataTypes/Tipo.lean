import Mathlib.Data.List.Basic

/-!
# `DataTypes/tipo.dart`

The machine types and periods offered by the forms.
-/

namespace EthosApp

/-- The list `tip` of machine types. -/
def tip : List String :=
  ["Armadi per stoccaggio", "Armadi stoccaggio prodotti chimici", "Aspiratori e Cappe FISSI",
    "Aspiratori e Cappe FISSI CA", "Aspiratori e Cappe mobili CA", "Attrezzi-Utensili",
    "Autoclavi", "Bagni e Trattamenti Chimici", "Cabine aspirate", "Cabine aspirate CA",
    "Camere pulite", "Celle Frigorifere", "Centralina Oleodinamica", "Compressore Aria",
    "Compressore Aria", "Condizionamento Autonomo", "Forni", "Impianti generici",
    "Macchine per cucire", "Movim. e Sollevam.", "Pompe H2O", "Vuoto Pompe", "Vuoto Serbatoi"]

/-- The list `per` of periods. -/
def per : List String := ["Mensile", "Trimestrale", "Semestrale", "Annuale"]

/-- `setPeriod`: the days between two checks. -/
def setPeriod (periodo : String) : ℕ :=
  if periodo = "Mensile" then 30
  else if periodo = "Trimestrale" then 90
  else if periodo = "Semestrale" then 180
  else if periodo = "Annuale" then 365
  else 0

/-- A period is at most a year, and no period is a single day. -/
theorem setPeriod_bounds (periodo : String) :
    setPeriod periodo ≤ 365 ∧ (setPeriod periodo = 0 ∨ 2 ≤ setPeriod periodo) := by
  unfold setPeriod
  split_ifs <;> omega

end EthosApp
