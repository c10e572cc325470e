import EntityScript.Event
import EntityScript.Text.Decimal

namespace EntityScript

/-- What engines run with. -/
structure Settings where
  /-- The most instructions an engine executes in a tick. -/
  instructionBudget : Nat := 50
  /-- What the delay function divides its argument by. -/
  ticksPerDelayUnit : Word := 5
  deriving DecidableEq

namespace Settings

def maxBudget : Nat := 18446744073709551615

def maxWord : Nat := 65535

def budgetName : String := "EMC_INSTRUCTION_BUDGET"

def delayUnitName : String := "EMC_TICKS_PER_DELAY_UNIT"

def positive? (bound : Nat) (text : String) : Option Nat :=
  (Text.Decimal.unsigned? text).filter fun n => 0 < n && n ≤ bound

/-- The number that a variable is set to, if it is set to one.  Any other value is reported. -/
def readVariable (environment : String → Option String) (name : String) (bound : Nat) :
    Option Nat × Array Event :=
  match environment name with
  | none => (none, #[])
  | some text =>
      match positive? bound text with
      | some n => (some n, #[])
      | none => (none, #[.valueIgnored name text])

def ofEnvironment (environment : String → Option String) : Settings × Array Event :=
  let defaults : Settings := {}
  let (budget, budgetEvents) := readVariable environment budgetName maxBudget
  let (unit, unitEvents) := readVariable environment delayUnitName maxWord
  (⟨budget.getD defaults.instructionBudget,
    (unit.map Nat.toUInt16).getD defaults.ticksPerDelayUnit⟩, budgetEvents ++ unitEvents)

end Settings

end EntityScript
