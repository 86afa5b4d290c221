import ConfinedRelay.Fault

/-!
The three ways in which a relay can fail, each with the fault behind it: the
resource cannot be opened, it cannot be read to its end, or the output rejects a
unit or the final flush. Offsets count the units that went well before.
-/
namespace ConfinedRelay

inductive Failure where
  | opening (path : String) (fault : Fault)
  | reading (path : String) (offset : Nat) (fault : Fault)
  | writing (offset : Nat) (fault : Fault)
  deriving DecidableEq, Repr

namespace Failure

def fault : Failure → Fault
  | opening _ f => f
  | reading _ _ f => f
  | writing _ f => f

def message : Failure → String
  | opening path f => "failed to open sandboxed resource " ++ path ++ ": " ++ f.text
  | reading path offset f =>
    "failed to read sandboxed resource " ++ path ++ " at byte " ++ toString offset ++ ": " ++ f.text
  | writing offset f =>
    "failed to write to output sink after " ++ toString offset ++ " bytes: " ++ f.text

@[simp] theorem fault_opening (p : String) (f : Fault) : (opening p f).fault = f := rfl
@[simp] theorem fault_reading (p : String) (n : Nat) (f : Fault) : (reading p n f).fault = f := rfl
@[simp] theorem fault_writing (n : Nat) (f : Fault) : (writing n f).fault = f := rfl

end Failure
end ConfinedRelay
