import Addressing.Fault

/-!
# Error codes

Faults as numbers. A number means something only within a domain of codes: the same number in
another domain is another code. Zero is no error in any domain.

* `Fault.code`: the code of a fault, counted from one.
* `ErrorCode.fault?`: the fault that a code stands for, if any.
* `fault?_code`: the code of a fault stands for it.
-/

namespace Addressing

/-- What gives error numbers their meaning. -/
inductive Domain
  /-- The faults of this library. -/
  | addressing
  /-- The errors of the operating system. -/
  | generic
deriving DecidableEq

/-- The name of a domain. -/
def Domain.name : Domain → Text
  | .addressing => Text.ofString "uproto"
  | .generic => Text.ofString "generic"

/-- A number in a domain of codes. -/
structure ErrorCode where
  domain : Domain
  value : Int32
deriving DecidableEq

/-- The code of a fault. -/
def Fault.code : Fault → ErrorCode
  | .invalidArgument => ⟨.addressing, 1⟩
  | .invalidAddress => ⟨.addressing, 2⟩
  | .invalidAddressLength => ⟨.addressing, 3⟩
  | .invalidHex => ⟨.addressing, 4⟩

namespace ErrorCode

/-- The faults, in the order of their codes. -/
def faults : List Fault :=
  [.invalidArgument, .invalidAddress, .invalidAddressLength, .invalidHex]

/-- The fault that a code stands for. -/
def fault? (e : ErrorCode) : Option Fault := faults.find? (·.code = e)

/-- The wording of a code of this library's domain; codes of no fault share one wording. -/
def message (e : ErrorCode) : Text :=
  match e.fault? with
  | some f => f.message
  | none => Text.ofString "unknown error"

/-- Whether a code reports an error at all. -/
def isError (e : ErrorCode) : Bool := e.value ≠ 0

/-- Codes of one domain are ordered by their signed values; codes of two domains are not
    ordered. -/
def precedes (e e' : ErrorCode) : Bool := e.domain = e'.domain ∧ e.value < e'.value

/-- The code of a fault stands for that fault. -/
theorem fault?_code (f : Fault) : f.code.fault? = some f := by cases f <;> decide

end ErrorCode

end Addressing
