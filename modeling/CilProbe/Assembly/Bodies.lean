import CilProbe.Assembly.Members
import CilProbe.Code.Body

/-!
# Method bodies of an assembly

Only methods that the assembly defines have a body here, and only if the stored bytes are a complete one. The bytes come
from a source apart from the metadata; finding them may be an action, for which `Id` stands if it is none.
-/

namespace CilProbe

/-- Where stored method bodies are found, by address. -/
abbrev BodySource (μ : Type → Type) := Nat → μ (Option Bytes)

namespace Assembly

/-- The address of the stored body of a method. -/
def bodyAddress? (a : Assembly) (m : Method) : Option Nat :=
  if m.assembly ≠ a.name ∨ Metadata.Token.table? m.token ≠ some .methodDef ∨ m.rva = 0 then none else some m.rva

/-- The code in a stored body. -/
def codeIn? : Option Bytes → Option Bytes
  | none | some [] => none
  | some data => ((readMethodBody data).toOption).map (·.2)

/-- The listing of code, with every token resolved that names something. -/
def listingOf (a : Assembly) (code : Bytes) : Listing Reference :=
  (Listing.ofCode code).resolve fun token => (a.resolve token).toOption

variable {μ : Type → Type} [Monad μ]

/-- The code of a method. -/
def code? (a : Assembly) (bodies : BodySource μ) (m : Method) : μ (Option Bytes) :=
  match a.bodyAddress? m with
  | some address => do return codeIn? (← bodies address)
  | none => return none

/-- The listing of a method. -/
def listing? (a : Assembly) (bodies : BodySource μ) (m : Method) : μ (Option (Listing Reference)) := do
  return (← a.code? bodies m).map a.listingOf

end Assembly

end CilProbe
