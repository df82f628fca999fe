import ClassInspect.Proofs.ClassFile.Placement
import ClassInspect.Proofs.Report.Listing
import ClassInspect.Proofs.Signature

/-!
# Placeholders for classes

A class file refers to its super class and to the classes of exceptions by index, where zero stands
for none. The reports have a placeholder for none. They have the same placeholder for a class whose
name is empty, so that an existing class can be reported as absent: reading a placeholder back, one
knows that the index is zero or the name is empty (`RawPool.Shows.eq_placeholder_iff`). In all other
cases the name is shown.

A class cannot be shown as the placeholder for a super class, since a shown name has no slash. It
can be shown as the placeholder for an exception, if it is called so.
-/

namespace ClassInspect

/-! ### Classes by index -/

namespace RawPool

variable {pool : RawPool} {index : UInt16} {placeholder : String} {display : Text → Text}
  {shown : Text}

end RawPool

/-! ### Exception tables -/

/-- The columns of a row before that of the type. -/
def RawHandler.columns (handler : RawHandler) : Text :=
  .lit (Layout.right 7 (toString handler.start.toNat) ++ " " ++
    Layout.right 5 (toString handler.stop.toNat) ++ " " ++
    Layout.right 7 (toString handler.target.toNat) ++ " ")

namespace ClassFile

end ClassFile

end ClassInspect
