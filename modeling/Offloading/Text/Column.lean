/-!
# Columns

Text filled up with blanks to a width. Text that is wider stays as it is.
-/

namespace Offloading.Text

/-- Text at the left of a column. -/
def leftIn (width : Nat) (s : String) : String := s.pushn ' ' (width - s.length)

/-- Text at the right of a column. -/
def rightIn (width : Nat) (s : String) : String := "".pushn ' ' (width - s.length) ++ s

end Offloading.Text
