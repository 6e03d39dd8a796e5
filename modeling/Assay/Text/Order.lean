/-!
# Order of texts

Texts are ordered by code point, and lists of texts item by item, a shorter list before those it
begins.
-/

namespace Assay.Text

/-- Different texts in ascending order. -/
def sortDistinct (texts : List String) : List String :=
  (texts.mergeSort fun a b => a ≤ b).eraseReps

/-- The first list is not after the second. -/
def listLe : List String → List String → Bool
  | [], _ => true
  | _ :: _, [] => false
  | a :: as, b :: bs => if a == b then listLe as bs else a < b

end Assay.Text
