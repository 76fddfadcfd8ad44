import Mathlib.Data.Rat.Floor
import Onepass.Proofs.Decimal.Exact

/-! # Remainders

The remainder belongs to the division toward zero. Brought to the smaller exponent of the two numbers,
it is the remainder of natural numbers with the sign of the dividend, and so it is exact however far
the scales lie apart. There is no remainder if the integer quotient has more digits than a number can
hold.
-/

set_option autoImplicit false

namespace Onepass

namespace Decimal

/-! ## Quotients toward zero -/

end Decimal

namespace Heap

open Decimal

end Heap

end Onepass
