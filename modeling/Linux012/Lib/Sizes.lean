import Mathlib.Algebra.GroupWithZero.Nat

/-!
# Sizes of tables

A numeral of `Fin n` needs that `n` is not zero. These are the sizes that more than one table has:
one instance for each of them, for every module that counts the places of such a table.
-/

namespace Linux012.Lib

instance neZero_eight : NeZero 8 := ⟨by decide⟩

instance neZero_nine : NeZero 9 := ⟨by decide⟩

instance neZero_64 : NeZero 64 := ⟨by decide⟩

instance neZero_1024 : NeZero 1024 := ⟨by decide⟩

end Linux012.Lib
