import Monkey.Program.Equality
import Monkey.Store

/-!
# Comparing values and stores

Two values are equal if they look the same down to the numbers of their objects, and two stores
if they hold equal values under the same names, in the same frames. Both are decidable.
-/

namespace Monkey

deriving instance DecidableEq for Closure, Value, Frame, Store

end Monkey
