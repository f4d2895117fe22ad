import Mathlib.Algebra.GroupWithZero.Nat

/-!
# Errors

The failures of the library. Operating system and JSON errors are kept only
as far as a caller can tell them apart: the path of a configuration failure
and the category of a JSON failure.
-/

set_option autoImplicit false

namespace RlStatsApi.Error

abbrev U16 := Fin 65536

instance u16_neZero : NeZero 65536 := ⟨by decide⟩

/-- The category of a JSON failure: `malformed` is a text that no
continuation makes valid, `eof` a text that ends too early. -/
inductive Category where
  | io
  | malformed
  | data
  | eof
  deriving DecidableEq

inductive RlStatsError where
  | configPathNotFound
  | configIo (path : String)
  | portConflict (port : U16)
  | invalidCommand (command reason : String)
  | socketIo
  | json (category : Category)
  deriving DecidableEq

abbrev Outcome := Except RlStatsError

end RlStatsApi.Error
