/-!
# Return codes

The `NRF_ERROR_*` values the firmware libraries return. `NRF_SUCCESS` is the
`ok` case of a procedure's result.
-/

namespace OpenBadge

inductive RetCode where
  | internal
  | noMem
  | notFound
  | invalidParam
  | invalidState
  | invalidData
  | forbidden
  | busy
  | timeout
  deriving DecidableEq, Repr

end OpenBadge
