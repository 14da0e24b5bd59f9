import Mathlib.Data.List.Basic

/-!
# Fundamental types

The enumerations of `corm/types.h` and the C strings every module passes around.

* `Err`, `BackendType`, `FieldType`: the enumerations, constructor for constructor;
* `Text`: the characters of a NUL-terminated C string, without the NUL; `snprintf`: writing one
  into a buffer.
-/

namespace Corm

/-- The characters of a C string, up to its NUL. -/
abbrev Text := List Char

/-- What `snprintf` leaves of a text in a buffer of `size` bytes. -/
def snprintf (size : ℕ) (text : Text) : Text := text.take (size - 1)

/-- `corm_err_t`. -/
inductive Err
  | ok
  | generic
  | nomem
  | notfound
  | dup
  | backend
  | type
  | null
  | bounds
  | mismatch
  deriving DecidableEq, Repr

/-- `corm_backend_type_t`. -/
inductive BackendType
  | sqlite
  | mysql
  | postgres
  deriving DecidableEq, Repr

/-- `corm_field_type_t`. -/
inductive FieldType
  | int
  | int64
  | float
  | double
  | string
  | text
  | blob
  | bool
  deriving DecidableEq, Repr

end Corm
