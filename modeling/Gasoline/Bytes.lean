import Mathlib.Tactic

/-!
# Byte strings

A `std::string` is a sequence of bytes with no encoding attached, and so is
everything that goes over a socket or into a file. Literals of the source
are written with `ascii`.
-/

namespace Gasoline

/-- A byte string: what `std::string` and `std::string_view` hold. -/
abbrev Bytes := List UInt8

/-- The bytes of an ASCII literal. -/
def ascii (s : String) : Bytes := s.toList.map (fun c => UInt8.ofNat c.toNat)

/-- `a <= b` in the order of `memcmp`, shorter first: the order of
`std::string` and of SQLite's `BINARY` collation. -/
def Bytes.le (a b : Bytes) : Bool := !decide (b < a)

end Gasoline
