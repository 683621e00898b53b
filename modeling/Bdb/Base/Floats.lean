import Bdb.Base.Outcome

/-! # Floating-point seconds

Delays and clock readings are floating-point numbers. Nothing is assumed of the operations:
they may round, a comparison with what is not a number fails, and a reading that no calendar
holds has no text.
-/
namespace Bdb

class Floats (F : Type) where
  ofInt : Int → F
  plus : F → F → F
  minus : F → F → F
  times : F → F → F
  divided : F → F → F
  lt : F → F → Bool
  round4 : F → F
  repr : F → String
  oneDecimal : F → String
  /-- The text of a clock reading in UTC. -/
  isoformat : F → Outcome String
  /-- The clock reading of such a text. -/
  timestamp : String → Outcome F

def decimalNumber (cs : List Char) : Option ℕ :=
  if cs ≠ [] ∧ cs.all Char.isDigit then some (cs.foldl (fun n c => 10 * n + (c.toNat - 48)) 0) else none

/-- Whole seconds from the start of the epoch. -/
instance : Floats ℤ where
  ofInt := id
  plus := (· + ·)
  minus := (· - ·)
  times := (· * ·)
  divided := (· / ·)
  lt a b := decide (a < b)
  round4 := id
  repr n := n.repr ++ ".0"
  oneDecimal n := n.repr ++ ".0"
  isoformat n := .ok n.repr
  timestamp s := need ((decimalNumber s.toList).map Int.ofNat) "ValueError" "Invalid isoformat string"

end Bdb
