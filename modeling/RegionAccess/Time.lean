/-! Moments and spans of time, exact to the nanosecond. -/
namespace RegionAccess

structure Span where
  nanoseconds : Int
  deriving DecidableEq, Repr

/-- A moment, counted from a fixed origin. -/
structure Instant where
  nanoseconds : Int
  deriving DecidableEq, Repr

namespace Span

instance : LE Span := ⟨fun a b => a.nanoseconds ≤ b.nanoseconds⟩

instance (a b : Span) : Decidable (a ≤ b) :=
  inferInstanceAs (Decidable (a.nanoseconds ≤ b.nanoseconds))

def seconds (n : Nat) : Span := ⟨n * 1000000000⟩

def milliseconds (n : Int) : Span := ⟨n * 1000000⟩

/-- The longest span: the milliseconds that a signed 64-bit word counts. -/
def longest : Span := milliseconds Int64.maxValue.toInt

/-- Seconds, cut to the longest span. -/
def cappedSeconds (n : Nat) : Span := if seconds n ≤ longest then seconds n else longest

end Span

namespace Instant

def since (later earlier : Instant) : Span := ⟨later.nanoseconds - earlier.nanoseconds⟩

def after (start : Instant) (span : Span) : Instant := ⟨start.nanoseconds + span.nanoseconds⟩

end Instant
end RegionAccess
