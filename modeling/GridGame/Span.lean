/-!
# Spans

A span is the stretch of program text that a construct was read from. Constructs that come from
no text carry the detached span `0..0`.
-/

namespace GridGame

/-- A stretch of program text, from the offset `start` up to but excluding the offset `stop`. -/
structure Span where
  start : UInt32
  stop : UInt32
deriving DecidableEq, Inhabited

namespace Span

/-- The span of a construct that comes from no program text. -/
def detached : Span := ⟨0, 0⟩

/-- The written form `start..stop`. -/
def text (s : Span) : String := s!"{s.start.toNat}..{s.stop.toNat}"

/-- The number of offsets covered; a span that ends before it starts covers none. -/
def length (s : Span) : Nat := s.stop.toNat - s.start.toNat

/-- A span is empty when it ends where it starts. -/
def isEmpty (s : Span) : Bool := s.start == s.stop

/-- The smallest span that reaches from the earlier start to the later stop. -/
def cover (s t : Span) : Span :=
  ⟨if s.start ≤ t.start then s.start else t.start, if s.stop ≤ t.stop then t.stop else s.stop⟩

end Span

end GridGame
