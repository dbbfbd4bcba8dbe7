/-!
# Source spans

A span is a pair of byte offsets into a source text, `start` included and `stop` excluded. Nothing
makes `start` come first: an inverted span is a value like any other, and its length is zero.
-/

namespace ServiceLang

structure Span where
  start : UInt64
  stop : UInt64
  deriving DecidableEq, Inhabited

namespace Span

/-- The empty span at the beginning of the source. -/
def zero : Span := ⟨0, 0⟩

/-- Number of bytes covered, zero when the span is inverted. -/
def length (s : Span) : Nat := s.stop.toNat - s.start.toNat

def isEmpty (s : Span) : Bool := s.length == 0

/-- The span from the earlier start to the later end of the two. -/
def cover (s t : Span) : Span := ⟨min s.start t.start, max s.stop t.stop⟩

/-- Offsets as they are shown in messages, `3..7`. -/
def text (s : Span) : String := toString s.start.toNat ++ ".." ++ toString s.stop.toNat

/-- No byte of `s` lies outside `t`. -/
def Within (s t : Span) : Prop := t.start ≤ s.start ∧ s.stop ≤ t.stop

end Span

end ServiceLang
