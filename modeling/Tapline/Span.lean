/-!
# Spans of text

A span names a stretch of a text by the byte offsets at which it starts and
stops.  Spans come from lexemes and are merged as larger phrases are read.  A tree
is printed with or without them.
-/

namespace Tapline

/-- The half-open range of bytes from `start` up to, but not including, `stop`.
A span supplied from outside may be inverted, so no order is demanded. -/
structure Span where
  start : Nat
  stop : Nat
deriving DecidableEq, Inhabited

namespace Span

/-- The empty span at the beginning of every text. -/
def origin : Span := ⟨0, 0⟩

def merge (left right : Span) : Span :=
  ⟨min left.start right.start, max left.stop right.stop⟩

/-- The inner span starts no earlier and stops no later than the outer one. -/
def Encloses (outer inner : Span) : Prop :=
  outer.start ≤ inner.start ∧ inner.stop ≤ outer.stop

instance (outer inner : Span) : Decidable (outer.Encloses inner) :=
  inferInstanceAs (Decidable (_ ∧ _))

/-- The span moved `distance` bytes to the right. -/
def shift (distance : Nat) (span : Span) : Span :=
  ⟨span.start + distance, span.stop + distance⟩

theorem shift_merge (distance : Nat) (left right : Span) :
    (left.merge right).shift distance =
      (left.shift distance).merge (right.shift distance) := by
  simp only [merge, shift, Span.mk.injEq]
  omega

end Span

/-- How a tree is written: as text that reads back, or for inspection with the
position of every node. -/
inductive Layout where
  | canonical
  | positions
deriving DecidableEq, Inhabited

end Tapline
