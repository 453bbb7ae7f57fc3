import GoOutline.Text.Slice

/-!
# Spans: `Span` and `Printer::text`

A span is a byte range of a source text. Spans are all that the model keeps of a syntax tree, and
their text is looked up in the source when it is asked for.
-/
namespace GoOutline

/-- The bytes of a source from `start` up to `stop`. -/
structure Span where
  start : Nat
  stop : Nat
deriving DecidableEq, Repr

namespace Span

/-- Number of bytes; zero when the ends are reversed. -/
def length (s : Span) : Nat :=
  s.stop - s.start

/-- The span holds no byte. -/
def isEmpty (s : Span) : Bool :=
  s.length == 0

/-- From the start of the first span to the end of the last (`covering`). -/
def covering (first last : Span) : Span :=
  ⟨first.start, last.stop⟩

/-- The exact text of a span; empty when the span is reversed, reaches past the end of the source
or cuts a character (`Printer::text`). -/
def text (source : String) (s : Span) : String :=
  match Text.sliceBytes s.start s.stop source.toList with
  | some cs => String.ofList cs
  | none => ""

end Span

end GoOutline
