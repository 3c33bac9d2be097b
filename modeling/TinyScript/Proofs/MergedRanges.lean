import TinyScript.Proofs.LineIndex

/-!
# Merging spans is merging ranges

A region of a text can be given by two byte offsets, or by two positions.  The
order of positions, line first, is the order of the offsets that they belong
to, across line breaks and characters of several bytes.  So the smallest span
over two spans is the span of the smallest range over the ranges of both.
-/

namespace TinyScript

namespace Position

variable {p q : Position}

theorem le_refl (p : Position) : p ≤ p := .inr ⟨rfl, UInt32.le_refl _⟩

theorem Before.le (before : p.Before q) : p ≤ q :=
  before.imp_right (And.imp_right UInt32.le_of_lt)

theorem Before.not_le (before : p.Before q) : ¬ q ≤ p := by
  intro le
  rcases before with line | ⟨sameLine, column⟩
  · rcases le with line' | ⟨sameLine, _⟩
    · exact UInt32.lt_asymm line line'
    · exact UInt32.ne_of_lt line sameLine.symm
  · rcases le with line | ⟨_, column'⟩
    · exact UInt32.ne_of_lt line sameLine.symm
    · exact UInt32.not_le.2 column column'

end Position

namespace Source

/-- An offset of a text is a place if it stands between two characters or at one of its ends. -/
def IsPlace (source : Source) (offset : Nat) : Prop :=
  ∃ front, front <+: source.text.toList ∧ utf8Length front = offset

variable {source : Source} {a b c d : Nat}

/-- Of two places the later one has the later position. -/
theorem before_of_lt (short : source.text.utf8ByteSize + 1 < UInt32.size)
    (place : source.IsPlace a) (place' : source.IsPlace b) (lt : a < b) :
    (source.position a).Before (source.position b) := by
  obtain ⟨front, inside, rfl⟩ := place
  obtain ⟨front', inside', rfl⟩ := place'
  exact position_before short inside inside' lt

/-- Places are ordered as their positions are. -/
theorem position_le_iff (short : source.text.utf8ByteSize + 1 < UInt32.size)
    (place : source.IsPlace a) (place' : source.IsPlace b) :
    source.position a ≤ source.position b ↔ a ≤ b := by
  constructor
  · intro le
    by_contra later
    exact (before_of_lt short place' place (Nat.lt_of_not_le later)).not_le le
  · intro le
    rcases Nat.eq_or_lt_of_le le with rfl | lt
    · exact Position.le_refl _
    · exact (before_of_lt short place place' lt).le

theorem min_position (short : source.text.utf8ByteSize + 1 < UInt32.size)
    (place : source.IsPlace a) (place' : source.IsPlace b) :
    min (source.position a) (source.position b) = source.position (min a b) := by
  have order := position_le_iff short place place'
  change (if source.position a ≤ source.position b then _ else _) = _
  by_cases le : a ≤ b
  · rw [if_pos (order.2 le), Nat.min_eq_left le]
  · rw [if_neg (mt order.1 le), Nat.min_eq_right (Nat.le_of_not_le le)]

theorem max_position (short : source.text.utf8ByteSize + 1 < UInt32.size)
    (place : source.IsPlace a) (place' : source.IsPlace b) :
    max (source.position a) (source.position b) = source.position (max a b) := by
  have order := position_le_iff short place place'
  change (if source.position a ≤ source.position b then _ else _) = _
  by_cases le : a ≤ b
  · rw [if_pos (order.2 le), Nat.max_eq_right le]
  · rw [if_neg (mt order.1 le), Nat.max_eq_left (Nat.le_of_not_le le)]

end Source

/-- Two places of a text, the first not behind the second: a range of whole characters. -/
structure Source.IsRange (source : Source) (start stop : Nat) : Prop where
  ordered : start ≤ stop
  atStart : source.IsPlace start
  atStop : source.IsPlace stop

/--
Merging the spans of two ranges of a text that is not too long gives the span
of the merged range, which begins where the first of both begins and ends
where the last of both ends.  The ranges may overlap, lie within each other or
apart, and reach over any number of lines.
-/
theorem merged_span_of_ranges {source : Source}
    (short : source.text.utf8ByteSize + 1 < UInt32.size) {a b c d : Nat}
    (first : source.IsRange a b) (second : source.IsRange c d) :
    (source.span a b).merge (source.span c d) = source.span (min a c) (max b d) := by
  have starts := Source.min_position short first.atStart second.atStart
  have stops := Source.max_position short first.atStop second.atStop
  rw [Span.merge, Source.span, Source.span, Source.span, starts, stops]

/--
A range of several lines, and one in front of it that begins and ends in later
columns: neither the lines nor the columns alone tell how to merge the spans.
-/
theorem merged_span_of_ranges_mixedEndings :
    mixedEndings.text.utf8ByteSize + 1 < UInt32.size ∧
      mixedEndings.IsRange 12 23 ∧ mixedEndings.IsRange 9 11 ∧
      mixedEndings.span 12 23 = ⟨⟨2, 1⟩, ⟨4, 6⟩⟩ ∧ mixedEndings.span 9 11 = ⟨⟨1, 8⟩, ⟨1, 10⟩⟩ ∧
      (mixedEndings.span 12 23).merge (mixedEndings.span 9 11) = mixedEndings.span 9 23 ∧
      mixedEndings.span 9 23 = ⟨⟨1, 8⟩, ⟨4, 6⟩⟩ := by
  have short : mixedEndings.text.utf8ByteSize + 1 < UInt32.size := by decide
  have place (n : Nat) {offset : Nat}
      (bytes : utf8Length (mixedEndings.text.toList.take n) = offset) :
      mixedEndings.IsPlace offset := ⟨_, List.take_prefix n _, bytes⟩
  have several : mixedEndings.IsRange 12 23 :=
    ⟨by decide, place 10 (by decide), place 19 (by decide)⟩
  have front : mixedEndings.IsRange 9 11 := ⟨by decide, place 7 (by decide), place 9 (by decide)⟩
  exact ⟨short, several, front, by decide, by decide,
    merged_span_of_ranges short several front, by decide⟩

end TinyScript
