/-
# Tapes

A tape holds bytes and a position.  Writing overwrites at the position, moves it
behind what was written, and extends where it has to; a gap before the position is
filled with zeros.  The bytes behind the position are kept nearest first, so that
writing costs no more than the bytes written, however long the tape has become.
-/

namespace Peakfile

/-- Bytes with a run of them replaced from a position on. -/
def overwrite (content : List UInt8) (position : Nat) (data : List UInt8) : List UInt8 :=
  content.take position ++ List.replicate (position - content.length) 0 ++ data ++
    content.drop (position + data.length)

/-- Overwriting extends as far as it has to, and never shortens. -/
theorem length_overwrite (content : List UInt8) (position : Nat) (data : List UInt8) :
    (overwrite content position data).length = max content.length (position + data.length) := by
  simp only [overwrite, List.length_append, List.length_take, List.length_replicate,
    List.length_drop]
  omega

/-- Overwriting at the end appends. -/
theorem overwrite_length (content data : List UInt8) :
    overwrite content content.length data = content ++ data := by
  simp [overwrite]

/-- Overwriting inside the bytes replaces as many as are given. -/
theorem overwrite_append {a b c data : List UInt8} (h : b.length = data.length) :
    overwrite (a ++ b ++ c) a.length data = a ++ data ++ c := by
  have hzeros : a.length - (a ++ b ++ c).length = 0 := by
    simp only [List.length_append]
    omega
  rw [overwrite, hzeros, ← h, ← List.length_append, List.drop_left, List.append_assoc a b c,
    List.take_left]
  simp

/-- Overwriting with nothing changes nothing, inside the bytes. -/
theorem overwrite_nil {content : List UInt8} {position : Nat} (h : position ≤ content.length) :
    overwrite content position [] = content := by
  simp [overwrite, Nat.sub_eq_zero_of_le h]

/-- Overwritten bytes reach as far as the data. -/
theorem length_front_overwrite (content : List UInt8) (position : Nat) (data : List UInt8) :
    (content.take position ++ List.replicate (position - content.length) 0 ++ data).length =
      position + data.length := by
  simp only [List.length_append, List.length_take, List.length_replicate]
  omega

/-- Overwriting leaves the bytes behind as they are. -/
theorem drop_overwrite (content : List UInt8) {position count : Nat} {data : List UInt8}
    (h : position + data.length ≤ count) :
    (overwrite content position data).drop count = content.drop count := by
  obtain ⟨more, rfl⟩ := Nat.exists_eq_add_of_le h
  rw [overwrite, ← List.drop_drop, List.drop_left' (length_front_overwrite content position data),
    List.drop_drop]

/-- Overwriting may be done in two goes. -/
theorem overwrite_overwrite (content : List UInt8) (position : Nat) (first second : List UInt8) :
    overwrite (overwrite content position first) (position + first.length) second =
      overwrite content position (first ++ second) := by
  have hfront := length_front_overwrite content position first
  have hzeros : position + first.length - (overwrite content position first).length = 0 := by
    rw [length_overwrite]
    omega
  have htake : (overwrite content position first).take (position + first.length) =
      content.take position ++ List.replicate (position - content.length) 0 ++ first := by
    rw [overwrite, ← hfront, List.take_left]
  have hdrop : (overwrite content position first).drop (position + first.length + second.length) =
      content.drop (position + (first ++ second).length) := by
    rw [Nat.add_assoc, drop_overwrite content (by omega), List.length_append]
  rw [overwrite, htake, hzeros, hdrop]
  simp [overwrite]

/-- Bytes with a position. -/
structure Tape where
  /-- Bytes behind the position, the nearest first. -/
  behind : List UInt8 := []
  /-- How far the position lies from them. -/
  skip : Nat := 0
  /-- The bytes after those behind, the skipped ones included. -/
  rest : List UInt8 := []
  deriving DecidableEq

namespace Tape

/-- The bytes of a tape. -/
def content (t : Tape) : List UInt8 := t.behind.reverse ++ t.rest

/-- The position of a tape. -/
def position (t : Tape) : Nat := t.behind.length + t.skip

/-- The tape with the given bytes and position. -/
def holding (content : List UInt8) (position : Nat) : Tape := { skip := position, rest := content }

/-- Move to a position, also behind the end. -/
def seek (t : Tape) (position : Nat) : Tape := .holding t.content position

/-- The skipped bytes, zeros where there are none. -/
def skipped (t : Tape) : List UInt8 := (t.rest.take t.skip).rightpad t.skip 0

/-- Write bytes at the position. -/
def write (t : Tape) (data : List UInt8) : Tape where
  behind := data.reverse ++ (t.skipped.reverse ++ t.behind)
  rest := t.rest.drop (t.skip + data.length)

@[simp] theorem content_holding (content : List UInt8) (position : Nat) :
    (holding content position).content = content := rfl

@[simp] theorem position_holding (content : List UInt8) (position : Nat) :
    (holding content position).position = position := Nat.zero_add position

/-- Moving changes no bytes. -/
@[simp] theorem content_seek (t : Tape) (position : Nat) :
    (t.seek position).content = t.content := content_holding _ _

@[simp] theorem position_seek (t : Tape) (position : Nat) :
    (t.seek position).position = position := position_holding _ _

/-- Writing overwrites at the position. -/
theorem content_write (t : Tape) (data : List UInt8) :
    (t.write data).content = overwrite t.content t.position data := by
  have hzeros : t.behind.length + t.skip - (t.behind.length + t.rest.length) =
      t.skip - min t.skip t.rest.length := by omega
  have htake : t.behind.reverse.take (t.behind.length + t.skip) = t.behind.reverse :=
    List.take_of_length_le (by simp)
  have hdrop : t.behind.reverse.drop (t.behind.length + t.skip + data.length) = [] :=
    List.drop_of_length_le (by simp; omega)
  have hskip : t.behind.length + t.skip - t.behind.length = t.skip := by omega
  have hrest : t.behind.length + t.skip + data.length - t.behind.length =
      t.skip + data.length := by omega
  simp [content, position, write, skipped, overwrite, List.rightpad, List.take_append,
    List.drop_append, hzeros, htake, hdrop, hskip, hrest]

/-- Writing moves behind what was written. -/
theorem position_write (t : Tape) (data : List UInt8) :
    (t.write data).position = t.position + data.length := by
  simp only [position, write, skipped, List.rightpad, List.length_append, List.length_reverse,
    List.length_take, List.length_replicate]
  omega

end Tape

end Peakfile
