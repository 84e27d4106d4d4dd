/-
# Faults of a reading

A reading works its way through a text.  Where a value does not fit, the fault keeps
what was unread by then, and with the whole text at hand this becomes a place.
-/
import Peakfile.Error

namespace Peakfile

namespace TextPlace

/-- The place behind what was read. -/
def after (read : List Char) : TextPlace where
  line := read.count '\n' + 1
  column := (read.reverse.takeWhile (· ≠ '\n')).foldr (·.utf8Size + ·) 0

/-- A text starts on its first line. -/
theorem after_nil : after [] = ⟨1, 0⟩ := rfl

/-- A line feed ends a line. -/
theorem after_lineFeed (read : List Char) :
    after (read ++ ['\n']) = ⟨(after read).line + 1, 0⟩ := by
  simp [after]

/-- Any other character moves on by its bytes. -/
theorem after_concat (read : List Char) (c : Char) (hc : c ≠ '\n') :
    after (read ++ [c]) = ⟨(after read).line, c.utf8Size + (after read).column⟩ := by
  simp [after, hc]

end TextPlace

namespace Json

/-- Why a reading stopped. -/
inductive Fault where
  /-- The text is not well formed. -/
  | malformed
  /-- The text ends too early. -/
  | endsEarly
  /-- A value does not fit; `unread` is what follows its place. -/
  | misfit (cause : Misfit) (unread : List Char)
  deriving DecidableEq

namespace Fault

/-- Whether a misfit is late.  Which depths exist, and which members were given before,
is not known to the reader of a value, so these have their place where the settings end. -/
def isLate : Misfit → Bool
  | .depth _ => true
  | .repeatedField _ => true
  | _ => false

/-- Move the place of a late misfit to where `later` gets from what was unread. -/
def defer (later : List Char → List Char) : Fault → Fault
  | misfit cause unread => misfit cause (if isLate cause then later unread else unread)
  | fault => fault

/-- A fault with its place in the whole text. -/
def locate (text : List Char) : Fault → JsonError
  | malformed => .malformed
  | endsEarly => .endsEarly
  | misfit cause unread => .misfit cause (.after (text.take (text.length - unread.length)))

/-- What was read before a misfit decides its place, whatever is unread. -/
theorem locate_misfit (read unread : List Char) (cause : Misfit) :
    (misfit cause unread).locate (read ++ unread) = .misfit cause (.after read) := by
  simp [locate]

end Fault

end Json

end Peakfile
