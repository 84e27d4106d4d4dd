/-
# Feeding raw audio to an extraction

Blocks of whole frames are read and pushed until the data end or something fails.
-/
import Peakfile.Extraction
import Peakfile.RawAudio

namespace Peakfile

/-- Why feeding stopped early. -/
inductive FeedError where
  | input (cause : InputError)
  | extraction (cause : Error)
  deriving DecidableEq

/-- Read and push blocks until the end of the data. -/
def Extraction.feed (x : Extraction) (f : Framer) (s : Source) :
    Except FeedError Unit × Extraction :=
  match _h : f.next s with
  | (.error cause, _, _) => (.error (.input cause), x)
  | (.ok none, _, _) => (.ok (), x)
  | (.ok (some block), f', s') =>
    match x.push (.interleaved block) with
    | (.ok (), x') => x'.feed f' s'
    | (.error cause, x') => (.error (.extraction cause), x')
termination_by f.remaining s
decreasing_by exact Framer.remaining_of_next _h

end Peakfile
