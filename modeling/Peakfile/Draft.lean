/-
# Drafts

A draft is a peak file while it is being made.  The header goes out first with a
count of zero windows, the points of each window follow, and finishing the draft puts
the count in its place.  Until then the zero stands there.  The count is put before the
device is flushed, so it may stand there also where finishing failed.  A draft without a
device counts windows and writes nothing.
-/
import Peakfile.Header
import Peakfile.Device

namespace Peakfile

/-- A peak file in the making. -/
structure Draft where
  /-- Where the bytes go, if anywhere. -/
  device : Option Device
  headerWritten : Bool := false
  /-- Windows written. -/
  windows : Nat := 0
  /-- Bytes written, the header included. -/
  size : Nat := 0
  deriving DecidableEq

namespace Draft

/-- A draft that goes to a device. -/
def onto (device : Device) : Draft := { device := some device }

/-- A draft that goes nowhere. -/
def discarding : Draft := { device := none }

/-- The most windows that a header can count. -/
def mostWindows : Nat := UInt32.size - 1

/-- Hand bytes to the device; they count once all of them are taken. -/
def put (d : Draft) (bytes : List UInt8) : Except Error Unit × Draft :=
  match d.device with
  | none => (.ok (), d)
  | some device =>
    match device.writeAll bytes with
    | (.ok (), device) => (.ok (), { d with device := some device, size := d.size + bytes.length })
    | (.error cause, device) => (.error (.device cause), { d with device := some device })

/-- Write the header with a count of zero.  A header is attempted once. -/
def writeHeader (d : Draft) (h : Header) : Except Error Unit × Draft :=
  if d.headerWritten then (.error (.wrongState .headerWritten), d)
  else { d with headerWritten := true }.put { h with windows := 0 }.encode

/-- Write bytes after the header. -/
def append (d : Draft) (bytes : List UInt8) : Except Error Unit × Draft :=
  if d.headerWritten then d.put bytes else (.error (.wrongState .headerMissing), d)

/-- Write the points of a window and count it.  Nothing is written once the count
would no longer fit the header. -/
def appendWindow (d : Draft) (points : List UInt8) : Except Error Unit × Draft :=
  if mostWindows ≤ d.windows then (.error .tooManyWindows, d)
  else
    match d.append points with
    | (.ok (), d') => (.ok (), { d' with windows := d.windows + 1 })
    | (.error cause, d') => (.error cause, d')

/-- Put the count of windows in its place and come back. -/
def patchCount (device : Device) (windows : Nat) : Except StorageError Unit × Device :=
  match device.tell with
  | (.error cause, device) => (.error cause, device)
  | (.ok position, device) =>
    match device.seek Header.countOffset with
    | (.error cause, device) => (.error cause, device)
    | (.ok (), device) =>
      match device.writeAll (LittleEndian.encode 4 windows) with
      | (.error cause, device) => (.error cause, device)
      | (.ok (), device) =>
        match device.seek position with
        | (.error cause, device) => (.error cause, device)
        | (.ok (), device) => device.flush

/-- Put the count in its place; the answer is the size of the file. -/
def finish (d : Draft) : Except Error Nat × Draft :=
  if d.headerWritten then
    match d.device with
    | none => (.ok d.size, d)
    | some device =>
      match patchCount device d.windows with
      | (.ok (), device) => (.ok d.size, { d with device := some device })
      | (.error cause, device) => (.error (.device cause), { d with device := some device })
  else (.error (.wrongState .headerMissing), d)

end Draft

end Peakfile
