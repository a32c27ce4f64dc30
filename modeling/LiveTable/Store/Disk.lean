/-! Files by name, all in one directory that has no directories in it, and apart from it a device that is
    always full.  Bytes on their way to a file are held back until a buffer overflows, so a save can fail
    at two moments: while the bytes are still being handed out, if they are too many for the buffer, and
    before or after that. -/

namespace LiveTable

/-- The number of bytes that the buffer of a file takes. -/
def bufferSize : Nat := 8192

/-- The files of the directory. -/
abbrev Disk := List (String × List UInt8)

namespace Disk

/-- The name of the device that is always full.  It can be opened and reads as zeros, and nothing can be
    written to it. -/
def full : String := "/dev/full"

/-- The bytes of a file; of the full device, the first of its zeros. -/
def read? (disk : Disk) (name : String) : Option (List UInt8) :=
  if name = full then some (List.replicate bufferSize 0) else disk.lookup name

/-- Writes a file, replacing it if it is there.  A name that leads through another directory cannot be
    written, since there is none, nor can the full device. -/
def write? (disk : Disk) (name : String) (bytes : List UInt8) : Option Disk :=
  if name.toList.contains '/' then none
  else some ((name, bytes) :: disk.filter fun file => file.1 != name)

/-- A file that was written has the bytes that were written. -/
theorem read?_write? {disk written : Disk} {name : String} {bytes : List UInt8}
    (done : disk.write? name bytes = some written) : written.read? name = some bytes := by
  rw [write?] at done
  split at done
  · cases done
  · next inside =>
    have other : name ≠ full := by
      rintro rfl
      exact inside (by decide)
    obtain rfl := Option.some.inj done
    rw [read?, if_neg other]
    exact List.lookup_cons_self

/-- Whether a file can be written is a matter of its name. -/
theorem isSome_write? (disk : Disk) (name : String) (bytes : List UInt8) :
    (disk.write? name bytes).isSome = !name.toList.contains '/' := by
  rw [write?]
  cases name.toList.contains '/' <;> rfl

end Disk

/-! ### Saving -/

/-- The moment at which a save failed. -/
inductive SaveFailure where
  /-- When the file was to be created, or when the buffer was emptied at the end. -/
  | access
  /-- While the bytes were being handed out. -/
  | encoding
  deriving DecidableEq, Repr

/-- A way to save a file: how it failed, if it did, and the disk after it.  What stands in the file is
    only known if nothing failed, and handing the bytes out can only fail if they are more than the
    buffer takes. -/
structure Saver where
  save : Disk → String → List UInt8 → Option SaveFailure × Disk
  saved : ∀ {disk name bytes}, (save disk name bytes).1 = none →
    (save disk name bytes).2.read? name = some bytes
  early : ∀ {disk name bytes}, (save disk name bytes).1 = some .encoding → bufferSize < bytes.length

namespace Disk

/-- How it fails to save a file that cannot be written.  Only the full device is found to be so by
    writing to it. -/
def failure (name : String) (bytes : List UInt8) : SaveFailure :=
  if name = full ∧ bufferSize < bytes.length then .encoding else .access

theorem bufferSize_lt_of_failure {name : String} {bytes : List UInt8}
    (early : failure name bytes = .encoding) : bufferSize < bytes.length := by
  rw [failure] at early
  split at early
  · next both => exact both.2
  · cases early

/-- Saving a file by writing it; one that cannot be written is left as it is. -/
def saver : Saver where
  save disk name bytes :=
    match disk.write? name bytes with
    | some written => (none, written)
    | none => (some (failure name bytes), disk)
  saved {disk name bytes} done := by
    cases written : disk.write? name bytes with
    | none => simp [written] at done
    | some after => exact read?_write? written
  early {disk name bytes} failed := by
    cases written : disk.write? name bytes with
    | none => exact bufferSize_lt_of_failure (by simpa [written] using failed)
    | some after => simp [written] at failed

theorem save_saver {disk : Disk} {name : String} {bytes : List UInt8} :
    saver.save disk name bytes =
      (if (disk.write? name bytes).isSome then none else some (failure name bytes),
        (disk.write? name bytes).getD disk) := by
  show (match disk.write? name bytes with
    | some written => (none, written)
    | none => (some (failure name bytes), disk)) = _
  cases disk.write? name bytes <;> rfl

end Disk

end LiveTable
