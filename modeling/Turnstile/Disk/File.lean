import Turnstile.Region

/-!
# Files

A file is as long as it says, and its bytes are kept as the region that they spell: a region that is
mapped from a file and the bytes of that file are one thing, so that a write to either is seen in
the other. Bytes past the length are zero, and bytes past the length of a region are not kept, since
nothing can be done with a file that long but to refuse it.
-/

set_option autoImplicit false
set_option relaxedAutoImplicit false

namespace Turnstile

/-- A file. -/
structure File where
  length : Nat
  image : Region

namespace File

def empty : File := ⟨0, .zero⟩

/-- The file with bytes written from `offset` on. It grows if they reach past its end. -/
def write (f : File) (offset : Nat) (bytes : List UInt8) : File :=
  if bytes.isEmpty then f
  else ⟨max f.length (offset + bytes.length), f.image.write offset bytes⟩

/-- The file of a byte string. -/
def ofBytes (bytes : List UInt8) : File := empty.write 0 bytes

/-- The file with another length. What it gains is zero. -/
def resize (f : File) (length : Nat) : File :=
  ⟨length, if length < f.length then f.image.clearFrom length else f.image⟩

/-- The file of a region. -/
def ofRegion (r : Region) : File := ⟨Limits.regionLength, r⟩

def bytes (f : File) : List UInt8 := f.image.bytesAt 0 f.length

/-- The bytes from `offset` on, up to the first zero byte and the three bytes after it. They are
read page by page, and the number of pages bounds the rounds. -/
def leadingFrom (f : File) : Nat → Nat → List UInt8
  | 0, _ => []
  | rounds + 1, offset =>
    match (f.image.bytesAt offset (min 4096 (f.length - offset))).span (· ≠ 0) with
    | ([], []) => []
    | (page, []) => page ++ leadingFrom f rounds (offset + page.length)
    | (page, _ :: _) =>
      let stop := offset + page.length
      page ++ f.image.bytesAt stop (min 4 (f.length - stop))

/-- The bytes up to the first zero byte and the three bytes after it: a reader of a document stops
there, since no part of a document with a zero byte in it is longer than that. -/
def leading (f : File) : List UInt8 := f.leadingFrom (f.length / 4096 + 2) 0

/-- The region in a file, if the file is one. -/
def region (f : File) : Except Error Region := do
  if f.length ≠ Limits.regionLength then throw (.wrongSize f.length)
  f.image.checkLayout
  return f.image

end File

end Turnstile
