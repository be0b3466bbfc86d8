import Mathlib

/-!
# Error numbers and the machine

The error numbers the modelled functions return (negated, as the kernel does), and the sizes
of the machine the image is written on: `PAGE_SIZE = 1 << PAGE_SHIFT`,
`sizeof(unsigned long)` and `sizeof(int)`. Results that the source states for every page size
and word size are proved for every `Arch`.
-/

namespace TuxOnIceFastboot

/-! ### `errno` values -/

def EIO : Int := 5
def ENOMEM : Int := 12
def EFAULT : Int := 14
def EBUSY : Int := 16
def EINVAL : Int := 22
def ENOSPC : Int := 28
def ENODATA : Int := 61

/-! ### The machine -/

/-- `PAGE_SHIFT`, `sizeof(unsigned long)` and `sizeof(int)` of the machine. -/
structure Arch where
  pageShift : Nat
  sizeofLong : Nat
  sizeofInt : Nat
  deriving DecidableEq, Repr

/-- `PAGE_SIZE`. -/
def Arch.pageSize (a : Arch) : Nat := 2 ^ a.pageShift

theorem Arch.pageSize_pos (a : Arch) : 0 < a.pageSize := Nat.two_pow_pos _

/-- The width of `long` and `unsigned long`, which is also that of `size_t`. -/
def Arch.longBits (a : Arch) : Nat := 8 * a.sizeofLong

/-- x86-64: 4 KiB pages, 8-byte `long`, 4-byte `int`. -/
def Arch.x86_64 : Arch := ⟨12, 8, 4⟩

/-- i386: 4 KiB pages, 4-byte `long`, 4-byte `int`. -/
def Arch.i386 : Arch := ⟨12, 4, 4⟩

end TuxOnIceFastboot
