import Mathlib.Tactic.Ring
import Mathlib.Data.BitVec

/-!
# C scalars of the driver

The error numbers the driver returns or stores, and the two conversions of a C `int` that
`ioc_giveback_common` performs on the worker's `buffer_actual`: to `u32` when it is compared
with or stored into `transfer_buffer_length` and `actual_length`, and to `unsigned long` when it
is passed to `copy_from_user`. An `int` is carried as `CInt`, an integer that carries its range,
so no value outside the C type can reach these conversions.
-/

namespace VhciHcd

/-! Error numbers of the kernel (`asm-generic/errno-base.h`, `asm-generic/errno.h`). -/

def ENOENT : Int := 2
def EINTR : Int := 4
def ENOMEM : Int := 12
def EFAULT : Int := 14
def EBUSY : Int := 16
def ENODEV : Int := 19
def EINVAL : Int := 22
def ENOTTY : Int := 25
def EPIPE : Int := 32
def EIDRM : Int := 43
def ENODATA : Int := 61
def EPROTO : Int := 71
def ENOBUFS : Int := 105
def ESHUTDOWN : Int := 108
def ETIMEDOUT : Int := 110
def EINPROGRESS : Int := 115
def ECANCELED : Int := 125
def ERESTARTSYS : Int := 512

/-- A value of C's 32-bit `int`. -/
structure CInt where
  val : Int
  range : -2 ^ 31 ≤ val ∧ val < 2 ^ 31
deriving DecidableEq

/-- The `int` to `u32` conversion of C (reduction modulo `2^32`). -/
def CInt.toU32 (x : CInt) : Nat := (x.val % 2 ^ 32).toNat

/-- The `int` to `unsigned long` conversion of a 64-bit kernel (sign extension). -/
def CInt.toULong (x : CInt) : Nat := (x.val % 2 ^ 64).toNat

/-- The `u32` to `int` conversion of C. -/
def intOfU32 (n : Nat) : Int := if n < 2 ^ 31 then n else n - 2 ^ 32

/-- `INT_MAX`, the bound the usb core puts on `transfer_buffer_length` at submission. -/
def INT_MAX : Nat := 2 ^ 31 - 1

/-- An `int` whose `u32` image is at most `INT_MAX` is non-negative, and then all three
readings of it agree. -/
theorem CInt.nonneg_of_toU32_le (x : CInt) (h : x.toU32 ≤ INT_MAX) :
    0 ≤ x.val ∧ x.toULong = x.toU32 ∧ (x.toU32 : Int) = x.val := by
  have := x.range
  simp only [toU32, toULong, INT_MAX] at *
  omega

theorem intOfU32_of_le (n : Nat) (h : n ≤ INT_MAX) : intOfU32 n = n := by
  simp only [intOfU32, INT_MAX] at *
  split_ifs <;> omega

end VhciHcd
