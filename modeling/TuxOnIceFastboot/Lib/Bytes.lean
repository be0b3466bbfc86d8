import Mathlib

/-!
# Bytes in memory

Two things a byte buffer of C code does. `memcpy` of `src` into a buffer at `pos` is
`writeAt`, and `memcpy` of `len` bytes out of it from `pos` is `readAt`. An integer variable
of `w` bytes, seen through a `char *`, is `leBytes w n`, its bytes least significant first,
and `leValue` is the integer a run of bytes holds; it gives back any value that fits
(`leValue_leBytes_of_lt`). Which end of an integer comes first does not matter to a program
that stores bytes and reads them back on the same machine: both directions use the one
representation. A copy reads back (`readAt_writeAt_self`) and leaves the bytes it does not cover
(`readAt_writeAt_of_disjoint`); two copies commute when they do not overlap (`writeAt_comm`), and
the later hides the earlier when it covers it (`writeAt_writeAt_of_cover`). `writeAtVec` is
`writeAt` on a buffer of fixed size (a `List.Vector`), for a copy that stays inside it.
-/

namespace TuxOnIceFastboot.Lib

/-- The `w` bytes of an integer variable holding `n` modulo `2^(8w)`, least significant first. -/
def leBytes : Nat → Nat → List UInt8
  | 0, _ => []
  | w + 1, n => UInt8.ofNat n :: leBytes w (n / 256)

/-- The value of the integer variable whose bytes, least significant first, are these. -/
def leValue : List UInt8 → Nat
  | [] => 0
  | b :: bs => b.toNat + 256 * leValue bs

@[simp] theorem length_leBytes (w n : Nat) : (leBytes w n).length = w := by
  induction w generalizing n <;> simp [leBytes, *]

theorem leValue_leBytes (w n : Nat) : leValue (leBytes w n) = n % 2 ^ (8 * w) := by
  induction w generalizing n with
  | zero => simp [leBytes, leValue, Nat.mod_one]
  | succ w ih =>
    simp only [leBytes, leValue, ih, UInt8.toNat_ofNat']
    -- the low byte, then the other `w` bytes of `n / 256`
    rw [show 8 * (w + 1) = 8 + 8 * w by omega, Nat.pow_add, Nat.mod_mul]

theorem leValue_leBytes_of_lt {w n : Nat} (h : n < 2 ^ (8 * w)) : leValue (leBytes w n) = n := by
  rw [leValue_leBytes, Nat.mod_eq_of_lt h]

/-- `memcpy(buf + pos, src, src.length)`: `src` over the bytes of `buf` from `pos` on. -/
def writeAt {α : Type} (buf : List α) (pos : Nat) (src : List α) : List α :=
  buf.take pos ++ src ++ buf.drop (pos + src.length)

/-- The `len` bytes of `buf` from `pos` on, which `memcpy(dst, buf + pos, len)` copies out. -/
def readAt {α : Type} (buf : List α) (pos len : Nat) : List α :=
  (buf.drop pos).take len

section Copy

variable {α : Type} {buf src : List α} {pos : Nat}

theorem length_writeAt (h : pos + src.length ≤ buf.length) :
    (writeAt buf pos src).length = buf.length := by
  simp only [writeAt, List.length_append, List.length_take, List.length_drop]
  omega

theorem take_writeAt (h : pos ≤ buf.length) :
    (writeAt buf pos src).take (pos + src.length) = buf.take pos ++ src := by
  have hlen : (buf.take pos ++ src).length = pos + src.length := by
    simp only [List.length_append, List.length_take]
    omega
  rw [writeAt, List.append_assoc, ← List.append_assoc, ← hlen, List.take_left]

theorem writeAt_of_length_eq (h : pos + src.length = buf.length) :
    writeAt buf pos src = buf.take pos ++ src := by
  rw [writeAt, h, List.drop_length, List.append_nil]

theorem writeAt_zero_of_length_eq (h : src.length = buf.length) : writeAt buf 0 src = src := by
  rw [writeAt_of_length_eq (by omega), List.take_zero, List.nil_append]

theorem writeAt_zero : writeAt buf 0 src = src ++ buf.drop src.length := by
  rw [writeAt, List.take_zero, List.nil_append, Nat.zero_add]

theorem length_writeAt_eq :
    (writeAt buf pos src).length = min pos buf.length + src.length + (buf.length - (pos + src.length)) := by
  simp only [writeAt, List.length_append, List.length_take, List.length_drop]

theorem getElem?_writeAt (h : pos + src.length ≤ buf.length) (i : Nat) :
    (writeAt buf pos src)[i]? = if pos ≤ i ∧ i < pos + src.length then src[i - pos]? else buf[i]? := by
  unfold writeAt
  rw [List.append_assoc]
  have htake : (buf.take pos).length = pos := by
    rw [List.length_take]
    omega
  by_cases hi : i < pos
  · rw [List.getElem?_append_left (by omega), List.getElem?_take, if_pos hi, if_neg (by omega)]
  · rw [List.getElem?_append_right (by omega), htake]
    by_cases hj : i - pos < src.length
    · rw [List.getElem?_append_left hj, if_pos (by omega)]
    · -- past the copy: the bytes of `buf` after it, at the same places
      rw [List.getElem?_append_right (by omega), List.getElem?_drop, if_neg (by omega)]
      congr 1
      omega

theorem getElem?_readAt (i : Nat) : (readAt buf pos len)[i]? = if i < len then buf[pos + i]? else none := by
  rw [readAt, List.getElem?_take, List.getElem?_drop]

/-- A read of bytes a copy does not touch gives the old bytes. -/
theorem readAt_writeAt_of_disjoint {q len : Nat} (h : pos + src.length ≤ buf.length)
    (hd : q + len ≤ pos ∨ pos + src.length ≤ q) :
    readAt (writeAt buf pos src) q len = readAt buf q len := by
  refine List.ext_getElem? fun i => ?_
  rw [getElem?_readAt, getElem?_readAt, getElem?_writeAt h]
  by_cases hi : i < len
  · rw [if_pos hi, if_pos hi, if_neg (by omega)]
  · rw [if_neg hi, if_neg hi]

theorem readAt_writeAt_start {len : Nat} (h : pos + src.length ≤ buf.length)
    (hlen : src.length ≤ len) :
    readAt (writeAt buf pos src) pos len = src ++ readAt buf (pos + src.length) (len - src.length) := by
  refine List.ext_getElem? fun i => ?_
  rw [getElem?_readAt, getElem?_writeAt h]
  by_cases hi : i < src.length
  · rw [if_pos (by omega), if_pos (by omega), List.getElem?_append_left hi, Nat.add_sub_cancel_left]
  · rw [List.getElem?_append_right (by omega), getElem?_readAt]
    by_cases hil : i < len
    · rw [if_pos hil, if_neg (by omega), if_pos (by omega)]
      congr 1
      omega
    · rw [if_neg hil, if_neg (by omega)]

/-- The bytes a copy wrote read back. -/
theorem readAt_writeAt_self (h : pos + src.length ≤ buf.length) :
    readAt (writeAt buf pos src) pos src.length = src := by
  rw [readAt_writeAt_start h (Nat.le_refl _), Nat.sub_self]
  simp [readAt]

theorem readAt_writeAt_of_length {len : Nat} (h : pos + src.length ≤ buf.length)
    (hlen : src.length = len) : readAt (writeAt buf pos src) pos len = src := by
  subst hlen
  exact readAt_writeAt_self h

theorem writeAt_readAt_self {len : Nat} (h : pos + len ≤ buf.length) :
    writeAt buf pos (readAt buf pos len) = buf := by
  have hlen : (readAt buf pos len).length = len := by
    simp only [readAt, List.length_take, List.length_drop]
    omega
  refine List.ext_getElem? fun i => ?_
  rw [getElem?_writeAt (by omega), hlen, getElem?_readAt]
  split_ifs with hi hi'
  · congr 1
    omega
  · omega
  · rfl

/-- A copy over the whole of an earlier one hides it. -/
theorem writeAt_writeAt_of_cover {dst : List α} {q : Nat} (h : pos + src.length ≤ buf.length)
    (hq : q ≤ pos) (hcover : pos + src.length ≤ q + dst.length) (hdst : q + dst.length ≤ buf.length) :
    writeAt (writeAt buf pos src) q dst = writeAt buf q dst := by
  have hlen := length_writeAt h
  refine List.ext_getElem? fun i => ?_
  rw [getElem?_writeAt (by omega), getElem?_writeAt hdst, getElem?_writeAt h]
  split_ifs <;> first | rfl | omega

/-- Copies to places that do not overlap can be made in either order. -/
theorem writeAt_comm {dst : List α} {q : Nat} (hpq : pos + src.length ≤ q)
    (hdst : q + dst.length ≤ buf.length) :
    writeAt (writeAt buf pos src) q dst = writeAt (writeAt buf q dst) pos src := by
  have h₁ := @length_writeAt α buf src pos (by omega)
  have h₂ := @length_writeAt α buf dst q hdst
  refine List.ext_getElem? fun i => ?_
  rw [getElem?_writeAt (by omega), getElem?_writeAt (by omega), getElem?_writeAt (by omega),
    getElem?_writeAt hdst]
  split_ifs <;> first | rfl | omega

/-- `writeAt` on a buffer of fixed size, for a copy that stays inside it. -/
def writeAtVec {n : Nat} (v : List.Vector α n) (pos : Nat) (src : List α)
    (h : pos + src.length ≤ n) : List.Vector α n :=
  ⟨writeAt v.toList pos src, by rw [length_writeAt (by simpa using h), List.Vector.toList_length]⟩

@[simp] theorem toList_writeAtVec {n : Nat} (v : List.Vector α n) (h : pos + src.length ≤ n) :
    (writeAtVec v pos src h).toList = writeAt v.toList pos src := rfl

end Copy

end TuxOnIceFastboot.Lib
