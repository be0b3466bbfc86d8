import TuxOnIceFastboot.Base
import TuxOnIceFastboot.Lib.MachineInt

/-!
# Writing a sysfs entry (`toi_attr_store`, `tuxonice_sysfs.c`)

Every setting of TuxOnIce is a `struct toi_sysfs_data`: a type, the variable it names and, by
type, the bounds or the maximum length. `toi_attr_store` parses what is written and stores it: an
`int`, a `long` or an `unsigned long` clamped to `[minimum, maximum]` by `BOUND`, a bit, or a
string copied into the variable's array.

An entry here carries the value of its variable. A string variable is the memory from the start
of its array on (`Nat → UInt8`, offsets from the array's address), so that a write past the end
of the array is a write at an offset at least the array's size; `stringWrites` lists the writes
of a store in the order the code makes them. What `strict_strtol` and `strict_strtoul` make of the
buffer is a parameter: the value when they accept it, `none` when they return `-EINVAL`.

`long` and `unsigned long` entries store the clamped value (`toiAttrStore_long`); an `int` entry
narrows the parsed `long` to `int` first (`toiAttrStore_integer`). A string store writes its last
`0` at offset `count`, whatever `max_length` says, so that every string entry TuxOnIce registers
is written past its array by a write of as many bytes as the array has
(`attr_store_string_past_array`).
-/

namespace TuxOnIceFastboot.Sysfs

open TuxOnIceFastboot.Lib

/-- A `struct toi_sysfs_data` by its type, with the value of the variable it names:
`TOI_SYSFS_DATA_BIT` (the bit vector and the bit), `_INTEGER`, `_LONG` and `_UL` (the variable
`var`, `minimum` and `maximum`), `_STRING` (the memory from the array on, and `max_length`) and
`_CUSTOM` (what its `write_sysfs` returns). -/
inductive ToiSysfsData
  | bit (bitVector : Nat → Bool) (bit : Nat)
  | integer (var minimum maximum : Int)
  | aLong (var minimum maximum : Int)
  | ul (var minimum maximum : Nat)
  | string (var : Nat → UInt8) (maxLength : Nat)
  | custom (writeSysfs : Int)

/-- `BOUND(variable, type)`. -/
def bound {α : Type} [LT α] [DecidableLT α] (minimum maximum v : α) : α :=
  if v < minimum then minimum else if maximum < v then maximum else v

/-- The writes of `strncpy(variable, src, n)`: the string at the start of `src`, cut to `n`
bytes, then zeros up to `n`. -/
def strncpyWrites (src : List UInt8) (n : Nat) : List (Nat × UInt8) :=
  (List.range n).map fun i => (i, (src.takeWhile (· != 0)).getD i 0)

/-- Memory after a list of byte writes, in order. -/
def applyWrites (mem : Nat → UInt8) : List (Nat × UInt8) → Nat → UInt8
  | [] => mem
  | (i, b) :: ws => applyWrites (Function.update mem i b) ws

/-- The length `toi_attr_store` copies of a string write of `count` bytes: `count`, cut to
`max_length` when that is set. -/
def copyLen (maxLength count : Nat) : Nat :=
  if maxLength ≠ 0 ∧ count > maxLength then maxLength else count

/-- The writes of the `TOI_SYSFS_DATA_STRING` case for the bytes `buf` written (`count` is their
number, and `my_buf[count]` has been set to `0`): the `strncpy` of `copy_len` bytes, a `0` at
`count - 1` over a newline ending the copy, and a `0` at `count`. -/
def stringWrites (maxLength : Nat) (buf : List UInt8) : List (Nat × UInt8) :=
  let myBuf := buf ++ [0]
  let n := copyLen maxLength buf.length
  strncpyWrites myBuf n ++
    (if n ≠ 0 ∧ myBuf.getD (n - 1) 0 = 10 then [(buf.length - 1, 0)] else []) ++
    [(buf.length, 0)]

/-- `toi_attr_store(kobj, attr, buf, count)` on an entry: the value returned and the entry after
it. `busy` is whether `toi_start_anything` refuses (`-EBUSY`); `strtol` and `strtoul` are what
`strict_strtol` and `strict_strtoul` make of the buffer. A rejected write leaves `0` in a `long`
or `unsigned long` variable, which `strict_strtoul` clears before it parses. -/
def toiAttrStore (busy : Bool) (strtol : Option Int) (strtoul : Option Nat) (buf : List UInt8) :
    ToiSysfsData → Int × ToiSysfsData
  | e =>
    if busy then (-EBUSY, e)
    else
      match e with
      | .custom writeSysfs => (if writeSysfs = 0 then (buf.length : Int) else writeSysfs, e)
      | .bit bv b =>
        match strtoul with
        | none => (-EINVAL, e)
        | some value => ((buf.length : Int), .bit (Function.update bv b (value != 0)) b)
      | .integer _ mn mx =>
        match strtol with
        | none => (-EINVAL, e)
        -- `*(sysfs_data->data.integer.variable) = (int) temp;`
        | some temp => ((buf.length : Int), .integer (bound mn mx (toInt32 temp)) mn mx)
      | .aLong _ mn mx =>
        match strtol with
        | none => (-EINVAL, .aLong 0 mn mx)
        | some v => ((buf.length : Int), .aLong (bound mn mx v) mn mx)
      | .ul _ mn mx =>
        match strtoul with
        | none => (-EINVAL, .ul 0 mn mx)
        | some v => ((buf.length : Int), .ul (bound mn mx v) mn mx)
      | .string mem maxLength =>
        ((buf.length : Int), .string (applyWrites mem (stringWrites maxLength buf)) maxLength)

/-! ### The numbers -/

section Numbers

variable {strtoul : Option Nat} {buf : List UInt8}

/-- A `long` entry holds the accepted value clamped to its bounds. -/
theorem toiAttrStore_long (strtoul : Option Nat) {v mn mx x : Int} :
    toiAttrStore false (some v) strtoul buf (.aLong x mn mx) =
      ((buf.length : Int), .aLong (bound mn mx v) mn mx) := rfl

theorem toiAttrStore_ul (strtol : Option Int) {v mn mx x : Nat} :
    toiAttrStore false strtol (some v) buf (.ul x mn mx) =
      ((buf.length : Int), .ul (bound mn mx v) mn mx) := rfl

/-- An `int` entry holds the accepted `long` narrowed to `int`, then clamped. -/
theorem toiAttrStore_integer {temp mn mx x : Int} :
    toiAttrStore false (some temp) strtoul buf (.integer x mn mx) =
      ((buf.length : Int), .integer (bound mn mx (toInt32 temp)) mn mx) := rfl

-- `image_size_limit`, bounded to `[-2, INT_MAX]`, written with `4294967296`: it holds `0`
example : bound (-2 : Int) 2147483647 (toInt32 4294967296) = 0 := by decide

end Numbers

/-! ### The strings -/

section Strings

variable {maxLength : Nat} {buf : List UInt8}

theorem mem_strncpyWrites_fst {src : List UInt8} {n i : Nat} {b : UInt8}
    (h : (i, b) ∈ strncpyWrites src n) : i < n := by
  obtain ⟨j, hj, hij⟩ := List.mem_map.mp h
  cases hij
  exact List.mem_range.mp hj

theorem applyWrites_append_last (mem : Nat → UInt8) (ws : List (Nat × UInt8)) (i : Nat)
    (b : UInt8) : applyWrites mem (ws ++ [(i, b)]) i = b := by
  induction ws generalizing mem with
  | nil => simp [applyWrites]
  | cons w ws ih =>
    obtain ⟨j, c⟩ := w
    exact ih _

theorem applyWrites_of_not_mem (mem : Nat → UInt8) {ws : List (Nat × UInt8)} {i : Nat}
    (h : ∀ w ∈ ws, w.1 ≠ i) : applyWrites mem ws i = mem i := by
  induction ws generalizing mem with
  | nil => rfl
  | cons w ws ih =>
    obtain ⟨j, c⟩ := w
    have hj : j ≠ i := h _ List.mem_cons_self
    rw [applyWrites, ih _ fun w hw => h w (List.mem_cons_of_mem _ hw),
      Function.update_of_ne (Ne.symm hj)]

theorem stringWrites_last (maxLength : Nat) (buf : List UInt8) :
    ∃ ws, stringWrites maxLength buf = ws ++ [(buf.length, 0)] :=
  ⟨_, rfl⟩

theorem stringWrites_offsets {w : Nat × UInt8} (hw : w ∈ stringWrites maxLength buf) :
    w.1 < copyLen maxLength buf.length ∨ w.1 = buf.length - 1 ∨ w.1 = buf.length := by
  obtain ⟨i, b⟩ := w
  simp only [stringWrites, List.mem_append, List.mem_singleton] at hw
  rcases hw with (hw | hw) | hw
  · exact .inl (mem_strncpyWrites_fst hw)
  · split_ifs at hw
    · simp only [List.mem_singleton, Prod.mk.injEq] at hw
      exact .inr (.inl hw.1)
    · cases hw
  · cases hw
    exact .inr (.inr rfl)

theorem toiAttrStore_string (mem : Nat → UInt8) (strtol : Option Int) (strtoul : Option Nat) :
    toiAttrStore false strtol strtoul buf (.string mem maxLength) =
      ((buf.length : Int), .string (applyWrites mem (stringWrites maxLength buf)) maxLength) ∧
      applyWrites mem (stringWrites maxLength buf) buf.length = 0 ∧
      ∀ i, buf.length < i → applyWrites mem (stringWrites maxLength buf) i = mem i := by
  refine ⟨rfl, ?_, fun i hi => applyWrites_of_not_mem mem fun w hw => ?_⟩
  · obtain ⟨ws, hws⟩ := stringWrites_last maxLength buf
    rw [hws]
    exact applyWrites_append_last mem ws _ 0
  · have hcopy : copyLen maxLength buf.length ≤ buf.length := by
      unfold copyLen
      split_ifs <;> omega
    rcases stringWrites_offsets hw with h | h | h <;> omega

end Strings

/-! ### The string entries of TuxOnIce -/

/-- A `SYSFS_STRING` entry that can be written: its name, the size of the array it names and its
`max_length`. -/
structure StringEntry where
  name : String
  arraySize : Nat
  maxLength : Nat
  deriving DecidableEq, Repr

/-- The writable `SYSFS_STRING` entries TuxOnIce registers, with the sizes of their arrays on
x86 (`IFNAMSIZ` is `16`, `COMMAND_LINE_SIZE` `2048`). -/
def toiStringEntries : List StringEntry :=
  [⟨"interface", 16, 16⟩, ⟨"cluster_name", 32, 32⟩, ⟨"pre-hibernate-script", 255, 256⟩,
    ⟨"post-hibernate-script", 255, 256⟩, ⟨"algorithm", 32, 31⟩, ⟨"target", 256, 256⟩,
    ⟨"resume", 256, 255⟩, ⟨"alt_resume_param", 256, 255⟩,
    ⟨"resume_commandline", 2048, 2048⟩, ⟨"pre_hibernate_command", 256, 0⟩,
    ⟨"post_hibernate_command", 256, 0⟩, ⟨"lid_file", 256, 256⟩, ⟨"wake_alarm_dir", 256, 256⟩,
    ⟨"program", 256, 254⟩, ⟨"swapfilename", 32, 255⟩, ⟨"program", 256, 255⟩]

/-- Every writable string entry of TuxOnIce, written with at least as many bytes as its array
has, is written past the end of its array: the store succeeds and ends with a `0` at offset
`count`, leaving the memory after that as it was. On x86 every such array is shorter than a page,
so such writes are among those `toi_attr_store` takes. -/
theorem attr_store_string_past_array (e : StringEntry) (he : e ∈ toiStringEntries)
    (mem : Nat → UInt8) (strtol : Option Int) (strtoul : Option Nat) (buf : List UInt8)
    (hcount : e.arraySize ≤ buf.length) :
    e.arraySize < Arch.x86_64.pageSize ∧
      (∃ w ∈ stringWrites e.maxLength buf, e.arraySize ≤ w.1) ∧
      ∃ mem', toiAttrStore false strtol strtoul buf (.string mem e.maxLength) =
          ((buf.length : Int), .string mem' e.maxLength) ∧
        mem' buf.length = 0 ∧ ∀ i, buf.length < i → mem' i = mem i := by
  have hsmall : ∀ e ∈ toiStringEntries, e.arraySize < Arch.x86_64.pageSize := by decide
  obtain ⟨hstore, hzero, hafter⟩ := @toiAttrStore_string e.maxLength buf mem strtol strtoul
  obtain ⟨ws, hws⟩ := stringWrites_last e.maxLength buf
  refine ⟨hsmall e he, ⟨(buf.length, 0), ?_, hcount⟩, _, hstore, hzero, hafter⟩
  rw [hws]
  exact List.mem_append_right _ List.mem_cons_self

/-- Forty bytes written to `swapfilename`, a `char[32]` with `max_length` `255`: the store
writes at offsets up to `40`, past the array. -/
theorem swapfilename_forty_bytes :
    (⟨"swapfilename", 32, 255⟩ : StringEntry) ∈ toiStringEntries ∧
      32 ≤ (List.replicate 40 (97 : UInt8)).length ∧
      (32 < Arch.x86_64.pageSize ∧
        (∃ w ∈ stringWrites 255 (List.replicate 40 97), 32 ≤ w.1) ∧
        ∃ mem', toiAttrStore false none none (List.replicate 40 97) (.string (fun _ => 65) 255) =
            (((List.replicate 40 (97 : UInt8)).length : Int), .string mem' 255) ∧
          mem' (List.replicate 40 (97 : UInt8)).length = 0 ∧
          ∀ i, (List.replicate 40 (97 : UInt8)).length < i → mem' i = 65) :=
  ⟨by decide, by decide, attr_store_string_past_array ⟨"swapfilename", 32, 255⟩ (by decide)
    (fun _ => 65) none none (List.replicate 40 97) (by decide)⟩

end TuxOnIceFastboot.Sysfs
