import TuxOnIceFastboot.Lib.Heap
import TuxOnIceFastboot.Header.Configs
import TuxOnIceFastboot.Sysfs.Store

/-!
# Launching a userspace program (`toi_launch_userspace_program`, `tuxonice_highlevel.c`)

The pre- and post-hibernate commands (`channel_no` `0`, no debug) and the netlink helpers (their
netlink id as `channel_no`) are started by `toi_launch_userspace_program`. It splits the command
into at most six words with `sscanf(orig_posn, "%s", test_read)`, copies each into a block of
its own stored in a `static char *argv[8]`, adds `-c<channel_no>` and `--debug`, calls
`call_usermodehelper(argv[0], argv, envp, wait)`, and frees the first `arg` entries of `argv`
other than the channel string, then the channel string.

The command is the bytes from its address on (past the list, zeros). `readArgs` is the word
loop: after a word of `size` bytes it moves on by `size + 1` from where `sscanf` started, so the
`0` that ends the command is read as a separator and the loop goes on with what the array holds
after it (`readArgs_intercalate`): a word written to its sysfs entry without a newline over a
longer command is launched with the longer one's tail (`launch_reads_stale_command_tail`). White
space before a word makes the loop read the word's end again (`readArgs_leading_spaces`). A word
of 255 bytes or more overruns `char test_read[255]`, and a channel string of six bytes or more its
block of six: the model has no state after either (`launch_overruns_test_read`), and the results
about runs of calls assume neither happens (`LaunchCall.Fits`).

The state kept from call to call is `argv`, the heap of the blocks allocated (`Lib.Heap`), and
what each call handed `call_usermodehelper`. A call writes its pointers to the front of `argv` and
leaves the entries after them (`launchFrame_front`), appends its blocks to the heap and frees
some of them (`launch_heap`). Without a channel the loop's `arg--` keeps the last word from being
freed, and the `--debug` string is never freed (`launch_live`), so that what stays allocated after
any run of calls is one block per such call (`launch_run_leaks`). The program started is handed
the call's words and whatever `argv` still holds after them (`launch_started`): after a longer
command, the blocks of its words, freed (`launch_hands_freed_words`). Those are always blocks some
call allocated (`launch_run_valid`).
-/

namespace TuxOnIceFastboot.Highlevel

open TuxOnIceFastboot.Lib
open TuxOnIceFastboot.Header.Configs (strlen takeWhile_string)

/-! ### Reading the words of the command -/

/-- `isspace` of `lib/ctype.c`: `\t` to `\r`, the space and `0xa0`. -/
def isspace (c : UInt8) : Bool := (9 ≤ c && c ≤ 13) || c == 32 || c == 160

/-- `while (isspace(*str)) str++;` of the `%s` conversion of `vsscanf`. -/
def skipSpace : List UInt8 → List UInt8
  | [] => []
  | c :: str => if isspace c then skipSpace str else c :: str

/-- `while (*str && !isspace(*str) && field_width--) *s++ = *str++;`, with no field width. -/
def copyWord : List UInt8 → List UInt8
  | [] => []
  | c :: str => if c == 0 || isspace c then [] else c :: copyWord str

/-- `sscanf(str, "%s", test_read)` on the bytes from `str` on: what it writes into `test_read`,
`none` when `*str` is `0` and the loop of `vsscanf` ends before the conversion. -/
def sscanfString : List UInt8 → Option (List UInt8)
  | [] => none
  | c :: str => if c = 0 then none else some (copyWord (skipSpace (c :: str)))

/-- The words the `while (arg < 6)` loop copies, `n` being the rounds left and `origPosn` the
bytes from `orig_posn` on. `size`, the `strlen` of what was read, is its length, `%s` copying no
`0`. The loop moves `orig_posn` by `size + 1` from where `sscanf` started, not from where the word
ended. When `sscanf` writes nothing, `test_read` is empty: it was cleared after the previous word,
and the first `sscanf` always writes, the command not being empty. `none` when `sscanf` copies a
word of 255 bytes or more, which with its `0` overruns `char test_read[255]`. -/
def readArgs : Nat → List UInt8 → Option (List (List UInt8))
  | 0, _ => some []
  | n + 1, origPosn =>
    match sscanfString origPosn with
    | none => some []
    | some testRead =>
      if 255 ≤ testRead.length then none
      else if testRead.length = 0 then some []
      else (readArgs n (origPosn.drop (testRead.length + 1))).map (testRead :: ·)

/-! ### The call -/

/-- What `toi_launch_userspace_program` keeps from call to call: its `static char *argv[8]`
(`none` for `NULL`) and the blocks it allocated. `started` is, call by call, what
`call_usermodehelper` took from `argv`: the blocks before its first `NULL`, each with whether it
was freed, or `none` when `argv` held no `NULL` and the helper read on past the array. -/
structure LaunchState where
  argv : Vector (Option Nat) 8
  heap : List (Block (List UInt8))
  started : List (Option (List (Block (List UInt8))))

/-- Nothing launched yet: `argv` is all `NULL`. -/
def LaunchState.init : LaunchState := ⟨Vector.replicate 8 none, [], []⟩

/-- The locals of a call past its first checks: `argv` and the heap as the call changes them,
`arg` and `channel`. -/
structure LaunchFrame where
  argv : Vector (Option Nat) 8
  heap : List (Block (List UInt8))
  arg : Int
  channel : Option Nat

/-- `"-c%d"` of `channel_no`. -/
def channelArg (channelNo : Nat) : List UInt8 :=
  [45, 99] ++ (Nat.toDigits 10 channelNo).map fun c => c.toNat.toUInt8

/-- `"--debug"`. -/
def debugArg : List UInt8 := [45, 45, 100, 101, 98, 117, 103]

/-- Whether `"-c%d"` of `channel_no` and its `0` fit in the 6 bytes of the channel string's block:
at most three digits. -/
def channelFits (channelNo : Nat) : Bool := (channelArg channelNo).length < 6

/-- `channel = toi_kzalloc(4, 6, GFP_KERNEL)` when `channel_no` is set. The `sprintf` that fills
it after the loop is done here, nothing reading the block before; `toiLaunchUserspaceProgram`
stops where it would overrun the block. -/
def allocChannel (channelNo : Nat) (s : LaunchState) : LaunchFrame :=
  if channelNo ≠ 0 then
    ⟨s.argv, (alloc s.heap (channelArg channelNo)).2, 0, some (alloc s.heap (channelArg channelNo)).1⟩
  else ⟨s.argv, s.heap, 0, none⟩

/-- The body of the loop for each word read: `argv[arg] = toi_kzalloc(5, size + 1, ...)`,
`strcpy(argv[arg], test_read)` and `arg++`. -/
def storeArgs (f : LaunchFrame) : List (List UInt8) → LaunchFrame
  | [] => f
  | testRead :: ws =>
    storeArgs ⟨f.argv.setIfInBounds f.arg.toNat (some (alloc f.heap testRead).1),
      (alloc f.heap testRead).2, f.arg + 1, f.channel⟩ ws

/-- `if (channel_no) { sprintf(...); argv[arg] = channel; } else arg--;` -/
def addChannel (channelNo : Nat) (f : LaunchFrame) : LaunchFrame :=
  if channelNo ≠ 0 then { f with argv := f.argv.setIfInBounds f.arg.toNat f.channel }
  else { f with arg := f.arg - 1 }

/-- `if (debug) { argv[++arg] = toi_kzalloc(5, 8, ...); strcpy(argv[arg], "--debug"); }` -/
def addDebug (debug : Bool) (f : LaunchFrame) : LaunchFrame :=
  if debug then
    ⟨f.argv.setIfInBounds (f.arg + 1).toNat (some (alloc f.heap debugArg).1),
      (alloc f.heap debugArg).2, f.arg + 1, f.channel⟩
  else f

/-- The pointers `call_usermodehelper` reads from `argv`: those before its first `NULL`, `none`
when the array holds none. -/
def argvStrings : List (Option Nat) → Option (List Nat)
  | [] => none
  | none :: _ => some []
  | some p :: argv => (argvStrings argv).map (p :: ·)

/-- What `call_usermodehelper(argv[0], argv, envp, wait)` hands the program: the blocks of the
pointers it reads from `argv`. -/
def helperArgs (f : LaunchFrame) : Option (List (Block (List UInt8))) :=
  (argvStrings f.argv.toList).map fun ps => ps.filterMap (f.heap[·]?)

/-- `toi_kfree(fail_num, p)`: `kfree(NULL)` does nothing. -/
def toiKfree {α : Type} (heap : List (Block α)) : Option Nat → List (Block α)
  | none => heap
  | some p => free heap p

/-- `for (i = 0; i < arg; i++) if (argv[i] && argv[i] != channel) toi_kfree(5, argv[i]);`, over
the first `arg` entries of `argv`. -/
def freeArgs {α : Type} (channel : Option Nat) (heap : List (Block α)) :
    List (Option Nat) → List (Block α)
  | [] => heap
  | p :: argv => freeArgs channel (if p.isSome && p != channel then toiKfree heap p else heap) argv

/-- A call from the allocation of the channel string to `call_usermodehelper`, the loop having
read `words`: the locals the helper is called with. -/
def launchFrame (words : List (List UInt8)) (channelNo : Nat) (debug : Bool) (s : LaunchState) :
    LaunchFrame :=
  addDebug debug (addChannel channelNo (storeArgs (allocChannel channelNo s) words))

/-- A call from the allocation of the channel string on, the loop having read `words`: the state
after the helper returns and the frees. -/
def launchWith (words : List (List UInt8)) (channelNo : Nat) (debug : Bool) (s : LaunchState) :
    LaunchState :=
  let f := launchFrame words channelNo debug s
  let heap := freeArgs f.channel f.heap (f.argv.toList.take f.arg.toNat)
  ⟨f.argv, toiKfree heap f.channel, s.started ++ [helperArgs f]⟩

/-- `toi_launch_userspace_program(command, channel_no, wait, debug)`: the value returned and the
state after. `channelOk` is whether the `toi_kzalloc` of the channel string succeeds, and `umh`
what `call_usermodehelper` returns; the source does not check the allocations of the words and of
`--debug`, which are taken to succeed. `none` where a word overruns `test_read` or the channel
string its block: the kernel's behaviour is then undefined. -/
def toiLaunchUserspaceProgram (command : List UInt8) (channelNo : Nat) (debug channelOk : Bool)
    (umh : Int) (s : LaunchState) : Option (Int × LaunchState) :=
  if strlen command = 0 then some (1, s)
  else if channelNo ≠ 0 ∧ channelOk = false then some (1, s)
  else
    match readArgs 6 command with
    | none => none
    | some words =>
      if channelNo ≠ 0 ∧ channelFits channelNo = false then none
      else some (umh, launchWith words channelNo debug s)

/-! ### Words -/

/-- A word `%s` copies whole: not empty, with no `0` and no white space. -/
def IsWord (w : List UInt8) : Prop := w ≠ [] ∧ ∀ b ∈ w, b ≠ 0 ∧ isspace b = false

instance (w : List UInt8) : Decidable (IsWord w) := inferInstanceAs (Decidable (_ ∧ _))

/-- A byte that ends a word: a `0` or white space. -/
def IsSep (c : UInt8) : Prop := c = 0 ∨ isspace c = true

section Words

variable {w rest : List UInt8} {n : Nat}

theorem isspace_space : isspace 32 = true := by decide

@[simp] theorem skipSpace_nil : skipSpace [] = [] := rfl

@[simp] theorem copyWord_nil : copyWord [] = [] := rfl

@[simp] theorem readArgs_zero (str : List UInt8) : readArgs 0 str = some [] := rfl

/-- Nothing is read from an empty array: `sscanf` writes nothing. -/
@[simp] theorem readArgs_nil : readArgs n [] = some [] := by
  cases n <;> rfl

/-- Nothing is read from a `0`. -/
@[simp] theorem readArgs_cons_zero (str : List UInt8) : readArgs n (0 :: str) = some [] := by
  cases n <;> simp [readArgs, sscanfString]

theorem length_readArgs_le {str : List UInt8} {words : List (List UInt8)}
    (h : readArgs n str = some words) : words.length ≤ n := by
  induction n generalizing str words with
  | zero =>
    cases h
    exact le_rfl
  | succ n ih =>
    unfold readArgs at h
    split at h
    · cases h
      simp
    · -- the branch of an overrun is `none`
      split_ifs at h
      · cases h
        simp
      · obtain ⟨ws, hws, rfl⟩ := Option.map_eq_some_iff.mp h
        simpa using ih hws

theorem skipSpace_word (hw : IsWord w) (rest : List UInt8) : skipSpace (w ++ rest) = w ++ rest := by
  obtain ⟨b, w, rfl⟩ := List.exists_cons_of_ne_nil hw.1
  simp [skipSpace, (hw.2 b List.mem_cons_self).2]

theorem copyWord_word {c : UInt8} (hw : ∀ b ∈ w, b ≠ 0 ∧ isspace b = false) (hc : IsSep c) :
    copyWord (w ++ c :: rest) = w := by
  induction w with
  | nil =>
    rcases hc with rfl | hc
    · simp [copyWord]
    · simp [copyWord, hc]
  | cons b w ih =>
    have hb := hw b List.mem_cons_self
    simp [copyWord, hb.1, hb.2, ih fun x hx => hw x (List.mem_cons_of_mem b hx)]

theorem copyWord_self (hw : ∀ b ∈ w, b ≠ 0 ∧ isspace b = false) : copyWord w = w := by
  induction w with
  | nil => rfl
  | cons b w ih =>
    have hb := hw b List.mem_cons_self
    simp [copyWord, hb.1, hb.2, ih fun x hx => hw x (List.mem_cons_of_mem b hx)]

theorem copyWord_word_append (hw : ∀ b ∈ w, b ≠ 0 ∧ isspace b = false)
    (hsep : IsSep (rest.headD 0)) : copyWord (w ++ rest) = w := by
  cases rest with
  | nil => simpa using copyWord_self hw
  | cons c rest => exact copyWord_word hw hsep

theorem skipSpace_spaces (k : Nat) (str : List UInt8) :
    skipSpace (List.replicate k 32 ++ str) = skipSpace str := by
  induction k with
  | zero => rfl
  | succ k ih => simp [List.replicate_succ, skipSpace, isspace_space, ih]

theorem sscanfString_word (hw : IsWord w) (hsep : IsSep (rest.headD 0)) :
    sscanfString (w ++ rest) = some w := by
  obtain ⟨b, w', rfl⟩ := List.exists_cons_of_ne_nil hw.1
  have hb := hw.2 b List.mem_cons_self
  rw [List.cons_append, sscanfString, if_neg hb.1, ← List.cons_append, skipSpace_word hw rest,
    copyWord_word_append hw.2 hsep]

theorem sscanfString_spaces_word {k : Nat} (hw : IsWord w) (hsep : IsSep (rest.headD 0)) :
    sscanfString (List.replicate (k + 1) 32 ++ w ++ rest) = some w := by
  rw [List.replicate_succ, List.cons_append, List.cons_append, sscanfString, if_neg (by decide)]
  simp only [skipSpace, isspace_space, if_true]
  rw [List.append_assoc, skipSpace_spaces, skipSpace_word hw rest, copyWord_word_append hw.2 hsep]

theorem readArgs_succ_of_sscanf {str : List UInt8} (h : sscanfString str = some w)
    (hw : w ≠ []) (hlt : w.length < 255) :
    readArgs (n + 1) str = (readArgs n (str.drop (w.length + 1))).map (w :: ·) := by
  have hlen : w.length ≠ 0 := by simpa using hw
  rw [readArgs, h]
  simp only [Nat.not_le.mpr hlt, hlen, if_false]

theorem drop_word_append (w rest : List UInt8) : (w ++ rest).drop (w.length + 1) = rest.tail := by
  simp only [List.drop_append, List.drop_eq_nil_of_le (Nat.le_succ _), List.nil_append,
    Nat.add_sub_cancel_left, List.drop_one]

theorem readArgs_word (hw : IsWord w) (hsep : IsSep (rest.headD 0)) (hlt : w.length < 255) :
    readArgs (n + 1) (w ++ rest) = (readArgs n rest.tail).map (w :: ·) := by
  rw [readArgs_succ_of_sscanf (sscanfString_word hw hsep) hw.1 hlt, drop_word_append]

/-- White space before a word: `%s` skips it, but the loop moves on by the word's length plus one
from where `sscanf` started. With `k ≥ 2` spaces before the word, its last `k - 1` bytes are read
again, as a word of their own. -/
theorem readArgs_leading_spaces {k : Nat} (hw : IsWord w) (hsep : IsSep (rest.headD 0))
    (hlt : w.length < 255) (hk : 2 ≤ k) (hkw : k ≤ w.length + 1) :
    readArgs (n + 2) (List.replicate k 32 ++ w ++ rest) =
      (readArgs n rest.tail).map (w :: w.drop (w.length + 1 - k) :: ·) := by
  obtain ⟨j, rfl⟩ : ∃ j, k = j + 1 := ⟨k - 1, by omega⟩
  -- where the second round starts: inside `w`, `j` bytes before its end
  have hdrop : (List.replicate (j + 1) 32 ++ w ++ rest).drop (w.length + 1) =
      w.drop (w.length - j) ++ rest := by
    rw [List.append_assoc, List.drop_append, List.length_replicate,
      List.drop_eq_nil_of_le (by simp; omega), List.nil_append,
      show w.length + 1 - (j + 1) = w.length - j by omega, List.drop_append_of_le_length (by omega)]
  have hsuffix : IsWord (w.drop (w.length - j)) :=
    ⟨by simp; omega, fun b hb => hw.2 b (List.mem_of_mem_drop hb)⟩
  have hlt' : (w.drop (w.length - j)).length < 255 := by
    simp only [List.length_drop]
    omega
  rw [readArgs_succ_of_sscanf (sscanfString_spaces_word hw hsep) hw.1 hlt, hdrop,
    readArgs_word hsuffix hsep hlt', Option.map_map, show w.length + 1 - (j + 1) = w.length - j by omega]
  rfl

/-- `"  ab"`: the loop reads `ab`, then `b` again. -/
theorem readArgs_leading_spaces_ab :
    IsWord [97, 98] ∧ ([97, 98] : List UInt8).length < 255 ∧
      readArgs 2 (List.replicate 2 32 ++ [97, 98] ++ []) = some [[97, 98], [98]] :=
  ⟨by decide +kernel, by decide,
    readArgs_leading_spaces (by decide +kernel) (.inl rfl) (by decide) le_rfl (by decide)⟩

/-- Words joined by single spaces are read one by one, and the loop goes on past the separator
that ends the last of them, `0` or not. -/
theorem readArgs_intercalate {ws : List (List UInt8)} (hne : ws ≠ []) (hws : ∀ w ∈ ws, IsWord w)
    (hlt : ∀ w ∈ ws, w.length < 255) (hsep : IsSep (rest.headD 0)) :
    readArgs (ws.length + n) (List.intercalate [32] ws ++ rest) =
      (readArgs n rest.tail).map (ws ++ ·) := by
  induction ws with
  | nil => exact absurd rfl hne
  | cons w ws ih =>
    have hw := hws w List.mem_cons_self
    have hwlt := hlt w List.mem_cons_self
    cases ws with
    | nil => simpa [Nat.add_comm] using readArgs_word (n := n) hw hsep hwlt
    | cons w' ws =>
      -- the space after `w` is a separator; the rest is the same statement for `w' :: ws`
      have hspace : IsSep (([32] ++ (List.intercalate [32] (w' :: ws) ++ rest)).headD 0) :=
        .inr isspace_space
      have ih' := ih (List.cons_ne_nil w' ws) (fun x hx => hws x (List.mem_cons_of_mem w hx))
        fun x hx => hlt x (List.mem_cons_of_mem w hx)
      rw [List.intercalate_cons_cons, List.length_cons, Nat.add_right_comm, List.append_assoc,
        List.append_assoc, readArgs_word hw hspace hwlt, List.singleton_append, List.tail_cons, ih',
        Option.map_map]
      rfl

/-- `"a b"`, its `0`, then `c` left in the array: the loop reads `c` as a third word. -/
theorem readArgs_intercalate_past_zero :
    readArgs 3 (List.intercalate [32] [[97], [98]] ++ [0, 99]) = some [[97], [98], [99]] := by
  rw [show (3 : Nat) = ([[97], [98]] : List (List UInt8)).length + 1 from rfl,
    readArgs_intercalate (by decide) (by decide +kernel) (by decide) (.inl rfl)]
  decide +kernel

end Words

/-! ### A call in closed form -/

/-- The strings a call adds after its words: `-c<channel_no>` when it has a channel, and
`--debug`. -/
def chanArgs (channelNo : Nat) : List (List UInt8) :=
  if channelNo ≠ 0 then [channelArg channelNo] else []

def debugArgs (debug : Bool) : List (List UInt8) := if debug then [debugArg] else []

/-- The pointers a call writes to the front of `argv`, `b` being the address of its first block
and `n` its number of words: the words (on the heap after the channel string), the channel
string, `--debug`. -/
def launchPointers (b n channelNo : Nat) (debug : Bool) : List Nat :=
  List.range' (b + (chanArgs channelNo).length) n ++ (if channelNo ≠ 0 then [b] else []) ++
    (if debug then [b + (chanArgs channelNo).length + n] else [])

/-- `argv` holds the pointers `ps` at its front, and after them what `a0` held there. -/
def Front (argv a0 : Vector (Option Nat) 8) (ps : List Nat) : Prop :=
  argv.toList = ps.map some ++ a0.toList.drop ps.length

section Frame

variable {argv a0 : Vector (Option Nat) 8} {ps : List Nat} {f : LaunchFrame}
  {words : List (List UInt8)} {channelNo : Nat} {debug : Bool} {s : LaunchState}

theorem set_length_front {α : Type} {pre l : List α} (h : pre.length < l.length) (x : α) :
    (pre ++ l.drop pre.length).set pre.length x = pre ++ x :: l.drop (pre.length + 1) := by
  rw [List.set_append_right _ _ (le_refl _), Nat.sub_self, List.drop_eq_getElem_cons h,
    List.set_cons_zero]

theorem front_nil (a0 : Vector (Option Nat) 8) : Front a0 a0 [] := by simp [Front]

theorem Front.set (h : Front argv a0 ps) (hps : ps.length < 8) (p : Nat) :
    Front (argv.setIfInBounds ps.length (some p)) a0 (ps ++ [p]) := by
  have hset := @set_length_front _ (ps.map some) a0.toList (by simpa using hps) (some p)
  rw [List.length_map] at hset
  unfold Front at h ⊢
  rw [Vector.toList_setIfInBounds, h, hset]
  simp

theorem length_launchPointers (b n : Nat) :
    (launchPointers b n channelNo debug).length =
      n + (chanArgs channelNo).length + (debugArgs debug).length := by
  by_cases hc : channelNo = 0 <;> cases debug <;> simp [launchPointers, chanArgs, debugArgs, hc]

@[simp] theorem storeArgs_heap (f : LaunchFrame) (ws : List (List UInt8)) :
    (storeArgs f ws).heap = f.heap ++ fresh ws := by
  induction ws generalizing f with
  | nil => simp [storeArgs]
  | cons w ws ih => simp [storeArgs, ih, alloc, fresh]

@[simp] theorem storeArgs_arg (f : LaunchFrame) (ws : List (List UInt8)) :
    (storeArgs f ws).arg = f.arg + ws.length := by
  induction ws generalizing f with
  | nil => simp [storeArgs]
  | cons w ws ih => simp [storeArgs, ih]; omega

@[simp] theorem storeArgs_channel (f : LaunchFrame) (ws : List (List UInt8)) :
    (storeArgs f ws).channel = f.channel := by
  induction ws generalizing f with
  | nil => rfl
  | cons w ws ih => simp [storeArgs, ih]

theorem storeArgs_front (ws : List (List UInt8)) (hf : Front f.argv a0 ps)
    (harg : f.arg = ps.length) (hlen : ps.length + ws.length ≤ 8) :
    Front (storeArgs f ws).argv a0 (ps ++ List.range' f.heap.length ws.length) := by
  induction ws generalizing f ps with
  | nil => simpa [storeArgs] using hf
  | cons w ws ih =>
    have hidx : f.arg.toNat = ps.length := by omega
    -- the word's pointer joins the front, and the loop goes on with one word fewer
    have hfront : Front (f.argv.setIfInBounds f.arg.toNat (some (alloc f.heap w).1)) a0
        (ps ++ [f.heap.length]) := by
      rw [hidx]
      exact hf.set (by simp at hlen; omega) _
    have hstep := ih (f := ⟨f.argv.setIfInBounds f.arg.toNat (some (alloc f.heap w).1),
        (alloc f.heap w).2, f.arg + 1, f.channel⟩) hfront (by simp [harg])
      (by simp at hlen ⊢; omega)
    simpa [storeArgs, alloc, List.range'_succ] using hstep

@[simp] theorem launchFrame_heap :
    (launchFrame words channelNo debug s).heap =
      s.heap ++ fresh (chanArgs channelNo ++ words ++ debugArgs debug) := by
  by_cases hc : channelNo = 0 <;> cases debug <;>
    simp [launchFrame, allocChannel, addChannel, addDebug, chanArgs, debugArgs, alloc, fresh, hc]

@[simp] theorem launchFrame_channel :
    (launchFrame words channelNo debug s).channel =
      if channelNo ≠ 0 then some s.heap.length else none := by
  by_cases hc : channelNo = 0 <;> cases debug <;>
    simp [launchFrame, allocChannel, addChannel, addDebug, alloc, hc]

theorem launchFrame_arg :
    (launchFrame words channelNo debug s).arg =
      ((launchPointers s.heap.length words.length channelNo debug).length : Int) - 1 := by
  rw [length_launchPointers]
  by_cases hc : channelNo = 0 <;> cases debug <;>
    simp [launchFrame, allocChannel, addChannel, addDebug, chanArgs, debugArgs, hc]

/-- The call writes its words, its channel string and `--debug` to the front of `argv`, and leaves
the entries after them. -/
theorem launchFrame_front (hn : words.length ≤ 6) :
    Front (launchFrame words channelNo debug s).argv s.argv
      (launchPointers s.heap.length words.length channelNo debug) := by
  set n := words.length with hn_def
  set g := storeArgs (allocChannel channelNo s) words with hg
  -- the words: `allocChannel` leaves `argv` and starts `arg` at `0`
  have hwords : Front g.argv s.argv
      (List.range' (s.heap.length + (chanArgs channelNo).length) n) := by
    have h0 : Front (allocChannel channelNo s).argv s.argv [] := by
      by_cases hc : channelNo = 0 <;> simp [allocChannel, hc, front_nil]
    have hheap : (allocChannel channelNo s).heap.length =
        s.heap.length + (chanArgs channelNo).length := by
      by_cases hc : channelNo = 0 <;> simp [allocChannel, chanArgs, alloc, hc]
    simpa [hheap] using storeArgs_front words h0
      (by by_cases hc : channelNo = 0 <;> simp [allocChannel, hc]) (by simp; omega)
  have hgarg : g.arg = n := by
    by_cases hc : channelNo = 0 <;> simp [hg, allocChannel, hc, hn_def]
  have hglen : g.heap.length = s.heap.length + (chanArgs channelNo).length + n := by
    simp [hg, allocChannel, chanArgs, alloc]
    by_cases hc : channelNo = 0 <;> simp [hc] <;> omega
  have hgch : g.channel = if channelNo ≠ 0 then some s.heap.length else none := by
    by_cases hc : channelNo = 0 <;> simp [hg, allocChannel, alloc, hc]
  have hlf : launchFrame words channelNo debug s = addDebug debug (addChannel channelNo g) := rfl
  rw [hlf]
  clear_value g
  -- the channel string, then `--debug`, each written after what is already at the front
  by_cases hc : channelNo = 0 <;> cases debug
  · simpa [launchPointers, addChannel, addDebug, hc] using hwords
  · have := hwords.set (by simp; omega) g.heap.length
    simpa [launchPointers, addChannel, addDebug, alloc, hc, hgarg, hglen,
      show ((n : Int) - 1 + 1).toNat = n by omega, chanArgs] using this
  · have := hwords.set (by simp; omega) s.heap.length
    simpa [launchPointers, addChannel, addDebug, hc, hgarg, hgch] using this
  · have h1 := hwords.set (by simp; omega) s.heap.length
    have h2 := h1.set (by simp; omega) g.heap.length
    simpa [launchPointers, addChannel, addDebug, alloc, hc, hgarg, hglen, hgch,
      show ((n : Int) + 1).toNat = n + 1 by omega, chanArgs] using h2

end Frame

/-! ### The call and what it leaves -/

/-- How many of its words a call frees: `arg` entries of `argv`, one fewer than the pointers the
call wrote, the channel string among them skipped; so all the words, but the last when there is
neither a channel nor `--debug`. -/
def launchFreed (n channelNo : Nat) (debug : Bool) : Nat :=
  if channelNo = 0 ∧ debug = false then n - 1 else n

/-- Every pointer in `argv` is to a block allocated before. -/
def LaunchState.Valid (s : LaunchState) : Prop :=
  ∀ q ∈ s.argv.toList, ∀ p ∈ q, p < s.heap.length

section Call

variable {command : List UInt8} {words : List (List UInt8)} {channelNo : Nat}
  {debug channelOk : Bool} {umh : Int} {s s' : LaunchState} {r : Int}

theorem freeArgs_append {α : Type} (channel : Option Nat) (heap : List (Block α))
    (l₁ l₂ : List (Option Nat)) :
    freeArgs channel heap (l₁ ++ l₂) = freeArgs channel (freeArgs channel heap l₁) l₂ := by
  induction l₁ generalizing heap with
  | nil => rfl
  | cons p l₁ ih => exact ih _

theorem freeArgs_map_some {α : Type} {channel : Option Nat} (heap : List (Block α))
    {ps : List Nat} (h : ∀ p ∈ ps, some p ≠ channel) :
    freeArgs channel heap (ps.map some) = freeAll heap ps := by
  induction ps generalizing heap with
  | nil => rfl
  | cons p ps ih =>
    have hp : (some p != channel) = true := by simpa using h p List.mem_cons_self
    simp only [List.map_cons, freeArgs, Option.isSome_some, hp, Bool.and_self, if_true,
      toiKfree, freeAll_cons]
    exact ih _ fun q hq => h q (List.mem_cons_of_mem p hq)

theorem freeArgs_channel {α : Type} (channel : Option Nat) (heap : List (Block α)) :
    freeArgs channel heap [channel] = heap := by
  simp [freeArgs]

theorem length_toiKfree {α : Type} (heap : List (Block α)) (p : Option Nat) :
    (toiKfree heap p).length = heap.length := by
  cases p <;> simp [toiKfree]

theorem lt_of_mem_launchPointers {b n p : Nat} (hp : p ∈ launchPointers b n channelNo debug) :
    p < b + (chanArgs channelNo).length + n + (debugArgs debug).length := by
  by_cases hc : channelNo = 0 <;> cases debug <;>
    simp [launchPointers, chanArgs, debugArgs, hc] at hp ⊢ <;> omega

theorem dropLast_range' (b n : Nat) : (List.range' b n).dropLast = List.range' b (n - 1) := by
  cases n with
  | zero => rfl
  | succ n => rw [List.range'_concat, List.dropLast_concat, Nat.add_sub_cancel]

theorem range'_succ_ne (b n : Nat) : ∀ p ∈ List.range' (b + 1) n, some p ≠ some b := by
  intro p hp
  simp only [List.mem_range'_1] at hp
  simp only [ne_eq, Option.some.injEq]
  omega

theorem take_launchFrame_arg (hn : words.length ≤ 6) :
    (launchFrame words channelNo debug s).argv.toList.take
        (launchFrame words channelNo debug s).arg.toNat =
      (launchPointers s.heap.length words.length channelNo debug).dropLast.map some := by
  rw [launchFrame_front hn, launchFrame_arg, List.dropLast_eq_take,
    List.take_append_of_le_length (by simp), List.map_take]
  congr 1
  omega

theorem launch_freeArgs (hn : words.length ≤ 6) :
    freeArgs (launchFrame words channelNo debug s).channel
        (launchFrame words channelNo debug s).heap
        ((launchFrame words channelNo debug s).argv.toList.take
          (launchFrame words channelNo debug s).arg.toNat) =
      freeAll (launchFrame words channelNo debug s).heap
        (List.range' (s.heap.length + (chanArgs channelNo).length)
          (launchFreed words.length channelNo debug)) := by
  rw [take_launchFrame_arg hn, launchFrame_channel]
  generalize (launchFrame words channelNo debug s).heap = heap
  generalize words.length = n
  -- the entries freed are the words but, without channel or `--debug`, the last; with a channel
  -- the string itself sits among them and is skipped
  by_cases hc : channelNo = 0 <;> cases debug
  · simp [launchPointers, launchFreed, hc, dropLast_range', freeArgs_map_some]
  · simp [launchPointers, launchFreed, hc, freeArgs_map_some]
  · have hne := range'_succ_ne s.heap.length n
    simpa [launchPointers, launchFreed, hc, chanArgs] using freeArgs_map_some heap hne
  · have hne := range'_succ_ne s.heap.length n
    simp only [launchPointers, hc, chanArgs, launchFreed, ne_eq, not_false_eq_true, if_true,
      List.length_singleton, List.append_assoc, List.singleton_append]
    rw [← List.singleton_append, ← List.append_assoc, List.dropLast_concat, List.map_append,
      freeArgs_append, freeArgs_map_some heap hne]
    exact freeArgs_channel _ _

/-- A check of a channel passes when its condition holds whenever there is a channel. -/
theorem not_channel_fail {b : Bool} (h : channelNo ≠ 0 → b = true) :
    ¬(channelNo ≠ 0 ∧ b = false) :=
  fun ⟨hc, hb⟩ => by simp [h hc] at hb

theorem toiLaunchUserspaceProgram_of_fail
    (h : strlen command = 0 ∨ (channelNo ≠ 0 ∧ channelOk = false)) :
    toiLaunchUserspaceProgram command channelNo debug channelOk umh s = some (1, s) := by
  by_cases hne : strlen command = 0
  · rw [toiLaunchUserspaceProgram, if_pos hne]
  · rw [toiLaunchUserspaceProgram, if_neg hne, if_pos (h.resolve_left hne)]

theorem launch_checks_of_not_fail
    (h : ¬(strlen command = 0 ∨ (channelNo ≠ 0 ∧ channelOk = false))) :
    strlen command ≠ 0 ∧ (channelNo ≠ 0 → channelOk = true) := by
  refine ⟨fun hne => h (.inl hne), fun hc => ?_⟩
  cases hok : channelOk
  · exact absurd (.inr ⟨hc, hok⟩) h
  · rfl

theorem toiLaunchUserspaceProgram_of_ok (hne : strlen command ≠ 0)
    (hok : channelNo ≠ 0 → channelOk = true) (hw : readArgs 6 command = some words)
    (hch : channelNo ≠ 0 → channelFits channelNo = true) :
    toiLaunchUserspaceProgram command channelNo debug channelOk umh s =
      some (umh, launchWith words channelNo debug s) := by
  simp only [toiLaunchUserspaceProgram, hne, not_channel_fail hok, hw, not_channel_fail hch,
    if_false]

theorem toiLaunchUserspaceProgram_cases
    (h : toiLaunchUserspaceProgram command channelNo debug channelOk umh s = some (r, s')) :
    ((strlen command = 0 ∨ (channelNo ≠ 0 ∧ channelOk = false)) ∧ s' = s) ∨
      (¬(strlen command = 0 ∨ (channelNo ≠ 0 ∧ channelOk = false)) ∧
        ∃ words, readArgs 6 command = some words ∧ words.length ≤ 6 ∧
          s' = launchWith words channelNo debug s) := by
  by_cases hfail : strlen command = 0 ∨ (channelNo ≠ 0 ∧ channelOk = false)
  · rw [toiLaunchUserspaceProgram_of_fail hfail] at h
    cases h
    exact .inl ⟨hfail, rfl⟩
  refine .inr ⟨hfail, ?_⟩
  obtain ⟨hne, hok⟩ := launch_checks_of_not_fail hfail
  simp only [toiLaunchUserspaceProgram, hne, not_channel_fail hok, if_false] at h
  -- an overrun is `none`, so the loop read its words and the channel string fit
  split at h
  · cases h
  · next words hw =>
    split_ifs at h
    cases h
    exact ⟨words, hw, length_readArgs_le hw, rfl⟩

theorem launchWith_eq (hn : words.length ≤ 6) :
    launchWith words channelNo debug s =
      ⟨(launchFrame words channelNo debug s).argv,
        toiKfree (freeAll (launchFrame words channelNo debug s).heap
            (List.range' (s.heap.length + (chanArgs channelNo).length)
              (launchFreed words.length channelNo debug)))
          (launchFrame words channelNo debug s).channel,
        s.started ++ [helperArgs (launchFrame words channelNo debug s)]⟩ := by
  simp only [launchWith, launch_freeArgs hn]

/-- The heap after a call: the blocks before it as they were, then its own: the channel string
freed, the first `launchFreed` words freed, the other words and `--debug` still allocated. -/
theorem launch_heap (hn : words.length ≤ 6) :
    (launchWith words channelNo debug s).heap =
      s.heap ++ freedBlocks (chanArgs channelNo) ++
        freedBlocks (words.take (launchFreed words.length channelNo debug)) ++
        fresh (words.drop (launchFreed words.length channelNo debug)) ++
        fresh (debugArgs debug) := by
  rw [launchWith_eq hn, launchFrame_heap, launchFrame_channel]
  have hm : launchFreed words.length channelNo debug ≤ words.length := by
    unfold launchFreed
    split <;> omega
  -- the words the loop frees sit after the old blocks and the channel string
  have hheap : s.heap ++ fresh (chanArgs channelNo ++ words ++ debugArgs debug) =
      (s.heap ++ fresh (chanArgs channelNo)) ++ (fresh words ++ fresh (debugArgs debug)) := by
    simp
  have hrange : List.range' (s.heap.length + (chanArgs channelNo).length)
        (launchFreed words.length channelNo debug) =
      (List.range (launchFreed words.length channelNo debug)).map
        ((s.heap ++ fresh (chanArgs channelNo)).length + ·) := by
    simp [List.range'_eq_map_range]
  rw [hheap, hrange, freeAll_append_right, freeAll_range _ _ hm]
  -- then `toi_kfree(4, channel)` frees the channel string, the first block of the call
  by_cases hc : channelNo = 0
  · simp [hc, chanArgs, toiKfree]
  · simp only [hc, chanArgs, ne_eq, not_false_eq_true, if_true, toiKfree]
    rw [List.append_assoc s.heap, ← Nat.add_zero s.heap.length, free_append_right]
    simp [fresh, freedBlocks]

theorem LaunchState.Valid.launchWith (hv : s.Valid) (hn : words.length ≤ 6) :
    (Highlevel.launchWith words channelNo debug s).Valid := by
  rw [launchWith_eq hn]
  intro q hq p hp
  have hf := @launchFrame_front words channelNo debug s hn
  unfold Front at hf
  rw [hf] at hq
  simp only [length_toiKfree, length_freeAll, launchFrame_heap, List.length_append, length_fresh]
  rcases List.mem_append.mp hq with hq | hq
  · obtain ⟨p', hp', rfl⟩ := List.mem_map.mp hq
    cases hp
    have hlt := lt_of_mem_launchPointers hp'
    omega
  · have hlt := hv q (List.mem_of_mem_drop hq) p hp
    omega

theorem drop_length_sub_one_eq {α : Type} (l : List α) :
    l.drop (l.length - 1) = l.getLast?.toList := by
  rcases List.eq_nil_or_concat l with rfl | ⟨L, b, rfl⟩ <;> simp

end Call

/-- What a call leaves allocated: nothing when it returns `1` before allocating; else the
`--debug` string, and without a channel or `--debug` its last word, which `arg--` keeps from the
loop that frees. -/
def launchLeftover (command : List UInt8) (channelNo : Nat) (debug channelOk : Bool) :
    List (List UInt8) :=
  if strlen command = 0 ∨ (channelNo ≠ 0 ∧ channelOk = false) then []
  else if debug then [debugArg]
  else if channelNo = 0 then ((readArgs 6 command).getD []).getLast?.toList
  else []

/-! ### What the helper is handed -/

section Helper

variable {words : List (List UInt8)} {s : LaunchState}

theorem argvStrings_map_some_append (ps : List Nat) (rest : List (Option Nat)) :
    argvStrings (ps.map some ++ rest) = (argvStrings rest).map (ps ++ ·) := by
  induction ps with
  | nil => simp
  | cons p ps ih => simp [argvStrings, ih, Option.map_map, Function.comp_def]

theorem argvStrings_map_some_append_none (ps : List Nat) (k : Nat) :
    argvStrings (ps.map some ++ List.replicate (k + 1) none) = some ps := by
  rw [argvStrings_map_some_append, List.replicate_succ]
  simp [argvStrings]

theorem mem_of_argvStrings {l : List (Option Nat)} {ps : List Nat} (h : argvStrings l = some ps) :
    ∀ p ∈ ps, some p ∈ l := by
  induction l generalizing ps with
  | nil => simp [argvStrings] at h
  | cons q l ih =>
    cases q with
    | none =>
      simp only [argvStrings, Option.some.injEq] at h
      simp [← h]
    | some q =>
      simp only [argvStrings, Option.map_eq_some_iff] at h
      obtain ⟨ps', hps', rfl⟩ := h
      intro p hp
      rcases List.mem_cons.mp hp with rfl | hp
      · exact List.mem_cons_self
      · exact List.mem_cons_of_mem _ (ih hps' p hp)

/-- The pre- and post-hibernate commands (no channel, no `--debug`): the program is handed the
call's words, then whatever `argv` still held after them, up to its first `NULL`. -/
theorem launch_started (hv : s.Valid) (hn : words.length ≤ 6) :
    (launchWith words 0 false s).started =
      s.started ++ [(argvStrings (s.argv.toList.drop words.length)).map fun tail =>
        fresh words ++ tail.filterMap (s.heap[·]?)] := by
  rw [launchWith_eq hn]
  have hfront : (launchFrame words 0 false s).argv.toList =
      (List.range' s.heap.length words.length).map some ++ s.argv.toList.drop words.length := by
    simpa [Front, launchPointers, chanArgs] using @launchFrame_front words 0 false s hn
  simp only [helperArgs, hfront, argvStrings_map_some_append, Option.map_map, launchFrame_heap]
  congr 2
  cases hD : argvStrings (s.argv.toList.drop words.length) with
  | none => rfl
  | some tail =>
    -- the new pointers read back the words; the old ones are below the new blocks
    have hwords := filterMap_getElem?_range' s.heap (fresh words) []
    have hold : tail.filterMap ((s.heap ++ fresh words)[·]?) = tail.filterMap (s.heap[·]?) := by
      refine List.filterMap_congr fun p hp => List.getElem?_append_left ?_
      have hmem := List.mem_of_mem_drop (mem_of_argvStrings hD p hp)
      exact hv _ hmem p rfl
    simp only [List.append_nil, length_fresh] at hwords
    simp [Function.comp_def, List.filterMap_append, chanArgs, debugArgs, hwords, hold]

theorem valid_init : LaunchState.init.Valid := by
  simp [LaunchState.Valid, LaunchState.init]

theorem launch_init_argv (hn : words.length ≤ 6) :
    (launchWith words 0 false LaunchState.init).argv.toList =
      (List.range' 0 words.length).map some ++ List.replicate (8 - words.length) none := by
  have hf := @launchFrame_front words 0 false LaunchState.init hn
  unfold Front at hf
  show (launchFrame words 0 false LaunchState.init).argv.toList = _
  rw [hf]
  simp only [launchPointers, chanArgs, LaunchState.init, Vector.toList_replicate,
    List.drop_replicate]
  simp

theorem launch_init_heap (hn : words.length ≤ 6) :
    (launchWith words 0 false LaunchState.init).heap =
      freedBlocks (words.take (words.length - 1)) ++ fresh (words.drop (words.length - 1)) := by
  rw [launch_heap hn]
  simp [LaunchState.init, chanArgs, debugArgs, launchFreed]

end Helper

/-- Two launches of the pre- and post-hibernate commands from boot: the program of the second is
handed its own words, then, from the position after them on, the first call's words, all but the
last of which the first call has freed. With fewer words than the first call, the second call's
program reads freed blocks. -/
theorem launch_hands_freed_words (c₁ c₂ : List UInt8) (ok₁ ok₂ : Bool) (umh₁ umh₂ : Int)
    {ws₁ ws₂ : List (List UInt8)} (h₁ : strlen c₁ ≠ 0) (h₂ : strlen c₂ ≠ 0)
    (hw₁ : readArgs 6 c₁ = some ws₁) (hw₂ : readArgs 6 c₂ = some ws₂) :
    ∃ s₁ s₂, toiLaunchUserspaceProgram c₁ 0 false ok₁ umh₁ LaunchState.init = some (umh₁, s₁) ∧
      toiLaunchUserspaceProgram c₂ 0 false ok₂ umh₂ s₁ = some (umh₂, s₂) ∧
      s₂.started = [some (fresh ws₁),
        some (fresh ws₂ ++ (freedBlocks (ws₁.take (ws₁.length - 1)) ++
          fresh (ws₁.drop (ws₁.length - 1))).drop ws₂.length)] := by
  have hn₁ := length_readArgs_le hw₁
  have hn₂ := length_readArgs_le hw₂
  set s₁ := launchWith ws₁ 0 false LaunchState.init with hs₁
  refine ⟨s₁, launchWith ws₂ 0 false s₁,
    toiLaunchUserspaceProgram_of_ok h₁ (fun h => absurd rfl h) hw₁ (fun h => absurd rfl h),
    toiLaunchUserspaceProgram_of_ok h₂ (fun h => absurd rfl h) hw₂ (fun h => absurd rfl h), ?_⟩
  have hargv : s₁.argv.toList =
      (List.range' 0 ws₁.length).map some ++ List.replicate (8 - ws₁.length) none :=
    launch_init_argv hn₁
  have hheap : s₁.heap =
      freedBlocks (ws₁.take (ws₁.length - 1)) ++ fresh (ws₁.drop (ws₁.length - 1)) :=
    launch_init_heap hn₁
  have hlen : s₁.heap.length = ws₁.length := by
    rw [hheap]
    simp
  -- every pointer the first call left in `argv` is to one of its blocks
  have hv : s₁.Valid := by
    intro q hq p hp
    rw [hargv] at hq
    rcases List.mem_append.mp hq with hq | hq
    · obtain ⟨p', hp', rfl⟩ := List.mem_map.mp hq
      simp only [Option.mem_def, Option.some.injEq] at hp
      rw [List.mem_range'_1] at hp'
      omega
    · rw [List.eq_of_mem_replicate hq] at hp
      cases hp
  -- the first call's program: its words, then the `NULL`s of a fresh `argv`
  have hstart₁ : s₁.started = [some (fresh ws₁)] := by
    rw [hs₁, launch_started valid_init hn₁]
    obtain ⟨k, hk⟩ : ∃ k, 8 - ws₁.length = k + 1 := ⟨7 - ws₁.length, by omega⟩
    rw [show LaunchState.init.argv.toList = List.replicate 8 none from Vector.toList_replicate,
      List.drop_replicate, hk, List.replicate_succ]
    simp [argvStrings, LaunchState.init]
  -- the second: after its own words, `argv` still holds the first call's from there on
  have hdrop : s₁.argv.toList.drop ws₂.length =
      (List.range' ws₂.length (ws₁.length - ws₂.length)).map some ++
        List.replicate (8 - ws₁.length - (ws₂.length - ws₁.length)) none := by
    rw [hargv, List.drop_append, ← List.map_drop, List.drop_range', List.drop_replicate]
    simp
  obtain ⟨k, hk⟩ : ∃ k, 8 - ws₁.length - (ws₂.length - ws₁.length) = k + 1 :=
    ⟨7 - ws₁.length - (ws₂.length - ws₁.length), by omega⟩
  -- those entries are the first call's blocks from the second call's length on
  have htail : (List.range' ws₂.length (ws₁.length - ws₂.length)).filterMap (s₁.heap[·]?) =
      s₁.heap.drop ws₂.length := by
    rw [← filterMap_getElem?_range'_drop, hlen]
  rw [launch_started hv hn₂, hstart₁, hdrop, hk, argvStrings_map_some_append_none]
  simp only [Option.map_some, htail, List.singleton_append]
  rw [hheap]

/-- `"a b c"` as the pre-hibernate command, then `"x"` as the post-hibernate one: `x` is started
with `b`, a freed block, and `c`, a block nothing frees, as its arguments. -/
theorem launch_hands_freed_words_post :
    ∃ s₁ s₂, toiLaunchUserspaceProgram [97, 32, 98, 32, 99] 0 false true 0 LaunchState.init =
        some (0, s₁) ∧ toiLaunchUserspaceProgram [120] 0 false true 0 s₁ = some (0, s₂) ∧
      s₂.started = [some [⟨[97], false⟩, ⟨[98], false⟩, ⟨[99], false⟩],
        some [⟨[120], false⟩, ⟨[98], true⟩, ⟨[99], false⟩]] := by
  obtain ⟨s₁, s₂, h₁, h₂, hs⟩ := @launch_hands_freed_words [97, 32, 98, 32, 99] [120] true true 0 0
    [[97], [98], [99]] [[120]] (by decide +kernel) (by decide +kernel) (by decide +kernel)
    (by decide +kernel)
  exact ⟨s₁, s₂, h₁, h₂, hs.trans (by decide +kernel)⟩

/-- A call of `toi_launch_userspace_program` with what the kernel answers it. -/
structure LaunchCall where
  command : List UInt8
  channelNo : Nat
  debug : Bool
  channelOk : Bool
  umh : Int

/-- The words a call reads fit in `test_read`, and its channel string in its block. -/
def LaunchCall.Fits (c : LaunchCall) : Prop :=
  (readArgs 6 c.command).isSome ∧ (c.channelNo ≠ 0 → channelFits c.channelNo = true)

instance (c : LaunchCall) : Decidable c.Fits := inferInstanceAs (Decidable (_ ∧ _))

/-- Calls one after another; `none` once one overruns a buffer. -/
def launchRun (calls : List LaunchCall) (s : LaunchState) : Option LaunchState :=
  calls.foldlM (fun s c =>
    (toiLaunchUserspaceProgram c.command c.channelNo c.debug c.channelOk c.umh s).map Prod.snd) s

section Leak

variable {command : List UInt8} {channelNo : Nat} {debug channelOk : Bool} {umh r : Int}
  {s s' : LaunchState}

theorem LaunchCall.Fits.returns {c : LaunchCall} (h : c.Fits) (s : LaunchState) :
    ∃ r s', toiLaunchUserspaceProgram c.command c.channelNo c.debug c.channelOk c.umh s =
      some (r, s') := by
  by_cases hfail : strlen c.command = 0 ∨ (c.channelNo ≠ 0 ∧ c.channelOk = false)
  · exact ⟨1, s, toiLaunchUserspaceProgram_of_fail hfail⟩
  obtain ⟨hne, hok⟩ := launch_checks_of_not_fail hfail
  obtain ⟨words, hw⟩ := Option.isSome_iff_exists.mp h.1
  exact ⟨_, _, toiLaunchUserspaceProgram_of_ok hne hok hw h.2⟩

theorem launchRun_cons {c : LaunchCall} {calls : List LaunchCall}
    (h : toiLaunchUserspaceProgram c.command c.channelNo c.debug c.channelOk c.umh s =
      some (r, s')) :
    launchRun (c :: calls) s = launchRun calls s' := by
  simp only [launchRun, List.foldlM_cons, h, Option.map_some]
  rfl

/-- One call adds to what is allocated exactly what it leaves. -/
theorem launch_live
    (h : toiLaunchUserspaceProgram command channelNo debug channelOk umh s = some (r, s')) :
    live s'.heap = live s.heap ++ launchLeftover command channelNo debug channelOk := by
  rcases toiLaunchUserspaceProgram_cases h with ⟨hfail, rfl⟩ | ⟨hfail, words, hw, hn, rfl⟩
  · rw [launchLeftover, if_pos hfail, List.append_nil]
  obtain ⟨hne, hok⟩ := launch_checks_of_not_fail hfail
  rw [launch_heap hn]
  simp only [live_append, live_freedBlocks, live_fresh, List.append_nil]
  by_cases hc : channelNo = 0 <;> cases debug <;>
    simp [launchLeftover, launchFreed, debugArgs, hne, hc, hok, hw, drop_length_sub_one_eq]

end Leak

/-- Any run of calls whose words fit in `test_read` and whose channel strings fit in their block
returns, and what is still allocated after it is what was before and, call by call, what each
call leaves: its `--debug` string, and without channel or `--debug` its last word. Each launch of
the pre- or post-hibernate command leaves one block that nothing frees. -/
theorem launch_run_leaks (calls : List LaunchCall) (s : LaunchState)
    (hfits : ∀ c ∈ calls, c.Fits) :
    ∃ s', launchRun calls s = some s' ∧
      live s'.heap = live s.heap ++ calls.flatMap fun c =>
        launchLeftover c.command c.channelNo c.debug c.channelOk := by
  induction calls generalizing s with
  | nil => exact ⟨s, rfl, by simp⟩
  | cons c calls ih =>
    obtain ⟨r, s₁, h₁⟩ := (hfits c List.mem_cons_self).returns s
    obtain ⟨s', hrun, hlive⟩ := ih s₁ fun c' hc' => hfits c' (List.mem_cons_of_mem _ hc')
    refine ⟨s', (launchRun_cons h₁).trans hrun, ?_⟩
    rw [hlive, launch_live h₁, List.flatMap_cons, List.append_assoc]

/-- The pre-hibernate command `"a b"` launched twice from boot: its last word `b` is left
allocated each time. -/
theorem launch_run_leaks_pre_hibernate :
    ∃ s', launchRun [⟨[97, 32, 98], 0, false, true, 0⟩, ⟨[97, 32, 98], 0, false, true, 0⟩]
      LaunchState.init = some s' ∧ live s'.heap = [[98], [98]] := by
  obtain ⟨s', hrun, hlive⟩ := launch_run_leaks
    [⟨[97, 32, 98], 0, false, true, 0⟩, ⟨[97, 32, 98], 0, false, true, 0⟩] LaunchState.init
    (by decide +kernel)
  exact ⟨s', hrun, hlive.trans (by decide +kernel)⟩

section Sysfs

open TuxOnIceFastboot.Sysfs

variable {w : List UInt8}

theorem applyWrites_append (mem : Nat → UInt8) (ws₁ ws₂ : List (Nat × UInt8)) :
    applyWrites mem (ws₁ ++ ws₂) = applyWrites (applyWrites mem ws₁) ws₂ := by
  induction ws₁ generalizing mem with
  | nil => rfl
  | cons w ws₁ ih =>
    obtain ⟨j, c⟩ := w
    exact ih _

theorem applyWrites_strncpyWrites (mem : Nat → UInt8) (src : List UInt8) {n i : Nat}
    (hi : i < n) : applyWrites mem (strncpyWrites src n) i = (src.takeWhile (· != 0)).getD i 0 := by
  induction n with
  | zero => omega
  | succ n ih =>
    rw [strncpyWrites, List.range_succ, List.map_append, List.map_singleton, applyWrites_append]
    rcases Nat.lt_succ_iff_lt_or_eq.mp hi with hi | rfl
    · rw [applyWrites_of_not_mem _ (by simp; omega)]
      exact ih hi
    · exact applyWrites_append_last _ [] _ _

/-- A word written without a newline to a string entry with `max_length` `0`, as
`pre_hibernate_command` and `post_hibernate_command` are: the array holds the word, its `0`, and
after them what it held before. -/
theorem map_range_store_word (mem : Nat → UInt8) (hw : IsWord w) {N : Nat} (hN : w.length < N) :
    (List.range N).map (applyWrites mem (stringWrites 0 w)) =
      w ++ 0 :: ((List.range N).map mem).drop (w.length + 1) := by
  have hnz : ∀ b ∈ w, b ≠ 0 := fun b hb => (hw.2 b hb).1
  -- a word ends in no newline, so the store is the `strncpy` and the `0` at `count`
  have hlast : ¬(w.length ≠ 0 ∧ (w ++ [0]).getD (w.length - 1) 0 = 10) := by
    rintro ⟨hne, h10⟩
    have hmem : (w ++ [0]).getD (w.length - 1) 0 ∈ w := by
      rw [List.getD_eq_getElem?_getD, List.getElem?_append_left (by omega),
        List.getElem?_eq_getElem (by omega), Option.getD_some]
      exact List.getElem_mem _
    have hspace := (hw.2 _ hmem).2
    rw [h10] at hspace
    exact absurd hspace (by decide)
  have hwrites : stringWrites 0 w = strncpyWrites (w ++ [0]) w.length ++ [(w.length, 0)] := by
    simp only [stringWrites]
    rw [show copyLen 0 w.length = w.length by simp [copyLen], if_neg hlast, List.append_nil]
  have hafter := (@toiAttrStore_string 0 w mem none none).2.2
  apply List.ext_getElem?
  intro i
  rw [List.getElem?_map]
  rcases Nat.lt_trichotomy i w.length with hi | rfl | hi
  · -- a byte of the word, written by the `strncpy`
    rw [List.getElem?_range (by omega), Option.map_some, List.getElem?_append_left hi, hwrites,
      applyWrites_append, applyWrites_of_not_mem _ (by simp; omega),
      applyWrites_strncpyWrites _ _ hi, takeWhile_string hnz, List.getD_eq_getElem?_getD,
      List.getElem?_eq_getElem hi, Option.getD_some]
  · -- the `0` at `count`
    rw [List.getElem?_range hN, Option.map_some, List.getElem?_append_right le_rfl, Nat.sub_self,
      List.getElem?_cons_zero, hwrites, applyWrites_append_last]
  · -- past it, the bytes the array held before
    obtain ⟨j, rfl⟩ : ∃ j, i = w.length + 1 + j := ⟨i - w.length - 1, by omega⟩
    rw [List.getElem?_append_right (by omega), show w.length + 1 + j - w.length = j + 1 by omega,
      List.getElem?_cons_succ, List.getElem?_drop, List.getElem?_map]
    by_cases hj : w.length + 1 + j < N
    · rw [List.getElem?_range hj, Option.map_some, Option.map_some, hafter _ (by omega)]
    · rw [List.getElem?_eq_none (by simpa using hj)]
      rfl

end Sysfs

/-- A single word written to `pre_hibernate_command` without a newline, over a longer command:
the loop reads the word, then goes on past its `0` into what is left of the old command. -/
theorem launch_reads_stale_command_tail (mem : Nat → UInt8) (strtol : Option Int)
    (strtoul : Option Nat) (hw : IsWord w) (hlt : w.length < 255) {N : Nat} (hN : w.length < N) :
    ∃ mem', Sysfs.toiAttrStore false strtol strtoul w (.string mem 0) =
        ((w.length : Int), .string mem' 0) ∧
      readArgs 6 ((List.range N).map mem') =
        (readArgs 5 (((List.range N).map mem).drop (w.length + 1))).map (w :: ·) := by
  refine ⟨_, (Sysfs.toiAttrStore_string mem strtol strtoul).1, ?_⟩
  rw [map_range_store_word mem hw hN, readArgs_word hw (.inl rfl) hlt]
  rfl

/-- `"ab cd"`, then `x` written over it: the array holds `x`, `0`, ` cd`, and `x` is launched
with `cd` as its argument. -/
theorem launch_reads_stale_command_tail_x :
    ∃ mem', Sysfs.toiAttrStore false none none [120]
        (.string (fun i => [97, 98, 32, 99, 100].getD i 0) 0) = (1, .string mem' 0) ∧
      readArgs 6 ((List.range 5).map mem') = some [[120], [99, 100]] := by
  obtain ⟨mem', hstore, hread⟩ := launch_reads_stale_command_tail
    (fun i => [97, 98, 32, 99, 100].getD i 0) none none (w := [120]) (by decide +kernel)
    (by decide) (N := 5) (by decide)
  exact ⟨mem', hstore, hread.trans (by decide +kernel)⟩

end TuxOnIceFastboot.Highlevel
