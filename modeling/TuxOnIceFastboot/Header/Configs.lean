import TuxOnIceFastboot.Header.Reserve

/-!
# Module configurations in the header (`write_module_configs`, `read_module_configs`)

`write_module_configs` (`tuxonice_io.c`) saves, for each module that is enabled, has a
`storage_needed` hook and is not an allocator other than the active one, a
`struct toi_module_header` (name, enabled, type, index), the length `save_config_info` returns
(`0` without that hook) and that many bytes of the zeroed page the hook wrote into; a header with
an empty name ends the list. At resume `read_module_configs` disables every module, then for each
header finds the module of that name, reads the length and the data, calls `load_config_info`
and sets the module's `enabled` from the header.

The header is the list of what each `rw_header_chunk` call passes here (`ConfigChunk`), so that a
read takes back what the matching write gave; how the chunks lie in the header's bytes is the
block I/O's business. Hooks are given by what they do: `save_config_info` by the bytes it leaves
at the start of its buffer and the length it returns, `load_config_info` by whether it exists. The
reordering of the module lists by `toi_move_module_tail` is left out: nothing here depends on
the order of the reading kernel's list, only on its names.

Reading back what was written is a fold over the saved modules (`readModuleConfigs_write`),
each of which `loadSaved` describes. Two of its cases differ from a faithful restore:
`read_one_module_config` returns before setting `enabled` when the length is `0`, so a module
saved with no data (the swap allocator has no `save_config_info`) stays disabled; and it tests
`save_config_info` before calling `load_config_info`, so a module with only the first would be
called through `NULL`. The cluster module saves `strlen(toi_cluster_iface + 1)` bytes, one short
of the name, so its interface comes back with its last letter taken from the resuming kernel's
(`toiClusterLoadConfigInfo_saved`).
-/

namespace TuxOnIceFastboot.Header.Configs

open TuxOnIceFastboot.Lib TuxOnIceFastboot.Header

/-- The fields and hooks of a `struct toi_module_ops` that saving and reloading configurations
use: `saveConfigInfo` is the hook by what it does, the bytes it leaves at the start of the zeroed
page it is given and the length it returns; `loadConfigInfo` is whether there is such a hook. -/
structure ConfigOps where
  name : String
  moduleType : ModuleType
  enabled : Bool
  storageNeeded : Bool
  saveConfigInfo : Option (List UInt8 × Int)
  loadConfigInfo : Bool
  deriving DecidableEq, Repr

/-- The fields of `struct toi_module_header` that are written and read. -/
structure ToiModuleHeader where
  name : String
  enabled : Bool
  moduleType : ModuleType
  index : Nat
  deriving DecidableEq, Repr

/-- One `rw_header_chunk` call of the configuration code, by what it passes. -/
inductive ConfigChunk
  | moduleHeader (h : ToiModuleHeader)
  | length (len : Int)
  | data (bytes : List UInt8)
  deriving DecidableEq, Repr

/-! ### Writing -/

/-- `write_module_configs` saves module `m`: it is enabled, has a `storage_needed` hook, and is
not an allocator other than `toiActiveAllocator` (named `activeAllocator`). -/
def savesConfig (activeAllocator : String) (m : ConfigOps) : Bool :=
  m.enabled && m.storageNeeded && !(m.moduleType == .writerModule && m.name != activeAllocator)

/-- The length module `m` saves: what `save_config_info` returns, `0` without it. -/
def savedLength (m : ConfigOps) : Int := ((m.saveConfigInfo.map Prod.snd).getD 0)

/-- The bytes module `m` saves: the first `len` bytes of the zeroed page `save_config_info`
wrote into. -/
def savedBytes (m : ConfigOps) : List UInt8 :=
  let written := (m.saveConfigInfo.map Prod.fst).getD []
  (written ++ List.replicate (savedLength m).toNat 0).take (savedLength m).toNat

/-- The chunks of module `m`, saved as the `index`-th: its header, its length, and its bytes
when the length is not `0`. -/
def moduleConfig (m : ConfigOps) (index : Nat) : List ConfigChunk :=
  [.moduleHeader ⟨m.name, m.enabled, m.moduleType, index⟩, .length (savedLength m)] ++
    if savedLength m ≠ 0 then [.data (savedBytes m)] else []

/-- The header that ends the list: `name[0] = '\0'`. Its other fields are those of the last
header written, which the reader never looks at; they are fixed here. -/
def endOfConfigs : ToiModuleHeader := ⟨"", false, .miscModule, 0⟩

/-- `write_module_configs`: the saved modules numbered from `1`, then the end of the list. -/
def writeModuleConfigs (activeAllocator : String) (mods : List ConfigOps) : List ConfigChunk :=
  ((mods.filter (savesConfig activeAllocator)).zipIdx 1).flatMap (fun p => moduleConfig p.1 p.2) ++
    [.moduleHeader endOfConfigs]

/-! ### Reading -/

/-- A call the reading makes into a module: `load_config_info(buffer, len)` with the bytes read,
or the same call through a missing hook. -/
inductive LoadCall
  | load (name : String) (bytes : List UInt8) (len : Int)
  | nullHook (name : String)
  deriving DecidableEq, Repr

/-- The reading kernel's modules and the calls made into them so far. -/
structure ReadState where
  modules : List ConfigOps
  calls : List LoadCall
  deriving DecidableEq, Repr

/-- The module of the reading kernel that `toi_find_module_given_name` finds: its place. -/
def findModule (st : ReadState) (name : String) : Option Nat :=
  st.modules.findIdx? (·.name == name)

/-- Module `i` of the reading kernel has the data `bytes` of length `len` loaded and its
`enabled` set to `enabled`. `load_config_info` is called only if the module has a
`save_config_info` hook, whether or not it has a `load_config_info` one. -/
def loadInto (i : Nat) (enabled : Bool) (bytes : List UInt8) (len : Int) (st : ReadState) :
    ReadState :=
  let m := st.modules.getD i ⟨"", .miscModule, false, false, none, false⟩
  { modules := st.modules.set i { m with enabled := enabled }
    calls := if m.saveConfigInfo.isNone then st.calls
      else st.calls ++ [if m.loadConfigInfo then .load m.name bytes len else .nullHook m.name] }

/-- `read_one_module_config(header)`, with the chunks after the header: the state after it, the
chunks left, and the result; `none` where a chunk read is not the one the writer wrote there. -/
def readOneModuleConfig (continueReq : Bool) (h : ToiModuleHeader) (st : ReadState) :
    List ConfigChunk → Option (ReadState × List ConfigChunk × Int)
  | .length len :: rest =>
    -- a module the header needs and this kernel lacks, unless the user said to go on
    if (findModule st h.name).isNone ∧ h.enabled ∧ !continueReq then some (st, .length len :: rest, -EINVAL)
    else if len = 0 then some (st, rest, 0)
    else
      match rest with
      | .data bytes :: rest =>
        match findModule st h.name with
        | none => some (st, rest, 0)
        | some i => some (loadInto i h.enabled bytes len st, rest, 0)
      | _ => none
  | _ => none

/-- The loop of `read_module_configs` over the headers, `fuel` of them at most. -/
def readConfigsLoop (continueReq : Bool) : Nat → ReadState → List ConfigChunk →
    Option (ReadState × List ConfigChunk × Int)
  | 0, _, _ => none
  | fuel + 1, st, .moduleHeader h :: rest =>
    if h.name = "" then some (st, rest, 0)
    else
      match readOneModuleConfig continueReq h st rest with
      | some (st, rest, 0) => readConfigsLoop continueReq fuel st rest
      | some (st, rest, _) => some (st, rest, -EINVAL)
      | none => none
  | _ + 1, _, _ => none

/-- `read_module_configs`: every module disabled, then the configurations read. -/
def readModuleConfigs (continueReq : Bool) (mods : List ConfigOps) (chunks : List ConfigChunk) :
    Option (ReadState × List ConfigChunk × Int) :=
  readConfigsLoop continueReq chunks.length
    ⟨mods.map fun m => { m with enabled := false }, []⟩ chunks

/-! ### Reading back what was written -/

/-- What reading back the configuration saved for `m` does: nothing when its length is `0` or
the reading kernel has no module of its name, else `loadInto` that module. -/
def loadSaved (st : ReadState) (m : ConfigOps) : ReadState :=
  if savedLength m = 0 then st
  else
    match findModule st m.name with
    | none => st
    | some i => loadInto i m.enabled (savedBytes m) (savedLength m) st

section RoundTrip

variable {continueReq : Bool}

/-- The reading kernel knows the module `m`, or the user lets the reading go on without it. -/
def Registered (continueReq : Bool) (st : ReadState) (m : ConfigOps) : Prop :=
  (findModule st m.name).isSome ∨ continueReq = true

instance (continueReq : Bool) (st : ReadState) (m : ConfigOps) :
    Decidable (Registered continueReq st m) :=
  inferInstanceAs (Decidable ((findModule st m.name).isSome ∨ continueReq = true))

theorem map_name_loadInto (i : Nat) (enabled : Bool) (bytes : List UInt8) (len : Int)
    (st : ReadState) : (loadInto i enabled bytes len st).modules.map (·.name) =
      st.modules.map (·.name) := by
  unfold loadInto
  generalize st.modules = l
  induction l generalizing i with
  | nil => simp
  | cons a l ih =>
    cases i with
    | zero => simp
    | succ i => simpa using ih i

theorem findModule_eq_of_names {st st' : ReadState}
    (h : st'.modules.map (·.name) = st.modules.map (·.name)) (name : String) :
    findModule st' name = findModule st name := by
  unfold findModule
  have h' := congrArg (List.findIdx? (· == name)) h
  simpa [List.findIdx?_map, Function.comp_def] using h'

theorem findModule_loadSaved (st : ReadState) (m : ConfigOps) (name : String) :
    findModule (loadSaved st m) name = findModule st name := by
  unfold loadSaved
  split_ifs
  · rfl
  · split
    · rfl
    · exact findModule_eq_of_names (map_name_loadInto _ _ _ _ _) name

theorem Registered.loadSaved {st : ReadState} {m : ConfigOps} (m' : ConfigOps)
    (h : Registered continueReq st m) : Registered continueReq (loadSaved st m') m := by
  unfold Registered at h ⊢
  rwa [findModule_loadSaved]

theorem readOne_moduleConfig {m : ConfigOps} (index : Nat) (st : ReadState)
    (rest : List ConfigChunk) (hreg : Registered continueReq st m) :
    readOneModuleConfig continueReq ⟨m.name, m.enabled, m.moduleType, index⟩ st
        ((moduleConfig m index).tail ++ rest) = some (loadSaved st m, rest, 0) := by
  -- the module is known, or the reading is allowed to go on without it
  rcases hreg with hsome | hc
  · obtain ⟨i, hi⟩ := Option.isSome_iff_exists.mp hsome
    by_cases hlen : savedLength m = 0
    · simp [moduleConfig, readOneModuleConfig, hi, hlen, loadSaved]
    · simp [moduleConfig, readOneModuleConfig, hi, hlen, loadSaved]
  · by_cases hlen : savedLength m = 0
    · simp [moduleConfig, readOneModuleConfig, hc, hlen, loadSaved]
    · cases hfind : findModule st m.name with
      | none => simp [moduleConfig, readOneModuleConfig, hc, hlen, loadSaved, hfind]
      | some i => simp [moduleConfig, readOneModuleConfig, hc, hlen, loadSaved, hfind]

theorem length_moduleConfig (m : ConfigOps) (index : Nat) : 2 ≤ (moduleConfig m index).length := by
  unfold moduleConfig
  split_ifs <;> simp

theorem length_le_flatMap_moduleConfig :
    ∀ (ms : List ConfigOps) (k : Nat),
      ms.length ≤ ((ms.zipIdx k).flatMap fun p => moduleConfig p.1 p.2).length
  | [], _ => by simp
  | m :: ms, k => by
    have h1 := length_moduleConfig m k
    have h2 := length_le_flatMap_moduleConfig ms (k + 1)
    simp only [List.zipIdx_cons, List.flatMap_cons, List.length_append, List.length_cons]
    omega

/-- The loop of `read_module_configs` over the chunks of saved modules and the end of the list
folds `loadSaved` over them. The induction is on the saved modules; the fuel, one per header,
keeps up since each module has at least two chunks. -/
theorem readConfigsLoop_configs (rest : List ConfigChunk) :
    ∀ (ms : List ConfigOps) (k fuel : Nat) (st : ReadState),
      (∀ m ∈ ms, m.name ≠ "" ∧ Registered continueReq st m) →
      ms.length < fuel →
      readConfigsLoop continueReq fuel st
          ((ms.zipIdx k).flatMap (fun p => moduleConfig p.1 p.2) ++ .moduleHeader endOfConfigs :: rest) =
        some (ms.foldl loadSaved st, rest, 0)
  | [], _, fuel + 1, st, _, _ => by simp [readConfigsLoop, endOfConfigs]
  | m :: ms, k, fuel + 1, st, hms, hfuel => by
    obtain ⟨hname, hreg⟩ := hms m (by simp)
    have hsplit : moduleConfig m k = .moduleHeader ⟨m.name, m.enabled, m.moduleType, k⟩ ::
        (moduleConfig m k).tail := by
      simp [moduleConfig]
    have hrest := readConfigsLoop_configs rest ms (k + 1) fuel (loadSaved st m)
      (fun m' hm' => by
        obtain ⟨h1, h2⟩ := hms m' (by simp [hm'])
        exact ⟨h1, h2.loadSaved m⟩)
      (by simp at hfuel; omega)
    rw [List.zipIdx_cons, List.flatMap_cons, hsplit]
    simp only [List.cons_append, List.append_assoc]
    rw [readConfigsLoop, if_neg hname, readOne_moduleConfig k st _ hreg]
    exact hrest

/-- Reading back what `write_module_configs` wrote, in a kernel that knows every module saved
(or is told to go on without them): every module is disabled, and then `loadSaved` runs for
each saved module in turn. -/
theorem readModuleConfigs_write (activeAllocator : String) (mods res : List ConfigOps)
    (rest : List ConfigChunk)
    (hsaved : ∀ m ∈ mods.filter (savesConfig activeAllocator), m.name ≠ "" ∧
      Registered continueReq ⟨res.map fun m => { m with enabled := false }, []⟩ m) :
    readModuleConfigs continueReq res (writeModuleConfigs activeAllocator mods ++ rest) =
      some ((mods.filter (savesConfig activeAllocator)).foldl loadSaved
        ⟨res.map fun m => { m with enabled := false }, []⟩, rest, 0) := by
  have hlen := length_le_flatMap_moduleConfig (mods.filter (savesConfig activeAllocator)) 1
  unfold readModuleConfigs writeModuleConfigs
  rw [List.append_assoc, List.singleton_append]
  exact readConfigsLoop_configs rest _ 1 _ _ hsaved
    (by simp only [List.length_append, List.length_cons]; omega)

/-! ### A module saved with no data -/

theorem mem_loadInto {i : Nat} {enabled : Bool} {bytes : List UInt8} {len : Int} {st : ReadState}
    {m' : ConfigOps} (h : m' ∈ (loadInto i enabled bytes len st).modules) :
    m' ∈ st.modules ∨
      m'.name = (st.modules.getD i ⟨"", .miscModule, false, false, none, false⟩).name := by
  rcases List.mem_or_eq_of_mem_set h with hm | rfl
  · exact Or.inl hm
  · exact Or.inr rfl

theorem findModule_name {st : ReadState} {name : String} {i : Nat} (h : findModule st name = some i) :
    (st.modules.getD i ⟨"", .miscModule, false, false, none, false⟩).name = name := by
  obtain ⟨hi, hp, -⟩ := List.findIdx?_eq_some_iff_getElem.mp h
  rw [List.getD_eq_getElem?_getD, List.getElem?_eq_getElem hi, Option.getD_some]
  simpa using hp

/-- Every module of the reading kernel named `name` is disabled. -/
def DisabledNamed (name : String) (st : ReadState) : Prop :=
  ∀ m ∈ st.modules, m.name = name → m.enabled = false

theorem DisabledNamed.after_loadSaved {name : String} {st : ReadState} {m : ConfigOps}
    (h : DisabledNamed name st) (hm : savedLength m ≠ 0 → m.name ≠ name) :
    DisabledNamed name (loadSaved st m) := by
  unfold loadSaved
  split_ifs with hlen
  · exact h
  · split
    · exact h
    · next i hfind =>
      intro m' hm' hname
      rcases mem_loadInto hm' with hold | hnew
      · exact h m' hold hname
      · -- the module loaded is the one of `m`'s name, not `name`
        have hname' : m.name = name := by rw [← findModule_name hfind, ← hnew, hname]
        exact absurd hname' (hm hlen)

/-- After `read_module_configs` reads back what `write_module_configs` wrote, a module whose
saved configuration has no data is disabled, even though only enabled modules are saved. -/
theorem module_config_without_data_disabled (activeAllocator : String)
    (mods res : List ConfigOps) (rest : List ConfigChunk)
    (hsaved : ∀ m ∈ mods.filter (savesConfig activeAllocator), m.name ≠ "" ∧
      Registered continueReq ⟨res.map fun m => { m with enabled := false }, []⟩ m)
    {name : String}
    (hempty : ∀ m ∈ mods.filter (savesConfig activeAllocator), m.name = name → savedLength m = 0) :
    ∃ st, readModuleConfigs continueReq res (writeModuleConfigs activeAllocator mods ++ rest) =
      some (st, rest, 0) ∧ ∀ m ∈ st.modules, m.name = name → m.enabled = false := by
  refine ⟨_, readModuleConfigs_write activeAllocator mods res rest hsaved, ?_⟩
  -- every module starts disabled, and no module of that name is loaded into
  have hinit : DisabledNamed name ⟨res.map fun m => { m with enabled := false }, []⟩ := by
    intro m hm _
    obtain ⟨m₀, -, rfl⟩ := List.mem_map.mp hm
    rfl
  suffices ∀ (ms : List ConfigOps) (st : ReadState), (∀ m ∈ ms, m.name = name → savedLength m = 0) →
      DisabledNamed name st → DisabledNamed name (ms.foldl loadSaved st) from
    this _ _ hempty hinit
  intro ms
  induction ms with
  | nil => intro st _ h; exact h
  | cons m ms ih =>
    intro st hms h
    exact ih _ (fun m' hm' => hms m' (by simp [hm']))
      (h.after_loadSaved fun hlen hname => hlen (hms m (by simp) hname))

end RoundTrip

/-! ### The cluster module's interface -/

/-- `strlen` of the string at the start of `bs`. -/
def strlen (bs : List UInt8) : Nat := (bs.takeWhile (· != 0)).length

/-- `strncpy(dst, src, n)` into the array `dst`: the string of `src` cut to `n` bytes and padded
with zeros to `n`. -/
def strncpy (dst src : List UInt8) (n : Nat) : List UInt8 :=
  let s := (src.takeWhile (· != 0)).take n
  writeAt dst 0 (s ++ List.replicate (n - s.length) 0)

/-- `toi_cluster_storage_needed`. -/
def toiClusterStorageNeeded (iface : List UInt8) : Nat := 1 + strlen iface

/-- `toi_cluster_save_config_info`: `strcpy(buffer, toi_cluster_iface)`, returning
`strlen(toi_cluster_iface + 1)`. -/
def toiClusterSaveConfigInfo (iface : List UInt8) : List UInt8 × Int :=
  (iface.takeWhile (· != 0) ++ [0], strlen (iface.drop 1))

/-- `toi_cluster_load_config_info`: `strncpy(toi_cluster_iface, buffer, size)`. -/
def toiClusterLoadConfigInfo (buffer : List UInt8) (size : Int) (iface : List UInt8) :
    List UInt8 :=
  strncpy iface buffer size.toNat

/-- The cluster module, `toi_cluster_ops`, with the interface array `iface`. -/
def toiClusterOps (iface : List UInt8) (enabled : Bool) : ConfigOps :=
  ⟨"Cluster", .filterModule, enabled, true, some (toiClusterSaveConfigInfo iface), true⟩

theorem takeWhile_nonzero : ∀ {s : List UInt8}, (∀ b ∈ s, b ≠ 0) → s.takeWhile (· != 0) = s
  | [], _ => rfl
  | b :: s, hs => by
    have hb : b ≠ 0 := hs b (by simp)
    have ih : s.takeWhile (· != 0) = s := takeWhile_nonzero fun c hc => hs c (by simp [hc])
    simp [hb, ih]

theorem takeWhile_string {s rest : List UInt8} (hs : ∀ b ∈ s, b ≠ 0) :
    (s ++ 0 :: rest).takeWhile (· != 0) = s := by
  rw [List.takeWhile_append_of_pos (by simpa using hs)]
  simp

/-- The interface the cluster module saves, the name `s`, comes back with its last letter taken
from the interface array of the resuming kernel, `dst`. -/
theorem toiClusterLoadConfigInfo_saved {s rest dst : List UInt8} (enabled : Bool)
    (hs : ∀ b ∈ s, b ≠ 0) (hne : s ≠ []) :
    toiClusterLoadConfigInfo (savedBytes (toiClusterOps (s ++ 0 :: rest) enabled))
        (savedLength (toiClusterOps (s ++ 0 :: rest) enabled)) dst =
      s.take (s.length - 1) ++ dst.drop (s.length - 1) := by
  -- `strlen(toi_cluster_iface + 1)` is one less than the name's length
  have htail : (s ++ 0 :: rest).drop 1 = s.tail ++ 0 :: rest := by
    cases s with
    | nil => exact absurd rfl hne
    | cons b s => rfl
  have hlen : savedLength (toiClusterOps (s ++ 0 :: rest) enabled) = (s.length - 1 : Nat) := by
    simp [savedLength, toiClusterOps, toiClusterSaveConfigInfo, strlen, htail,
      takeWhile_string (s := s.tail) (fun b hb => hs b (List.mem_of_mem_tail hb))]
  have hbytes : savedBytes (toiClusterOps (s ++ 0 :: rest) enabled) = s.take (s.length - 1) := by
    rw [savedBytes, hlen]
    simp [toiClusterOps, toiClusterSaveConfigInfo, takeWhile_string hs, List.take_append_of_le_length]
  -- `strncpy` copies those letters, which hold no zero, and pads nothing
  have hcopy : ((s.take (s.length - 1)).takeWhile (· != 0)).take (s.length - 1) =
      s.take (s.length - 1) := by
    rw [takeWhile_nonzero fun b hb => hs b (List.mem_of_mem_take hb)]
    simp
  rw [hbytes, hlen, toiClusterLoadConfigInfo, Int.toNat_natCast, strncpy]
  simp only [hcopy, List.length_take]
  simp [writeAt]

/-! ### The swap allocator and the cluster module -/

/-- The swap allocator, `toi_swapops`: a `storage_needed` hook and no configuration hooks. -/
def swapStorageOps (enabled : Bool) : ConfigOps :=
  ⟨"swap storage", .writerModule, enabled, true, none, false⟩

/-- An interface array of `IFNAMSIZ` bytes holding `"eth0"`. -/
def eth0 : List UInt8 := [101, 116, 104, 48] ++ List.replicate 12 0

/-- An interface array of `IFNAMSIZ` bytes holding `"eth1"`. -/
def eth1 : List UInt8 := [101, 116, 104, 49] ++ List.replicate 12 0

/-- A hibernating kernel writing to swap with the cluster interface `"eth1"`. -/
def hibernatingModules : List ConfigOps := [swapStorageOps true, toiClusterOps eth1 true]

/-- The kernel resuming from it, whose cluster interface is `"eth0"`. -/
def resumingModules : List ConfigOps := [swapStorageOps true, toiClusterOps eth0 true]

/-- The swap allocator comes back disabled, and the cluster module is given `"eth"`, three
bytes, which leave its `"eth0"` as it was. -/
example : readModuleConfigs false resumingModules
      (writeModuleConfigs "swap storage" hibernatingModules) =
    some (⟨[swapStorageOps false, toiClusterOps eth0 true], [.load "Cluster" [101, 116, 104] 3]⟩,
      [], 0) ∧
    toiClusterLoadConfigInfo [101, 116, 104] 3 eth0 = eth0 := by
  decide

theorem module_config_without_data_disabled_swap :
    (∀ m ∈ hibernatingModules.filter (savesConfig "swap storage"), m.name ≠ "" ∧
      Registered false ⟨resumingModules.map fun m => { m with enabled := false }, []⟩ m) ∧
    (∀ m ∈ hibernatingModules.filter (savesConfig "swap storage"),
      m.name = "swap storage" → savedLength m = 0) ∧
    ∃ st, readModuleConfigs false resumingModules
        (writeModuleConfigs "swap storage" hibernatingModules ++ []) = some (st, [], 0) ∧
      ∀ m ∈ st.modules, m.name = "swap storage" → m.enabled = false := by
  have hsaved : ∀ m ∈ hibernatingModules.filter (savesConfig "swap storage"), m.name ≠ "" ∧
      Registered false ⟨resumingModules.map fun m => { m with enabled := false }, []⟩ m := by
    decide
  have hempty : ∀ m ∈ hibernatingModules.filter (savesConfig "swap storage"),
      m.name = "swap storage" → savedLength m = 0 := by
    decide
  exact ⟨hsaved, hempty, module_config_without_data_disabled "swap storage" hibernatingModules
    resumingModules [] hsaved hempty⟩

end TuxOnIceFastboot.Header.Configs
