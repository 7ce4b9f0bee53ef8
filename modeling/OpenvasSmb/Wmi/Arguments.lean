import OpenvasSmb.Util.Status

/-!
# The arguments of the WMI library (`wmi/wmicso.c`, `wmi/wmireg.c`, `wmi/wmirsop.c`)

Each of the three files has a `parse_args`. popt, a parameter, takes the options out of the
argument vector; the host name, and in `wmicso.c` the namespace, are then copied into blocks of
their own, which `WBEM_ConnectServer` gets. A block is as long as its text, so the terminator has
no room in it (`handed_strings_run_over`).
-/

namespace OpenvasSmb.Wmi

open List

/-- An argument: the bytes in front of the terminator. -/
structure Argument where
  bytes : Bytes
  noZero : 0 ∉ bytes

/-- What popt leaves of an argument vector; `none` if `poptGetNextOpt` stops at an option. -/
abbrev Popt := List Argument → Option (List Argument)

variable (argvNew : List Argument) (popt : Popt)

/-- `argv_new[i]`. -/
def argText (i : Nat) : Bytes :=
  (argvNew[i]?.map Argument.bytes).getD []

/-- `argv_new[1] + 2`. -/
def hostText : Bytes := (argText argvNew 1).drop 2

/-- The checks of the three functions, which differ in the number of arguments; `argv_new` if
they pass. The loop for `argc_new` looks at no more than `argc` arguments. -/
def checkArgs (wanted : Nat) (argv : List Argument) : Option (List Argument) :=
  (popt argv).filter fun argvNew =>
    min argv.length argvNew.length == wanted && [0x2f, 0x2f].isPrefixOf (argText argvNew 1)

def calloc (size : Nat) : Bytes := replicate size 0

/-- The block holds what was there before. -/
def malloc (heap : Nat → UInt8) (size : Nat) : Bytes := (range size).map heap

def memcpy (dest src : Bytes) (n : Nat) : Bytes := src.take n ++ dest.drop n

/-- `struct program_args`, as far as `parse_args` sets it. -/
structure ProgrArgs where
  hostname : Option Bytes := none
  ns : Option Bytes := none
deriving DecidableEq

def copiedHost : Bytes :=
  memcpy (calloc (hostText argvNew).length) (hostText argvNew) (hostText argvNew).length

def copiedNs (heap : Nat → UInt8) (argvNew : List Argument) : Bytes :=
  memcpy (malloc heap (argText argvNew 2).length) (argText argvNew 2) (argText argvNew 2).length

def Wmicso.parseArgs (heap : Nat → UInt8) (argv : List Argument) :
    Option ProgrArgs :=
  (checkArgs popt 3 argv).map fun argvNew => ⟨copiedHost argvNew, copiedNs heap argvNew⟩

def Wmireg.parseArgs (argv : List Argument) : Option ProgrArgs :=
  (checkArgs popt 2 argv).map fun argvNew => ⟨copiedHost argvNew, none⟩

def Wmirsop.parseArgs (argv : List Argument) : Option ProgrArgs :=
  (checkArgs popt 2 argv).map fun argvNew => ⟨copiedHost argvNew, none⟩

/-- A block read as a C string; `none` if that leaves the block. -/
def cString (block : Bytes) : Option Bytes :=
  if 0 ∈ block then some (block.takeWhile (· ≠ 0)) else none

def ReadsAs (block : Option Bytes) (text : Bytes) : Prop := block.bind cString = some text

theorem memcpy_all {dest src : Bytes} (h : dest.length = src.length) :
    memcpy dest src src.length = src := by
  rw [memcpy, take_length, ← h, drop_length, append_nil]

theorem noZero_argText (i : Nat) : 0 ∉ argText argvNew i := by
  rw [argText]
  cases argvNew[i]? with
  | none => exact not_mem_nil
  | some arg => exact arg.noZero

theorem not_readsAs {block : Bytes} (h : 0 ∉ block) (text : Bytes) :
    ¬ ReadsAs (some block) text := by
  rw [ReadsAs, Option.bind_some, cString, if_neg h]
  exact (Option.some_ne_none text).symm

theorem copiedHost_runs_over (text : Bytes) :
    ¬ ReadsAs (some (copiedHost argvNew)) text := by
  have hsize : (calloc (hostText argvNew).length).length = (hostText argvNew).length :=
    length_replicate
  rw [copiedHost, memcpy_all hsize]
  exact not_readsAs (fun h => noZero_argText argvNew 1 (mem_of_mem_drop h)) text

theorem copiedNs_runs_over (heap : Nat → UInt8) (argvNew : List Argument) (text : Bytes) :
    ¬ ReadsAs (some (copiedNs heap argvNew)) text := by
  rw [copiedNs, memcpy_all (by rw [malloc, length_map, length_range])]
  exact not_readsAs (noZero_argText argvNew 2) text

/-- **The strings for `WBEM_ConnectServer` have no terminator.** Whatever arguments are accepted,
the host name and the namespace cannot be read inside their blocks, as whatever text. -/
theorem handed_strings_run_over (heap : Nat → UInt8) (argv : List Argument) (args : ProgrArgs) :
    (Wmicso.parseArgs popt heap argv = some args →
      ∀ text, ¬ ReadsAs args.hostname text ∧ ¬ ReadsAs args.ns text) ∧
    (Wmireg.parseArgs popt argv = some args → ∀ text, ¬ ReadsAs args.hostname text) ∧
    (Wmirsop.parseArgs popt argv = some args → ∀ text, ¬ ReadsAs args.hostname text) := by
  refine ⟨fun h => ?_, fun h => ?_, fun h => ?_⟩
  · obtain ⟨argvNew, -, rfl⟩ := Option.map_eq_some_iff.mp h
    exact fun text => ⟨copiedHost_runs_over argvNew text, copiedNs_runs_over heap argvNew text⟩
  all_goals
    obtain ⟨argvNew, -, rfl⟩ := Option.map_eq_some_iff.mp h
    exact copiedHost_runs_over argvNew

/-- `wmic //h r`. -/
def sampleArgs : List Argument :=
  [⟨[0x77, 0x6d, 0x69, 0x63], by decide⟩, ⟨[0x2f, 0x2f, 0x68], by decide⟩, ⟨[0x72], by decide⟩]

theorem handed_strings_run_over_sample :
    ¬ ReadsAs (some [0x68]) [0x68] ∧ ¬ ReadsAs (some [0x72]) [0x72] :=
  have h := (handed_strings_run_over some (fun _ => 0) sampleArgs ⟨some [0x68], some [0x72]⟩).1
    (by decide)
  ⟨(h [0x68]).1, (h [0x72]).2⟩

theorem handed_strings_sample :
    Wmicso.parseArgs some (fun _ => 0) sampleArgs = some ⟨some [0x68], some [0x72]⟩ ∧
      Wmireg.parseArgs some (sampleArgs.take 2) = some ⟨some [0x68], none⟩ ∧
      cString [0x68] = none ∧ cString [0x72] = none := by
  decide

end OpenvasSmb.Wmi
