import CkbAuth.LittleEndian
import CkbAuth.Lib.FlatMem
import CkbAuth.Lib.MemProg

/-!
# Relocating the auth program

What `main` of `auth.c` does before it looks at its arguments: the program lies at address 0
and relocates itself.  The offsets are those of `Elf64_Ehdr`, `Elf64_Phdr`, `Elf64_Dynamic` and
`Elf64_Rela`.  A program has 4 MiB of memory; what is shown assumes at most `2 ^ 32` bytes.
-/

namespace CkbAuth.Relocation

open CkbAuth CRun

abbrev Memory : Type := FlatMem.Memory UInt8

variable (errorInvalidElf : ℤ) (mem : Memory)

/-! ## Words in memory -/

def loadNat (addr : UInt64) (size : ℕ) : Outcome ℕ :=
  match mem.load addr.toNat size with
  | some bytes => .ret (leToNat bytes)
  | none => .fault

def load16 (addr : UInt64) : Outcome UInt16 := (loadNat mem addr 2).bind fun n ↦ .ret (.ofNat n)

def load32 (addr : UInt64) : Outcome UInt32 := (loadNat mem addr 4).bind fun n ↦ .ret (.ofNat n)

def load64 (addr : UInt64) : Outcome UInt64 := (loadNat mem addr 8).bind fun n ↦ .ret (.ofNat n)

def store64 (addr value : UInt64) : Outcome Memory :=
  match mem.store addr.toNat (leBytes 8 value.toNat) with
  | some mem => .ret mem
  | none => .fault

/-! ## The three loops -/

def rRiscvRelative : UInt64 := 3
def ptDynamic : UInt32 := 2

/-- From relocation `j` on.  The memory ends before the `int j` does. -/
def relocations (relaAddress relaCount : UInt64) : (fuel j : ℕ) → Memory → Outcome Memory
  | 0, _, _ => .running
  | fuel + 1, j, mem =>
      if j < relaCount.toNat then
        let relocation := relaAddress + 24 * UInt64.ofNat j
        (load64 mem (relocation + 8)).bind fun rInfo ↦
          if rInfo ≠ rRiscvRelative then .fail errorInvalidElf
          else
            (load64 mem relocation).bind fun rOffset ↦
            (load64 mem (relocation + 16)).bind fun rAddend ↦
            (store64 mem rOffset rAddend).bind (relocations relaAddress relaCount fuel (j + 1))
      else .ret mem

/-- `while (d->type != 0)` -/
def dynamicSection : (fuel : ℕ) → (d relaAddress relaCount : UInt64) → Outcome (UInt64 × UInt64)
  | 0, _, _, _ => .running
  | fuel + 1, d, relaAddress, relaCount =>
      (load64 mem d).bind fun type ↦
        if type = 0 then .ret (relaAddress, relaCount)
        else if type = 0x7 then
          (load64 mem (d + 8)).bind fun value ↦ dynamicSection fuel (d + 16) value relaCount
        else if type = 0x6ffffff9 then
          (load64 mem (d + 8)).bind fun value ↦ dynamicSection fuel (d + 16) relaAddress value
        else dynamicSection fuel (d + 16) relaAddress relaCount

/-- The body for one program header. -/
def programHeader (fuel : ℕ) (header : UInt64) : Outcome Memory :=
  (load32 mem header).bind fun pType ↦
    if pType = ptDynamic then
      (load64 mem (header + 16)).bind fun pVaddr ↦
      (dynamicSection mem fuel pVaddr 0 0).bind fun (relaAddress, relaCount) ↦
        if relaAddress > 0 ∧ relaCount > 0 then
          relocations errorInvalidElf relaAddress relaCount fuel 0 mem
        else .ret mem
    else .ret mem

/-- From program header `i` on; `*phnum` is read each time. -/
def programHeaders (phoff : UInt64) : (fuel i : ℕ) → Memory → Outcome Memory
  | 0, _, _ => .running
  | fuel + 1, i, mem =>
      (load16 mem 56).bind fun phnum ↦
        if i < phnum.toNat then
          (programHeader errorInvalidElf mem (mem.cells.length + 1)
            (phoff + 56 * UInt64.ofNat i)).bind (programHeaders phoff fuel (i + 1))
        else .ret mem

/-- Up to the check of `argc`. -/
def relocate : Outcome Memory :=
  (load64 mem 32).bind fun phoff ↦ programHeaders errorInvalidElf phoff (2 ^ 16 + 1) 0 mem

end CkbAuth.Relocation
