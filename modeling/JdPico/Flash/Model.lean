import JdPico.Lib.ByteStore
import JdPico.Lib.Run

/-!
# The flash driver

`flash.c` keeps one page of the flash in RAM.  `flash_program` splits a request into pieces that
stay inside a page, and `flash_program_page` patches such a piece into the page buffer: when the
piece belongs to another page than the buffered one, the buffer is first programmed back
(`flash_sync`) and then loaded from the flash.  `last_page_addr` is the flash offset of the buffered
page, `0` meaning that nothing is buffered.  `flash_erase` erases a 4096-byte sector of the flash
and does not look at the buffer.

The flash itself is the SDK's: `flash_range_program` programs (old AND new), `flash_range_erase`
sets a sector to `0xff`.  `JD_ASSERT` stops the firmware, so an operation returns `none` when an
assertion fires.  The interrupt mask that `flash.c` holds around the SDK calls does not touch
this state.
-/

namespace JdPico

open ByteStore

/-- `JD_ASSERT`: go on if the condition holds, stop the firmware otherwise. -/
def jdAssert (p : Prop) [Decidable p] : Option Unit :=
  if p then some () else none

@[simp] lemma jdAssert_eq_some {p : Prop} [Decidable p] {u : Unit} : jdAssert p = some u ↔ p := by
  simp [jdAssert]

/-- The address at which the flash is mapped for reading. -/
def xipBase : UInt32 := 0x10000000

/-- `FLASH_PAGE_SIZE` of the SDK: the unit of programming. -/
def flashPageSize : ℕ := 256

/-- `JD_FLASH_PAGE_SIZE`: the unit of erasing. -/
def jdFlashPageSize : ℕ := 4096

/-- `SPI_STORAGE_SIZE`, which is `JD_FSTOR_TOTAL_SIZE`. -/
def spiStorageSize : UInt32 := 128 * 1024

/-- `SPI_STORAGE_OFFSET`: the storage is the end of the first `SPI_FLASH_MEGS` megabytes. -/
def spiStorageOffset : UInt32 := 1 * 1024 * 1024 - spiStorageSize

/-- The static state of `flash.c` together with the contents of the flash, by flash offset. -/
structure FlashState where
  /-- The flash offset of the page in the buffer; `0` if there is none. -/
  lastPageAddr : ℕ
  /-- `flash_page_buf`, of which the first `flashPageSize` bytes exist. -/
  flashPageBuf : ℕ → UInt8
  /-- The contents of the flash. -/
  flash : ℕ → UInt8

/-- The state at start-up: the static variables are zero and the flash holds anything. -/
def FlashState.initial (mem : ℕ → UInt8) : FlashState :=
  ⟨0, fun _ => 0, mem⟩

/-- `flash_sync`: program the buffered page, if there is one. -/
def flashSync (s : FlashState) : FlashState :=
  if s.lastPageAddr ≠ 0 then
    { s with
      flash := norProgram s.flash s.lastPageAddr flashPageSize s.flashPageBuf
      lastPageAddr := 0 }
  else s

/-- The page switch of `flash_program_page`: program back the page in the buffer, then load the page
at `pageAddr` through the mapped flash. -/
def flashLoadPage (s : FlashState) (pageAddr : ℕ) : FlashState :=
  if s.lastPageAddr ≠ pageAddr then
    let s := flashSync s
    { s with
      lastPageAddr := pageAddr
      flashPageBuf := write s.flashPageBuf 0 flashPageSize fun i => s.flash (pageAddr + i) }
  else s

/-- The byte loop of `flash_program_page`, for the first `n` bytes: each target byte must be erased
in the flash, and is then set in the buffer. -/
def flashProgramBytes (pageAddr dp : ℕ) (src : ℕ → UInt8) : ℕ → FlashState → Option FlashState
  | 0, s => some s
  | n + 1, s => do
    let s ← flashProgramBytes pageAddr dp src n s
    jdAssert (s.flash (pageAddr + (dp + n)) = 0xff)
    return { s with flashPageBuf := Function.update s.flashPageBuf (dp + n) (src n) }

/-- `flash_program_page`: patch `len` bytes into the page of the flash offset `addr`. -/
def flashProgramPage (s : FlashState) (addr : ℕ) (src : ℕ → UInt8) (len : ℕ) :
    Option FlashState := do
  jdAssert (len < flashPageSize)
  jdAssert (addr / flashPageSize = (addr + len + 2 ^ 32 - 1) % 2 ^ 32 / flashPageSize)
  let pageAddr := addr - addr % flashPageSize
  let dp := addr % flashPageSize
  flashProgramBytes pageAddr dp src len (flashLoadPage s pageAddr)

/-- The size of the next piece of a request: what is left of the page at `off`, and at
most `len`. -/
def flashChunk (off len : ℕ) : ℕ :=
  if flashPageSize - off % flashPageSize > len then len else flashPageSize - off % flashPageSize

lemma flashChunk_pos (off : ℕ) {len : ℕ} (hlen : len ≠ 0) : 0 < flashChunk off len := by
  have : off % flashPageSize < flashPageSize := Nat.mod_lt _ (by decide)
  unfold flashChunk
  split_ifs <;> omega

/-- A piece stays inside the request and inside its page. -/
lemma flashChunk_le (off len : ℕ) :
    flashChunk off len ≤ len ∧ off % flashPageSize + flashChunk off len ≤ flashPageSize := by
  have : off % flashPageSize < flashPageSize := Nat.mod_lt _ (by decide)
  unfold flashChunk
  split_ifs <;> omega

/-- The loop of `flash_program`: `off` is the current flash offset, a 32-bit number. -/
def flashProgramLoop (s : FlashState) (off : ℕ) (src : ℕ → UInt8) (len : ℕ) :
    Option FlashState :=
  if len = 0 then some s
  else do
    let n := flashChunk off len
    let s ← flashProgramPage s off src n
    flashProgramLoop s ((off + n) % 2 ^ 32) (fun i => src (n + i)) (len - n)
termination_by len
decreasing_by
  have := flashChunk_pos off ‹len ≠ 0›
  omega

/-- The offset of a mapped address in the storage, as a 32-bit difference; the source reads it as a
signed number. -/
def storageDiff (p : UInt32) : UInt32 := p - xipBase - spiStorageOffset

/-- `flash_program`: program `len` bytes at the mapped address `dst`.  The sum of the signed
difference and the unsigned length is unsigned in C, so the bound is checked modulo `2 ^ 32`. -/
def flashProgram (s : FlashState) (dst : UInt32) (src : ℕ → UInt8) (len : UInt32) :
    Option FlashState := do
  let diff := storageDiff dst
  jdAssert (diff.toNat < 2 ^ 31 ∧ diff + len ≤ spiStorageSize)
  jdAssert (diff.toNat % 8 = 0)
  flashProgramLoop s (diff + spiStorageOffset).toNat src len.toNat

/-- `flash_erase`: erase the sector at the mapped address `pageAddr`. -/
def flashErase (s : FlashState) (pageAddr : UInt32) : Option FlashState := do
  let diff := storageDiff pageAddr
  jdAssert (diff.toNat < 2 ^ 31 ∧ diff.toNat ≤ spiStorageSize.toNat - jdFlashPageSize)
  jdAssert (diff.toNat % jdFlashPageSize = 0)
  return { s with flash := fill s.flash (diff + spiStorageOffset).toNat jdFlashPageSize 0xff }

/-- The calls the settings storage makes. -/
inductive FlashOp where
  /-- `flash_program(dst, src, len)`. -/
  | program (dst : UInt32) (src : ℕ → UInt8) (len : UInt32)
  /-- `flash_sync()`. -/
  | sync
  /-- `flash_erase(page_addr)`. -/
  | erase (pageAddr : UInt32)

/-- One call; `none` if an assertion fires. -/
def FlashState.step (s : FlashState) : FlashOp → Option FlashState
  | .program dst src len => flashProgram s dst src len
  | .sync => some (flashSync s)
  | .erase pageAddr => flashErase s pageAddr

end JdPico
