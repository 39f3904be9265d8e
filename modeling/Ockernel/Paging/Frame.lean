import Ockernel.Types

/-!
Page frames and their x86 non-PAE encoding (`PageFrame` in `mm/paging.rs`,
`PageTableEntry` and `PageDirEntry` in `arch/i586/paging.rs`).  Entries are `u32` values:
the physical address sits in bits 12..31 and the flags in bits 0..11.  The two mask
lemmas below are the only bit-level facts the rest of the development needs.
-/

namespace Ockernel

/-- hardware agnostic form of a page frame; `Default` is every field zero or `false` -/
structure PageFrame where
  addr : Nat := 0
  present : Bool := false
  userMode : Bool := false
  writable : Bool := false
  copyOnWrite : Bool := false
  executable : Bool := false
  referenced : Bool := false
  shared : Bool := false
deriving DecidableEq, Repr

-- The bits of `PageTableFlags` the modelled code reads or writes.
namespace PageTableFlags

def none : Nat := 0
def present : Nat := 1 <<< 0
def readWrite : Nat := 1 <<< 1
def userSupervisor : Nat := 1 <<< 2
def global : Nat := 1 <<< 8
def copyOnWrite : Nat := 1 <<< 9
def referenced : Nat := 1 <<< 10
def shared : Nat := 1 <<< 11

end PageTableFlags

-- The bits of `PageDirFlags` the modelled code writes.
namespace PageDirFlags

def present : Nat := 1 <<< 0
def readWrite : Nat := 1 <<< 1
def userSupervisor : Nat := 1 <<< 2
def global : Nat := 1 <<< 8

end PageDirFlags

/-- entry in a page table, a `u32` -/
structure PageTableEntry where
  bits : Nat
deriving DecidableEq, Repr

namespace PageTableEntry

/-- create new page table entry -/
def new (addr flags : Nat) : PageTableEntry :=
  ⟨(addr &&& 0xfffff000) ||| (flags &&& 0x0fff)⟩

/-- create an unused page table entry -/
def newUnused : PageTableEntry := ⟨0⟩

/-- set flags of page table entry -/
def setFlags (entry : PageTableEntry) (flags : Nat) : PageTableEntry :=
  ⟨(entry.bits &&& 0xfffff000) ||| (flags &&& 0x00000fff)⟩

/-- checks if this page table entry is unused -/
def isUnused (entry : PageTableEntry) : Bool := entry.bits == 0

/-- gets address of page table entry -/
def getAddress (entry : PageTableEntry) : Nat := entry.bits &&& 0xfffff000

/-- gets flags of page table entry -/
def getFlags (entry : PageTableEntry) : Nat := entry.bits &&& 0x00000fff

end PageTableEntry

/-- `impl From<PageTableEntry> for PageFrame` -/
def PageFrame.fromEntry (entry : PageTableEntry) : PageFrame :=
  let flags := entry.getFlags
  { addr := entry.getAddress
    present := decide (flags &&& PageTableFlags.present > 0)
    userMode := decide (flags &&& PageTableFlags.userSupervisor > 0)
    writable := decide (flags &&& PageTableFlags.readWrite > 0)
    copyOnWrite := decide (flags &&& PageTableFlags.copyOnWrite > 0)
    executable := true
    referenced := decide (flags &&& PageTableFlags.referenced > 0)
    shared := decide (flags &&& PageTableFlags.shared > 0) }

/-- The flags `impl TryFrom<PageFrame> for PageTableEntry` collects before building the
entry. -/
def PageFrame.tableFlags (frame : PageFrame) : Nat :=
  let flags := PageTableFlags.none
  let flags := if frame.present then flags ||| PageTableFlags.present else flags
  let flags := if frame.userMode then flags ||| PageTableFlags.userSupervisor else flags
  let flags := if frame.writable then flags ||| PageTableFlags.readWrite else flags
  let flags := if frame.copyOnWrite then flags ||| PageTableFlags.copyOnWrite else flags
  let flags := if frame.referenced then flags ||| PageTableFlags.referenced else flags
  if frame.shared then flags ||| PageTableFlags.shared else flags

/-- `impl TryFrom<PageFrame> for PageTableEntry`; `none` is the `Err(())` of an address
that does not fit in a `u32`. -/
def PageTableEntry.tryFrom (frame : PageFrame) : Option PageTableEntry :=
  if frame.addr < 2 ^ 32 then some (PageTableEntry.new frame.addr frame.tableFlags) else none

/-- What `get_page` makes of one table entry: nothing for the all-zero entry. -/
def PageTableEntry.toPage? (entry : PageTableEntry) : Option PageFrame :=
  if entry.isUnused then none else some (PageFrame.fromEntry entry)

/-- entry in a page directory, a `u32` -/
structure PageDirEntry where
  bits : Nat
deriving DecidableEq, Repr

namespace PageDirEntry

/-- create new page directory entry -/
def new (addr flags : Nat) : PageDirEntry :=
  ⟨(addr &&& 0xfffff000) ||| (flags &&& 0x0fff)⟩

/-- create an unused page directory entry -/
def newUnused : PageDirEntry := ⟨0⟩

/-- gets flags of page directory entry -/
def getFlags (entry : PageDirEntry) : Nat := entry.bits &&& 0x00000fff

end PageDirEntry

/-! ### The two halves of an entry -/

private theorem testBit_low_mask (i : Nat) : (0xfff : Nat).testBit i = decide (i < 12) :=
  Nat.testBit_two_pow_sub_one 12 i

private theorem testBit_high_mask (i : Nat) :
    (0xfffff000 : Nat).testBit i = (decide (i < 32) && !decide (i < 12)) := by
  have hmask : (0xfffff000 : Nat) = (2 ^ 32 - 1) ^^^ (2 ^ 12 - 1) := rfl
  rw [hmask, Nat.testBit_xor, Nat.testBit_two_pow_sub_one, Nat.testBit_two_pow_sub_one]
  by_cases h12 : i < 12
  · simp [h12, show i < 32 by omega]
  · simp [h12]

theorem entry_land_high (addr flags : Nat) :
    ((addr &&& 0xfffff000) ||| (flags &&& 0xfff)) &&& 0xfffff000 = addr &&& 0xfffff000 := by
  apply Nat.eq_of_testBit_eq
  intro i
  simp only [Nat.testBit_land, Nat.testBit_lor, testBit_low_mask, testBit_high_mask]
  cases addr.testBit i <;> cases flags.testBit i <;> cases decide (i < 12) <;>
    cases decide (i < 32) <;> rfl

theorem entry_land_low (addr flags : Nat) :
    ((addr &&& 0xfffff000) ||| (flags &&& 0xfff)) &&& 0xfff = flags &&& 0xfff := by
  apply Nat.eq_of_testBit_eq
  intro i
  simp only [Nat.testBit_land, Nat.testBit_lor, testBit_low_mask, testBit_high_mask]
  cases addr.testBit i <;> cases flags.testBit i <;> cases decide (i < 12) <;>
    cases decide (i < 32) <;> rfl

theorem land_high_mask {v : Nat} (hv : v < 2 ^ 32) : v &&& 0xfffff000 = v / pageSize * pageSize := by
  have hpage : v / pageSize * pageSize = 2 ^ 12 * (v >>> 12) := by
    rw [Nat.shiftRight_eq_div_pow, Nat.mul_comm]
    rfl
  rw [hpage]
  apply Nat.eq_of_testBit_eq
  intro i
  rw [Nat.testBit_land, testBit_high_mask, Nat.testBit_mul_pow_two, Nat.testBit_shiftRight]
  by_cases hlow : i < 12
  · simp [hlow]
  · rw [show 12 + (i - 12) = i by omega]
    by_cases hhigh : i < 32
    · simp [hlow, hhigh, show 12 ≤ i by omega]
    · have hzero : v.testBit i = false := Nat.testBit_eq_false_of_lt
        (lt_of_lt_of_le hv (Nat.pow_le_pow_right (by decide) (by omega)))
      simp [hzero]

namespace PageTableEntry

@[simp] theorem getAddress_new (addr flags : Nat) :
    (new addr flags).getAddress = addr &&& 0xfffff000 :=
  entry_land_high addr flags

@[simp] theorem getFlags_new (addr flags : Nat) :
    (new addr flags).getFlags = flags &&& 0xfff :=
  entry_land_low addr flags

theorem getAddress_lt (entry : PageTableEntry) : entry.getAddress < 2 ^ 32 :=
  Nat.and_lt_two_pow _ (by decide)

theorem getAddress_aligned (entry : PageTableEntry) : entry.getAddress % pageSize = 0 :=
  calc entry.getAddress % pageSize
      = entry.bits &&& 0xfffff000 &&& (2 ^ 12 - 1) := (Nat.and_pow_two_sub_one_eq_mod _ 12).symm
    _ = entry.bits &&& (0xfffff000 &&& (2 ^ 12 - 1)) := Nat.land_assoc _ _ _
    _ = 0 := Nat.and_zero _

@[simp] theorem toPage?_newUnused : newUnused.toPage? = none := rfl

end PageTableEntry

/-! ### Encoding and decoding agree on every flag -/

/-- The frame `get_page` reports for an entry encoded from `frame`: the address masked to
its frame, `executable` always set, every other flag kept. -/
def PageFrame.masked (frame : PageFrame) : PageFrame :=
  { frame with addr := frame.addr &&& 0xfffff000, executable := true }

@[simp] theorem PageFrame.masked_addr (frame : PageFrame) :
    frame.masked.addr = frame.addr &&& 0xfffff000 := rfl

@[simp] theorem PageFrame.masked_writable (frame : PageFrame) :
    frame.masked.writable = frame.writable := rfl

@[simp] theorem PageFrame.masked_copyOnWrite (frame : PageFrame) :
    frame.masked.copyOnWrite = frame.copyOnWrite := rfl

@[simp] theorem PageFrame.masked_referenced (frame : PageFrame) :
    frame.masked.referenced = frame.referenced := rfl

@[simp] theorem PageFrame.masked_shared (frame : PageFrame) :
    frame.masked.shared = frame.shared := rfl

@[simp] theorem PageFrame.masked_present (frame : PageFrame) :
    frame.masked.present = frame.present := rfl

private theorem tableFlags_decode : ∀ present userMode writable copyOnWrite referenced
    shared : Bool,
    let flags := PageFrame.tableFlags
      ⟨0, present, userMode, writable, copyOnWrite, false, referenced, shared⟩
    flags &&& 0xfff = flags ∧ flags &&& PageTableFlags.global = 0 ∧
      decide (flags &&& PageTableFlags.present > 0) = present ∧
      decide (flags &&& PageTableFlags.userSupervisor > 0) = userMode ∧
      decide (flags &&& PageTableFlags.readWrite > 0) = writable ∧
      decide (flags &&& PageTableFlags.copyOnWrite > 0) = copyOnWrite ∧
      decide (flags &&& PageTableFlags.referenced > 0) = referenced ∧
      decide (flags &&& PageTableFlags.shared > 0) = shared := by
  decide

theorem PageFrame.tableFlags_land_low (frame : PageFrame) :
    frame.tableFlags &&& 0xfff = frame.tableFlags :=
  (tableFlags_decode frame.present frame.userMode frame.writable frame.copyOnWrite
    frame.referenced frame.shared).1

theorem PageFrame.tableFlags_global (frame : PageFrame) :
    frame.tableFlags &&& PageTableFlags.global = 0 :=
  (tableFlags_decode frame.present frame.userMode frame.writable frame.copyOnWrite
    frame.referenced frame.shared).2.1

theorem PageFrame.fromEntry_new (frame : PageFrame) (addr : Nat) :
    PageFrame.fromEntry (PageTableEntry.new addr frame.tableFlags) =
      { frame with addr := addr &&& 0xfffff000, executable := true } := by
  obtain ⟨-, -, hpresent, huser, hwritable, hcow, hreferenced, hshared⟩ :=
    tableFlags_decode frame.present frame.userMode frame.writable frame.copyOnWrite
      frame.referenced frame.shared
  simp only [PageFrame.fromEntry, PageTableEntry.getAddress_new, PageTableEntry.getFlags_new,
    PageFrame.tableFlags_land_low]
  rcases frame with ⟨_, _, _, _, _, _, _, _⟩
  simp only [PageFrame.mk.injEq, true_and]
  exact ⟨hpresent, huser, hwritable, hcow, hreferenced, hshared⟩

theorem PageFrame.fromEntry_tryFrom {frame : PageFrame} {entry : PageTableEntry}
    (h : PageTableEntry.tryFrom frame = some entry) :
    PageFrame.fromEntry entry = frame.masked := by
  unfold PageTableEntry.tryFrom at h
  split at h
  · cases h
    exact PageFrame.fromEntry_new frame frame.addr
  · cases h

theorem PageTableEntry.tryFrom_eq_none_iff (frame : PageFrame) :
    PageTableEntry.tryFrom frame = none ↔ 2 ^ 32 ≤ frame.addr := by
  unfold PageTableEntry.tryFrom
  split <;> simp <;> omega

theorem PageTableEntry.tryFrom_present_ne_unused {frame : PageFrame}
    {entry : PageTableEntry} (h : PageTableEntry.tryFrom frame = some entry)
    (hpresent : frame.present = true) : entry.isUnused = false := by
  have hdecode := PageFrame.fromEntry_tryFrom h
  have hflag : (PageFrame.fromEntry entry).present = true := by
    rw [hdecode]
    exact hpresent
  cases hunused : entry.isUnused
  · rfl
  · have hzero : entry = ⟨0⟩ := by
      cases entry
      simp_all [PageTableEntry.isUnused]
    subst hzero
    exact absurd hflag (by decide)

theorem PageTableEntry.toPage?_tryFrom {frame : PageFrame} {entry : PageTableEntry}
    (h : PageTableEntry.tryFrom frame = some entry) :
    entry.toPage? = if entry.isUnused then none else some frame.masked := by
  unfold PageTableEntry.toPage?
  split <;> simp_all [PageFrame.fromEntry_tryFrom h]

@[simp] theorem PageFrame.masked_masked (frame : PageFrame) : frame.masked.masked = frame.masked := by
  simp [PageFrame.masked, Nat.land_assoc]

/-- A decoded entry is its own `masked` form. -/
@[simp] theorem PageFrame.masked_fromEntry (entry : PageTableEntry) :
    (PageFrame.fromEntry entry).masked = PageFrame.fromEntry entry := by
  simp [PageFrame.masked, PageFrame.fromEntry, PageTableEntry.getAddress, Nat.land_assoc]

theorem PageFrame.masked_addr_of_aligned {frame : PageFrame} (halign : frame.addr % pageSize = 0)
    (hlt : frame.addr < 2 ^ 32) : frame.masked.addr = frame.addr := by
  rw [PageFrame.masked_addr, land_high_mask hlt, Nat.div_mul_cancel (Nat.dvd_of_mod_eq_zero halign)]

theorem entry_land_flag (addr flags bit : Nat) (hbit : 0xfff &&& bit = bit) :
    ((addr &&& 0xfffff000) ||| (flags &&& 0xfff)) &&& bit = flags &&& bit :=
  calc ((addr &&& 0xfffff000) ||| (flags &&& 0xfff)) &&& bit
      = (((addr &&& 0xfffff000) ||| (flags &&& 0xfff)) &&& 0xfff) &&& bit := by
        rw [Nat.land_assoc, hbit]
    _ = flags &&& bit := by rw [entry_land_low, Nat.land_assoc, hbit]

theorem PageDirEntry.new_present (addr flags : Nat) (hflags : flags &&& 1 = 1) :
    (PageDirEntry.new addr flags).bits &&& PageDirFlags.present = 1 :=
  (entry_land_flag addr flags 1 (by decide)).trans hflags

end Ockernel
