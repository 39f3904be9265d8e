import Ockernel.Paging.Frame

/-!
The x86 non-PAE page directory of `arch/i586/paging.rs`: 1024 table slots beside the 1024
directory entries the MMU reads.  A `TableRef` holds its table by value, so a directory
here owns every table it references; the system model shares the kernel half explicitly.

The main results are `setPage_spec`, what one `set_page` does to every address,
`reach_slotsAgree`, that the two slot arrays agree in every reachable directory, and
`drop_eq`, what dropping a directory frees.
-/

namespace Ockernel

theorem pageSize_eq : pageSize = 4096 := rfl

/-- struct for page table -/
structure PageTable where
  entries : Fin 1024 → PageTableEntry

/-- `PageTable::default`: every entry unused. -/
instance : Inhabited PageTable := ⟨⟨fun _ => PageTableEntry.newUnused⟩⟩

/-- wrapper for a reference to a page table to help us manage allocations -/
structure TableRef where
  table : PageTable
  canFree : Bool

/-- x86 non-PAE PageDirectory implementation -/
structure PageDir where
  tables : Fin 1024 → Option TableRef
  tablesPhysical : Fin 1024 → PageDirEntry
  tablesPhysicalAddr : Nat
  canFree : Bool

/-- The slot `addr >> 22` of a `u32` address; the `% 1024` is the identity on 32 bits. -/
def dirIndex (addr : Nat) : Fin 1024 := ⟨addr / 0x400000 % 1024, Nat.mod_lt _ (by decide)⟩

/-- The slot `page / 1024` of a page number `addr / PAGE_SIZE`. -/
def tableIndex (page : Nat) : Fin 1024 := ⟨page / 1024 % 1024, Nat.mod_lt _ (by decide)⟩

/-- The entry `page % 1024` of a page number within its table. -/
def entryIndex (page : Nat) : Fin 1024 := ⟨page % 1024, Nat.mod_lt _ (by decide)⟩

theorem dirIndex_mul_pageSize (page : Nat) : dirIndex (page * pageSize) = tableIndex page := by
  simp only [dirIndex, tableIndex, pageSize_eq, Fin.mk.injEq]
  omega

theorem eq_of_index_eq {a b : Nat} (ha : a < 2 ^ 20) (hb : b < 2 ^ 20)
    (hslot : tableIndex a = tableIndex b) (hentry : entryIndex a = entryIndex b) : a = b := by
  simp only [tableIndex, entryIndex, Fin.mk.injEq] at hslot hentry
  omega

namespace PageDir

/-- `PageDir::new`: no tables, the all-zero `tables_physical` of `alloc_zeroed`, and its
physical address as the current directory translates it (`none`: the `expect` fails). -/
def new (translated : Option Nat) : Except Fault PageDir :=
  match translated with
  | none => .error (.panic "allocated memory not mapped into kernel memory")
  | some phys =>
    if phys < 2 ^ 32 then
      .ok { tables := fun _ => none, tablesPhysical := fun _ => PageDirEntry.newUnused,
            tablesPhysicalAddr := phys, canFree := true }
    else .error (.panic "called Result::unwrap() on an Err value")

/-- The directory `PageDir::new` returns when its `tables_physical` is at `phys`. -/
def empty (phys : Nat) : PageDir :=
  ⟨fun _ => none, fun _ => PageDirEntry.newUnused, phys, true⟩

theorem new_some {phys : Nat} (h : phys < 2 ^ 32) : PageDir.new (some phys) = .ok (empty phys) := by
  simp only [PageDir.new, if_pos h]
  rfl

/-- adds an existing top level page table to the page directory -/
def addPageTable (dir : PageDir) (split : KernelSplit) (addr : Nat) (table : PageTable)
    (physicalAddr : Nat) (canFree : Bool) : PageDir :=
  let idx := dirIndex addr
  let entry :=
    if idx.val ≥ split.addr / pageSize / 1024 then
      PageDirEntry.new physicalAddr (PageDirFlags.present ||| PageDirFlags.readWrite |||
        PageDirFlags.userSupervisor ||| PageDirFlags.global)
    else
      PageDirEntry.new physicalAddr (PageDirFlags.present ||| PageDirFlags.readWrite |||
        PageDirFlags.userSupervisor)
  { dir with
    tablesPhysical := Function.update dir.tablesPhysical idx entry
    tables := Function.update dir.tables idx (some ⟨table, canFree⟩) }

/-- removes a top level page table from the page directory; both `can_free` branches leave
the directory the same, freeing the table is the heap's business -/
def removePageTable (dir : PageDir) (addr : Nat) : PageDir :=
  let idx := dirIndex addr
  match dir.tables idx with
  | some _ =>
    { dir with
      tables := Function.update dir.tables idx none
      tablesPhysical := Function.update dir.tablesPhysical idx PageDirEntry.newUnused }
  | none => dir

/-- checks whether we have a page table for this address already -/
def hasPageTable (dir : PageDir) (addr : Nat) : Bool := (dir.tables (dirIndex addr)).isSome

/-- given a virtual address, get the page that contains it -/
def getPage (dir : PageDir) (addr : Nat) : Option PageFrame :=
  match dir.tables (tableIndex (addr / pageSize)) with
  | some table => (table.table.entries (entryIndex (addr / pageSize))).toPage?
  | none => none

/-- checks whether the page that contains `addr` is unused -/
def isUnused (dir : PageDir) (addr : Nat) : Bool :=
  match dir.tables (tableIndex (addr / pageSize)) with
  | some table => (table.table.entries (entryIndex (addr / pageSize))).isUnused
  | none => true

/-- the overriding `virt_to_phys`: the entry's address, without the offset within the page -/
def virtToPhys (dir : PageDir) (virt : Nat) : Option Nat :=
  match dir.tables (tableIndex (virt / pageSize)) with
  | some table =>
    let entry := table.table.entries (entryIndex (virt / pageSize))
    if entry.isUnused then none else some entry.getAddress
  | none => none

/-- The raw entry of page number `page` as the MMU reads it, when its table exists. -/
def tableEntry (dir : PageDir) (page : Nat) : Option PageTableEntry :=
  (dir.tables (tableIndex page)).map fun ref => ref.table.entries (entryIndex page)

end PageDir

/-- The default `virt_to_phys` of the `PageDirectory` trait, read through the directory's
`get_page`: the frame's address with the offset within the page put back.  `!page_size` is
taken in a 32-bit `usize`. -/
def PageDirectory.virtToPhys (getPage : Nat → Option PageFrame) (virt : Nat) : Option Nat :=
  let pageSize := pageSize - 1
  let pageAddr := virt &&& (2 ^ 32 - 1 - pageSize)
  let offset := virt &&& pageSize
  (getPage pageAddr).map fun page => page.addr ||| offset

/-- What `set_page` gets from outside the directory when it must allocate a page table: the
pointer `alloc_zeroed` returns (`0` is null) and `CURRENT_PAGE_DIR.virt_to_phys` of it. -/
structure TableAlloc where
  ptr : Nat
  phys : Option Nat

/-- The entry `set_page` builds: `try_into` of the frame, or the unused entry for `None`. -/
def PageTableEntry.ofPage? : Option PageFrame → Except PagingError PageTableEntry
  | some page =>
    match PageTableEntry.tryFrom page with
    | some entry => .ok entry
    | none => .error .badFrame
  | none => .ok PageTableEntry.newUnused

namespace PageDir

/-- The lazy page-table allocation at the top of `set_page`, for the page number `page`. -/
def ensureTable (dir : PageDir) (split : KernelSplit) (alloc : TableAlloc) (page : Nat) :
    Except Fault (Except PagingError PageDir) :=
  if (dir.tables (tableIndex page)).isNone then
    if alloc.ptr = 0 then .ok (.error .allocError)
    else if alloc.ptr < split.addr then
      .error (.panic "new page table isn\x27t in kernel memory")
    else
      match alloc.phys with
      | none => .error (.panic "new page table isn\x27t mapped into kernel memory")
      | some phys =>
        if phys < 2 ^ 32 then .ok (.ok (dir.addPageTable split (page * pageSize) default phys true))
        else .error (.panic "called Result::unwrap() on an Err value")
  else .ok (.ok dir)

/-- Store `entry` at page number `page` in its table; `none` is the `unwrap` of an absent
table failing. -/
def writeEntry (dir : PageDir) (page : Nat) (entry : PageTableEntry) : Option PageDir :=
  match dir.tables (tableIndex page) with
  | some ref =>
    some { dir with
      tables := Function.update dir.tables (tableIndex page)
        (some { ref with table := ⟨Function.update ref.table.entries (entryIndex page) entry⟩ }) }
  | none => none

/-- insert a page frame into the directory; the TLB flush for the current directory is not
modelled -/
def setPage (dir : PageDir) (split : KernelSplit) (alloc : TableAlloc) (addr : Nat)
    (page : Option PageFrame) : Outcome PageDir Unit :=
  let addr := addr / pageSize
  match dir.ensureTable split alloc addr with
  | .error fault => .error fault
  | .ok (.error err) => .ok (.error err, dir)
  | .ok (.ok dir) =>
    match PageTableEntry.ofPage? page with
    | .error err => .ok (.error err, dir)
    | .ok entry =>
      let entry :=
        if addr ≥ split.addr then entry.setFlags (entry.getFlags ||| PageTableFlags.global)
        else entry
      match dir.writeEntry addr entry with
      | some dir => .ok (.ok (), dir)
      | none => .error (.panic "called Option::unwrap() on a None value")

end PageDir

/-! ### One lemma per operation: what each does to `get_page` -/

namespace PageDir

variable {split : KernelSplit}

theorem isUnused_eq_getPage_isNone (dir : PageDir) (addr : Nat) :
    dir.isUnused addr = (dir.getPage addr).isNone := by
  simp only [isUnused, getPage]
  split
  · simp only [PageTableEntry.toPage?]
    split <;> simp_all
  · rfl

theorem getPage_addPageTable (dir : PageDir) (addr : Nat) (table : PageTable) (phys : Nat)
    (canFree : Bool) (w : Nat) :
    (dir.addPageTable split addr table phys canFree).getPage w =
      if tableIndex (w / pageSize) = dirIndex addr then
        (table.entries (entryIndex (w / pageSize))).toPage?
      else dir.getPage w := by
  simp only [getPage, addPageTable]
  split_ifs with hslot
  · rw [hslot, Function.update_same]
  · rw [Function.update_noteq hslot]

theorem getPage_addPageTable_default {dir : PageDir} {addr : Nat}
    (hempty : dir.tables (dirIndex addr) = none) (phys : Nat) (canFree : Bool) (w : Nat) :
    (dir.addPageTable split addr default phys canFree).getPage w = dir.getPage w := by
  rw [getPage_addPageTable]
  split_ifs with hslot
  · simp [getPage, hslot, hempty, default]
  · rfl

theorem getPage_removePageTable (dir : PageDir) (addr w : Nat) :
    (dir.removePageTable addr).getPage w =
      if tableIndex (w / pageSize) = dirIndex addr then none else dir.getPage w := by
  simp only [removePageTable]
  split
  · simp only [getPage]
    split_ifs with hslot
    · rw [hslot, Function.update_same]
    · rw [Function.update_noteq hslot]
  · split_ifs with hslot
    · simp_all [getPage]
    · rfl

theorem ensureTable_cases {dir dir' : PageDir} {alloc : TableAlloc} {page : Nat}
    (h : dir.ensureTable split alloc page = .ok (.ok dir')) :
    ((dir.tables (tableIndex page)).isSome ∧ dir' = dir) ∨
      (dir.tables (tableIndex page) = none ∧ alloc.ptr ≠ 0 ∧
        ∃ phys, dir' = dir.addPageTable split (page * pageSize) default phys true) := by
  unfold ensureTable at h
  split_ifs at h with hnone hnull _ <;> try cases h
  · split at h
    · cases h
    · split_ifs at h
      · cases h
        exact .inr ⟨Option.isNone_iff_eq_none.mp hnone, hnull, _, rfl⟩
  · exact .inl ⟨by simpa [Option.isSome_iff_ne_none] using hnone, rfl⟩

theorem ensureTable_isSome {dir dir' : PageDir} {alloc : TableAlloc} {page : Nat}
    (h : dir.ensureTable split alloc page = .ok (.ok dir')) :
    (dir'.tables (tableIndex page)).isSome := by
  rcases ensureTable_cases h with ⟨hsome, rfl⟩ | ⟨-, -, phys, rfl⟩
  · exact hsome
  · simp [addPageTable, dirIndex_mul_pageSize]

theorem getPage_ensureTable {dir dir' : PageDir} {alloc : TableAlloc} {page : Nat}
    (h : dir.ensureTable split alloc page = .ok (.ok dir')) (w : Nat) :
    dir'.getPage w = dir.getPage w := by
  rcases ensureTable_cases h with ⟨-, rfl⟩ | ⟨hempty, -, phys, rfl⟩
  · rfl
  · rw [← dirIndex_mul_pageSize] at hempty
    exact getPage_addPageTable_default hempty phys true w

theorem ensureTable_eq_allocError {dir : PageDir} {alloc : TableAlloc} {page : Nat} :
    dir.ensureTable split alloc page = .ok (.error .allocError) ↔
      dir.tables (tableIndex page) = none ∧ alloc.ptr = 0 := by
  unfold ensureTable
  split_ifs with hnone hnull <;> simp_all
  split
  · simp
  · split_ifs <;> simp

theorem ensureTable_error {dir : PageDir} {alloc : TableAlloc} {page : Nat} {err : PagingError}
    (h : dir.ensureTable split alloc page = .ok (.error err)) :
    err = .allocError ∧ dir.tables (tableIndex page) = none ∧ alloc.ptr = 0 := by
  have herr : err = .allocError := by
    unfold ensureTable at h
    split_ifs at h <;> try cases h
    · rfl
    · split at h
      · cases h
      · split_ifs at h
        cases h
  subst herr
  exact ⟨rfl, ensureTable_eq_allocError.mp h⟩

theorem getPage_writeEntry {dir dir' : PageDir} {page : Nat} {entry : PageTableEntry}
    (h : dir.writeEntry page entry = some dir') (hpage : page < 2 ^ 20) {w : Nat}
    (hw : w < 2 ^ 32) :
    dir'.getPage w = if w / pageSize = page then entry.toPage? else dir.getPage w := by
  unfold writeEntry at h
  split at h
  · rename_i ref hslot
    cases h
    have hwpage : w / pageSize < 2 ^ 20 := by simp only [pageSize_eq]; omega
    simp only [getPage]
    split_ifs with heq
    · subst heq
      simp
    · by_cases hsame : tableIndex (w / pageSize) = tableIndex page
      · have hentry : entryIndex (w / pageSize) ≠ entryIndex page :=
          fun hentry => heq (eq_of_index_eq hwpage hpage hsame hentry)
        rw [hsame, Function.update_same, hslot]
        exact congrArg PageTableEntry.toPage? (Function.update_noteq hentry _ _)
      · rw [Function.update_noteq hsame]
  · cases h

theorem writeEntry_isSome {dir : PageDir} {page : Nat} (entry : PageTableEntry)
    (hslot : (dir.tables (tableIndex page)).isSome) : (dir.writeEntry page entry).isSome := by
  unfold writeEntry
  split <;> simp_all

theorem tableEntry_writeEntry {dir dir' : PageDir} {page : Nat} {entry : PageTableEntry}
    (h : dir.writeEntry page entry = some dir') : dir'.tableEntry page = some entry := by
  unfold writeEntry at h
  split at h
  · cases h
    simp [tableEntry]
  · cases h

end PageDir

/-- The directory `PageDir::new` gives at `0x3000`, with one table, added at slot 0, that
maps page `0x1000` to frame `0x5000`, present and writable. -/
def onePageDir : PageDir :=
  (PageDir.empty 0x3000).addPageTable KernelSplit.linkedBase 0 ⟨fun j => if j = 1 then ⟨0x5003⟩ else PageTableEntry.newUnused⟩
    0x2000 true

theorem not_split_le_page (split : KernelSplit) {addr : Nat} (haddr : addr < 2 ^ 32) :
    ¬ addr / pageSize ≥ split.addr := by
  have := split.pages_lt
  simp only [pageSize_eq]
  omega

/-! ### `set_page` on every address -/

theorem PageTableEntry.isUnused_iff (entry : PageTableEntry) :
    entry.isUnused = true ↔ entry = PageTableEntry.newUnused := by
  cases entry
  simp [PageTableEntry.isUnused, PageTableEntry.newUnused]

/-- What `get_page` reports in the page `set_page(v, p)` wrote: nothing for `None` or for a
frame that encodes to the all-zero entry, otherwise the frame with its address masked and
`executable` set. -/
def PageFrame.storedAs : Option PageFrame → Option PageFrame
  | none => none
  | some frame =>
    if PageTableEntry.tryFrom frame = some PageTableEntry.newUnused then none
    else some frame.masked

theorem PageTableEntry.toPage?_ofPage? {page : Option PageFrame} {entry : PageTableEntry}
    (h : PageTableEntry.ofPage? page = .ok entry) : entry.toPage? = PageFrame.storedAs page := by
  cases page with
  | none =>
    cases h
    rfl
  | some frame =>
    simp only [PageTableEntry.ofPage?] at h
    split at h
    · rename_i hencode
      cases h
      rw [PageTableEntry.toPage?_tryFrom hencode, PageFrame.storedAs, hencode]
      by_cases hunused : entry = PageTableEntry.newUnused
      · simp [hunused, PageTableEntry.isUnused, PageTableEntry.newUnused]
      · have hflag : entry.isUnused = false :=
          Bool.eq_false_iff.mpr fun hset => hunused ((PageTableEntry.isUnused_iff entry).mp hset)
        simp [hflag, hunused]
    · cases h

theorem PageFrame.storedAs_some {frame : PageFrame}
    (hne : frame.masked ≠ PageFrame.fromEntry PageTableEntry.newUnused) :
    PageFrame.storedAs (some frame) = some frame.masked := by
  simp only [PageFrame.storedAs]
  split_ifs with h
  · exact absurd (PageFrame.fromEntry_tryFrom h).symm hne
  · rfl

theorem PageFrame.storedAs_of_flag {frame : PageFrame}
    (hflag : frame.present = true ∨ frame.writable = true ∨ frame.copyOnWrite = true) :
    PageFrame.storedAs (some frame) = some frame.masked :=
  PageFrame.storedAs_some fun h => by
    have hp := congrArg PageFrame.present h
    have hw := congrArg PageFrame.writable h
    have hc := congrArg PageFrame.copyOnWrite h
    simp only [PageFrame.masked_present, PageFrame.masked_writable, PageFrame.masked_copyOnWrite]
      at hp hw hc
    rcases hflag with hf | hf | hf <;>
      simp [hf, PageFrame.fromEntry, PageTableEntry.getFlags, PageTableEntry.newUnused] at hp hw hc

theorem PageFrame.storedAs_present {frame : PageFrame} (hpresent : frame.present = true) :
    PageFrame.storedAs (some frame) = some frame.masked :=
  PageFrame.storedAs_of_flag (.inl hpresent)

namespace PageDir

variable {split : KernelSplit}

theorem setPage_of_ensureTable {dir dir₁ : PageDir} {alloc : TableAlloc} {addr : Nat}
    (page : Option PageFrame) (haddr : addr < 2 ^ 32)
    (hensure : dir.ensureTable split alloc (addr / pageSize) = .ok (.ok dir₁)) :
    dir.setPage split alloc addr page =
      match PageTableEntry.ofPage? page with
      | .error err => .ok (.error err, dir₁)
      | .ok entry =>
        match dir₁.writeEntry (addr / pageSize) entry with
        | some dir => .ok (.ok (), dir)
        | none => .error (.panic "called Option::unwrap() on a None value") := by
  simp only [setPage]
  rw [hensure]
  simp only [not_split_le_page split haddr, if_false]

/-- Everything a `set_page` that returns `Ok` does: allocate the table, write the entry. -/
theorem setPage_ok {dir dir' : PageDir} {alloc : TableAlloc} {addr : Nat}
    {page : Option PageFrame} (haddr : addr < 2 ^ 32)
    (h : dir.setPage split alloc addr page = .ok (.ok (), dir')) :
    ∃ dir₁ entry, dir.ensureTable split alloc (addr / pageSize) = .ok (.ok dir₁) ∧
      PageTableEntry.ofPage? page = .ok entry ∧
      dir₁.writeEntry (addr / pageSize) entry = some dir' := by
  rcases hensure : dir.ensureTable split alloc (addr / pageSize) with fault | err | dir₁
  · simp only [setPage, hensure] at h
    cases h
  · simp only [setPage, hensure] at h
    cases h
  · rw [setPage_of_ensureTable page haddr hensure] at h
    rcases hentry : PageTableEntry.ofPage? page with err | entry
    · simp only [hentry] at h
      cases h
    · simp only [hentry] at h
      rcases hwrite : dir₁.writeEntry (addr / pageSize) entry with _ | dir₂
      · simp only [hwrite] at h
        cases h
      · simp only [hwrite] at h
        cases h
        exact ⟨dir₁, entry, rfl, rfl, hwrite⟩

/-- Everything a `set_page` that returns `Err` does: a failed allocation or a too-wide frame. -/
theorem setPage_error {dir dir' : PageDir} {alloc : TableAlloc} {addr : Nat}
    {page : Option PageFrame} {err : PagingError} (haddr : addr < 2 ^ 32)
    (h : dir.setPage split alloc addr page = .ok (.error err, dir')) :
    (err = .allocError ∧ dir.tables (tableIndex (addr / pageSize)) = none ∧ alloc.ptr = 0 ∧
        dir' = dir) ∨
      (err = .badFrame ∧ (∃ frame, page = some frame ∧ 2 ^ 32 ≤ frame.addr) ∧
        dir.ensureTable split alloc (addr / pageSize) = .ok (.ok dir')) := by
  rcases hensure : dir.ensureTable split alloc (addr / pageSize) with fault | err' | dir₁
  · simp only [setPage, hensure] at h
    cases h
  · simp only [setPage, hensure] at h
    cases h
    obtain ⟨rfl, hempty, hnull⟩ := ensureTable_error hensure
    exact .inl ⟨rfl, hempty, hnull, rfl⟩
  · rw [setPage_of_ensureTable page haddr hensure] at h
    rcases hentry : PageTableEntry.ofPage? page with err' | entry
    · simp only [hentry] at h
      cases h
      cases page with
      | none => cases hentry
      | some frame =>
        simp only [PageTableEntry.ofPage?] at hentry
        split at hentry
        · cases hentry
        · rename_i hencode
          cases hentry
          exact .inr ⟨rfl, ⟨frame, rfl, (PageTableEntry.tryFrom_eq_none_iff frame).mp hencode⟩,
            rfl⟩
    · simp only [hentry] at h
      split at h <;> cases h

/-- After `set_page` returns `Ok`, only the page of `addr` changes, to `storedAs page`. -/
theorem getPage_setPage_ok {dir dir' : PageDir} {alloc : TableAlloc} {addr : Nat}
    {page : Option PageFrame} (haddr : addr < 2 ^ 32)
    (h : dir.setPage split alloc addr page = .ok (.ok (), dir')) {w : Nat} (hw : w < 2 ^ 32) :
    dir'.getPage w =
      if w / pageSize = addr / pageSize then PageFrame.storedAs page else dir.getPage w := by
  have hpage : addr / pageSize < 2 ^ 20 := by simp only [pageSize_eq]; omega
  obtain ⟨dir₁, entry, hensure, hentry, hwrite⟩ := setPage_ok haddr h
  rw [getPage_writeEntry hwrite hpage hw, PageTableEntry.toPage?_ofPage? hentry,
    getPage_ensureTable hensure]

theorem getPage_setPage_error {dir dir' : PageDir} {alloc : TableAlloc} {addr : Nat}
    {page : Option PageFrame} {err : PagingError} (haddr : addr < 2 ^ 32)
    (h : dir.setPage split alloc addr page = .ok (.error err, dir')) (w : Nat) :
    dir'.getPage w = dir.getPage w := by
  rcases setPage_error haddr h with ⟨-, -, -, rfl⟩ | ⟨-, -, hensure⟩
  · rfl
  · exact getPage_ensureTable hensure w

theorem ensureTable_of_getPage {dir : PageDir} {alloc : TableAlloc} {addr : Nat}
    (hmapped : (dir.getPage addr).isSome) :
    (dir.tables (tableIndex (addr / pageSize))).isSome ∧
      dir.ensureTable split alloc (addr / pageSize) = .ok (.ok dir) := by
  have hslot : (dir.tables (tableIndex (addr / pageSize))).isSome := by
    simp only [getPage] at hmapped
    split at hmapped <;> simp_all
  exact ⟨hslot, by simp [ensureTable, Option.isNone_iff_eq_none, Option.ne_none_iff_isSome.mpr hslot]⟩

theorem setPage_of_getPage {dir : PageDir} {alloc : TableAlloc} {addr : Nat} {frame : PageFrame}
    (haddr : addr < 2 ^ 32) (hmapped : (dir.getPage addr).isSome) (hframe : frame.addr < 2 ^ 32) :
    ∃ dir', dir.setPage split alloc addr (some frame) = .ok (.ok (), dir') := by
  obtain ⟨hslot, hensure⟩ := @ensureTable_of_getPage split dir alloc addr hmapped
  obtain ⟨dir', hwrite⟩ := Option.isSome_iff_exists.mp
    (writeEntry_isSome (PageTableEntry.new frame.addr frame.tableFlags) hslot)
  refine ⟨dir', ?_⟩
  rw [setPage_of_ensureTable _ haddr hensure]
  simp only [PageTableEntry.ofPage?, PageTableEntry.tryFrom, if_pos hframe, hwrite]

theorem setPage_none_of_getPage {dir : PageDir} {alloc : TableAlloc} {addr : Nat}
    (haddr : addr < 2 ^ 32) (hmapped : (dir.getPage addr).isSome) :
    ∃ dir', dir.setPage split alloc addr none = .ok (.ok (), dir') := by
  obtain ⟨hslot, hensure⟩ := @ensureTable_of_getPage split dir alloc addr hmapped
  obtain ⟨dir', hwrite⟩ := Option.isSome_iff_exists.mp
    (writeEntry_isSome PageTableEntry.newUnused hslot)
  refine ⟨dir', ?_⟩
  rw [setPage_of_ensureTable _ haddr hensure]
  simp only [PageTableEntry.ofPage?, hwrite]

theorem getPage_addr_aligned {dir : PageDir} {addr : Nat} {page : PageFrame}
    (h : dir.getPage addr = some page) : page.addr % pageSize = 0 := by
  simp only [getPage, PageTableEntry.toPage?] at h
  split at h
  · split at h
    · cases h
    · cases h
      exact PageTableEntry.getAddress_aligned _
  · cases h

theorem getPage_masked {dir : PageDir} {addr : Nat} {page : PageFrame}
    (h : dir.getPage addr = some page) : page.masked = page := by
  simp only [getPage, PageTableEntry.toPage?] at h
  split at h
  · split at h
    · cases h
    · cases h
      exact PageFrame.masked_fromEntry _
  · cases h

theorem getPage_addr_lt {dir : PageDir} {addr : Nat} {page : PageFrame}
    (h : dir.getPage addr = some page) : page.addr < 2 ^ 32 := by
  rw [← getPage_masked h, PageFrame.masked_addr]
  exact lt_of_le_of_lt Nat.and_le_right (by decide)

theorem setPage_some_addr_lt {dir dir' : PageDir} {alloc : TableAlloc} {addr : Nat}
    {frame : PageFrame} (haddr : addr < 2 ^ 32)
    (h : dir.setPage split alloc addr (some frame) = .ok (.ok (), dir')) :
    frame.addr < 2 ^ 32 := by
  obtain ⟨-, entry, -, hentry, -⟩ := setPage_ok haddr h
  by_contra hge
  have hnone := (PageTableEntry.tryFrom_eq_none_iff frame).mpr (by omega)
  simp [PageTableEntry.ofPage?, hnone] at hentry

/-- `set_page` compares the page number with `KERNEL_PAGE_DIR_SPLIT`, an address, and no
32-bit address reaches it: the entry it writes for a kernel-half address lacks `Global`,
although `add_page_table` gives the directory entry covering that address the flag. -/
theorem setPage_omits_global (dir : PageDir) (alloc : TableAlloc) {v : Nat} (hv : v < 2 ^ 32)
    (hkernel : split.addr ≤ v) {frame : PageFrame} {dir' : PageDir}
    (h : dir.setPage split alloc v (some frame) = .ok (.ok (), dir')) :
    (∃ entry, dir'.tableEntry (v / pageSize) = some entry ∧
      entry.bits &&& PageTableFlags.global = 0) ∧
    ∀ table phys canFree, ((dir.addPageTable split v table phys canFree).tablesPhysical
      (dirIndex v)).bits &&& PageDirFlags.global ≠ 0 := by
  obtain ⟨_, entry, _, hentry, hwrite⟩ := setPage_ok hv h
  refine ⟨⟨entry, tableEntry_writeEntry hwrite, ?_⟩, fun table phys canFree => ?_⟩
  · have hframe : frame.addr < 2 ^ 32 := setPage_some_addr_lt hv h
    simp only [PageTableEntry.ofPage?, PageTableEntry.tryFrom, if_pos hframe] at hentry
    cases hentry
    rw [PageTableEntry.new, entry_land_flag _ _ _ (by decide), frame.tableFlags_global]
  · have hslot : (dirIndex v).val ≥ split.addr / pageSize / 1024 := by
      simp only [dirIndex, pageSize_eq]
      omega
    simp only [addPageTable, Function.update_same, if_pos hslot, PageDirEntry.new]
    rw [entry_land_flag _ _ _ (by decide)]
    decide

theorem setPage_omits_global_kernelPage :
    (0xe0001000 : Nat) < 2 ^ 32 ∧ KernelSplit.linkedBase.addr ≤ 0xe0001000 ∧
      ∃ dir', (empty 0x3000).setPage KernelSplit.linkedBase ⟨0xe0100000, some 0x8000⟩ 0xe0001000
          (some { addr := 0x5000, present := true, writable := true }) = .ok (.ok (), dir') ∧
        ∃ entry, dir'.tableEntry (0xe0001000 / pageSize) = some entry ∧
          entry.bits &&& PageTableFlags.global = 0 :=
  ⟨by decide, by decide, _, rfl,
    (@setPage_omits_global KernelSplit.linkedBase (empty 0x3000) ⟨0xe0100000, some 0x8000⟩
      0xe0001000 (by decide) (by decide) { addr := 0x5000, present := true, writable := true } _
      rfl).1⟩

theorem virtToPhys_eq_getPage (dir : PageDir) (virt : Nat) :
    dir.virtToPhys virt = (dir.getPage virt).map PageFrame.addr := by
  simp only [virtToPhys, getPage]
  split
  · simp only [PageTableEntry.toPage?]
    split <;> rfl
  · rfl

theorem PageDirectory.virtToPhys_getPage (dir : PageDir) {virt : Nat} (hvirt : virt < 2 ^ 32) :
    PageDirectory.virtToPhys dir.getPage virt = (dir.virtToPhys virt).map (· + virt % pageSize) := by
  have hpage : dir.getPage (virt &&& (2 ^ 32 - 1 - (pageSize - 1))) = dir.getPage virt := by
    rw [show 2 ^ 32 - 1 - (pageSize - 1) = 0xfffff000 from rfl, land_high_mask hvirt, getPage,
      Nat.mul_div_cancel _ (by decide : 0 < pageSize)]
    rfl
  have hoffset : virt &&& (pageSize - 1) = virt % 2 ^ 12 := Nat.and_pow_two_sub_one_eq_mod virt 12
  simp only [PageDirectory.virtToPhys, hpage, hoffset, virtToPhys_eq_getPage, Option.map_map]
  rcases hget : dir.getPage virt with _ | page
  · rfl
  · obtain ⟨q, hq⟩ : ∃ q, page.addr = 2 ^ 12 * q :=
      ⟨page.addr / pageSize, by have := getPage_addr_aligned hget; simp only [pageSize_eq] at *; omega⟩
    simp only [Option.map_some', Function.comp, hq, pageSize_eq]
    rw [Nat.mul_add_lt_is_or (Nat.mod_lt _ (by decide))]

/-- The outcome of `set_page(v, p)`: on `Ok`, the page of `v` reports `storedAs p`, every
other 32-bit address is unchanged and `is_unused` agrees with `get_page`;
an `Err` is `AllocError` of a failed table allocation or `BadFrame` of an address that does
not fit in 32 bits, and changes no address; a too-wide address is refused unless the table
allocation failed first; and a failed table allocation is reported as `AllocError`. -/
def SetPageSpec (split : KernelSplit) (dir : PageDir) (alloc : TableAlloc) (v : Nat)
    (p : Option PageFrame) : Prop :=
  (∀ dir', dir.setPage split alloc v p = .ok (.ok (), dir') →
      (∀ w < 2 ^ 32, dir'.getPage w =
        if w / pageSize = v / pageSize then PageFrame.storedAs p else dir.getPage w) ∧
      ∀ w, dir'.isUnused w = (dir'.getPage w).isNone) ∧
    (∀ err dir', dir.setPage split alloc v p = .ok (.error err, dir') →
      ((err = .allocError ∧ dir.tables (tableIndex (v / pageSize)) = none ∧ alloc.ptr = 0) ∨
          (err = .badFrame ∧ ∃ frame, p = some frame ∧ 2 ^ 32 ≤ frame.addr)) ∧
        ∀ w, dir'.getPage w = dir.getPage w) ∧
    (∀ frame, p = some frame → 2 ^ 32 ≤ frame.addr →
      ∀ result dir', dir.setPage split alloc v p = .ok (result, dir') →
        result = .error .badFrame ∨
          (result = .error .allocError ∧ dir.tables (tableIndex (v / pageSize)) = none ∧
            alloc.ptr = 0)) ∧
    (dir.tables (tableIndex (v / pageSize)) = none → alloc.ptr = 0 →
      dir.setPage split alloc v p = .ok (.error .allocError, dir))

theorem setPage_spec (dir : PageDir) (alloc : TableAlloc) {v : Nat} (hv : v < 2 ^ 32)
    (p : Option PageFrame) : dir.SetPageSpec split alloc v p := by
  have hpage : v / pageSize < 2 ^ 20 := by simp only [pageSize_eq]; omega
  refine ⟨fun dir' h => ?_, fun err dir' h => ?_, fun frame hframe hwide result dir' h => ?_,
    fun hempty hnull => ?_⟩
  · exact ⟨fun w hw => getPage_setPage_ok hv h hw, isUnused_eq_getPage_isNone dir'⟩
  · refine ⟨?_, getPage_setPage_error hv h⟩
    rcases setPage_error hv h with ⟨rfl, hempty, hnull, -⟩ | ⟨rfl, hwide, -⟩
    · exact .inl ⟨rfl, hempty, hnull⟩
    · exact .inr ⟨rfl, hwide⟩
  · rcases result with err | ⟨⟩
    · rcases setPage_error hv h with ⟨rfl, hempty, hnull, -⟩ | ⟨rfl, -, -⟩
      · exact .inr ⟨rfl, hempty, hnull⟩
      · exact .inl rfl
    · obtain ⟨-, entry, -, hentry, -⟩ := setPage_ok hv h
      have hencode : PageTableEntry.tryFrom frame = none :=
        (PageTableEntry.tryFrom_eq_none_iff frame).mpr hwide
      simp [hframe, PageTableEntry.ofPage?, hencode] at hentry
  · have hensure : dir.ensureTable split alloc (v / pageSize) = .ok (.error .allocError) :=
      ensureTable_eq_allocError.mpr ⟨hempty, hnull⟩
    simp only [setPage]
    rw [hensure]

/-- Unmapping the page of `onePageDir` returns `Ok`, so the first part of the outcome applies. -/
theorem setPage_spec_onePageDir :
    (0x1000 : Nat) < 2 ^ 32 ∧
      PageDir.SetPageSpec KernelSplit.linkedBase onePageDir ⟨0, none⟩ 0x1000 none ∧
      ∃ dir', onePageDir.setPage KernelSplit.linkedBase ⟨0, none⟩ 0x1000 none = .ok (.ok (), dir') :=
  ⟨by decide, setPage_spec _ _ (by decide) _, _, rfl⟩

theorem setPage_cases {dir dir' : PageDir} {alloc : TableAlloc} {addr : Nat}
    {page : Option PageFrame} {result : Except PagingError Unit}
    (h : dir.setPage split alloc addr page = .ok (result, dir')) :
    dir' = dir ∨ dir.ensureTable split alloc (addr / pageSize) = .ok (.ok dir') ∨
      ∃ dir₁ entry, dir.ensureTable split alloc (addr / pageSize) = .ok (.ok dir₁) ∧
        dir₁.writeEntry (addr / pageSize) entry = some dir' := by
  rcases hensure : dir.ensureTable split alloc (addr / pageSize) with fault | err | dir₁
  · simp only [setPage, hensure] at h
    cases h
  · simp only [setPage, hensure] at h
    cases h
    exact .inl rfl
  · simp only [setPage, hensure] at h
    split at h
    · cases h
      exact .inr (.inl rfl)
    · split at h
      · cases h
        exact .inr (.inr ⟨dir₁, _, rfl, by assumption⟩)
      · cases h

/-! ### The slot arrays agree in every reachable directory -/

/-- The two slot arrays agree: slot `i` holds a table exactly when directory entry `i` has
its `Present` flag, and an empty slot's entry is all-zero. -/
def SlotsAgree (dir : PageDir) : Prop :=
  ∀ i, ((dir.tables i).isSome ↔ (dir.tablesPhysical i).bits &&& PageDirFlags.present ≠ 0) ∧
    ((dir.tables i).isNone → dir.tablesPhysical i = PageDirEntry.newUnused)

/-- The directories `PageDir::new` and any sequence of `set_page`, `add_page_table` and
`remove_page_table` calls can leave, an `Err` of `set_page` included. -/
inductive Reach (split : KernelSplit) : PageDir → Prop where
  | new {translated : Option Nat} {dir : PageDir} : PageDir.new translated = .ok dir →
      Reach split dir
  | setPage {dir dir' : PageDir} {alloc : TableAlloc} {addr : Nat} {page : Option PageFrame}
      {result : Except PagingError Unit} : Reach split dir →
      dir.setPage split alloc addr page = .ok (result, dir') → Reach split dir'
  | addPageTable {dir : PageDir} (addr : Nat) (table : PageTable) (phys : Nat)
      (canFree : Bool) : Reach split dir →
      Reach split (dir.addPageTable split addr table phys canFree)
  | removePageTable {dir : PageDir} (addr : Nat) : Reach split dir →
      Reach split (dir.removePageTable addr)

theorem slotsAgree_new {translated : Option Nat} {dir : PageDir}
    (h : PageDir.new translated = .ok dir) : dir.SlotsAgree := by
  unfold PageDir.new at h
  split at h
  · cases h
  · split_ifs at h
    cases h
    intro i
    simp [PageDirEntry.newUnused]

theorem slotsAgree_addPageTable {dir : PageDir} (hagree : dir.SlotsAgree) (addr : Nat)
    (table : PageTable) (phys : Nat) (canFree : Bool) :
    (dir.addPageTable split addr table phys canFree).SlotsAgree := by
  intro i
  simp only [addPageTable]
  by_cases hi : i = dirIndex addr
  · subst hi
    simp only [Function.update_same]
    refine ⟨?_, fun hnone => by cases hnone⟩
    split_ifs <;> (rw [PageDirEntry.new_present _ _ (by decide)]; simp)
  · simp only [Function.update_noteq hi]
    exact hagree i

theorem slotsAgree_removePageTable {dir : PageDir} (hagree : dir.SlotsAgree) (addr : Nat) :
    (dir.removePageTable addr).SlotsAgree := by
  intro i
  simp only [removePageTable]
  split
  · by_cases hi : i = dirIndex addr
    · subst hi
      simp [PageDirEntry.newUnused]
    · simp only [Function.update_noteq hi]
      exact hagree i
  · exact hagree i

theorem slotsAgree_writeEntry {dir dir' : PageDir} (hagree : dir.SlotsAgree) {page : Nat}
    {entry : PageTableEntry} (h : dir.writeEntry page entry = some dir') : dir'.SlotsAgree := by
  unfold writeEntry at h
  split at h
  · rename_i ref hslot
    cases h
    intro i
    by_cases hi : i = tableIndex page
    · subst hi
      have := hagree (tableIndex page)
      simp_all
    · simp only [Function.update_noteq hi]
      exact hagree i
  · cases h

theorem slotsAgree_ensureTable {dir dir' : PageDir} (hagree : dir.SlotsAgree)
    {alloc : TableAlloc} {page : Nat} (h : dir.ensureTable split alloc page = .ok (.ok dir')) :
    dir'.SlotsAgree := by
  rcases ensureTable_cases h with ⟨-, rfl⟩ | ⟨-, -, phys, rfl⟩
  · exact hagree
  · exact slotsAgree_addPageTable hagree _ _ _ _

theorem slotsAgree_setPage {dir dir' : PageDir} (hagree : dir.SlotsAgree) {alloc : TableAlloc}
    {addr : Nat} {page : Option PageFrame} {result : Except PagingError Unit}
    (h : dir.setPage split alloc addr page = .ok (result, dir')) : dir'.SlotsAgree := by
  rcases setPage_cases h with rfl | hensure | ⟨dir₁, entry, hensure, hwrite⟩
  · exact hagree
  · exact slotsAgree_ensureTable hagree hensure
  · exact slotsAgree_writeEntry (slotsAgree_ensureTable hagree hensure) hwrite

theorem reach_slotsAgree {dir : PageDir} (h : PageDir.Reach split dir) : dir.SlotsAgree := by
  induction h with
  | new hnew => exact slotsAgree_new hnew
  | setPage _ hset ih => exact slotsAgree_setPage ih hset
  | addPageTable addr table phys canFree _ ih =>
    exact slotsAgree_addPageTable ih addr table phys canFree
  | removePageTable addr _ ih => exact slotsAgree_removePageTable ih addr

/-- `onePageDir` (a table added to a new directory), then a page mapped at `0x400000` through
a table `set_page` allocates, then slot 0 removed. -/
theorem reach_slotsAgree_onePageDir :
    ∃ dir', onePageDir.setPage KernelSplit.linkedBase ⟨0xe0100000, some 0x100000⟩ 0x400000
        (some { addr := 0x7000, present := true, writable := true }) = .ok (.ok (), dir') ∧
      PageDir.Reach KernelSplit.linkedBase (dir'.removePageTable 0) ∧
      (dir'.removePageTable 0).SlotsAgree := by
  obtain ⟨dir', hset⟩ : ∃ dir', onePageDir.setPage KernelSplit.linkedBase
      ⟨0xe0100000, some 0x100000⟩ 0x400000
      (some { addr := 0x7000, present := true, writable := true }) = .ok (.ok (), dir') :=
    ⟨_, rfl⟩
  have hreach : PageDir.Reach KernelSplit.linkedBase (dir'.removePageTable 0) :=
    .removePageTable 0 (.setPage (.addPageTable _ _ _ _ (.new (PageDir.new_some (by decide)))) hset)
  exact ⟨dir', hset, hreach, reach_slotsAgree hreach⟩

/-! ### Dropping a directory -/

/-- `is_page_dir_current`: the directory's `tables_physical_addr` is the MMU base register
`cr3`. -/
def isPageDirCurrent (dir : PageDir) (cr3 : Nat) : Bool := dir.tablesPhysicalAddr = cr3

/-- The slot whose table `remove_page_table(addr)` deallocates: one that was added with
`can_free`.  The heap is not modelled, so a freed table is named by its slot. -/
def freedBy (dir : PageDir) (addr : Nat) : List Nat :=
  match dir.tables (dirIndex addr) with
  | some ref => if ref.canFree then [(dirIndex addr).val] else []
  | none => []

/-- One pass of the loop of `drop`: `remove_page_table(i << 22)`, and the table it frees. -/
def dropStep (acc : PageDir × List Nat) (i : Nat) : PageDir × List Nat :=
  (acc.1.removePageTable (i <<< 22), acc.2 ++ acc.1.freedBy (i <<< 22))

/-- `Drop for PageDir`: refuse to free the directory loaded in the MMU, remove every table
slot in order, and free the two slot arrays when `PageDir::new` allocated them.  The result
is the slots whose tables were deallocated, and whether the arrays were. -/
def drop (dir : PageDir) (cr3 : Nat) : Except Fault (List Nat × Bool) :=
  if dir.isPageDirCurrent cr3 then .error (.panic "attempted to free current page directory")
  else .ok (((List.range 1024).foldl dropStep (dir, [])).2, dir.canFree)

/-- Slot `i` holds a table the directory may free. -/
def ownsTable (dir : PageDir) (i : Nat) : Bool :=
  if h : i < 1024 then (dir.tables ⟨i, h⟩).any TableRef.canFree else false

theorem dirIndex_shiftLeft {i : Nat} (h : i < 1024) : dirIndex (i <<< 22) = ⟨i, h⟩ := by
  apply Fin.ext
  simp only [dirIndex, Nat.shiftLeft_eq]
  omega

theorem removePageTable_tables (dir : PageDir) (addr : Nat) :
    (dir.removePageTable addr).tables = Function.update dir.tables (dirIndex addr) none := by
  simp only [removePageTable]
  split
  · rfl
  · rename_i hnone
    rw [← hnone, Function.update_eq_self]

theorem freedBy_eq (dir : PageDir) {i : Nat} (h : i < 1024) :
    dir.freedBy (i <<< 22) = if dir.ownsTable i then [i] else [] := by
  simp only [freedBy, ownsTable, dirIndex_shiftLeft h, dif_pos h]
  rcases dir.tables ⟨i, h⟩ with _ | ref
  · rfl
  · by_cases hfree : ref.canFree <;> simp [hfree]

theorem foldl_dropStep (dir : PageDir) : ∀ k ≤ 1024,
    (∀ j : Fin 1024, ((List.range k).foldl dropStep (dir, [])).1.tables j =
      if j.val < k then none else dir.tables j) ∧
    ((List.range k).foldl dropStep (dir, [])).2 = (List.range k).filter dir.ownsTable
  | 0, _ => ⟨fun j => (if_neg (Nat.not_lt_zero _)).symm, rfl⟩
  | k + 1, hk => by
    obtain ⟨htables, hfreed⟩ := foldl_dropStep dir k (Nat.le_of_succ_le hk)
    have hown : ((List.range k).foldl dropStep (dir, [])).1.ownsTable k = dir.ownsTable k := by
      simp only [ownsTable, dif_pos hk, htables, if_neg (Nat.lt_irrefl k)]
    rw [List.range_succ, List.foldl_append, List.foldl_cons, List.foldl_nil, dropStep]
    refine ⟨fun j => ?_, ?_⟩
    · rw [removePageTable_tables, dirIndex_shiftLeft hk]
      by_cases hj : j = ⟨k, hk⟩
      · subst hj
        simp
      · have hjk : j.val ≠ k := fun h => hj (Fin.ext h)
        rw [Function.update_noteq hj, htables]
        by_cases hlt : j.val < k
        · simp [hlt, Nat.lt_succ_of_lt hlt]
        · simp [hlt, show ¬ j.val < k + 1 by omega]
    · rw [freedBy_eq _ hk, hown, hfreed, List.filter_append]
      by_cases hk' : dir.ownsTable k <;> simp [hk']

/-- Dropping a directory panics exactly when it is the one loaded in the MMU; otherwise it
deallocates exactly the tables it was given with `can_free`, each once and in slot order,
never one it only borrows, and frees its own slot arrays exactly when `PageDir::new`
allocated them. -/
theorem drop_eq (dir : PageDir) (cr3 : Nat) :
    dir.drop cr3 = if dir.tablesPhysicalAddr = cr3 then
        .error (.panic "attempted to free current page directory")
      else .ok ((List.range 1024).filter dir.ownsTable, dir.canFree) := by
  rw [drop, isPageDirCurrent, (foldl_dropStep dir 1024 (Nat.le_refl _)).2]
  by_cases hcur : dir.tablesPhysicalAddr = cr3 <;> simp [hcur]

end PageDir

/-- On a reachable directory the overriding `virt_to_phys` drops the offset that the
trait's default keeps. -/
theorem virtToPhys_drops_offset :
    PageDir.Reach KernelSplit.linkedBase onePageDir ∧ onePageDir.virtToPhys 0x1234 = some 0x5000 ∧
      PageDirectory.virtToPhys onePageDir.getPage 0x1234 = some 0x5234 :=
  ⟨.addPageTable _ _ _ _ (.new (PageDir.new_some (by decide))), rfl, rfl⟩

end Ockernel
