import Ockernel.Mm.Manager
import Mathlib.Data.Finset.Basic

/-!
The memory system the functions of `mm/paging.rs` work on: the kernel directory, the
directory of every live process, the frame allocator, the reference counter and physical
memory.  A `ProcessOrKernelPageDir` names one directory.

Modelled from the spec (I4): the kernel half of every directory is the kernel directory's,
so an access at or above `KERNEL_PAGE_DIR_SPLIT` through any directory reads or writes the
kernel directory.  Kernel code reads and writes bytes through the directory loaded in its
CPU's MMU; an absent or not-present page is a page fault.

`view` is what `get_page` reports through a directory of a state; `view_setPage_ok` and
`view_setPage_error` say what one `set_page` does to the view of every directory.
-/

namespace Ockernel

/-- A directory as `ProcessOrKernelPageDir` names it: a process's, or the kernel's. -/
inductive ProcessOrKernelPageDir where
  | process (id : Nat)
  | kernel
deriving DecidableEq, Repr

/-- The state of the memory system: the kernel directory, the live processes and their
directories, the reference counter, the frame allocator and physical memory. -/
structure Kernel where
  kernelDir : PageDir
  processes : Finset Nat
  dirs : Nat → PageDir
  refs : PageRefCounter
  manager : PageManager
  memory : Nat → UInt8

namespace Kernel

variable (split : KernelSplit)

/-- The panic of `get_process(id).unwrap()` for a process that does not exist. -/
def noProcess : Fault := .panic "called Option::unwrap() on a None value"

/-- The directory of `get_process(id)`, or the kernel directory. -/
def lookup (k : Kernel) : ProcessOrKernelPageDir → Option PageDir
  | .kernel => some k.kernelDir
  | .process id => if id ∈ k.processes then some (k.dirs id) else none

/-- The directory whose tables hold `addr` when it is reached through `dir`. -/
def holder (dir : ProcessOrKernelPageDir) (addr : Nat) : ProcessOrKernelPageDir :=
  if split.addr ≤ addr then .kernel else dir

/-- What `get_page(addr)` reports through the directory `dir` of this state. -/
def pageIn (k : Kernel) (dir : PageDir) (addr : Nat) : Option PageFrame :=
  if split.addr ≤ addr then k.kernelDir.getPage addr else dir.getPage addr

/-- What `get_page` reports through a named directory; nothing through a dead one. -/
def view (k : Kernel) (dir : ProcessOrKernelPageDir) (addr : Nat) : Option PageFrame :=
  match k.lookup dir with
  | some d => k.pageIn split d addr
  | none => none

/-- Put a directory back into the state. -/
def store (k : Kernel) : ProcessOrKernelPageDir → PageDir → Kernel
  | .kernel, d => { k with kernelDir := d }
  | .process id, d => { k with dirs := Function.update k.dirs id d }

/-- `ProcessOrKernelPageDir::get_page` -/
def getPage (k : Kernel) (dir : ProcessOrKernelPageDir) (addr : Nat) :
    Except Fault (Option PageFrame) :=
  match k.lookup dir with
  | some d => .ok (k.pageIn split d addr)
  | none => .error noProcess

/-- `ProcessOrKernelPageDir::virt_to_phys`, the directory's overriding `virt_to_phys` -/
def virtToPhys (k : Kernel) (dir : ProcessOrKernelPageDir) (virt : Nat) :
    Except Fault (Option Nat) :=
  match k.lookup dir with
  | some d => .ok (if split.addr ≤ virt then k.kernelDir.virtToPhys virt else d.virtToPhys virt)
  | none => .error noProcess

/-- `ProcessOrKernelPageDir::set_page`, on the directory whose tables hold `addr` -/
def setPage (k : Kernel) (alloc : TableAlloc) (dir : ProcessOrKernelPageDir) (addr : Nat)
    (page : Option PageFrame) : Outcome Kernel Unit :=
  match k.lookup dir with
  | none => .error noProcess
  | some d =>
    let d := if split.addr ≤ addr then k.kernelDir else d
    match d.setPage split alloc addr page with
    | .error fault => .error fault
    | .ok (result, d) => .ok (result, k.store (holder split dir addr) d)

/-- The physical address of byte `addr` for a CPU whose MMU has `mmu` loaded. -/
def translate (k : Kernel) (mmu : ProcessOrKernelPageDir) (addr : Nat) : Except Fault Nat :=
  match k.getPage split mmu addr with
  | .error fault => .error fault
  | .ok (some page) =>
    if page.present then .ok (page.addr + addr % pageSize) else .error (.pageFault addr)
  | .ok none => .error (.pageFault addr)

/-- `copy_from_slice` of the `n` bytes at virtual `src` to virtual `dst`, byte by byte from
the first, through the MMU. -/
def copyBytes (k : Kernel) (mmu : ProcessOrKernelPageDir) (src dst : Nat) :
    Nat → Except Fault Kernel
  | 0 => .ok k
  | n + 1 =>
    match k.translate split mmu src, k.translate split mmu dst with
    | .ok s, .ok d =>
      copyBytes { k with memory := Function.update k.memory d (k.memory s) } mmu (src + 1)
        (dst + 1) n
    | .error fault, _ => .error fault
    | .ok _, .error fault => .error fault

/-- `PAGE_REF_COUNTER.lock().remove_reference(phys)` -/
def removeReference (k : Kernel) (phys : Nat) : Except Fault Kernel :=
  (k.refs.removeReference k.manager phys).map fun (refs, manager) => { k with refs, manager }

/-- given a page frame, free its contents or otherwise clean them up with the proper method;
`freeShared` is what `shared::free_shared_reference`, not under `src/`, answers -/
def freePage (k : Kernel) (freeShared : Nat → Bool) (page : PageFrame) : Except Fault Kernel :=
  if page.shared then
    if !freeShared page.addr then k.removeReference page.addr else .ok k
  else if page.referenced then k.removeReference page.addr
  else (k.manager.setFrameFree page.addr).map fun manager => { k with manager }

/-- One iteration of `free_page_dir`: free the page `dir` maps at `addr`, if any. -/
def freePageAt (freeShared : Nat → Bool) (dir : PageDir) (k : Kernel) (addr : Nat) :
    Except Fault Kernel :=
  match dir.getPage addr with
  | some page => k.freePage freeShared page
  | none => .ok k

/-- frees all pages in the provided page directory: every mapped page below the split -/
def freePageDir (k : Kernel) (freeShared : Nat → Bool) (dir : PageDir) : Except Fault Kernel :=
  (stepBy 0 split.addr pageSize).foldlM (freePageAt freeShared dir) k

/-- Dropping the `FreeablePageDir` of process `id`: `free_page_dir` on it, after which the
directory is no longer live. -/
def dropProcessDir (k : Kernel) (freeShared : Nat → Bool) (id : Nat) : Except Fault Kernel :=
  if id ∈ k.processes then
    (k.freePageDir split freeShared (k.dirs id)).map
      fun k => { k with processes := k.processes.erase id }
  else .ok k

/-! ### Frame lemmas of the state -/

@[simp] theorem store_processes (k : Kernel) (dir : ProcessOrKernelPageDir) (d : PageDir) :
    (k.store dir d).processes = k.processes := by cases dir <;> rfl

@[simp] theorem store_refs (k : Kernel) (dir : ProcessOrKernelPageDir) (d : PageDir) :
    (k.store dir d).refs = k.refs := by cases dir <;> rfl

@[simp] theorem store_manager (k : Kernel) (dir : ProcessOrKernelPageDir) (d : PageDir) :
    (k.store dir d).manager = k.manager := by cases dir <;> rfl

@[simp] theorem store_memory (k : Kernel) (dir : ProcessOrKernelPageDir) (d : PageDir) :
    (k.store dir d).memory = k.memory := by cases dir <;> rfl

theorem lookup_isSome_kernel (k : Kernel) : (k.lookup .kernel).isSome := rfl

theorem lookup_isSome_iff {k k' : Kernel} (h : k'.processes = k.processes)
    (dir : ProcessOrKernelPageDir) : (k'.lookup dir).isSome ↔ (k.lookup dir).isSome := by
  cases dir <;> simp [lookup, h]

theorem split_le_iff_of_page_eq {w addr : Nat} (hpage : w / pageSize = addr / pageSize) :
    split.addr ≤ w ↔ split.addr ≤ addr := by
  have := split.aligned
  simp only [pageSize_eq] at hpage
  omega

theorem getPage_eq (k : Kernel) (dir : ProcessOrKernelPageDir) (addr : Nat)
    (hlive : (k.lookup dir).isSome) : k.getPage split dir addr = .ok (k.view split dir addr) := by
  simp only [getPage, view]
  split
  · rfl
  · simp_all

theorem virtToPhys_eq (k : Kernel) (dir : ProcessOrKernelPageDir) (virt : Nat)
    (hlive : (k.lookup dir).isSome) :
    k.virtToPhys split dir virt = .ok ((k.view split dir virt).map PageFrame.addr) := by
  simp only [virtToPhys, view, pageIn]
  split
  · split_ifs <;> simp [PageDir.virtToPhys_eq_getPage]
  · simp_all

theorem view_of_split_le (k : Kernel) {dir : ProcessOrKernelPageDir} {addr : Nat}
    (hlive : (k.lookup dir).isSome) (hkernel : split.addr ≤ addr) :
    k.view split dir addr = k.kernelDir.getPage addr := by
  simp only [view, pageIn, hkernel, if_true]
  split
  · rfl
  · simp_all

theorem view_isSome {k : Kernel} {dir : ProcessOrKernelPageDir} {addr : Nat}
    (h : (k.view split dir addr).isSome) : (k.lookup dir).isSome := by
  simp only [view] at h
  split at h <;> simp_all

theorem view_masked {k : Kernel} {dir : ProcessOrKernelPageDir} {addr : Nat}
    {page : PageFrame} (h : k.view split dir addr = some page) : page.masked = page := by
  simp only [view, pageIn] at h
  split at h
  · split_ifs at h <;> exact PageDir.getPage_masked h
  · cases h

theorem setPage_eq {k k' : Kernel} {alloc : TableAlloc} {dir : ProcessOrKernelPageDir}
    {addr : Nat} {page : Option PageFrame} {result : Except PagingError Unit}
    (h : k.setPage split alloc dir addr page = .ok (result, k')) :
    ∃ d d', k.lookup dir = some d ∧
      (if split.addr ≤ addr then k.kernelDir else d).setPage split alloc addr page =
        .ok (result, d') ∧
      k' = k.store (holder split dir addr) d' := by
  unfold setPage at h
  rcases hd : k.lookup dir with _ | d
  · simp only [hd] at h
    cases h
  · rcases hset : (if split.addr ≤ addr then k.kernelDir else d).setPage split alloc addr page
      with fault | ⟨result', d'⟩
    · simp only [hd, hset] at h
      cases h
    · simp only [hd, hset, Except.ok.injEq, Prod.mk.injEq] at h
      obtain ⟨rfl, rfl⟩ := h
      exact ⟨d, d', rfl, hset, rfl⟩

theorem view_of_holder (k : Kernel) {h dir : ProcessOrKernelPageDir} {d : PageDir} {w : Nat}
    (hd : k.lookup h = some d) (hlive : (k.lookup dir).isSome) (hholder : holder split dir w = h) :
    k.view split dir w = d.getPage w := by
  subst hholder
  unfold holder at hd
  rcases hdir : k.lookup dir with _ | d₀
  · simp [hdir] at hlive
  · simp only [view, pageIn, hdir]
    split_ifs at hd ⊢ <;> simp_all [lookup]

/-- Storing a directory changes the view only through the directories reading its tables. -/
theorem view_store (k : Kernel) {h : ProcessOrKernelPageDir} {d : PageDir}
    (hd : k.lookup h = some d) (d' : PageDir) (dir : ProcessOrKernelPageDir) (w : Nat) :
    (k.store h d').view split dir w =
      if (k.lookup dir).isSome ∧ holder split dir w = h then d'.getPage w
      else k.view split dir w := by
  cases h with
  | kernel =>
    cases hd
    cases dir <;> simp only [store, view, lookup, pageIn, holder] <;> split_ifs <;> simp_all
  | process id =>
    cases dir with
    | kernel => simp [store, view, lookup, pageIn, holder]
    | process id' =>
      by_cases hid : id' = id
      · subst hid
        simp only [store, view, lookup, pageIn, holder, Function.update_same]
        split_ifs <;> simp_all
      · have hne : holder split (.process id') w ≠ .process id := by
          unfold holder
          split_ifs <;> simp [hid]
        rw [if_neg fun h => hne h.2]
        simp only [store, view, lookup, pageIn, Function.update_noteq hid]

theorem view_setPage_ok {k k' : Kernel} {alloc : TableAlloc} {dir : ProcessOrKernelPageDir}
    {addr : Nat} {page : Option PageFrame} (haddr : addr < 2 ^ 32)
    (h : k.setPage split alloc dir addr page = .ok (.ok (), k'))
    (dir' : ProcessOrKernelPageDir) {w : Nat} (hw : w < 2 ^ 32) :
    k'.view split dir' w =
      if (k.lookup dir').isSome ∧ w / pageSize = addr / pageSize ∧
          (split.addr ≤ addr ∨ dir' = dir) then PageFrame.storedAs page
      else k.view split dir' w := by
  obtain ⟨d, d', hd, hset, rfl⟩ := setPage_eq split h
  have hsrc : k.lookup (holder split dir addr) =
      some (if split.addr ≤ addr then k.kernelDir else d) := by
    unfold holder
    split_ifs
    · rfl
    · exact hd
  rw [view_store split k hsrc, PageDir.getPage_setPage_ok haddr hset hw]
  by_cases hpage : w / pageSize = addr / pageSize
  · have hsame : holder split dir' w = holder split dir addr ↔ split.addr ≤ addr ∨ dir' = dir := by
      simp only [holder, split_le_iff_of_page_eq split hpage]
      split_ifs <;> simp_all
    simp only [hpage, hsame, true_and, if_true]
  · simp only [hpage, false_and, and_false, if_false]
    by_cases hreads : (k.lookup dir').isSome ∧ holder split dir' w = holder split dir addr
    · rw [if_pos hreads, view_of_holder split k hsrc hreads.1 hreads.2]
    · rw [if_neg hreads]

theorem view_setPage_error {k k' : Kernel} {alloc : TableAlloc} {dir : ProcessOrKernelPageDir}
    {addr : Nat} {page : Option PageFrame} {err : PagingError} (haddr : addr < 2 ^ 32)
    (h : k.setPage split alloc dir addr page = .ok (.error err, k'))
    (dir' : ProcessOrKernelPageDir) (w : Nat) : k'.view split dir' w = k.view split dir' w := by
  obtain ⟨d, d', hd, hset, rfl⟩ := setPage_eq split h
  have hget := PageDir.getPage_setPage_error haddr hset
  by_cases hkernel : split.addr ≤ addr
  · simp only [hkernel, if_true] at hget
    cases dir' <;> simp [holder, hkernel, store, view, lookup, pageIn, hget]
  · simp only [hkernel, if_false] at hget
    cases dir with
    | kernel =>
      cases hd
      cases dir' <;> simp [holder, hkernel, store, view, lookup, pageIn, hget]
    | process id =>
      simp only [lookup] at hd
      split_ifs at hd with hid
      cases hd
      cases dir' with
      | kernel => simp [holder, hkernel, store, view, lookup, pageIn]
      | process id' =>
        by_cases hsame : id' = id
        · subst hsame
          simp [holder, hkernel, store, view, lookup, pageIn, hget, hid]
        · simp [holder, hkernel, store, view, lookup, pageIn, Function.update_noteq hsame]

theorem setPage_of_view {k : Kernel} {alloc : TableAlloc} {dir : ProcessOrKernelPageDir}
    {addr : Nat} {frame : PageFrame} (haddr : addr < 2 ^ 32)
    (hmapped : (k.view split dir addr).isSome) (hframe : frame.addr < 2 ^ 32) :
    ∃ k', k.setPage split alloc dir addr (some frame) = .ok (.ok (), k') := by
  rcases hd : k.lookup dir with _ | d
  · simp [view, hd] at hmapped
  · have hget : ((if split.addr ≤ addr then k.kernelDir else d).getPage addr).isSome := by
      simp only [view, hd, pageIn] at hmapped
      split_ifs at hmapped ⊢ <;> exact hmapped
    obtain ⟨d', hset⟩ := @PageDir.setPage_of_getPage split _ alloc _ _ haddr hget hframe
    exact ⟨k.store (holder split dir addr) d', by simp only [setPage, hd, hset]⟩

theorem setPage_dirsOnly {k k' : Kernel} {alloc : TableAlloc} {dir : ProcessOrKernelPageDir}
    {addr : Nat} {page : Option PageFrame} {result : Except PagingError Unit}
    (h : k.setPage split alloc dir addr page = .ok (result, k')) :
    ∃ kernelDir dirs, k' = { k with kernelDir, dirs } := by
  obtain ⟨d, d', -, -, rfl⟩ := setPage_eq split h
  cases holder split dir addr <;> exact ⟨_, _, rfl⟩

/-! ### Bytes through the MMU -/

@[simp] theorem lookup_withMemory (k : Kernel) (mem : Nat → UInt8) (dir : ProcessOrKernelPageDir) :
    ({ k with memory := mem } : Kernel).lookup dir = k.lookup dir := by cases dir <;> rfl

@[simp] theorem view_withMemory (k : Kernel) (mem : Nat → UInt8) (dir : ProcessOrKernelPageDir)
    (addr : Nat) : ({ k with memory := mem } : Kernel).view split dir addr = k.view split dir addr :=
  rfl

@[simp] theorem translate_withMemory (k : Kernel) (mem : Nat → UInt8)
    (mmu : ProcessOrKernelPageDir) (addr : Nat) :
    ({ k with memory := mem } : Kernel).translate split mmu addr = k.translate split mmu addr := by
  simp only [translate, getPage, lookup_withMemory]
  rfl

theorem view_page (k : Kernel) (dir : ProcessOrKernelPageDir) (addr : Nat) :
    k.view split dir addr = k.view split dir (addr / pageSize * pageSize) := by
  have hpage : addr / pageSize * pageSize / pageSize = addr / pageSize :=
    Nat.mul_div_cancel _ (by decide)
  have hsplit := split_le_iff_of_page_eq split hpage.symm
  simp only [view, pageIn, PageDir.getPage, hpage, hsplit]

theorem view_eq_of_page_eq {k : Kernel} {dir dir' : ProcessOrKernelPageDir} {addr w : Nat}
    (hlive : (k.lookup dir).isSome) (hlive' : (k.lookup dir').isSome)
    (hpage : w / pageSize = addr / pageSize) (hwhere : split.addr ≤ addr ∨ dir' = dir) :
    k.view split dir' w = k.view split dir addr := by
  rcases hwhere with hkernel | rfl
  · rw [view_of_split_le split k hlive' ((split_le_iff_of_page_eq split hpage).mpr hkernel),
      view_of_split_le split k hlive hkernel]
    simp only [PageDir.getPage, hpage]
  · rw [view_page split k dir' w, view_page split k dir' addr, hpage]

theorem view_setPage_overwrite {k k₁ k₂ : Kernel} {alloc₁ alloc₂ : TableAlloc}
    {dir : ProcessOrKernelPageDir} {addr : Nat} {p₁ p₂ : Option PageFrame} (haddr : addr < 2 ^ 32)
    (h₁ : k.setPage split alloc₁ dir addr p₁ = .ok (.ok (), k₁))
    (h₂ : k₁.setPage split alloc₂ dir addr p₂ = .ok (.ok (), k₂))
    (hstored : PageFrame.storedAs p₂ = k.view split dir addr)
    (dir' : ProcessOrKernelPageDir) {w : Nat} (hw : w < 2 ^ 32) :
    k₂.view split dir' w = k.view split dir' w := by
  obtain ⟨d, d', hd, -, rfl⟩ := setPage_eq split h₁
  have hlive : ((k.store (holder split dir addr) d').lookup dir').isSome ↔
      (k.lookup dir').isSome := lookup_isSome_iff (by cases holder split dir addr <;> rfl) dir'
  rw [view_setPage_ok split haddr h₂ dir' hw, view_setPage_ok split haddr h₁ dir' hw]
  simp only [hlive]
  split_ifs with hc
  · rw [hstored, view_eq_of_page_eq split (by simp [hd]) hc.1 hc.2.1 hc.2.2]
  · rfl

theorem translate_of_view {k : Kernel} {mmu : ProcessOrKernelPageDir} {addr : Nat}
    {page : PageFrame} (hlive : (k.lookup mmu).isSome) (hview : k.view split mmu addr = some page)
    (hpresent : page.present = true) :
    k.translate split mmu addr = .ok (page.addr + addr % pageSize) := by
  simp only [translate, getPage_eq split k mmu addr hlive, hview, hpresent, if_true]

theorem copyBytes_contiguous {mmu : ProcessOrKernelPageDir} :
    ∀ {n : Nat} {k : Kernel} {src dst ps pd : Nat},
      (∀ i < n, k.translate split mmu (src + i) = .ok (ps + i)) →
      (∀ i < n, k.translate split mmu (dst + i) = .ok (pd + i)) →
      (ps + n ≤ pd ∨ pd + n ≤ ps) →
      copyBytes split k mmu src dst n =
        .ok { k with memory := fun q =>
          if pd ≤ q ∧ q < pd + n then k.memory (ps + (q - pd)) else k.memory q }
  | 0, ⟨kernelDir, processes, dirs, refs, manager, memory⟩, _, _, ps, pd, _, _, _ => by
    simp only [copyBytes, Nat.add_zero, Except.ok.injEq, Kernel.mk.injEq, true_and]
    funext q
    rw [if_neg (by omega)]
  | n + 1, k, src, dst, ps, pd, hs, hd, hdisj => by
    have hs0 := hs 0 (by omega)
    have hd0 := hd 0 (by omega)
    simp only [Nat.add_zero] at hs0 hd0
    simp only [copyBytes, hs0, hd0]
    rw [@copyBytes_contiguous mmu n _ (src + 1) (dst + 1) (ps + 1) (pd + 1)
      (fun i hi => by
        rw [translate_withMemory, show src + 1 + i = src + (i + 1) by omega,
          show ps + 1 + i = ps + (i + 1) by omega]
        exact hs (i + 1) (by omega))
      (fun i hi => by
        rw [translate_withMemory, show dst + 1 + i = dst + (i + 1) by omega,
          show pd + 1 + i = pd + (i + 1) by omega]
        exact hd (i + 1) (by omega))
      (by omega)]
    congr 2
    funext q
    by_cases hq : q = pd
    · subst hq
      simp
    · by_cases hin : pd + 1 ≤ q ∧ q < pd + 1 + n
      · rw [if_pos hin, if_pos (by omega)]
        dsimp only
        rw [Function.update_noteq (by omega)]
        congr 1
        omega
      · rw [if_neg hin, if_neg (by omega)]
        exact Function.update_noteq hq _ _

theorem copyBytes_ok {mmu : ProcessOrKernelPageDir} :
    ∀ {n : Nat} {k k' : Kernel} {src dst : Nat}, copyBytes split k mmu src dst n = .ok k' →
      ∃ memory, k' = { k with memory }
  | 0, k, _, _, _, h => ⟨k.memory, by cases h; rfl⟩
  | n + 1, k, k', src, dst, h => by
    simp only [copyBytes] at h
    split at h
    · obtain ⟨memory, rfl⟩ := copyBytes_ok h
      exact ⟨memory, rfl⟩
    · cases h
    · cases h

theorem freePage_unshared {k k' : Kernel} {freeShared : Nat → Bool} {page : PageFrame}
    (hshared : page.shared = false) (h : k.freePage freeShared page = .ok k') :
    ∃ refs manager, k' = { k with refs, manager } ∧
      if page.referenced then k.refs.removeReference k.manager page.addr = .ok (refs, manager)
      else refs = k.refs ∧ k.manager.setFrameFree page.addr = .ok manager := by
  simp only [freePage, hshared, Bool.false_eq_true, if_false, removeReference] at h
  split_ifs at h with href
  · rcases hr : k.refs.removeReference k.manager page.addr with fault | ⟨refs, manager⟩ <;>
      simp only [hr, Except.map] at h
    · cases h
    · cases h
      exact ⟨refs, manager, rfl, by simp [href, hr]⟩
  · rcases hm : k.manager.setFrameFree page.addr with fault | manager <;>
      simp only [hm, Except.map] at h
    · cases h
    · cases h
      exact ⟨k.refs, manager, rfl, by simp [href, hm]⟩

theorem view_addr_aligned {k : Kernel} {dir : ProcessOrKernelPageDir} {addr : Nat}
    {page : PageFrame} (h : k.view split dir addr = some page) : page.addr % pageSize = 0 := by
  simp only [view, pageIn] at h
  split at h
  · split_ifs at h <;> exact PageDir.getPage_addr_aligned h
  · cases h

theorem copyBytes_page {k : Kernel} {mmu : ProcessOrKernelPageDir} {src dst : Nat}
    {ps pd : PageFrame} (hlive : (k.lookup mmu).isSome)
    (hsrc : src % pageSize = 0) (hdst : dst % pageSize = 0)
    (hvs : k.view split mmu src = some ps) (hvd : k.view split mmu dst = some pd)
    (hps : ps.present = true) (hpd : pd.present = true) (hne : ps.addr ≠ pd.addr) :
    copyBytes split k mmu src dst pageSize =
      .ok { k with memory := fun q =>
        if pd.addr ≤ q ∧ q < pd.addr + pageSize then k.memory (ps.addr + (q - pd.addr))
        else k.memory q } := by
  have hrun : ∀ {base : Nat} {page : PageFrame}, base % pageSize = 0 →
      k.view split mmu base = some page → page.present = true →
      ∀ i < pageSize, k.translate split mmu (base + i) = .ok (page.addr + i) := by
    intro base page hbase hview hpresent i hi
    have hpage : (base + i) / pageSize * pageSize = base := by
      simp only [pageSize_eq] at hbase hi ⊢
      omega
    have hoff : (base + i) % pageSize = i := by
      simp only [pageSize_eq] at hbase hi ⊢
      omega
    rw [translate_of_view split hlive (by rw [view_page, hpage, hview]) hpresent, hoff]
  have hs := view_addr_aligned split hvs
  have hd := view_addr_aligned split hvd
  refine copyBytes_contiguous split (hrun hsrc hvs hps) (hrun hdst hvd hpd) ?_
  simp only [pageSize_eq] at hs hd ⊢
  omega

end Kernel

end Ockernel
