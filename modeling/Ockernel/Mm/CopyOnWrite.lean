import Ockernel.Mm.Kernel
import Ockernel.Task.Queue

/-!
The copy-on-write engine of `mm/paging.rs` (§4.G): `copy_on_write` and the fault-handler
entry `try_copy_on_write`.  The page-sized heap buffer is the address `copied` that `alloc`
returned (`0` is null, which the code does not check); `mmu` is the directory loaded on the
calling CPU, through which the page's bytes are copied into the buffer.
-/

namespace Ockernel

namespace Kernel

variable (split : KernelSplit)

/-- The copying branch of `copy_on_write` once the page's bytes are in the buffer: point
`addr` at the buffer's frame, give the buffer a fresh frame, and release the old frame
through `free_page`; a failed frame allocation puts the old page back. -/
def cowRemap (k : Kernel) (alloc : TableAlloc) (freeShared : Nat → Bool)
    (dir : ProcessOrKernelPageDir) (addr : Nat) (original : PageFrame) (copied : Nat) :
    Outcome Kernel PageFrame :=
  match k.virtToPhys split dir copied with
  | .error fault => .error fault
  | .ok none => .ok (.error .badAddress, k)
  | .ok (some new) =>
    let page := { original with
      addr := new, writable := true, copyOnWrite := false, referenced := false }
    match k.setPage split alloc dir addr (some page) with
    | .error fault => .error fault
    | .ok (.error err, k) => .ok (.error err, k)
    | .ok (.ok (), k) =>
      match k.manager.allocFrame with
      | (.error err, _) =>
        match k.setPage split alloc dir addr (some original) with
        | .error fault => .error fault
        | .ok (.error e, _) => .error (.expectFailed "copy on write cleanup failed" e)
        | .ok (.ok (), k) => .ok (.error err, k)
      | (.ok physAddr, manager) =>
        let k := { k with manager }
        let newPage : PageFrame := { addr := physAddr, present := true, writable := true }
        match k.setPage split alloc dir copied (some newPage) with
        | .error fault => .error fault
        | .ok (.error e, _) =>
          .error (.expectFailed "couldn't set page in copy on write cleanup" e)
        | .ok (.ok (), k) =>
          match k.freePage freeShared original with
          | .error fault => .error fault
          | .ok k => .ok (.ok newPage, k)

/-- given a page directory, address, and the page frame at that address, copy its contents to
a new page and replace the existing page with the new one, freeing the old page in the
process -/
def copyOnWrite (k : Kernel) (alloc : TableAlloc) (freeShared : Nat → Bool)
    (mmu dir : ProcessOrKernelPageDir) (addr : Nat) (page : PageFrame) (copied : Nat) :
    Outcome Kernel PageFrame :=
  if k.refs.getReferencesFor page.addr > 1 then
    match k.copyBytes split mmu addr copied pageSize with
    | .error fault => .error fault
    | .ok k => k.cowRemap split alloc freeShared dir addr page copied
  else
    let page := { page with writable := true }
    match k.setPage split alloc dir addr (some page) with
    | .error fault => .error fault
    | .ok (.error err, k) => .ok (.error err, k)
    | .ok (.ok (), k) => .ok (.ok page, k)

/-- used in page fault exception handlers to check whether to copy on write and do so if
required; `queue` is the faulting thread's task queue -/
def tryCopyOnWrite (k : Kernel) (alloc : TableAlloc) (freeShared : Nat → Bool)
    (queue : TaskQueue) (mmu : ProcessOrKernelPageDir) (addr copied : Nat) :
    Except Fault (Except Errno Bool × Kernel) :=
  match queue.current with
  | none => .ok (.error .noSuchProcess, k)
  | some current =>
    let pid := current.id.process
    match k.lookup (.process pid) with
    | none => .ok (.error .noSuchProcess, k)
    | some d =>
      match k.pageIn split d addr with
      | none => .ok (.error .badAddress, k)
      | some page =>
        let addr := addr / pageSize * pageSize
        if !page.writable && page.copyOnWrite && page.referenced then
          match k.copyOnWrite split alloc freeShared mmu (.process pid) addr page copied with
          | .error fault => .error fault
          | .ok (.error err, k) => .ok (.error err.toErrno, k)
          | .ok (.ok _, k) => .ok (.ok true, k)
        else .ok (.ok false, k)

theorem tryCopyOnWrite_of_copyOnWrite {k k' : Kernel} {alloc : TableAlloc}
    {freeShared : Nat → Bool} {queue : TaskQueue} {current : TaskQueueEntry} {d : PageDir}
    {mmu : ProcessOrKernelPageDir} {addr copied : Nat} {page g : PageFrame}
    (hcurrent : queue.current = some current)
    (hd : k.lookup (.process current.id.process) = some d) (hpage : k.pageIn split d addr = some page)
    (hpending : (!page.writable && page.copyOnWrite && page.referenced) = true)
    (hcow : k.copyOnWrite split alloc freeShared mmu (.process current.id.process)
      (addr / pageSize * pageSize) page copied = .ok (.ok g, k')) :
    k.tryCopyOnWrite split alloc freeShared queue mmu addr copied = .ok (.ok true, k') := by
  simp only [tryCopyOnWrite, hcurrent, hd, hpage, hpending, if_true, hcow]

/-! ### Every `Err` rolls back -/

theorem setPage_error_rollback {k k' : Kernel} {alloc : TableAlloc} {dir : ProcessOrKernelPageDir}
    {addr : Nat} {page : Option PageFrame} {err : PagingError} (haddr : addr < 2 ^ 32)
    (h : k.setPage split alloc dir addr page = .ok (.error err, k')) :
    (∀ dir' w, w < 2 ^ 32 → k'.view split dir' w = k.view split dir' w) ∧
      k'.refs = k.refs ∧ k'.manager = k.manager := by
  obtain ⟨_, _, rfl⟩ := setPage_dirsOnly split h
  exact ⟨fun dir' w _ => view_setPage_error split haddr h dir' w, rfl, rfl⟩

theorem cowRemap_error {k k' : Kernel} {alloc : TableAlloc} {freeShared : Nat → Bool}
    {dir : ProcessOrKernelPageDir} {addr copied : Nat} {original : PageFrame} {err : PagingError}
    (haddr : addr < 2 ^ 32) (hview : k.view split dir addr = some original)
    (hcow : original.copyOnWrite = true)
    (h : k.cowRemap split alloc freeShared dir addr original copied = .ok (.error err, k')) :
    (∀ dir' w, w < 2 ^ 32 → k'.view split dir' w = k.view split dir' w) ∧
      k'.refs = k.refs ∧ k'.manager = k.manager := by
  unfold cowRemap at h
  rcases hv : k.virtToPhys split dir copied with fault | _ | new <;> simp only [hv] at h
  · cases h
  · cases h
    exact ⟨fun _ _ _ => rfl, rfl, rfl⟩
  rcases h₁ : k.setPage split alloc dir addr (some { original with
      addr := new, writable := true, copyOnWrite := false, referenced := false })
    with fault | ⟨_ | ⟨⟩, k₁⟩ <;> simp only [h₁] at h
  · cases h
  · cases h
    exact setPage_error_rollback split haddr h₁
  rcases ha : k₁.manager.allocFrame with ⟨_ | physAddr, manager⟩ <;> simp only [ha] at h
  · rcases h₂ : k₁.setPage split alloc dir addr (some original) with fault | ⟨_ | ⟨⟩, k₂⟩ <;>
      simp only [h₂] at h <;> cases h
    obtain ⟨_, _, rfl⟩ := setPage_dirsOnly split h₂
    obtain ⟨_, _, rfl⟩ := setPage_dirsOnly split h₁
    refine ⟨fun dir' w hw => view_setPage_overwrite split haddr h₁ h₂ ?_ dir' hw, rfl, rfl⟩
    rw [PageFrame.storedAs_of_flag (.inr (.inr hcow)), view_masked split hview, hview]
  · repeat' split at h
    all_goals cases h

theorem copyOnWrite_error {k k' : Kernel} {alloc : TableAlloc} {freeShared : Nat → Bool}
    {mmu dir : ProcessOrKernelPageDir} {addr copied : Nat} {page : PageFrame} {err : PagingError}
    (haddr : addr < 2 ^ 32) (hview : k.view split dir addr = some page)
    (hcow : page.copyOnWrite = true)
    (h : k.copyOnWrite split alloc freeShared mmu dir addr page copied = .ok (.error err, k')) :
    (∀ dir' w, w < 2 ^ 32 → k'.view split dir' w = k.view split dir' w) ∧
      k'.refs = k.refs ∧ k'.manager = k.manager := by
  unfold copyOnWrite at h
  split_ifs at h
  · rcases hcopy : k.copyBytes split mmu addr copied pageSize with fault | k₁ <;>
      simp only [hcopy] at h
    · cases h
    · obtain ⟨memory, rfl⟩ := copyBytes_ok split hcopy
      have hview' : ({ k with memory } : Kernel).view split dir addr = some page := hview
      have hrestored := cowRemap_error split haddr hview' hcow h
      exact hrestored
  · rcases h₁ : k.setPage split alloc dir addr (some { page with writable := true })
      with fault | ⟨_ | ⟨⟩, k₁⟩ <;> simp only [h₁] at h <;> cases h
    exact setPage_error_rollback split haddr h₁

/-- `copy_on_write` does not check what `alloc` returned: with a null buffer, unmapped as
the null page is, the first byte it copies faults at address 0 instead of the call returning
`AllocError`. -/
theorem copyOnWrite_null_buffer_faults {k : Kernel} {alloc : TableAlloc}
    {freeShared : Nat → Bool} {mmu dir : ProcessOrKernelPageDir} {addr : Nat} {page src : PageFrame}
    (hlive : (k.lookup mmu).isSome) (hrefs : 1 < k.refs.getReferencesFor page.addr)
    (hsrc : k.view split mmu addr = some src) (hpresent : src.present = true)
    (hnull : k.view split mmu 0 = none) :
    k.copyOnWrite split alloc freeShared mmu dir addr page 0 = .error (.pageFault 0) := by
  have hdst : k.translate split mmu 0 = .error (.pageFault 0) := by
    simp only [translate, getPage_eq split k mmu 0 hlive, hnull]
  rw [copyOnWrite, if_pos hrefs, show pageSize = 4095 + 1 from rfl, copyBytes,
    translate_of_view split hlive hsrc hpresent, hdst]

end Kernel

/-! ### A copy whose result names the buffer's new frame -/

/-- Process 1 maps page `0x1000` copy-on-write to frame `0x5000`, which has two references;
the kernel heap page `0xe1000000` is backed by frame `0x6000`; frames below `0x8000` are
in use. -/
def cowSample : Kernel where
  kernelDir :=
    ⟨fun i => if i = 900 then some ⟨⟨fun j => if j = 0 then ⟨0x6003⟩ else ⟨0⟩⟩, true⟩ else none,
      fun i => if i = 900 then ⟨0x1007⟩ else ⟨0⟩, 0x1000, false⟩
  processes := {1}
  dirs := fun _ =>
    ⟨fun i => if i = 0 then some ⟨⟨fun j => if j = 1 then ⟨0x5605⟩ else ⟨0⟩⟩, true⟩ else none,
      fun i => if i = 0 then ⟨0x2007⟩ else ⟨0⟩, 0x3000, true⟩
  refs := ⟨fun phys => if phys = 0x5000 then some 2 else none⟩
  manager := ⟨⟨fun i => decide (i < 8), 16⟩⟩
  memory := fun _ => 0

/-- The frame `get_page` reports at `0x1000` in process 1 of `cowSample`. -/
def cowSampleFrame : PageFrame :=
  { addr := 0x5000, present := true, userMode := true, copyOnWrite := true, executable := true,
    referenced := true }

/-- With two references to the frame, `copy_on_write` maps `0x1000` to `0x6000`, the buffer's
old frame, but returns the fresh frame `0x8000` it gave the buffer. -/
theorem copyOnWrite_returns_buffer_frame :
    cowSample.view .linkedBase (.process 1) 0x1000 = some cowSampleFrame ∧
      ∃ g k', cowSample.copyOnWrite .linkedBase ⟨0, none⟩ (fun _ => false) (.process 1)
          (.process 1) 0x1000 cowSampleFrame 0xe1000000 = .ok (.ok g, k') ∧
        g.addr = 0x8000 ∧
        k'.view .linkedBase (.process 1) 0x1000 = some { cowSampleFrame with
          addr := 0x6000, writable := true, copyOnWrite := false, referenced := false } := by
  have hcopy := @Kernel.copyBytes_page KernelSplit.linkedBase cowSample (.process 1) 0x1000
    0xe1000000 cowSampleFrame ⟨0x6000, true, false, true, false, true, false, false⟩ rfl
    (by decide) (by decide) (by decide) (by decide) rfl rfl (by decide)
  refine ⟨by decide, ?_⟩
  rw [Kernel.copyOnWrite, if_pos (by decide), hcopy]
  exact ⟨_, _, rfl, rfl, by decide⟩

/-- With a null buffer, copying process 1's page `0x1000` of `cowSample` faults at address
0. -/
theorem copyOnWrite_null_buffer_faults_cowSample :
    (cowSample.lookup (.process 1)).isSome ∧
      1 < cowSample.refs.getReferencesFor cowSampleFrame.addr ∧
      cowSample.view .linkedBase (.process 1) 0x1000 = some cowSampleFrame ∧
      cowSampleFrame.present = true ∧ cowSample.view .linkedBase (.process 1) 0 = none ∧
      cowSample.copyOnWrite .linkedBase ⟨0, none⟩ (fun _ => false) (.process 1) (.process 1)
        0x1000 cowSampleFrame 0 = .error (.pageFault 0) :=
  have hsrc : cowSample.view .linkedBase (.process 1) 0x1000 = some cowSampleFrame := by decide
  have hnull : cowSample.view .linkedBase (.process 1) 0 = none := by decide
  ⟨rfl, by decide, hsrc, rfl, hnull,
    Kernel.copyOnWrite_null_buffer_faults _ rfl (by decide) hsrc rfl hnull⟩

end Ockernel
