import Ockernel.Mm.CopyOnWrite
import Ockernel.Mm.Consistency

/-!
The consistency of the memory system over whole operations of the code: `try_copy_on_write`
and the drop of a process's `FreeablePageDir` keep `MemView.Consistent` of `Kernel.memView`.
Each operation is shown to act on the view as one of the transitions of
`Ockernel.Mm.Consistency`, or as a composition of them.  The heap is an external
collaborator: `KernelHeap` is the set of its pages, and the buffer `copy_on_write` allocates is
one of them.
-/

namespace Ockernel

/-- The pages of the kernel heap: kernel pages below `2^20`. -/
structure KernelHeap (split : KernelSplit) where
  pages : Finset Nat
  inKernel : ∀ p ∈ pages, split.addr / pageSize ≤ p ∧ p < 2 ^ 20

namespace Kernel

variable (split : KernelSplit)

/-- The live directories: the kernel's and every live process's. -/
def liveDirs (k : Kernel) : Finset ProcessOrKernelPageDir :=
  insert .kernel (k.processes.map ⟨.process, fun _ _ h => ProcessOrKernelPageDir.process.inj h⟩)

/-- What the consistency reads of a state: the user pages below the split and the kernel pages
below `2^20`, by page number. -/
def memView (k : Kernel) : MemView where
  live := k.liveDirs
  user := fun x =>
    if x.2 < split.addr / pageSize then k.view split x.1 (x.2 * pageSize) else none
  kernel := fun p =>
    if split.addr / pageSize ≤ p ∧ p < 2 ^ 20 then k.kernelDir.getPage (p * pageSize) else none
  count := k.refs.getReferencesFor
  used := k.manager.frameSet.bits

theorem mem_liveDirs (k : Kernel) (dir : ProcessOrKernelPageDir) :
    dir ∈ k.liveDirs ↔ (k.lookup dir).isSome := by
  cases dir <;> simp [liveDirs, lookup]

theorem view_kernel (k : Kernel) (addr : Nat) :
    k.view split .kernel addr = k.kernelDir.getPage addr := by
  simp only [view, lookup, pageIn]
  split_ifs <;> rfl

theorem splitPages_lt : split.addr / pageSize < 2 ^ 20 := by
  have := split.lt
  simp only [pageSize_eq]
  omega

@[simp] theorem memView_withMemory (k : Kernel) (mem : Nat → UInt8) :
    ({ k with memory := mem } : Kernel).memView split = k.memView split := rfl

@[simp] theorem memView_withRefs (k : Kernel) (refs : PageRefCounter) (manager : PageManager) :
    ({ k with refs, manager } : Kernel).memView split =
      { k.memView split with count := refs.getReferencesFor, used := manager.frameSet.bits } :=
  rfl

theorem setPage_preserves {k k' : Kernel} {alloc : TableAlloc} {dir : ProcessOrKernelPageDir}
    {addr : Nat} {page : Option PageFrame} {result : Except PagingError Unit}
    (h : k.setPage split alloc dir addr page = .ok (result, k')) :
    (k.lookup dir).isSome ∧ k'.processes = k.processes ∧ k'.refs = k.refs ∧
      k'.manager = k.manager := by
  obtain ⟨d, d', hd, -, rfl⟩ := setPage_eq split h
  simp [hd]

theorem memView_setPage_ok {k k' : Kernel} {alloc : TableAlloc} {dir : ProcessOrKernelPageDir}
    {addr : Nat} {page : Option PageFrame} (haddr : addr < 2 ^ 32)
    (h : k.setPage split alloc dir addr page = .ok (.ok (), k')) :
    k'.memView split =
      if split.addr ≤ addr then
        (k.memView split).setKernel (addr / pageSize) (PageFrame.storedAs page)
      else (k.memView split).setUser (dir, addr / pageSize) (PageFrame.storedAs page) := by
  obtain ⟨hlive, hprocs, hrefs, hmanager⟩ := setPage_preserves split h
  have hview := fun dir' {w} (hw : w < 2 ^ 32) => view_setPage_ok split haddr h dir' hw
  have hsplit := splitPages_lt split
  -- the page numbers of the view address bytes below `2^32`
  have hbyte : ∀ {p}, p < 2 ^ 20 → p * pageSize < 2 ^ 32 := fun hp => by
    simp only [pageSize_eq]
    omega
  have hdiv : ∀ p, p * pageSize / pageSize = p := fun p => Nat.mul_div_cancel p (by decide)
  have haddrPage : addr / pageSize < 2 ^ 20 := by
    simp only [pageSize_eq]
    omega
  have hliveDirs : k'.liveDirs = k.liveDirs := by simp [liveDirs, hprocs]
  split_ifs with hk
  · have hkernelPage : split.addr / pageSize ≤ addr / pageSize := Nat.div_le_div_right hk
    refine MemView.ext hliveDirs ?_ ?_ (by simp [memView, MemView.setKernel, hrefs])
      (by simp [memView, MemView.setKernel, hmanager])
    · funext ⟨d', p⟩
      simp only [memView, MemView.setKernel]
      split_ifs with hp
      · rw [hview d' (hbyte (by omega)), if_neg]
        rintro ⟨-, hpage, -⟩
        rw [hdiv] at hpage
        omega
      · rfl
    · funext p
      simp only [memView, MemView.setKernel, Function.update_apply]
      split_ifs with hp hpa hpa
      · rw [← view_kernel, hview .kernel (hbyte hp.2), if_pos ⟨rfl, by rw [hdiv, hpa], .inl hk⟩]
      · rw [← view_kernel, hview .kernel (hbyte hp.2), if_neg, view_kernel]
        rintro ⟨-, hpage, -⟩
        exact hpa ((hdiv p).symm.trans hpage)
      · omega
      · rfl
  · have huserPage : addr / pageSize < split.addr / pageSize := by
      have := split.aligned
      simp only [pageSize_eq] at this hk ⊢
      omega
    refine MemView.ext hliveDirs ?_ ?_ (by simp [memView, MemView.setUser, hrefs])
      (by simp [memView, MemView.setUser, hmanager])
    · funext ⟨d', p⟩
      simp only [memView, MemView.setUser, Function.update_apply, Prod.mk.injEq]
      split_ifs with hp hsame hsame
      · obtain ⟨rfl, rfl⟩ := hsame
        rw [hview d' (hbyte (by omega)), if_pos ⟨hlive, hdiv _, .inr rfl⟩]
      · rw [hview d' (hbyte (by omega)), if_neg]
        rintro ⟨-, hpage, hk' | rfl⟩
        · exact hk hk'
        · exact hsame ⟨rfl, (hdiv p).symm.trans hpage⟩
      · obtain ⟨-, rfl⟩ := hsame
        exact absurd huserPage hp
      · rfl
    · funext p
      simp only [memView, MemView.setUser]
      split_ifs with hp
      · rw [← view_kernel, hview .kernel (hbyte hp.2), if_neg, view_kernel]
        rintro ⟨-, hpage, hk' | -⟩
        · exact hk hk'
        · rw [hdiv] at hpage
          omega
      · rfl

theorem memView_setPage_error {k k' : Kernel} {alloc : TableAlloc} {dir : ProcessOrKernelPageDir}
    {addr : Nat} {page : Option PageFrame} {err : PagingError} (haddr : addr < 2 ^ 32)
    (h : k.setPage split alloc dir addr page = .ok (.error err, k')) :
    k'.memView split = k.memView split := by
  obtain ⟨-, hprocs, hrefs, hmanager⟩ := setPage_preserves split h
  have hview := view_setPage_error split haddr h
  refine MemView.ext (by simp [memView, liveDirs, hprocs]) ?_ ?_ (by simp [memView, hrefs])
    (by simp [memView, hmanager])
  · funext x
    simp only [memView, hview]
  · funext p
    simp only [memView, ← view_kernel split, hview]

theorem memView_freePage {k k' : Kernel} {freeShared : Nat → Bool} {page : PageFrame}
    (hshared : page.shared = false) (h : k.freePage freeShared page = .ok k') :
    k'.memView split = (k.memView split).release page := by
  obtain ⟨refs, manager, rfl, hcode⟩ := freePage_unshared hshared h
  have hcount : ∀ {r : PageRefCounter}, (∀ q, q ≠ page.addr → r.references q = k.refs.references q) →
      ∀ c, r.getReferencesFor page.addr = c →
        r.getReferencesFor = Function.update k.refs.getReferencesFor page.addr c := by
    intro r hother c hc
    funext q
    by_cases hq : q = page.addr
    · subst hq
      simp [hc]
    · simp [Function.update_noteq hq, PageRefCounter.getReferencesFor, hother q hq]
  rw [memView_withRefs]
  split_ifs at hcode with href
  · obtain ⟨hother, ⟨hgt, hdec, -, rfl⟩ | ⟨hle, hnone, hfree⟩⟩ :=
      PageRefCounter.removeReference_ok hcode
    · rw [MemView.release, if_pos ⟨href, hgt⟩]
      exact MemView.ext rfl rfl rfl (hcount hother _ hdec) rfl
    · rw [MemView.release, if_neg (by simp only [memView]; omega), if_pos href]
      obtain ⟨-, hbits⟩ := PageManager.setFrameFree_ok hfree
      refine MemView.ext rfl rfl rfl (hcount hother 0 (by simp [PageRefCounter.getReferencesFor,
        hnone])) ?_
      funext i
      simp [memView, hbits, Function.update_apply]
  · obtain ⟨rfl, hfree⟩ := hcode
    obtain ⟨-, hbits⟩ := PageManager.setFrameFree_ok hfree
    rw [MemView.release, if_neg (by simp [href]), if_neg href]
    refine MemView.ext rfl rfl rfl rfl ?_
    funext i
    simp [memView, hbits, Function.update_apply]

theorem memView_allocFrame {k : Kernel} {phys : Nat} {manager : PageManager}
    (h : k.manager.allocFrame = (.ok phys, manager)) :
    ∃ idx, phys = idx * pageSize ∧ (k.memView split).used idx = false ∧
      ({ k with manager } : Kernel).memView split = (k.memView split).markUsed idx := by
  obtain ⟨idx, hfirst, rfl, hset⟩ := PageManager.allocFrame_ok h
  refine ⟨idx, rfl, (BitSet.firstUnset_some hfirst).2, MemView.ext rfl rfl rfl rfl ?_⟩
  funext i
  simp [memView, MemView.markUsed, hset, Function.update_apply]

/-! ### The consistency of a state -/

/-- The bits and counts of a state account for its mappings, over the pages of its kernel
heap. -/
def Accounted (heap : KernelHeap split) (k : Kernel) : Prop :=
  (k.memView split).Accounted (split.addr / pageSize) heap.pages

/-- The consistency of a state, over the pages of its kernel heap. -/
def Consistent (heap : KernelHeap split) (k : Kernel) : Prop :=
  (k.memView split).Consistent (split.addr / pageSize) heap.pages

theorem memView_user_of_lt (k : Kernel) (dir : ProcessOrKernelPageDir) {addr : Nat}
    (haddr : addr < split.addr) :
    (k.memView split).user (dir, addr / pageSize) = k.view split dir addr := by
  have hpage : addr / pageSize < split.addr / pageSize := by
    have := split.aligned
    simp only [pageSize_eq] at *
    omega
  simp only [memView, hpage, if_true]
  rw [← view_page]

theorem memView_kernel_of_le (k : Kernel) {addr : Nat} (hkernel : split.addr ≤ addr)
    (haddr : addr < 2 ^ 32) :
    (k.memView split).kernel (addr / pageSize) = k.kernelDir.getPage addr := by
  have hlow : split.addr / pageSize ≤ addr / pageSize := Nat.div_le_div_right hkernel
  have hhigh : addr / pageSize < 2 ^ 20 := by
    simp only [pageSize_eq]
    omega
  simp only [memView, hlow, hhigh, and_self, if_true]
  rw [← view_kernel split, ← view_page, view_kernel]

theorem setPage_some_addr_lt {k k' : Kernel} {alloc : TableAlloc} {dir : ProcessOrKernelPageDir}
    {addr : Nat} {frame : PageFrame} (haddr : addr < 2 ^ 32)
    (h : k.setPage split alloc dir addr (some frame) = .ok (.ok (), k')) : frame.addr < 2 ^ 32 := by
  obtain ⟨d, d', -, hset, -⟩ := setPage_eq split h
  exact PageDir.setPage_some_addr_lt haddr hset

theorem memView_cowRemap {k k' : Kernel} {alloc : TableAlloc} {freeShared : Nat → Bool}
    {dir : ProcessOrKernelPageDir} {addr X : Nat} {original : PageFrame}
    {r : Except PagingError PageFrame} (haddr : addr < split.addr)
    (hX : split.addr ≤ X * pageSize ∧ X * pageSize < 2 ^ 32) (hlive : (k.lookup dir).isSome)
    (hshared : original.shared = false)
    (h : k.cowRemap split alloc freeShared dir addr original (X * pageSize) = .ok (r, k')) :
    ((∃ err, r = .error err) ∧ k'.memView split = k.memView split) ∨
      ((∃ err, r = .error err) ∧ k'.memView split =
        (k.memView split).setUser (dir, addr / pageSize) (PageFrame.storedAs (some original))) ∨
      ∃ xf idx, (k.memView split).kernel X = some xf ∧ xf.masked = xf ∧
        (k.memView split).used idx = false ∧ idx * pageSize < 2 ^ 32 ∧
        r = .ok { addr := idx * pageSize, present := true, writable := true } ∧
        k'.memView split = ((((k.memView split).setUser (dir, addr / pageSize)
          (some (PageFrame.masked { original with
            addr := xf.addr, writable := true, copyOnWrite := false, referenced := false }))).markUsed
          idx).setKernel X
          (some (PageFrame.masked
            { addr := idx * pageSize, present := true, writable := true }))).release original := by
  have hlt : addr < 2 ^ 32 := lt_trans haddr split.lt
  have hXpage : X * pageSize / pageSize = X := Nat.mul_div_cancel _ (by decide)
  unfold cowRemap at h
  rw [virtToPhys_eq split k dir _ hlive, view_of_split_le split k hlive hX.1] at h
  rcases hxf : k.kernelDir.getPage (X * pageSize) with _ | xf <;>
    simp only [hxf, Option.map_none', Option.map_some'] at h
  · obtain ⟨rfl, rfl⟩ := Prod.mk.inj (Except.ok.inj h)
    exact .inl ⟨⟨_, rfl⟩, rfl⟩
  rcases hset : k.setPage split alloc dir addr (some { original with
      addr := xf.addr, writable := true, copyOnWrite := false, referenced := false })
    with fault | ⟨err | ⟨⟩, k₂⟩ <;> simp only [hset] at h
  · cases h
  · obtain ⟨rfl, rfl⟩ := Prod.mk.inj (Except.ok.inj h)
    exact .inl ⟨⟨_, rfl⟩, memView_setPage_error split hlt hset⟩
  have hv₂ := memView_setPage_ok split hlt hset
  rw [if_neg (not_le.mpr haddr), PageFrame.storedAs_of_flag (.inr (.inl rfl))] at hv₂
  rcases halloc : k₂.manager.allocFrame with ⟨err | phys, manager⟩ <;> simp only [halloc] at h
  · -- no free frame: the old page is put back
    rcases hback : k₂.setPage split alloc dir addr (some original) with fault | ⟨e | ⟨⟩, k₃⟩ <;>
      simp only [hback] at h
    · cases h
    · cases h
    · obtain ⟨rfl, rfl⟩ := Prod.mk.inj (Except.ok.inj h)
      have hv₃ := memView_setPage_ok split hlt hback
      rw [if_neg (not_le.mpr haddr), hv₂, MemView.setUser_setUser] at hv₃
      exact .inr (.inl ⟨⟨_, rfl⟩, hv₃⟩)
  · -- the buffer gets the fresh frame and the old frame is released
    obtain ⟨idx, rfl, hidx, hv₂'⟩ := memView_allocFrame split halloc
    rcases hnew : ({ k₂ with manager } : Kernel).setPage split alloc dir (X * pageSize)
        (some { addr := idx * pageSize, present := true, writable := true })
      with fault | ⟨e | ⟨⟩, k₄⟩ <;> simp only [hnew] at h
    · cases h
    · cases h
    have hv₄ := memView_setPage_ok split hX.2 hnew
    rw [if_pos hX.1, PageFrame.storedAs_present rfl, hv₂', hv₂, hXpage] at hv₄
    rcases hfree : k₄.freePage freeShared original with fault | k₅ <;> simp only [hfree] at h
    · cases h
    obtain ⟨rfl, rfl⟩ := Prod.mk.inj (Except.ok.inj h)
    refine .inr (.inr ⟨xf, idx, ?_, PageDir.getPage_masked hxf, by rwa [hv₂] at hidx,
      setPage_some_addr_lt split hX.2 hnew, rfl, by rw [memView_freePage split hshared hfree, hv₄]⟩)
    rw [← hXpage, memView_kernel_of_le split k hX.1 hX.2, hxf]

theorem cowRemap_consistent {heap : KernelHeap split} {k k' : Kernel}
    (hk : k.Consistent split heap) {alloc : TableAlloc} {freeShared : Nat → Bool}
    {dir : ProcessOrKernelPageDir} {addr X : Nat} {page : PageFrame}
    {r : Except PagingError PageFrame} (haddr : addr < split.addr) (hX : X ∈ heap.pages)
    (hview : k.view split dir addr = some page) (hcow : page.copyOnWrite = true)
    (hcount : 1 < k.refs.getReferencesFor page.addr)
    (h : k.cowRemap split alloc freeShared dir addr page (X * pageSize) = .ok (r, k')) :
    k'.Consistent split heap := by
  have hlive : (k.lookup dir).isSome := @view_isSome split k dir addr (by simp [hview])
  have hXaddr : split.addr ≤ X * pageSize ∧ X * pageSize < 2 ^ 32 := by
    have := heap.inKernel X hX
    have := split.aligned
    simp only [pageSize_eq] at *
    omega
  have hx : (dir, addr / pageSize) ∈ (k.memView split).live ×ˢ
      Finset.range (split.addr / pageSize) := by
    refine Finset.mem_product.mpr ⟨(mem_liveDirs k dir).mpr hlive, Finset.mem_range.mpr ?_⟩
    have := split.aligned
    simp only [pageSize_eq] at *
    omega
  have hf := (memView_user_of_lt split k dir haddr).trans hview
  have hshared : page.shared = false := hk.unshared page (.inl ⟨_, hx, hf⟩)
  rcases memView_cowRemap split haddr hXaddr hlive hshared h with
    ⟨-, heq⟩ | ⟨-, heq⟩ | ⟨xf, idx, hsX, hxfm, hidx, hnewlt, -, heq⟩
  · rw [Consistent, heq]
    exact hk
  · rw [Consistent, heq, PageFrame.storedAs_of_flag (.inr (.inr hcow)), view_masked split hview,
      MemView.setUser_of_eq _ hf]
    exact hk
  · rw [Consistent, heq]
    exact hk.copy_page heap.inKernel hx hf hcount hX hsX hidx
      (by simpa using congrArg PageFrame.addr hxfm) hshared
      (PageFrame.masked_addr_of_aligned (Nat.mul_mod_left _ _) hnewlt) rfl

/-- `copy_on_write` with a kernel-heap buffer keeps the consistency. -/
theorem copyOnWrite_consistent {heap : KernelHeap split} {k k' : Kernel}
    (hk : k.Consistent split heap) {alloc : TableAlloc} {freeShared : Nat → Bool}
    {mmu dir : ProcessOrKernelPageDir} {addr X : Nat} {page : PageFrame}
    {r : Except PagingError PageFrame} (haddr : addr < 2 ^ 32) (hX : X ∈ heap.pages)
    (hview : k.view split dir addr = some page) (hcow : page.copyOnWrite = true)
    (h : k.copyOnWrite split alloc freeShared mmu dir addr page (X * pageSize) = .ok (r, k')) :
    k'.Consistent split heap := by
  have hlive : (k.lookup dir).isSome := @view_isSome split k dir addr (by simp [hview])
  have hkernel : split.addr ≤ addr →
      (k.memView split).kernel (addr / pageSize) = some page ∧
        split.addr / pageSize ≤ addr / pageSize ∧ addr / pageSize < 2 ^ 20 := fun hle =>
    ⟨(memView_kernel_of_le split k hle haddr).trans ((view_of_split_le split k hlive hle).symm.trans
      hview), Nat.div_le_div_right hle, by simp only [pageSize_eq]; omega⟩
  have huser : addr < split.addr →
      (dir, addr / pageSize) ∈ (k.memView split).live ×ˢ Finset.range (split.addr / pageSize) ∧
        (k.memView split).user (dir, addr / pageSize) = some page := fun hlt => by
    refine ⟨Finset.mem_product.mpr ⟨(mem_liveDirs k dir).mpr hlive, Finset.mem_range.mpr ?_⟩,
      (memView_user_of_lt split k dir hlt).trans hview⟩
    have := split.aligned
    simp only [pageSize_eq] at *
    omega
  have hshared : page.shared = false := by
    by_cases hle : split.addr ≤ addr
    · obtain ⟨hp, hlow, hhigh⟩ := hkernel hle
      exact hk.unshared page (.inr ⟨_, hlow, hhigh, hp⟩)
    · obtain ⟨hx, hf⟩ := huser (not_le.mp hle)
      exact hk.unshared page (.inl ⟨_, hx, hf⟩)
  unfold copyOnWrite at h
  split_ifs at h with hcount
  · have hlt : addr < split.addr := by
      by_contra hle
      obtain ⟨hp, hlow, hhigh⟩ := hkernel (not_lt.mp hle)
      have := hk.count_le_one_of_kernel ⟨hlow, hhigh⟩ hp
      simp only [memView] at this
      omega
    rcases hcopy : k.copyBytes split mmu addr (X * pageSize) pageSize with fault | k₁ <;>
      simp only [hcopy] at h
    · cases h
    obtain ⟨memory, rfl⟩ := copyBytes_ok split hcopy
    exact @cowRemap_consistent split heap { k with memory } k' hk alloc freeShared dir addr X page r
      hlt hX hview hcow hcount h
  · -- the sole owner: the page becomes writable in place
    rcases hset : k.setPage split alloc dir addr (some { page with writable := true })
      with fault | ⟨err | ⟨⟩, k₁⟩ <;> simp only [hset] at h
    · cases h
    · obtain ⟨-, rfl⟩ := Prod.mk.inj (Except.ok.inj h)
      rw [Consistent, memView_setPage_error split haddr hset]
      exact hk
    · obtain ⟨-, rfl⟩ := Prod.mk.inj (Except.ok.inj h)
      have hsame : { page with writable := true }.masked.addr = page.addr := by
        simpa using congrArg PageFrame.addr (view_masked split hview)
      rw [Consistent, memView_setPage_ok split haddr hset,
        PageFrame.storedAs_of_flag (.inr (.inl rfl))]
      split_ifs with hle
      · obtain ⟨hp, hlow, hhigh⟩ := hkernel hle
        exact hk.setKernel_same ⟨hlow, hhigh⟩ hp hsame hshared
      · obtain ⟨hx, hf⟩ := huser (not_le.mp hle)
        exact hk.setUser_same hx hf hsame hshared (by simp only [memView]; omega)

/-- The fault handler keeps the consistency when its buffer is a kernel-heap page. -/
theorem tryCopyOnWrite_consistent {heap : KernelHeap split} {k k' : Kernel}
    (hk : k.Consistent split heap) {alloc : TableAlloc} {freeShared : Nat → Bool}
    {queue : TaskQueue} {mmu : ProcessOrKernelPageDir} {addr X : Nat} {r : Except Errno Bool}
    (haddr : addr < 2 ^ 32) (hX : X ∈ heap.pages)
    (h : k.tryCopyOnWrite split alloc freeShared queue mmu addr (X * pageSize) = .ok (r, k')) :
    k'.Consistent split heap := by
  unfold tryCopyOnWrite at h
  rcases hq : queue.current with _ | current <;> simp only [hq] at h
  · obtain ⟨-, rfl⟩ := Prod.mk.inj (Except.ok.inj h)
    exact hk
  rcases hd : k.lookup (.process current.id.process) with _ | d <;> simp only [hd] at h
  · obtain ⟨-, rfl⟩ := Prod.mk.inj (Except.ok.inj h)
    exact hk
  rcases hp : k.pageIn split d addr with _ | page <;> simp only [hp] at h
  · obtain ⟨-, rfl⟩ := Prod.mk.inj (Except.ok.inj h)
    exact hk
  split_ifs at h with hcond
  · have hview : k.view split (.process current.id.process) (addr / pageSize * pageSize) =
        some page := by
      rw [← view_page]
      simp only [view, hd, hp]
    have hcow : page.copyOnWrite = true := by
      simp only [Bool.and_eq_true, Bool.not_eq_true'] at hcond
      exact hcond.1.2
    have hround : addr / pageSize * pageSize < 2 ^ 32 := by
      simp only [pageSize_eq]
      omega
    rcases hc : k.copyOnWrite split alloc freeShared mmu (.process current.id.process)
        (addr / pageSize * pageSize) page (X * pageSize) with fault | ⟨err | g, k₁⟩ <;>
      simp only [hc] at h
    · cases h
    all_goals
      obtain ⟨-, rfl⟩ := Prod.mk.inj (Except.ok.inj h)
      exact copyOnWrite_consistent split hk hround hX hview hcow hc
  · obtain ⟨-, rfl⟩ := Prod.mk.inj (Except.ok.inj h)
    exact hk

/-! ### Dropping a process's directory -/

section Drop

variable {heap : KernelHeap split} {freeShared : Nat → Bool} {id : Nat}

theorem freePageAt_consistent {j : Nat} {k k' : Kernel} (hid : id ∈ k.processes)
    (hj : j < split.addr / pageSize)
    (hs : ((k.memView split).unmapBelow (.process id) j).Consistent (split.addr / pageSize)
      heap.pages)
    (h : freePageAt freeShared (k.dirs id) k (j * pageSize) = .ok k') :
    (∃ refs manager, k' = { k with refs, manager }) ∧
      ((k'.memView split).unmapBelow (.process id) (j + 1)).Consistent (split.addr / pageSize)
        heap.pages := by
  have hbelow : ¬ split.addr ≤ j * pageSize := by
    have := split.aligned
    simp only [pageSize_eq] at *
    omega
  have huser : (k.memView split).user (.process id, j) = (k.dirs id).getPage (j * pageSize) := by
    simp only [memView, hj, if_true, view, lookup, hid, pageIn, hbelow, if_false]
  have hx : ((.process id, j) : ProcessOrKernelPageDir × Nat) ∈
      ((k.memView split).unmapBelow (.process id) j).live ×ˢ Finset.range (split.addr / pageSize) :=
    Finset.mem_product.mpr ⟨(mem_liveDirs k _).mpr (by simp [lookup, hid]), Finset.mem_range.mpr hj⟩
  unfold freePageAt at h
  rcases hpage : (k.dirs id).getPage (j * pageSize) with _ | page <;> simp only [hpage] at h
  · cases h
    refine ⟨⟨k.refs, k.manager, rfl⟩, ?_⟩
    rw [MemView.unmapBelow_succ, MemView.setUser_of_eq _ (by simp [MemView.unmapBelow, huser, hpage])]
    exact hs
  · have hf : ((k.memView split).unmapBelow (.process id) j).user (.process id, j) = some page := by
      simp [MemView.unmapBelow, huser, hpage]
    have hshared : page.shared = false := hs.unshared page (.inl ⟨_, hx, hf⟩)
    obtain ⟨refs, manager, rfl, -⟩ := freePage_unshared hshared h
    refine ⟨⟨refs, manager, rfl⟩, ?_⟩
    rw [memView_freePage split hshared h, MemView.release_unmapBelow, MemView.unmapBelow_succ]
    exact hs.release_unmapped hx hf

theorem freePageDir_loop_consistent : ∀ (m j : Nat) {k k' : Kernel},
    j + m = split.addr / pageSize → id ∈ k.processes →
    ((k.memView split).unmapBelow (.process id) j).Consistent (split.addr / pageSize) heap.pages →
    (List.range' (j * pageSize) m pageSize).foldlM (freePageAt freeShared (k.dirs id)) k = .ok k' →
    (∃ refs manager, k' = { k with refs, manager }) ∧
      ((k'.memView split).unmapBelow (.process id) (split.addr / pageSize)).Consistent
        (split.addr / pageSize) heap.pages
  | 0, j, k, k', hjm, _, hs, h => by
    cases h
    obtain rfl : j = split.addr / pageSize := hjm
    exact ⟨⟨k.refs, k.manager, rfl⟩, hs⟩
  | m + 1, j, k, k', hjm, hid, hs, h => by
    rw [List.range'_succ, List.foldlM_cons] at h
    rcases hstep : freePageAt freeShared (k.dirs id) k (j * pageSize) with fault | k₁ <;>
      simp only [hstep, bind, Except.bind] at h
    · cases h
    obtain ⟨⟨refs, manager, rfl⟩, hs₁⟩ := freePageAt_consistent split hid (by omega) hs hstep
    obtain ⟨⟨refs', manager', rfl⟩, hend⟩ := @freePageDir_loop_consistent m (j + 1)
      { k with refs, manager } k' (by omega) hid hs₁ (by rwa [Nat.succ_mul])
    exact ⟨⟨refs', manager', rfl⟩, hend⟩

theorem memView_erase (k : Kernel) (id : Nat) :
    ({ k with processes := k.processes.erase id } : Kernel).memView split =
      ((k.memView split).unmapBelow (.process id) (split.addr / pageSize)).retire (.process id) := by
  refine MemView.ext ?_ ?_ rfl rfl rfl
  · simp [memView, liveDirs, MemView.retire, MemView.unmapBelow, Finset.map_erase,
      Finset.erase_insert_of_ne]
  · funext ⟨d, p⟩
    simp only [memView, MemView.retire, MemView.unmapBelow]
    by_cases hp : p < split.addr / pageSize
    · cases d with
      | kernel => simp [hp, view, lookup, pageIn]
      | process id' =>
        by_cases hid : id' = id
        · subst hid
          simp [hp, view, lookup]
        · simp [hp, hid, view, lookup, pageIn]
    · simp [hp]

theorem foldlM_freePageAt (dir : PageDir) :
    ∀ (addrs : List Nat) (k : Kernel), addrs.foldlM (freePageAt freeShared dir) k =
      (addrs.filterMap dir.getPage).foldlM (fun k page => k.freePage freeShared page) k
  | [], _ => rfl
  | addr :: addrs, k => by
    rw [List.foldlM_cons, List.filterMap_cons]
    rcases hpage : dir.getPage addr with _ | page
    · simp only [freePageAt, hpage, bind, Except.bind]
      exact foldlM_freePageAt dir addrs k
    · simp only [freePageAt, hpage, List.foldlM_cons]
      congr 1
      funext k'
      exact foldlM_freePageAt dir addrs k'

/-- Dropping a process's directory keeps the consistency. -/
theorem dropProcessDir_consistent {k k' : Kernel} (hk : k.Consistent split heap)
    (h : k.dropProcessDir split freeShared id = .ok k') : k'.Consistent split heap := by
  unfold dropProcessDir at h
  split_ifs at h with hid
  · rcases hfree : k.freePageDir split freeShared (k.dirs id) with fault | kₙ <;>
      rw [hfree] at h
    · cases h
    cases h
    have hpages : stepBy 0 split.addr pageSize =
        List.range' (0 * pageSize) (split.addr / pageSize) pageSize := by
      have := split.aligned
      simp only [stepBy, pageSize_eq, Nat.zero_mul, Nat.sub_zero]
      congr 1
      omega
    rw [freePageDir, hpages] at hfree
    obtain ⟨⟨refs, manager, rfl⟩, hend⟩ := freePageDir_loop_consistent split
      (split.addr / pageSize) 0 (by omega) hid (by rwa [MemView.unmapBelow_zero]) hfree
    rw [Consistent, memView_erase]
    exact hend.retire fun p hp => by simp [MemView.unmapBelow, hp]
  · cases h
    exact hk

end Drop

/-! ### Runs of the memory system -/

/-- What runs on the memory system: a page fault at `addr` handled by `try_copy_on_write`,
whose buffer is the heap page `X`, or the drop of process `id`'s directory. -/
inductive MemOp where
  | pageFault (alloc : TableAlloc) (queue : TaskQueue) (mmu : ProcessOrKernelPageDir) (addr X : Nat)
  | dropProcess (id : Nat)

/-- What a page fault or a drop can be given: a fault is at a 32-bit address, and its buffer
is a page of the kernel heap. -/
def MemOp.Valid (heap : KernelHeap split) : MemOp → Prop
  | .pageFault _ _ _ addr X => addr < 2 ^ 32 ∧ X ∈ heap.pages
  | .dropProcess _ => True

/-- One operation; the fault handler's answer is for the faulting thread, the state is what
stays. -/
def memStep (freeShared : Nat → Bool) (k : Kernel) : MemOp → Except Fault Kernel
  | .pageFault alloc queue mmu addr X =>
    (k.tryCopyOnWrite split alloc freeShared queue mmu addr (X * pageSize)).map Prod.snd
  | .dropProcess id => k.dropProcessDir split freeShared id

theorem memStep_consistent {heap : KernelHeap split} {freeShared : Nat → Bool} {k k' : Kernel}
    (hk : k.Consistent split heap) {op : MemOp} (hop : op.Valid split heap)
    (h : k.memStep split freeShared op = .ok k') : k'.Consistent split heap := by
  cases op with
  | pageFault alloc queue mmu addr X =>
    rcases hfault : k.tryCopyOnWrite split alloc freeShared queue mmu addr (X * pageSize) with
      _ | ⟨r, k₁⟩ <;> rw [memStep, hfault] at h <;> cases h
    exact tryCopyOnWrite_consistent split hk hop.1 hop.2 hfault
  | dropProcess id => exact dropProcessDir_consistent split hk h

/-- From a consistent state, every run of page faults, each handled with a heap page for its
buffer, and of process exits that does not fault ends in a consistent state. -/
theorem consistent_of_run (heap : KernelHeap split) (freeShared : Nat → Bool) :
    ∀ (ops : List MemOp) (k : Kernel) {k' : Kernel}, k.Consistent split heap →
      (∀ op ∈ ops, op.Valid split heap) → ops.foldlM (memStep split freeShared) k = .ok k' →
      k'.Consistent split heap
  | [], _, _, hk, _, h => by
    cases h
    exact hk
  | op :: ops, k, _, hk, hvalid, h => by
    rw [List.foldlM_cons] at h
    rcases hstep : k.memStep split freeShared op with _ | k₁ <;> rw [hstep] at h
    · cases h
    · exact consistent_of_run heap freeShared ops k₁
        (memStep_consistent split hk (hvalid op (List.mem_cons_self _ _)) hstep)
        (fun o ho => hvalid o (List.mem_cons_of_mem _ ho)) h

end Kernel

/-! ### A consistent state, and a drop that `Accounted` alone does not survive -/

/-- A directory whose only table sits in slot `t`, with entries `entries`. -/
def PageDir.ofTable (t : Fin 1024) (entries : Fin 1024 → PageTableEntry) : PageDir :=
  ⟨fun j => if j = t then some ⟨⟨entries⟩, true⟩ else none,
    fun j => if j = t then ⟨0x1007⟩ else ⟨0⟩, 0x2000, true⟩

theorem PageDir.getPage_ofTable {t : Fin 1024} {entries : Fin 1024 → PageTableEntry} {p : Nat}
    (hp : p < 2 ^ 20) :
    (PageDir.ofTable t entries).getPage (p * pageSize) =
      if p / 1024 = t.val then (entries (entryIndex p)).toPage? else none := by
  have hdiv : p * pageSize / pageSize = p := Nat.mul_div_cancel _ (by decide)
  have ht : tableIndex p = t ↔ p / 1024 = t.val := by
    rw [Fin.ext_iff]
    simp only [tableIndex]
    omega
  simp only [PageDir.getPage, PageDir.ofTable, hdiv]
  by_cases htp : tableIndex p = t
  · simp [htp, ht.mp htp]
  · simp [htp, mt ht.mpr htp]

private theorem entryIndex_eq_iff {p : Nat} {j : Fin 1024} : entryIndex p = j ↔ p % 1024 = j.val := by
  rw [Fin.ext_iff]
  rfl

theorem PageDir.getPage_ofTable_one {e : PageTableEntry} {p : Nat} (hp : p < 2 ^ 20) :
    (PageDir.ofTable 0 fun j => if j = 1 then e else ⟨0⟩).getPage (p * pageSize) =
      if p = 1 then e.toPage? else none := by
  rw [PageDir.getPage_ofTable hp]
  by_cases h1 : p = 1
  · subst h1
    rfl
  · rw [if_neg h1]
    split_ifs with h0 he
    · exact absurd (entryIndex_eq_iff.mp he) (by simp only [Fin.val_one]; omega)
    all_goals rfl

/-- Frame `0x5000`, present, user and read-only. -/
def privateFrame : PageFrame :=
  { addr := 0x5000, present := true, userMode := true, executable := true }

/-- Frame `0x6000`, present and writable. -/
def heapFrame : PageFrame := { addr := 0x6000, present := true, writable := true, executable := true }

/-- Frame `0x5000`, present and writable. -/
def aliasFrame : PageFrame :=
  { addr := 0x5000, present := true, writable := true, executable := true }

/-- Process 1's directory: its page `0x1000` maps `privateFrame`. -/
def privateDir : PageDir := .ofTable 0 fun j => if j = 1 then ⟨0x5005⟩ else ⟨0⟩

/-- A kernel directory whose heap page `0xe1000000` is backed by `heapFrame`. -/
def heapKernelDir : PageDir := .ofTable 900 fun j => if j = 0 then ⟨0x6003⟩ else ⟨0⟩

/-- `heapKernelDir` whose kernel page `0xe1001000` is backed by `aliasFrame` as well. -/
def aliasKernelDir : PageDir :=
  .ofTable 900 fun j => if j = 0 then ⟨0x6003⟩ else if j = 1 then ⟨0x5003⟩ else ⟨0⟩

/-- The kernel heap of the single page `0xe1000000`. -/
def sampleHeap : KernelHeap .linkedBase := ⟨{0xe1000}, by decide⟩

/-- Process 1 owns frame `0x5000`; the kernel directory is `kernelDir`; no frame is counted and
the bits of frames `0x5000` and `0x6000` are set. -/
def heapSample (kernelDir : PageDir) : Kernel where
  kernelDir := kernelDir
  processes := {1}
  dirs := fun _ => privateDir
  refs := .new
  manager := ⟨⟨fun i => decide (i = 5 ∨ i = 6), 16⟩⟩
  memory := fun _ => 0

theorem privateDir_getPage {p : Nat} (hp : p < 2 ^ 20) :
    privateDir.getPage (p * pageSize) = if p = 1 then some privateFrame else none := by
  rw [privateDir, PageDir.getPage_ofTable_one hp]
  rfl

theorem heapKernelDir_getPage {p : Nat} (hp : p < 2 ^ 20) :
    heapKernelDir.getPage (p * pageSize) = if p = 0xe1000 then some heapFrame else none := by
  rw [heapKernelDir, PageDir.getPage_ofTable hp]
  by_cases h : p = 0xe1000
  · subst h
    rfl
  · rw [if_neg h]
    split_ifs with ht he
    · exact absurd (entryIndex_eq_iff.mp he) (by simp only [Fin.val_zero]; omega)
    all_goals rfl

theorem heapKernelDir_below {p : Nat} (hp : p < 0xe0000) :
    heapKernelDir.getPage (p * pageSize) = none := by
  rw [heapKernelDir_getPage (by omega), if_neg (by omega)]

theorem heapKernelDir_frame {p : Nat} {f : PageFrame} (hp : p < 2 ^ 20)
    (hf : heapKernelDir.getPage (p * pageSize) = some f) : p = 0xe1000 ∧ f = heapFrame := by
  rw [heapKernelDir_getPage hp] at hf
  split_ifs at hf with h
  exact ⟨h, (Option.some.inj hf).symm⟩

theorem kernelMaps_heapKernelDir {k : Kernel} (hk : k.kernelDir = heapKernelDir) (phys : Nat) :
    (k.memView .linkedBase).kernelMaps (KernelSplit.linkedBase.addr / pageSize) phys =
      if phys = 0x6000 then {0xe1000} else ∅ := by
  ext p
  rw [MemView.mem_kernelMaps]
  simp only [Kernel.memView, hk]
  constructor
  · rintro ⟨hlow, hp, hf⟩
    rw [if_pos ⟨hlow, hp⟩] at hf
    obtain ⟨g, hg, rfl⟩ := Option.map_eq_some'.mp hf
    obtain ⟨rfl, rfl⟩ := heapKernelDir_frame hp hg
    simp [heapFrame]
  · intro hp
    split_ifs at hp with hphys
    · obtain rfl := Finset.mem_singleton.mp hp
      exact ⟨by decide, by decide, by rw [if_pos ⟨by decide, by decide⟩, hphys]; rfl⟩
    · cases hp

theorem aliasKernelDir_getPage {p : Nat} (hp : p < 2 ^ 20) :
    aliasKernelDir.getPage (p * pageSize) =
      if p = 0xe1000 then some heapFrame else if p = 0xe1001 then some aliasFrame else none := by
  rw [aliasKernelDir, PageDir.getPage_ofTable hp]
  by_cases h : p = 0xe1000
  · subst h
    rfl
  · by_cases h' : p = 0xe1001
    · subst h'
      rfl
    · rw [if_neg h, if_neg h']
      split_ifs with ht he he'
      · exact absurd (entryIndex_eq_iff.mp he) (by simp only [Fin.val_zero]; omega)
      · exact absurd (entryIndex_eq_iff.mp he') (by simp only [Fin.val_one]; omega)
      all_goals rfl

/-- The user pages of a state whose kernel directory maps nothing below the split are read from
its processes' directories. -/
theorem memView_user_of_below {k : Kernel}
    (hbelow : ∀ p < 0xe0000, k.kernelDir.getPage (p * pageSize) = none)
    (d : ProcessOrKernelPageDir) (p : Nat) :
    (k.memView .linkedBase).user (d, p) =
      match d with
      | .kernel => none
      | .process i =>
        if i ∈ k.processes ∧ p < 0xe0000 then (k.dirs i).getPage (p * pageSize) else none := by
  by_cases hp : p < 0xe0000
  · have hn : p < KernelSplit.linkedBase.addr / pageSize := hp
    have hhalf : ¬ KernelSplit.linkedBase.addr ≤ p * pageSize := by
      simp only [KernelSplit.linkedBase, pageSize_eq]
      omega
    cases d with
    | kernel =>
      simp [Kernel.memView, hn, Kernel.view, Kernel.lookup, Kernel.pageIn, hhalf, hbelow p hp]
    | process i =>
      by_cases hi : i ∈ k.processes <;>
        simp [Kernel.memView, hn, Kernel.view, Kernel.lookup, Kernel.pageIn, hhalf, hi, hp]
  · have hn : ¬ p < KernelSplit.linkedBase.addr / pageSize := hp
    cases d <;> simp [Kernel.memView, hn, hp]

section Sample

variable {kernelDir : PageDir}
  (hbelow : ∀ p < 0xe0000, kernelDir.getPage (p * pageSize) = none)

include hbelow

theorem heapSample_user (x : ProcessOrKernelPageDir × Nat) :
    ((heapSample kernelDir).memView .linkedBase).user x =
      if x = (.process 1, 1) then some privateFrame else none := by
  obtain ⟨i | _, p⟩ := x <;> rw [memView_user_of_below hbelow]
  · by_cases hp : p < 0xe0000
    · by_cases hi : i = 1 <;>
        simp [heapSample, hp, hi, privateDir_getPage (show p < 2 ^ 20 by omega)]
    · simp [hp, show p ≠ 1 by omega]
  · simp

theorem heapSample_userMaps (phys : Nat) :
    ((heapSample kernelDir).memView .linkedBase).userMaps (KernelSplit.linkedBase.addr / pageSize)
      phys = if phys = 0x5000 then {(.process 1, 1)} else ∅ := by
  ext y
  rw [MemView.mem_userMaps, heapSample_user hbelow]
  by_cases hy : y = (.process 1, 1)
  · subst hy
    have hlive : ((.process 1, 1) : ProcessOrKernelPageDir × Nat) ∈
        ((heapSample kernelDir).memView .linkedBase).live ×ˢ
          Finset.range (KernelSplit.linkedBase.addr / pageSize) := by
      simp [Kernel.memView, Kernel.liveDirs, heapSample, KernelSplit.linkedBase, pageSize_eq]
    by_cases hphys : phys = 0x5000 <;> simp [hlive, hphys, privateFrame]
    exact fun h => hphys h.symm
  · split_ifs <;> simp [hy]

end Sample

theorem heapSample_kernel (kernelDir : PageDir) (p : Nat) :
    ((heapSample kernelDir).memView .linkedBase).kernel p =
      if 0xe0000 ≤ p ∧ p < 2 ^ 20 then kernelDir.getPage (p * pageSize) else none :=
  rfl

theorem heapSample_accounted {kernelDir : PageDir}
    (hbelow : ∀ p < 0xe0000, kernelDir.getPage (p * pageSize) = none)
    (hkernel : ∀ p f, p < 2 ^ 20 → kernelDir.getPage (p * pageSize) = some f →
      f.shared = false ∧ (f.addr = 0x5000 ∨ f.addr = 0x6000))
    (hheap : ∀ f, kernelDir.getPage (0xe1000 * pageSize) = some f → f.addr ≠ 0x5000) :
    (heapSample kernelDir).Accounted .linkedBase sampleHeap := by
  have huser := heapSample_user hbelow
  have huserMaps := heapSample_userMaps hbelow
  have hmaps : ∀ f, ((heapSample kernelDir).memView .linkedBase).Maps
      (KernelSplit.linkedBase.addr / pageSize) f →
      f = privateFrame ∨ f.shared = false ∧ (f.addr = 0x5000 ∨ f.addr = 0x6000) := by
    rintro f (⟨x, -, hx⟩ | ⟨p, hlow, hp, hf⟩)
    · rw [huser] at hx
      split_ifs at hx
      exact .inl (Option.some.inj hx).symm
    · rw [heapSample_kernel, if_pos ⟨hlow, hp⟩] at hf
      exact .inr (hkernel p f hp hf)
  refine ⟨fun f hf => ?_, fun phys hphys => ?_, fun x _ f hf hw => ?_, fun p hp f hf => ?_,
    fun f hf => ?_⟩
  · rcases hmaps f hf with rfl | ⟨-, h | h⟩
    · rfl
    all_goals simp [h, Kernel.memView, heapSample, pageSize_eq]
  · rw [huserMaps] at hphys
    split_ifs at hphys <;> simp [Kernel.memView, PageRefCounter.getReferencesFor,
      PageRefCounter.new, heapSample] at hphys
  · rw [huser] at hf
    split_ifs at hf
    cases hf
    cases hw
  · obtain rfl := Finset.mem_singleton.mp hp
    rw [heapSample_kernel, if_pos ⟨by decide, by decide⟩] at hf
    rw [huserMaps, if_neg (hheap f hf)]
  · rcases hmaps f hf with rfl | ⟨h, -⟩
    · rfl
    · exact h

theorem heapSample_consistent : (heapSample heapKernelDir).Consistent .linkedBase sampleHeap := by
  have hkernelMaps := @kernelMaps_heapKernelDir (heapSample heapKernelDir) rfl
  have huser := heapSample_user fun p hp => heapKernelDir_below hp
  refine ⟨heapSample_accounted (fun p hp => heapKernelDir_below hp) (fun p f hp hf => by
      obtain ⟨-, rfl⟩ := heapKernelDir_frame hp hf
      exact ⟨rfl, .inr rfl⟩)
    (fun f hf => by rw [(heapKernelDir_frame (by decide) hf).2]; decide), fun x _ f hf => ?_,
    fun p hp f hf => ?_, fun f hf => ?_⟩
  · rw [huser] at hf
    split_ifs at hf
    cases hf
    rw [hkernelMaps, if_neg (by decide)]
  · obtain rfl := Finset.mem_singleton.mp hp
    rw [heapSample_kernel, if_pos ⟨by decide, by decide⟩] at hf
    obtain ⟨-, rfl⟩ := heapKernelDir_frame (by decide) hf
    exact (hkernelMaps _).trans (if_pos rfl)
  · rcases hf with ⟨x, -, hx⟩ | ⟨p, hlow, hp, hf⟩
    · rw [huser] at hx
      split_ifs at hx
      cases hx
      rfl
    · rw [heapSample_kernel, if_pos ⟨hlow, hp⟩] at hf
      obtain ⟨-, rfl⟩ := heapKernelDir_frame hp hf
      rfl

/-- A process directory whose page `0x1000` maps `cowSampleFrame`. -/
def sharedDir : PageDir := .ofTable 0 fun j => if j = 1 then ⟨0x5605⟩ else ⟨0⟩

/-- Processes 1 and 2 share frame `0x5000` copy-on-write at their page `0x1000`, counted twice;
the kernel heap page `0xe1000000` is backed by frame `0x6000`; frames below `0x8000` are in
use. -/
def cowShareSample : Kernel where
  kernelDir := heapKernelDir
  processes := {1, 2}
  dirs := fun _ => sharedDir
  refs := ⟨fun phys => if phys = 0x5000 then some 2 else none⟩
  manager := ⟨⟨fun i => decide (i < 8), 16⟩⟩
  memory := fun _ => 0

theorem sharedDir_getPage {p : Nat} (hp : p < 2 ^ 20) :
    sharedDir.getPage (p * pageSize) = if p = 1 then some cowSampleFrame else none := by
  rw [sharedDir, PageDir.getPage_ofTable_one hp]
  rfl

theorem cowShareSample_user (x : ProcessOrKernelPageDir × Nat) :
    (cowShareSample.memView .linkedBase).user x =
      if x = (.process 1, 1) ∨ x = (.process 2, 1) then some cowSampleFrame else none := by
  obtain ⟨i | _, p⟩ := x <;> rw [memView_user_of_below fun p hp => heapKernelDir_below hp]
  · by_cases hp : p < 0xe0000
    · by_cases hi : i = 1 ∨ i = 2
      · rcases hi with rfl | rfl <;>
          simp [cowShareSample, hp, sharedDir_getPage (show p < 2 ^ 20 by omega)]
      · have hx : ¬ (i = 1 ∧ p = 1 ∨ i = 2 ∧ p = 1) := by omega
        simp only [cowShareSample, Finset.mem_insert, Finset.mem_singleton, hi, false_and,
          if_false, Prod.mk.injEq, ProcessOrKernelPageDir.process.injEq, hx]
    · simp [hp, show p ≠ 1 by omega]
  · simp

theorem cowShareSample_userMaps (phys : Nat) :
    (cowShareSample.memView .linkedBase).userMaps (KernelSplit.linkedBase.addr / pageSize) phys =
      if phys = 0x5000 then {(.process 1, 1), (.process 2, 1)} else ∅ := by
  ext y
  rw [MemView.mem_userMaps, cowShareSample_user]
  by_cases hy : y = (.process 1, 1) ∨ y = (.process 2, 1)
  · have hlive : y ∈ (cowShareSample.memView .linkedBase).live ×ˢ
        Finset.range (KernelSplit.linkedBase.addr / pageSize) := by
      rcases hy with rfl | rfl <;>
        simp [Kernel.memView, Kernel.liveDirs, cowShareSample, KernelSplit.linkedBase, pageSize_eq]
    by_cases hphys : phys = 0x5000 <;> simp [hlive, hy, hphys, cowSampleFrame]
    exact fun h => hphys h.symm
  · split_ifs <;> simp [hy]

theorem cowShareSample_consistent : cowShareSample.Consistent .linkedBase sampleHeap := by
  have huser := cowShareSample_user
  have hkernelMaps := @kernelMaps_heapKernelDir cowShareSample rfl
  have hkernel : ∀ p f, (cowShareSample.memView .linkedBase).kernel p = some f →
      p = 0xe1000 ∧ f = heapFrame := fun p f hf => by
    simp only [Kernel.memView] at hf
    split_ifs at hf with hp
    exact heapKernelDir_frame hp.2 hf
  have hmaps : ∀ f, (cowShareSample.memView .linkedBase).Maps
      (KernelSplit.linkedBase.addr / pageSize) f → f = cowSampleFrame ∨ f = heapFrame := by
    rintro f (⟨x, -, hx⟩ | ⟨p, -, -, hf⟩)
    · rw [huser] at hx
      split_ifs at hx
      exact .inl (Option.some.inj hx).symm
    · exact .inr (hkernel p f hf).2
  refine ⟨⟨fun f hf => ?_, fun phys hphys => ?_, fun x _ f hf hw => ?_, fun p hp f hf => ?_,
    fun f hf => ?_⟩, fun x _ f hf => ?_, fun p hp f hf => ?_, fun f hf => ?_⟩
  · rcases hmaps f hf with rfl | rfl <;> rfl
  · rw [cowShareSample_userMaps] at hphys ⊢
    split_ifs at hphys ⊢ with h
    · subst h
      refine ⟨rfl, fun x _ f hf => ?_⟩
      rw [huser] at hf
      split_ifs at hf
      cases hf
      exact ⟨rfl, rfl, rfl⟩
    · simp [Kernel.memView, cowShareSample, PageRefCounter.getReferencesFor, h] at hphys
  · rw [huser] at hf
    split_ifs at hf
    cases hf
    cases hw
  · obtain rfl := Finset.mem_singleton.mp hp
    obtain ⟨-, rfl⟩ := hkernel _ f hf
    rw [cowShareSample_userMaps, if_neg (by decide)]
  · rcases hmaps f hf with rfl | rfl <;> rfl
  · rw [huser] at hf
    split_ifs at hf
    cases hf
    rw [hkernelMaps, if_neg (by decide)]
  · obtain rfl := Finset.mem_singleton.mp hp
    obtain ⟨-, rfl⟩ := hkernel _ f hf
    exact (hkernelMaps _).trans (if_pos rfl)
  · rcases hmaps f hf with rfl | rfl <;> rfl

/-- From a consistent state, a completed `try_copy_on_write` whose buffer is a kernel-heap page,
a completed `copy_on_write` of a copy-on-write page with such a buffer, and the drop of a
process's directory each end in a consistent state. -/
theorem Kernel.consistent_of_copyOnWrite_or_drop (split : KernelSplit) (heap : KernelHeap split)
    (k : Kernel) (hk : k.Consistent split heap) :
    (∀ alloc freeShared queue mmu addr X (r : Except Errno Bool) k', addr < 2 ^ 32 →
      X ∈ heap.pages →
      k.tryCopyOnWrite split alloc freeShared queue mmu addr (X * pageSize) = .ok (r, k') →
      k'.Consistent split heap) ∧
    (∀ alloc freeShared mmu dir addr page X (r : Except PagingError PageFrame) k',
      addr < 2 ^ 32 → X ∈ heap.pages → k.view split dir addr = some page →
      page.copyOnWrite = true →
      k.copyOnWrite split alloc freeShared mmu dir addr page (X * pageSize) = .ok (r, k') →
      k'.Consistent split heap) ∧
    ∀ freeShared id k', k.dropProcessDir split freeShared id = .ok k' → k'.Consistent split heap :=
  ⟨fun _ _ _ _ _ _ _ _ haddr hX h => Kernel.tryCopyOnWrite_consistent split hk haddr hX h,
    fun _ _ _ _ _ _ _ _ _ haddr hX hview hcow h =>
      Kernel.copyOnWrite_consistent split hk haddr hX hview hcow h,
    fun _ _ _ h => Kernel.dropProcessDir_consistent split hk h⟩

/-- Process 1 faults on its page `0x1000` of `cowShareSample`, shared with process 2: the
handler copies the page into the heap buffer and completes, and the state stays consistent, as
it does after any drop. -/
theorem consistent_of_copyOnWrite_or_drop_cowShareSample :
    cowShareSample.Consistent .linkedBase sampleHeap ∧
      (∃ k', cowShareSample.tryCopyOnWrite .linkedBase ⟨0, none⟩ (fun _ => false)
          ⟨some ⟨⟨1, 0⟩, 0⟩, []⟩ (.process 1) 0x1000 (0xe1000 * pageSize) = .ok (.ok true, k') ∧
        k'.Consistent .linkedBase sampleHeap) ∧
      ∀ freeShared id k', cowShareSample.dropProcessDir .linkedBase freeShared id = .ok k' →
        k'.Consistent .linkedBase sampleHeap := by
  obtain ⟨hfault, -, hdrop⟩ := Kernel.consistent_of_copyOnWrite_or_drop .linkedBase sampleHeap _
    cowShareSample_consistent
  have hbytes := @Kernel.copyBytes_page KernelSplit.linkedBase cowShareSample (.process 1) 0x1000
    0xe1000000 cowSampleFrame heapFrame rfl (by decide) (by decide) (by decide) (by decide) rfl
    rfl (by decide)
  obtain ⟨g, k', hcow⟩ : ∃ g k', cowShareSample.copyOnWrite .linkedBase ⟨0, none⟩
      (fun _ => false) (.process 1) (.process 1) 0x1000 cowSampleFrame 0xe1000000 =
        .ok (.ok g, k') := by
    rw [Kernel.copyOnWrite, if_pos (by decide), hbytes]
    exact ⟨_, _, rfl⟩
  have hrun : cowShareSample.tryCopyOnWrite .linkedBase ⟨0, none⟩ (fun _ => false)
      ⟨some ⟨⟨1, 0⟩, 0⟩, []⟩ (.process 1) 0x1000 (0xe1000 * pageSize) = .ok (.ok true, k') :=
    Kernel.tryCopyOnWrite_of_copyOnWrite .linkedBase rfl rfl (by decide) (by rfl) hcow
  exact ⟨cowShareSample_consistent, ⟨k', hrun, hfault _ _ _ _ _ _ _ _ (by decide) (by decide) hrun⟩,
    hdrop⟩

theorem privateDir_mapped :
    (stepBy 0 KernelSplit.linkedBase.addr pageSize).filterMap privateDir.getPage =
      [privateFrame] := by
  have hsteps : stepBy 0 KernelSplit.linkedBase.addr pageSize =
      0 * pageSize :: 1 * pageSize :: List.range' (2 * pageSize) (0xe0000 - 2) pageSize := by
    rw [stepBy, show (KernelSplit.linkedBase.addr - 0 + pageSize - 1) / pageSize =
      0xe0000 - 2 + 1 + 1 from rfl, List.range'_succ, List.range'_succ]
    simp only [Nat.zero_mul, Nat.zero_add, Nat.one_mul, two_mul]
  have htail : ∀ a ∈ List.range' (2 * pageSize) (0xe0000 - 2) pageSize,
      privateDir.getPage a = none := fun a ha => by
    obtain ⟨i, hi, rfl⟩ := List.mem_range'.mp ha
    rw [show 2 * pageSize + pageSize * i = (i + 2) * pageSize by simp only [pageSize_eq]; omega,
      privateDir_getPage (by omega), if_neg (by omega)]
  rw [hsteps, List.filterMap_cons, List.filterMap_cons, List.filterMap_eq_nil_iff.mpr htail,
    privateDir_getPage (by decide), privateDir_getPage (by decide)]
  rfl

theorem heapSample_drop (kernelDir : PageDir) (freeShared : Nat → Bool) :
    (heapSample kernelDir).dropProcessDir .linkedBase freeShared 1 =
      .ok { heapSample kernelDir with
        processes := ({1} : Finset Nat).erase 1
        manager := ⟨(heapSample kernelDir).manager.frameSet.clear 5⟩ } := by
  rw [Kernel.dropProcessDir,
    if_pos (show 1 ∈ (heapSample kernelDir).processes from Finset.mem_singleton_self 1),
    Kernel.freePageDir]
  show Except.map _ ((stepBy 0 KernelSplit.linkedBase.addr pageSize).foldlM
    (Kernel.freePageAt freeShared privateDir) _) = _
  rw [Kernel.foldlM_freePageAt, privateDir_mapped]
  rfl

/-- The drop of process 1 from the consistent sample is a run of one operation, and it ends
consistent. -/
theorem consistent_of_run_heapSample :
    (heapSample heapKernelDir).Consistent .linkedBase sampleHeap ∧
      (∀ op ∈ [Kernel.MemOp.dropProcess 1], op.Valid .linkedBase sampleHeap) ∧
      ∃ k', [Kernel.MemOp.dropProcess 1].foldlM (Kernel.memStep .linkedBase fun _ => false)
          (heapSample heapKernelDir) = .ok k' ∧ k'.Consistent .linkedBase sampleHeap := by
  have hvalid : ∀ op ∈ [Kernel.MemOp.dropProcess 1], op.Valid .linkedBase sampleHeap :=
    fun op hop => by
      rw [List.mem_singleton.mp hop]
      trivial
  have hrun : [Kernel.MemOp.dropProcess 1].foldlM (Kernel.memStep .linkedBase fun _ => false)
      (heapSample heapKernelDir) = (heapSample heapKernelDir).dropProcessDir .linkedBase
        (fun _ => false) 1 >>= pure := by
    rw [List.foldlM_cons]
    rfl
  rw [heapSample_drop] at hrun
  exact ⟨heapSample_consistent, hvalid, _, hrun,
    Kernel.consistent_of_run .linkedBase sampleHeap _ _ _ heapSample_consistent hvalid hrun⟩

/-- With the heap page's neighbour `0xe1001000` also backed by frame `0x5000`, the bits and counts
of the sample account for its mappings; the drop of process 1 releases the frame, whose bit
is cleared while the kernel page still maps it. -/
theorem drop_clears_aliased_frame :
    (heapSample aliasKernelDir).Accounted .linkedBase sampleHeap ∧
      ∀ freeShared, ∃ k',
        (heapSample aliasKernelDir).dropProcessDir .linkedBase freeShared 1 = .ok k' ∧
          ¬ k'.Accounted .linkedBase sampleHeap := by
  have hframe : ∀ p f, p < 2 ^ 20 → aliasKernelDir.getPage (p * pageSize) = some f →
      (p = 0xe1000 ∧ f = heapFrame) ∨ (p = 0xe1001 ∧ f = aliasFrame) := fun p f hp hf => by
    rw [aliasKernelDir_getPage hp] at hf
    split_ifs at hf with h h'
    · exact .inl ⟨h, (Option.some.inj hf).symm⟩
    · exact .inr ⟨h', (Option.some.inj hf).symm⟩
  refine ⟨heapSample_accounted (fun p hp => by
      rw [aliasKernelDir_getPage (by omega), if_neg (by omega), if_neg (by omega)])
    (fun p f hp hf => by
      rcases hframe p f hp hf with ⟨-, rfl⟩ | ⟨-, rfl⟩
      · exact ⟨rfl, .inr rfl⟩
      · exact ⟨rfl, .inl rfl⟩)
    (fun f hf => by
      rcases hframe _ f (by decide) hf with ⟨-, rfl⟩ | ⟨h, -⟩
      · decide
      · cases h), fun freeShared => ⟨_, heapSample_drop aliasKernelDir freeShared, fun h => ?_⟩⟩
  have := h.used aliasFrame (.inr ⟨0xe1001, by decide, by decide, by decide⟩)
  exact absurd this (by decide)

end Ockernel
