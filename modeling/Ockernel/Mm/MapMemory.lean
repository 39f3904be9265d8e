import Ockernel.Mm.Invariant

/-!
Transient mappings of `mm/paging.rs`.  `map_memory` maps a list of frames at a fresh
page-aligned heap buffer of the directory `map_into`, runs a closure over the buffer, and maps
the buffer's own frames back; `map_memory_from` collects the frames behind a range of a
foreign directory, resolving copy-on-write pages first, and hands them to `map_memory`.

The heap's answers are parameters: the buffer `alloc` returns (`none` is null), whether a
`try_reserve_exact` succeeds, and the buffer of each copy.  The closure `op` gets the state it
runs in with the slice's address and length, and returns its result with physical memory as
it leaves it.  `usize` arithmetic wraps, as in the rest of the model.

The main results are `mapMemory_restores`, what `map_memory` does when the buffer's pages hold
entries of the form it writes back, and `mapMemoryFrom_scans_page_past_end`, that
`map_memory_from` of a range that ends on a page boundary also reads the page after it.
-/

namespace Ockernel

namespace Kernel

variable (split : KernelSplit)

/-- The frame `map_memory` maps: `PageFrame { addr, present: true, writable: true,
..Default::default() }`. -/
def mappedFrame (addr : Nat) : PageFrame := { addr, present := true, writable := true }

/-- `isize::MAX` on the 32-bit target. -/
def isizeMax : Nat := 2 ^ 31 - 1

/-- The panic of `Layout::from_size_align(size, page_size).unwrap()` for a size above
`isize::MAX - (page_size - 1)`. -/
def layoutError : Fault := .panic "called Result::unwrap() on an Err value: LayoutError"

/-- The first loop of `map_memory`: `virt_to_phys` through `map_into` of every page of the
buffer, in order; `none` from the first page it does not map. -/
def existingPhys (k : Kernel) (mapInto : ProcessOrKernelPageDir) :
    List Nat → Except Fault (Option (List Nat))
  | [] => .ok (some [])
  | virt :: rest =>
    match k.virtToPhys split mapInto virt with
    | .error fault => .error fault
    | .ok none => .ok none
    | .ok (some addr) => (existingPhys k mapInto rest).map (Option.map (List.cons addr))

/-- The two remapping loops of `map_memory`: for every pair in order,
`set_page(virt, Some(mapped frame of phys)).expect("couldn't remap page")`, the first loop
after its `assert!(!existing_phys.contains(phys_addr), ..)`, which is `trampled` here. -/
def remapPages (k : Kernel) (alloc : TableAlloc) (mapInto : ProcessOrKernelPageDir)
    (trampled : Nat → Bool) : List (Nat × Nat) → Except Fault Kernel
  | [] => .ok k
  | (virt, phys) :: rest =>
    if trampled phys then .error (.panic "trampling on other page directory's memory")
    else
      match k.setPage split alloc mapInto virt (some (mappedFrame phys)) with
      | .error fault => .error fault
      | .ok (.error err, _) => .error (.expectFailed "couldn't remap page" err)
      | .ok (.ok (), k) => remapPages k alloc mapInto trampled rest

/-- maps the given physical addresses in order into a region of memory allocated on the heap,
then calls `op` with a slice over all the mapped memory; `buffer` is what `alloc` returns and
`reserved` whether `try_reserve_exact` of the save list succeeds -/
def mapMemory {α : Type} (k : Kernel) (alloc : TableAlloc) (mapInto : ProcessOrKernelPageDir)
    (buffer : Option Nat) (reserved : Bool) (addresses : List Nat)
    (op : Kernel → Nat → Nat → Except Fault (α × (Nat → UInt8))) : Outcome Kernel α :=
  let bufLen := addresses.length * pageSize % 2 ^ 32
  if isizeMax - (pageSize - 1) < bufLen then .error layoutError
  else
    match buffer with
    | none => .ok (.error .allocError, k)
    | some ptr =>
      if ptr % pageSize ≠ 0 then .error (.panic "assertion failed: ptr as usize % page_size == 0")
      else if !reserved then .ok (.error .allocError, k)
      else
        let pages := stepBy ptr ((ptr + bufLen) % 2 ^ 32) pageSize
        match k.existingPhys split mapInto pages with
        | .error fault => .error fault
        | .ok none => .ok (.error .badAddress, k)
        | .ok (some existing) =>
          let remap := addresses.enum.map fun p => ((ptr + p.1 * pageSize) % 2 ^ 32, p.2)
          match k.remapPages split alloc mapInto existing.contains remap with
          | .error fault => .error fault
          | .ok k =>
            match op k ptr bufLen with
            | .error fault => .error fault
            | .ok (res, memory) =>
              match ({ k with memory } : Kernel).remapPages split alloc mapInto (fun _ => false)
                  (pages.zip existing) with
              | .error fault => .error fault
              | .ok k => .ok (.ok res, k)

/-- One pass of the address loop of `map_memory_from`: the frame behind page `i` of `from`,
after `copy_on_write(from, addr, page)` when it is copy-on-write; the copy's buffer is
`copied i`, and its bytes are read through `map_into`, the current directory. -/
def framePhys (k : Kernel) (alloc : TableAlloc) (freeShared : Nat → Bool)
    (mapInto fromDir : ProcessOrKernelPageDir) (copied : Nat → Nat) (addr i : Nat) :
    Outcome Kernel Nat :=
  match k.getPage split fromDir i with
  | .error fault => .error fault
  | .ok none => .ok (.error .badAddress, k)
  | .ok (some page) =>
    if !page.writable && page.copyOnWrite && page.referenced then
      match k.copyOnWrite split alloc freeShared mapInto fromDir addr page (copied i) with
      | .error fault => .error fault
      | .ok (.error err, k) => .ok (.error err, k)
      | .ok (.ok page, k) => .ok (.ok page.addr, k)
    else .ok (.ok page.addr, k)

/-- The address loop of `map_memory_from` over the pages it visits. -/
def collectPhys (k : Kernel) (alloc : TableAlloc) (freeShared : Nat → Bool)
    (mapInto fromDir : ProcessOrKernelPageDir) (copied : Nat → Nat) (addr : Nat) :
    List Nat → Outcome Kernel (List Nat)
  | [] => .ok (.ok [], k)
  | i :: rest =>
    match k.framePhys split alloc freeShared mapInto fromDir copied addr i with
    | .error fault => .error fault
    | .ok (.error err, k) => .ok (.error err, k)
    | .ok (.ok phys, k) =>
      match collectPhys k alloc freeShared mapInto fromDir copied addr rest with
      | .error fault => .error fault
      | .ok (.error err, k) => .ok (.error err, k)
      | .ok (.ok rest, k) => .ok (.ok (phys :: rest), k)

/-- The panic of slicing `s[start..stop]` past the end of a slice of length `len`. -/
def sliceEndError (stop len : Nat) : Fault :=
  .panic ("range end index " ++ toString stop ++ " out of range for slice of length " ++
    toString len)

/-- maps memory from another page directory into this one: the frames behind every page of
`addr .. addr + len` in `from`, through `map_memory`, with `op` called on the range's bytes;
`reservedFrom` is whether `try_reserve_exact` of the address list succeeds -/
def mapMemoryFrom {α : Type} (k : Kernel) (alloc : TableAlloc) (freeShared : Nat → Bool)
    (mapInto fromDir : ProcessOrKernelPageDir) (copied : Nat → Nat) (reservedFrom : Bool)
    (buffer : Option Nat) (reserved : Bool) (addr len : Nat)
    (op : Kernel → Nat → Nat → Except Fault (α × (Nat → UInt8))) : Outcome Kernel α :=
  let stop := (addr + len) % 2 ^ 32
  if stop ≤ addr then .error (.panic "assertion failed: end > start")
  else
    let start := if addr % pageSize ≠ 0 then addr / pageSize * pageSize else addr
    let offset := addr - start
    let stop := if stop % pageSize ≠ 0 then stop / pageSize * pageSize + (pageSize - 1) else stop
    if !reservedFrom then .ok (.error .allocError, k)
    else
      match k.collectPhys split alloc freeShared mapInto fromDir copied addr
          (stepByInclusive start stop pageSize) with
      | .error fault => .error fault
      | .ok (.error err, k) => .ok (.error err, k)
      | .ok (.ok addresses, k) =>
        k.mapMemory split alloc mapInto buffer reserved addresses fun k s n =>
          if offset + len ≤ n then op k (s + offset) len
          else .error (sliceEndError (offset + len) n)

/-! ### The frames `map_memory` writes -/

@[simp] theorem storedAs_mappedFrame (addr : Nat) :
    PageFrame.storedAs (some (mappedFrame addr)) = some (mappedFrame addr).masked :=
  PageFrame.storedAs_present rfl

theorem mappedFrame_masked_addr (addr : Nat) :
    (mappedFrame (mappedFrame addr).masked.addr).masked = (mappedFrame addr).masked := by
  simp [mappedFrame, PageFrame.masked, Nat.land_assoc]

/-! ### Which directories see a write -/

/-- `dir` sees a `set_page` through `mapInto` at `w`: it is live, and it is `mapInto` or `w`
lies in the kernel half that every directory shares. -/
def Sees (k : Kernel) (mapInto dir : ProcessOrKernelPageDir) (w : Nat) : Prop :=
  (k.lookup dir).isSome ∧ (split.addr ≤ w ∨ dir = mapInto)

theorem sees_congr {k k' : Kernel} (h : k'.processes = k.processes)
    {mapInto dir : ProcessOrKernelPageDir} {w : Nat} :
    k'.Sees split mapInto dir w ↔ k.Sees split mapInto dir w := by
  simp only [Sees, lookup_isSome_iff h]

theorem sees_withDirs {k : Kernel} {kernelDir : PageDir} {dirs : Nat → PageDir}
    {mapInto dir : ProcessOrKernelPageDir} {w : Nat} :
    Sees split { k with kernelDir, dirs } mapInto dir w ↔ k.Sees split mapInto dir w :=
  @sees_congr split k { k with kernelDir, dirs } rfl mapInto dir w

theorem view_eq_of_sees {k : Kernel} {mapInto dir : ProcessOrKernelPageDir} {w : Nat}
    (hlive : (k.lookup mapInto).isSome) (hsees : k.Sees split mapInto dir w) :
    k.view split dir w = k.view split mapInto w :=
  view_eq_of_page_eq split hlive hsees.1 rfl hsees.2

theorem view_setPage_written {k k' : Kernel} {alloc : TableAlloc}
    {mapInto dir : ProcessOrKernelPageDir} {v w : Nat} {page : Option PageFrame}
    (hv : v < 2 ^ 32) (h : k.setPage split alloc mapInto v page = .ok (.ok (), k'))
    (hw : w < 2 ^ 32) (hpage : w / pageSize = v / pageSize) (hsees : k.Sees split mapInto dir w) :
    k'.view split dir w = PageFrame.storedAs page := by
  rw [view_setPage_ok split hv h dir hw,
    if_pos ⟨hsees.1, hpage, hsees.2.imp_left (split_le_iff_of_page_eq split hpage).mp⟩]

theorem view_setPage_unwritten {k k' : Kernel} {alloc : TableAlloc}
    {mapInto dir : ProcessOrKernelPageDir} {v w : Nat} {page : Option PageFrame}
    (hv : v < 2 ^ 32) (h : k.setPage split alloc mapInto v page = .ok (.ok (), k'))
    (hw : w < 2 ^ 32) (hfree : k.Sees split mapInto dir w → w / pageSize ≠ v / pageSize) :
    k'.view split dir w = k.view split dir w := by
  rw [view_setPage_ok split hv h dir hw, if_neg]
  rintro ⟨hlive, hpage, hkernel⟩
  exact hfree ⟨hlive, hkernel.imp_left (split_le_iff_of_page_eq split hpage).mpr⟩ hpage

/-! ### The loops of `map_memory` -/

section Loops

variable {alloc : TableAlloc} {mapInto : ProcessOrKernelPageDir}

theorem existingPhys_unmapped {k : Kernel} (hlive : (k.lookup mapInto).isSome) :
    ∀ {pages : List Nat}, (∃ v ∈ pages, k.view split mapInto v = none) →
      k.existingPhys split mapInto pages = .ok none
  | [], ⟨_, hv, _⟩ => absurd hv (List.not_mem_nil _)
  | v :: rest, ⟨w, hw, hnone⟩ => by
    simp only [existingPhys, virtToPhys_eq split k mapInto v hlive]
    rcases hv : k.view split mapInto v with _ | page
    · rfl
    · have hrest : ∃ w ∈ rest, k.view split mapInto w = none := by
        rcases List.mem_cons.mp hw with rfl | hw
        · simp_all
        · exact ⟨w, hw, hnone⟩
      simp only [Option.map_some', existingPhys_unmapped hlive hrest]
      rfl

theorem existingPhys_mapped {k : Kernel} (hlive : (k.lookup mapInto).isSome) :
    ∀ {pages : List Nat}, (∀ v ∈ pages, (k.view split mapInto v).isSome) →
      k.existingPhys split mapInto pages =
        .ok (some (pages.map fun v => ((k.view split mapInto v).map PageFrame.addr).getD 0))
  | [], _ => rfl
  | v :: rest, hmapped => by
    obtain ⟨page, hv⟩ := Option.isSome_iff_exists.mp (hmapped v (List.mem_cons_self v rest))
    simp only [existingPhys, virtToPhys_eq split k mapInto v hlive, hv, Option.map_some',
      existingPhys_mapped hlive fun w hw => hmapped w (List.mem_cons_of_mem v hw), List.map_cons,
      Option.getD_some]
    rfl

theorem remapPages_cons {k k' : Kernel} {trampled : Nat → Bool} {v phys : Nat}
    {rest : List (Nat × Nat)}
    (h : k.remapPages split alloc mapInto trampled ((v, phys) :: rest) = .ok k') :
    trampled phys = false ∧ ∃ k₁,
      k.setPage split alloc mapInto v (some (mappedFrame phys)) = .ok (.ok (), k₁) ∧
        k₁.remapPages split alloc mapInto trampled rest = .ok k' := by
  simp only [remapPages] at h
  split_ifs at h with htrampled
  rcases hset : k.setPage split alloc mapInto v (some (mappedFrame phys)) with
    fault | ⟨err | u, k₁⟩ <;> simp only [hset] at h
  · cases h
  · cases h
  · exact ⟨eq_false_of_ne_true htrampled, k₁, rfl, h⟩

theorem remapPages_dirsOnly {trampled : Nat → Bool} :
    ∀ {k k' : Kernel} {pairs : List (Nat × Nat)},
      k.remapPages split alloc mapInto trampled pairs = .ok k' →
        ∃ kernelDir dirs, k' = { k with kernelDir, dirs }
  | k, _, [], h => ⟨k.kernelDir, k.dirs, by cases h; rfl⟩
  | _, _, (_, _) :: _, h => by
    obtain ⟨-, k₁, hset, hrest⟩ := remapPages_cons split h
    obtain ⟨_, _, rfl⟩ := setPage_dirsOnly split hset
    obtain ⟨kernelDir, dirs, rfl⟩ := remapPages_dirsOnly hrest
    exact ⟨kernelDir, dirs, rfl⟩

theorem remapPages_ok {trampled : Nat → Bool} :
    ∀ {k : Kernel} {pairs : List (Nat × Nat)},
      (∀ p ∈ pairs, p.1 < 2 ^ 32 ∧ p.2 < 2 ^ 32 ∧ (k.view split mapInto p.1).isSome ∧
        trampled p.2 = false) →
      ∃ k', k.remapPages split alloc mapInto trampled pairs = .ok k'
  | k, [], _ => ⟨k, rfl⟩
  | k, (v, phys) :: rest, hpairs => by
    obtain ⟨hv, hphys, hmapped, htrampled⟩ := hpairs (v, phys) (List.mem_cons_self _ _)
    obtain ⟨k₁, hset⟩ := @setPage_of_view split k alloc mapInto v (mappedFrame phys) hv hmapped
      hphys
    have hrest : ∀ p ∈ rest, p.1 < 2 ^ 32 ∧ p.2 < 2 ^ 32 ∧ (k₁.view split mapInto p.1).isSome ∧
        trampled p.2 = false := by
      intro p hp
      obtain ⟨hp1, hp2, hpm, hpt⟩ := hpairs p (List.mem_cons_of_mem _ hp)
      refine ⟨hp1, hp2, ?_, hpt⟩
      rw [view_setPage_ok split hv hset mapInto hp1]
      split_ifs
      · simp
      · exact hpm
    obtain ⟨k', hk'⟩ := remapPages_ok hrest
    exact ⟨k', by simp only [remapPages, htrampled, hset, hk', Bool.false_eq_true, if_false]⟩

theorem remapPages_view_unwritten {trampled : Nat → Bool} {dir : ProcessOrKernelPageDir}
    {w : Nat} (hw : w < 2 ^ 32) :
    ∀ {k k' : Kernel} {pairs : List (Nat × Nat)}, (∀ p ∈ pairs, p.1 < 2 ^ 32) →
      k.remapPages split alloc mapInto trampled pairs = .ok k' →
      (k.Sees split mapInto dir w → ∀ p ∈ pairs, w / pageSize ≠ p.1 / pageSize) →
      k'.view split dir w = k.view split dir w
  | _, _, [], _, h, _ => by cases h; rfl
  | k, k', (v, phys) :: rest, hlt, h, hfree => by
    obtain ⟨-, k₁, hset, hrest⟩ := remapPages_cons split h
    obtain ⟨_, _, rfl⟩ := setPage_dirsOnly split hset
    have hfirst := view_setPage_unwritten split (hlt _ (List.mem_cons_self _ _)) hset hw
      fun hsees => hfree hsees _ (List.mem_cons_self _ _)
    rw [remapPages_view_unwritten hw (fun p hp => hlt p (List.mem_cons_of_mem _ hp)) hrest
      fun hsees p hp => hfree ((sees_withDirs split).mp hsees) p (List.mem_cons_of_mem _ hp),
      hfirst]

theorem remapPages_view_written {trampled : Nat → Bool} {dir : ProcessOrKernelPageDir}
    {v phys w : Nat} (hw : w < 2 ^ 32) (hpage : w / pageSize = v / pageSize) :
    ∀ {k k' : Kernel} {pairs : List (Nat × Nat)}, (∀ p ∈ pairs, p.1 < 2 ^ 32) →
      k.remapPages split alloc mapInto trampled pairs = .ok k' → (v, phys) ∈ pairs →
      (∀ p ∈ pairs, p.1 / pageSize = v / pageSize → p = (v, phys)) →
      k.Sees split mapInto dir w → k'.view split dir w = some (mappedFrame phys).masked
  | _, _, [], _, _, hmem, _, _ => absurd hmem (List.not_mem_nil _)
  | k, k', (v₀, phys₀) :: rest, hlt, h, hmem, honly, hsees => by
    obtain ⟨-, k₁, hset, hrest⟩ := remapPages_cons split h
    obtain ⟨_, _, rfl⟩ := setPage_dirsOnly split hset
    have hlt' := fun p (hp : p ∈ rest) => hlt p (List.mem_cons_of_mem _ hp)
    by_cases hin : (v, phys) ∈ rest
    · exact remapPages_view_written hw hpage hlt' hrest hin
        (fun p hp => honly p (List.mem_cons_of_mem _ hp)) ((sees_withDirs split).mpr hsees)
    · have hfirst : (v₀, phys₀) = (v, phys) := by
        rcases List.mem_cons.mp hmem with h | h
        · exact h.symm
        · exact absurd h hin
      cases hfirst
      rw [remapPages_view_unwritten split hw hlt' hrest fun _ p hp hwp =>
          hin (honly p (List.mem_cons_of_mem _ hp) (hwp ▸ hpage) ▸ hp),
        view_setPage_written split (hlt _ hmem) hset hw hpage hsees, storedAs_mappedFrame]

end Loops

/-! ### `map_memory` -/

section MapMemory

variable {α : Type} {k : Kernel} {alloc : TableAlloc} {mapInto : ProcessOrKernelPageDir}
  {addresses : List Nat} {ptr : Nat}

theorem mem_bufferPages {n v : Nat} (haligned : ptr % pageSize = 0) :
    v ∈ stepBy ptr (ptr + n * pageSize) pageSize ↔ ∃ i < n, v = ptr + i * pageSize := by
  rw [mem_stepBy_pageSize]
  simp only [pageSize_eq] at haligned ⊢
  constructor
  · rintro ⟨hlow, hhigh, hmod⟩
    exact ⟨(v - ptr) / 4096, by omega, by omega⟩
  · rintro ⟨i, hi, rfl⟩
    omega

theorem view_addr_lt {dir : ProcessOrKernelPageDir} {w : Nat} {page : PageFrame}
    (h : k.view split dir w = some page) : page.addr < 2 ^ 32 := by
  rw [← view_masked split h, PageFrame.masked_addr]
  exact lt_of_le_of_lt Nat.and_le_right (by decide)

theorem bufLen_mod (hlayout : addresses.length * pageSize ≤ isizeMax - (pageSize - 1)) :
    addresses.length * pageSize % 2 ^ 32 = addresses.length * pageSize :=
  Nat.mod_eq_of_lt (by simp only [isizeMax, pageSize_eq] at hlayout ⊢; omega)

theorem mapMemory_unreserved (haligned : ptr % pageSize = 0)
    (hlayout : addresses.length * pageSize ≤ isizeMax - (pageSize - 1))
    (op : Kernel → Nat → Nat → Except Fault (α × (Nat → UInt8))) :
    k.mapMemory split alloc mapInto (some ptr) false addresses op = .ok (.error .allocError, k) := by
  rw [mapMemory, bufLen_mod hlayout, if_neg (not_lt.mpr hlayout)]
  exact (if_neg (not_not.mpr haligned)).trans (if_pos rfl)

theorem mapMemory_unmapped (hlive : (k.lookup mapInto).isSome) (haligned : ptr % pageSize = 0)
    (hlayout : addresses.length * pageSize ≤ isizeMax - (pageSize - 1))
    (hfit : ptr + addresses.length * pageSize < 2 ^ 32)
    (hunmapped : ∃ i < addresses.length, k.view split mapInto (ptr + i * pageSize) = none)
    (op : Kernel → Nat → Nat → Except Fault (α × (Nat → UInt8))) :
    k.mapMemory split alloc mapInto (some ptr) true addresses op = .ok (.error .badAddress, k) := by
  obtain ⟨i, hi, hnone⟩ := hunmapped
  have hsave := existingPhys_unmapped split hlive
    ⟨ptr + i * pageSize, (mem_bufferPages haligned).mpr ⟨i, hi, rfl⟩, hnone⟩
  simp only [mapMemory, bufLen_mod hlayout, if_neg (not_lt.mpr hlayout), haligned,
    Nat.mod_eq_of_lt hfit, hsave]
  rfl

theorem mem_remapList (hfit : ptr + addresses.length * pageSize < 2 ^ 32) {p : Nat × Nat} :
    p ∈ addresses.enum.map (fun p => ((ptr + p.1 * pageSize) % 2 ^ 32, p.2)) ↔
      ∃ i < addresses.length, addresses[i]? = some p.2 ∧ p.1 = ptr + i * pageSize := by
  have hmod : ∀ i < addresses.length, (ptr + i * pageSize) % 2 ^ 32 = ptr + i * pageSize :=
    fun i hi => Nat.mod_eq_of_lt (by simp only [pageSize_eq] at hfit ⊢; omega)
  simp only [List.mem_map, List.mem_enum_iff_getElem?]
  constructor
  · rintro ⟨⟨i, a⟩, hget, rfl⟩
    obtain ⟨hi, -⟩ := List.getElem?_eq_some_iff.mp hget
    exact ⟨i, hi, hget, hmod i hi⟩
  · rintro ⟨i, hi, hget, hp⟩
    exact ⟨(i, p.2), hget, Prod.ext (by rw [hmod i hi, hp]) rfl⟩

theorem mem_buffer_of_page {w i : Nat} (haligned : ptr % pageSize = 0)
    (hi : i < addresses.length) (hpage : w / pageSize = (ptr + i * pageSize) / pageSize) :
    ptr ≤ w ∧ w < ptr + addresses.length * pageSize := by
  simp only [pageSize_eq] at haligned hpage ⊢
  omega

theorem remap_buffer (trampled : Nat → Bool) (hlive : (k.lookup mapInto).isSome)
    (haligned : ptr % pageSize = 0) (hfit : ptr + addresses.length * pageSize < 2 ^ 32)
    (hframes : ∀ a ∈ addresses, a < 2 ^ 32)
    (hmapped : ∀ i < addresses.length, (k.view split mapInto (ptr + i * pageSize)).isSome)
    (hfresh : ∀ a ∈ addresses, trampled a = false) :
    ∃ kMapped, k.remapPages split alloc mapInto trampled
        (addresses.enum.map fun p => ((ptr + p.1 * pageSize) % 2 ^ 32, p.2)) = .ok kMapped ∧
      kMapped.processes = k.processes ∧ kMapped.memory = k.memory ∧
      (∀ i a, addresses[i]? = some a →
        kMapped.view split mapInto (ptr + i * pageSize) = some (mappedFrame a).masked) ∧
      ∀ dir w, w < 2 ^ 32 →
        (k.Sees split mapInto dir w → w < ptr ∨ ptr + addresses.length * pageSize ≤ w) →
        kMapped.view split dir w = k.view split dir w := by
  have hlt : ∀ p ∈ addresses.enum.map (fun p => ((ptr + p.1 * pageSize) % 2 ^ 32, p.2)),
      p.1 < 2 ^ 32 := fun p hp => by
    obtain ⟨i, hi, -, hp1⟩ := (mem_remapList hfit).mp hp
    rw [hp1]
    simp only [pageSize_eq] at hfit ⊢
    omega
  obtain ⟨kMapped, hrun⟩ := remapPages_ok split fun p hp => by
    obtain ⟨i, hi, hget, hp1⟩ := (mem_remapList hfit).mp hp
    have ha := List.getElem?_mem hget
    exact ⟨hlt p hp, hframes _ ha, hp1 ▸ hmapped i hi, hfresh _ ha⟩
  obtain ⟨kd, ds, rfl⟩ := remapPages_dirsOnly split hrun
  refine ⟨_, hrun, rfl, rfl, fun i a hget => ?_, fun dir w hw hout => ?_⟩
  · obtain ⟨hi, -⟩ := List.getElem?_eq_some_iff.mp hget
    have hmem := (@mem_remapList addresses ptr hfit (ptr + i * pageSize, a)).mpr ⟨i, hi, hget, rfl⟩
    refine remapPages_view_written split (hlt _ hmem) rfl hlt hrun hmem (fun p hp hpage => ?_)
      ⟨hlive, .inr rfl⟩
    obtain ⟨j, hj, hgetj, hp1⟩ := (mem_remapList hfit).mp hp
    obtain rfl : j = i := by
      rw [hp1] at hpage
      simp only [pageSize_eq] at haligned hpage
      omega
    exact Prod.ext hp1 (Option.some.inj (hgetj.symm.trans hget))
  · refine remapPages_view_unwritten split hw hlt hrun fun hsees p hp hwp => ?_
    obtain ⟨i, hi, -, hp1⟩ := (mem_remapList hfit).mp hp
    have hin := mem_buffer_of_page haligned hi (hp1 ▸ hwp)
    rcases hout hsees with h | h <;> omega

theorem restore_buffer (kRun : Kernel) (hlive : (k.lookup mapInto).isSome)
    (haligned : ptr % pageSize = 0) (hfit : ptr + addresses.length * pageSize < 2 ^ 32)
    (hsaved : ∀ i < addresses.length, ∃ phys,
      k.view split mapInto (ptr + i * pageSize) = PageFrame.storedAs (some (mappedFrame phys)))
    (hprocs : kRun.processes = k.processes)
    (hrun : ∀ i < addresses.length, (kRun.view split mapInto (ptr + i * pageSize)).isSome)
    (hagree : ∀ dir w, w < 2 ^ 32 →
      (k.Sees split mapInto dir w → w < ptr ∨ ptr + addresses.length * pageSize ≤ w) →
      kRun.view split dir w = k.view split dir w) :
    ∃ k', kRun.remapPages split alloc mapInto (fun _ => false)
        ((stepBy ptr (ptr + addresses.length * pageSize) pageSize).zip
          ((stepBy ptr (ptr + addresses.length * pageSize) pageSize).map
            fun v => ((k.view split mapInto v).map PageFrame.addr).getD 0)) = .ok k' ∧
      k'.memory = kRun.memory ∧ ∀ dir w, w < 2 ^ 32 → k'.view split dir w = k.view split dir w := by
  set pages := stepBy ptr (ptr + addresses.length * pageSize) pageSize
  set saved := fun v => ((k.view split mapInto v).map PageFrame.addr).getD 0 with hsavedDef
  have hmem : ∀ {p}, p ∈ pages.zip (pages.map saved) ↔
      ∃ i < addresses.length, p = (ptr + i * pageSize, saved (ptr + i * pageSize)) := by
    intro p
    rw [show pages.zip (pages.map saved) = pages.map fun v => (v, saved v) by
      simpa only [List.map_id'] using List.zip_map' (fun v => v) saved pages, List.mem_map]
    constructor
    · rintro ⟨v, hv, rfl⟩
      obtain ⟨i, hi, rfl⟩ := (mem_bufferPages haligned).mp hv
      exact ⟨i, hi, rfl⟩
    · rintro ⟨i, hi, rfl⟩
      exact ⟨_, (mem_bufferPages haligned).mpr ⟨i, hi, rfl⟩, rfl⟩
  have hsaved_eq : ∀ {i phys}, k.view split mapInto (ptr + i * pageSize) =
      PageFrame.storedAs (some (mappedFrame phys)) →
      saved (ptr + i * pageSize) = (mappedFrame phys).masked.addr := fun h => by
    simp only [hsavedDef, h, storedAs_mappedFrame, Option.map_some', Option.getD_some]
  have hlt : ∀ p ∈ pages.zip (pages.map saved), p.1 < 2 ^ 32 := fun p hp => by
    obtain ⟨i, hi, rfl⟩ := hmem.mp hp
    simp only [pageSize_eq] at hfit ⊢
    omega
  obtain ⟨k', hk'⟩ : ∃ k', kRun.remapPages split alloc mapInto (fun _ => false)
      (pages.zip (pages.map saved)) = .ok k' := remapPages_ok split fun p hp => by
    obtain ⟨i, hi, rfl⟩ := hmem.mp hp
    obtain ⟨phys, hphys⟩ := hsaved i hi
    refine ⟨hlt _ hp, ?_, hrun i hi, rfl⟩
    rw [hsaved_eq hphys]
    exact view_addr_lt split (hphys.trans (storedAs_mappedFrame phys))
  obtain ⟨kd, ds, rfl⟩ := remapPages_dirsOnly split hk'
  refine ⟨_, hk', rfl, fun dir w hw => ?_⟩
  by_cases hin : k.Sees split mapInto dir w ∧ ptr ≤ w ∧ w < ptr + addresses.length * pageSize
  · obtain ⟨hsees, hlow, hhigh⟩ := hin
    have hi : (w - ptr) / pageSize < addresses.length := by
      simp only [pageSize_eq] at hhigh ⊢
      omega
    have hpage : w / pageSize * pageSize = ptr + (w - ptr) / pageSize * pageSize := by
      simp only [pageSize_eq] at haligned hlow ⊢
      omega
    obtain ⟨phys, hphys⟩ := hsaved _ hi
    rw [remapPages_view_written split hw (by rw [← hpage, Nat.mul_div_cancel _ (by decide)]) hlt
        hk' (hmem.mpr ⟨_, hi, rfl⟩) (fun p hp hpage' => ?_) ((sees_congr split hprocs).mpr hsees),
      view_eq_of_sees split hlive hsees, view_page split k mapInto w, hpage, hphys,
      storedAs_mappedFrame, hsaved_eq hphys, mappedFrame_masked_addr]
    obtain ⟨j, hj, rfl⟩ := hmem.mp hp
    obtain rfl : j = (w - ptr) / pageSize := by
      simp only [pageSize_eq] at haligned hpage' ⊢
      omega
    rfl
  · rw [remapPages_view_unwritten split hw hlt hk' fun hsees p hp hwp => ?_]
    · refine hagree dir w hw fun hsees => ?_
      rcases Nat.lt_or_ge w ptr with h | h
      · exact .inl h
      · exact .inr (Nat.le_of_not_lt fun h' => hin ⟨hsees, h, h'⟩)
    · obtain ⟨j, hj, rfl⟩ := hmem.mp hp
      obtain ⟨hlow, hhigh⟩ := mem_buffer_of_page haligned hj hwp
      exact hin ⟨(sees_congr split hprocs).mp hsees, hlow, hhigh⟩

/-- `map_memory` runs `op` on the remapped buffer, then every directory reads as before. -/
theorem mapMemory_restores (hlive : (k.lookup mapInto).isSome) (haligned : ptr % pageSize = 0)
    (hlayout : addresses.length * pageSize ≤ isizeMax - (pageSize - 1))
    (hfit : ptr + addresses.length * pageSize < 2 ^ 32) (hframes : ∀ a ∈ addresses, a < 2 ^ 32)
    (hsaved : ∀ i < addresses.length, ∃ phys,
      k.view split mapInto (ptr + i * pageSize) = PageFrame.storedAs (some (mappedFrame phys)))
    (hdisjoint : ∀ i < addresses.length, ∀ page,
      k.view split mapInto (ptr + i * pageSize) = some page → page.addr ∉ addresses)
    (op : Kernel → Nat → Nat → Except Fault (α × (Nat → UInt8))) :
    ∃ kMapped : Kernel,
      (∀ i a, addresses[i]? = some a → kMapped.view split mapInto (ptr + i * pageSize) =
        PageFrame.storedAs (some (mappedFrame a))) ∧
      (∀ dir w, w < 2 ^ 32 → (w < ptr ∨ ptr + addresses.length * pageSize ≤ w) →
        kMapped.view split dir w = k.view split dir w) ∧
      kMapped.memory = k.memory ∧
      ∀ res memory, op kMapped ptr (addresses.length * pageSize) = .ok (res, memory) →
        ∃ k', k.mapMemory split alloc mapInto (some ptr) true addresses op = .ok (.ok res, k') ∧
          k'.memory = memory ∧ ∀ dir w, w < 2 ^ 32 → k'.view split dir w = k.view split dir w := by
  have hmapped : ∀ i < addresses.length, (k.view split mapInto (ptr + i * pageSize)).isSome :=
    fun i hi => by
      obtain ⟨phys, h⟩ := hsaved i hi
      simp [h]
  have hsome : ∀ v ∈ stepBy ptr (ptr + addresses.length * pageSize) pageSize,
      (k.view split mapInto v).isSome := fun v hv => by
    obtain ⟨i, hi, rfl⟩ := (mem_bufferPages haligned).mp hv
    exact hmapped i hi
  have hfresh : ∀ a ∈ addresses,
      ((stepBy ptr (ptr + addresses.length * pageSize) pageSize).map
        fun v => ((k.view split mapInto v).map PageFrame.addr).getD 0).contains a = false :=
    fun a ha => by
      simp only [List.contains, List.elem_eq_mem, decide_eq_false_iff_not, List.mem_map]
      rintro ⟨v, hv, hva⟩
      obtain ⟨i, hi, rfl⟩ := (mem_bufferPages haligned).mp hv
      obtain ⟨page, hpage⟩ := Option.isSome_iff_exists.mp (hmapped i hi)
      exact hdisjoint i hi page hpage (by simpa [hpage, ← hva] using ha)
  obtain ⟨kMapped, hrun, hprocs, hmem, hmap, hagree⟩ :=
    @remap_buffer split k alloc mapInto addresses ptr _ hlive haligned hfit hframes hmapped hfresh
  refine ⟨kMapped, fun i a h => by rw [hmap i a h, storedAs_mappedFrame],
    fun dir w hw hout => hagree dir w hw fun _ => hout, hmem, fun res memory hop => ?_⟩
  obtain ⟨k', hk', hmem', hviews⟩ := @restore_buffer split k alloc mapInto addresses ptr
    { kMapped with memory } hlive haligned hfit hsaved hprocs (fun i hi => by simp [hmap i _ (List.getElem?_eq_getElem hi)])
    fun dir w hw hout => hagree dir w hw hout
  refine ⟨k', ?_, hmem', hviews⟩
  simp only [mapMemory, bufLen_mod hlayout, if_neg (not_lt.mpr hlayout), haligned,
    Nat.mod_eq_of_lt hfit, existingPhys_mapped split hlive hsome, hrun, hop, hk']
  rfl

/-- What `map_memory` does on a buffer of `|addresses|` pages in a live directory: with no
save list reserved it returns `AllocError`, with a buffer page unmapped `BadAddress`, both
leaving the state as it was; and when the buffer's pages hold entries of the form it writes
back, none backed by a frame to map, it maps the frames in order while `op` runs, returns
`op`'s result, and leaves every directory reading every address as before. -/
theorem mapMemory_spec (split : KernelSplit) (k : Kernel) (alloc : TableAlloc)
    (mapInto : ProcessOrKernelPageDir) (hlive : (k.lookup mapInto).isSome)
    (addresses : List Nat) (ptr : Nat) (haligned : ptr % pageSize = 0)
    (hlayout : addresses.length * pageSize ≤ isizeMax - (pageSize - 1))
    (hfit : ptr + addresses.length * pageSize < 2 ^ 32)
    (op : Kernel → Nat → Nat → Except Fault (α × (Nat → UInt8))) :
    k.mapMemory split alloc mapInto (some ptr) false addresses op = .ok (.error .allocError, k) ∧
    ((∃ i < addresses.length, k.view split mapInto (ptr + i * pageSize) = none) →
      k.mapMemory split alloc mapInto (some ptr) true addresses op =
        .ok (.error .badAddress, k)) ∧
    ((∀ a ∈ addresses, a < 2 ^ 32) →
      (∀ i < addresses.length, ∃ phys,
        k.view split mapInto (ptr + i * pageSize) = PageFrame.storedAs (some (mappedFrame phys))) →
      (∀ i < addresses.length, ∀ page,
        k.view split mapInto (ptr + i * pageSize) = some page → page.addr ∉ addresses) →
      ∃ kMapped : Kernel,
        (∀ i a, addresses[i]? = some a → kMapped.view split mapInto (ptr + i * pageSize) =
          PageFrame.storedAs (some (mappedFrame a))) ∧
        (∀ dir w, w < 2 ^ 32 → (w < ptr ∨ ptr + addresses.length * pageSize ≤ w) →
          kMapped.view split dir w = k.view split dir w) ∧
        kMapped.memory = k.memory ∧
        ∀ res memory, op kMapped ptr (addresses.length * pageSize) = .ok (res, memory) →
          ∃ k', k.mapMemory split alloc mapInto (some ptr) true addresses op = .ok (.ok res, k') ∧
            k'.memory = memory ∧ ∀ dir w, w < 2 ^ 32 → k'.view split dir w = k.view split dir w) :=
  ⟨mapMemory_unreserved split haligned hlayout op,
    fun hunmapped => mapMemory_unmapped split hlive haligned hlayout hfit hunmapped op,
    fun hframes hsaved hdisjoint =>
      mapMemory_restores split hlive haligned hlayout hfit hframes hsaved hdisjoint op⟩

end MapMemory

/-! ### `map_memory_from` -/

section MapMemoryFrom

variable {k : Kernel} {alloc : TableAlloc} {freeShared : Nat → Bool}
  {mapInto fromDir : ProcessOrKernelPageDir} {copied : Nat → Nat} {addr : Nat}

theorem framePhys_plain {i : Nat} {page : PageFrame} (hlive : (k.lookup fromDir).isSome)
    (hview : k.view split fromDir i = some page)
    (hplain : (!page.writable && page.copyOnWrite && page.referenced) = false) :
    k.framePhys split alloc freeShared mapInto fromDir copied addr i = .ok (.ok page.addr, k) := by
  simp only [framePhys, getPage_eq split k fromDir i hlive, hview, hplain, Bool.false_eq_true,
    if_false]

theorem framePhys_pending {i : Nat} {page g : PageFrame} {k' : Kernel}
    (hlive : (k.lookup fromDir).isSome) (hview : k.view split fromDir i = some page)
    (hpending : (!page.writable && page.copyOnWrite && page.referenced) = true)
    (hcow : k.copyOnWrite split alloc freeShared mapInto fromDir addr page (copied i) =
      .ok (.ok g, k')) :
    k.framePhys split alloc freeShared mapInto fromDir copied addr i = .ok (.ok g.addr, k') := by
  rw [framePhys, getPage_eq split k fromDir i hlive, hview]
  dsimp only
  rw [if_pos hpending, hcow]

theorem framePhys_unmapped {i : Nat} (hlive : (k.lookup fromDir).isSome)
    (hview : k.view split fromDir i = none) :
    k.framePhys split alloc freeShared mapInto fromDir copied addr i =
      .ok (.error .badAddress, k) := by
  simp only [framePhys, getPage_eq split k fromDir i hlive, hview]

theorem collectPhys_append_error {err : PagingError} (hlive : (k.lookup fromDir).isSome) :
    ∀ {pages rest : List Nat}, (∀ i ∈ pages, ∃ page, k.view split fromDir i = some page ∧
        (!page.writable && page.copyOnWrite && page.referenced) = false) →
      k.collectPhys split alloc freeShared mapInto fromDir copied addr rest = .ok (.error err, k) →
      k.collectPhys split alloc freeShared mapInto fromDir copied addr (pages ++ rest) =
        .ok (.error err, k)
  | [], _, _, h => h
  | i :: _, _, hplain, h => by
    obtain ⟨page, hview, hp⟩ := hplain i (List.mem_cons_self _ _)
    rw [List.cons_append]
    simp only [collectPhys, framePhys_plain split hlive hview hp,
      collectPhys_append_error hlive (fun j hj => hplain j (List.mem_cons_of_mem _ hj)) h]

end MapMemoryFrom

/-- `cowSample` with process 1 also mapping page `0x2000` to a frame of its own, `0x7000`. -/
def cowSpanSample : Kernel :=
  { cowSample with
    dirs := fun _ =>
      ⟨fun i => if i = 0 then
          some ⟨⟨fun j => if j = 1 then ⟨0x5605⟩ else if j = 2 then ⟨0x7007⟩ else ⟨0⟩⟩, true⟩
        else none,
        fun i => if i = 0 then ⟨0x2007⟩ else ⟨0⟩, 0x3000, true⟩ }

/-- `map_memory_from` of a page-aligned range of whole pages, all mapped in `from` and none
pending copy-on-write, fails with `BadAddress` when the page right after the range is
unmapped: its address loop runs to the range's end inclusive. -/
theorem mapMemoryFrom_scans_page_past_end {α : Type} (k : Kernel) (alloc : TableAlloc)
    (freeShared : Nat → Bool) (mapInto fromDir : ProcessOrKernelPageDir) (copied : Nat → Nat)
    (buffer : Option Nat) (reserved : Bool) (addr len : Nat)
    (op : Kernel → Nat → Nat → Except Fault (α × (Nat → UInt8)))
    (hlive : (k.lookup fromDir).isSome) (haddr : addr % pageSize = 0)
    (hlen : len % pageSize = 0) (hpos : 0 < len) (hfit : addr + len < 2 ^ 32)
    (hmapped : ∀ v, addr ≤ v → v < addr + len → ∃ page, k.view split fromDir v = some page ∧
      (!page.writable && page.copyOnWrite && page.referenced) = false)
    (hnext : k.view split fromDir (addr + len) = none) :
    k.mapMemoryFrom split alloc freeShared mapInto fromDir copied true buffer reserved addr len op =
      .ok (.error .badAddress, k) := by
  have hend : (addr + len) % pageSize = 0 := by
    simp only [pageSize_eq] at haddr hlen ⊢
    omega
  have hloop : k.collectPhys split alloc freeShared mapInto fromDir copied addr
      (stepByInclusive addr (addr + len) pageSize) = .ok (.error .badAddress, k) := by
    rw [stepByInclusive_eq_append (by omega) (by rwa [Nat.add_sub_cancel_left])]
    refine collectPhys_append_error split hlive (fun i hi => ?_) ?_
    · obtain ⟨hlow, hhigh, -⟩ := mem_stepBy_pageSize.mp hi
      exact hmapped i hlow hhigh
    · simp only [collectPhys, framePhys_unmapped split hlive hnext]
  simp only [mapMemoryFrom, Nat.mod_eq_of_lt hfit, if_neg (show ¬ addr + len ≤ addr by omega),
    haddr, hend, ne_eq,
    not_true_eq_false, if_false, Bool.not_true, Bool.false_eq_true, hloop]

end Kernel

/-! ### Samples -/

/-- The kernel heap page `0xe1000000` reads through the kernel entry `heapEntry`; process 1
maps page `0x1000` to frame `0x5000`, present and writable, and nothing else. -/
def mapSample (heapEntry : Nat) : Kernel where
  kernelDir :=
    ⟨fun i => if i = 900 then some ⟨⟨fun j => if j = 0 then ⟨heapEntry⟩ else ⟨0⟩⟩, true⟩ else none,
      fun i => if i = 900 then ⟨0x1007⟩ else ⟨0⟩, 0x1000, false⟩
  processes := {1}
  dirs := fun _ =>
    ⟨fun i => if i = 0 then some ⟨⟨fun j => if j = 1 then ⟨0x5003⟩ else ⟨0⟩⟩, true⟩ else none,
      fun i => if i = 0 then ⟨0x2007⟩ else ⟨0⟩, 0x3000, true⟩
  refs := ⟨fun _ => none⟩
  manager := ⟨⟨fun i => decide (i < 8), 16⟩⟩
  memory := fun _ => 0

/-- Process 1 maps only page `0x1000`, so `map_memory_from` of that one page reads page
`0x2000` too and fails. -/
theorem mapMemoryFrom_scans_page_past_end_mapSample :
    ((mapSample 0x6003).lookup (.process 1)).isSome ∧ (0x1000 : Nat) % pageSize = 0 ∧
      0 < 0x1000 ∧ 0x1000 + 0x1000 < 2 ^ 32 ∧
      (∀ v, 0x1000 ≤ v → v < 0x1000 + 0x1000 → ∃ page,
        (mapSample 0x6003).view .linkedBase (.process 1) v = some page ∧
          (!page.writable && page.copyOnWrite && page.referenced) = false) ∧
      (mapSample 0x6003).view .linkedBase (.process 1) (0x1000 + 0x1000) = none ∧
      (mapSample 0x6003).mapMemoryFrom .linkedBase ⟨0, none⟩ (fun _ => false) .kernel
          (.process 1) (fun _ => 0) true (some 0xe1000000) true 0x1000 0x1000
          (fun k _ _ => .ok ((), k.memory)) = .ok (.error .badAddress, mapSample 0x6003) := by
  have hmapped : ∀ v, 0x1000 ≤ v → v < 0x1000 + 0x1000 → ∃ page,
      (mapSample 0x6003).view .linkedBase (.process 1) v = some page ∧
        (!page.writable && page.copyOnWrite && page.referenced) = false := fun v hlow hhigh =>
    ⟨⟨0x5000, true, false, true, false, true, false, false⟩, by
      rw [Kernel.view_page, show v / pageSize * pageSize = 0x1000 by
        simp only [pageSize_eq]
        omega]
      decide, rfl⟩
  exact ⟨rfl, rfl, by decide, by decide, hmapped, by decide,
    Kernel.mapMemoryFrom_scans_page_past_end .linkedBase _ _ _ _ _ _ _ _ _ _ _ rfl rfl rfl
      (by decide) (by decide) hmapped (by decide)⟩

/-- With the buffer page mapped present and writable, `map_memory` of one frame returns and
leaves every directory reading every address as before. -/
theorem mapMemory_spec_mapSample :
    ((mapSample 0x6003).lookup .kernel).isSome ∧ (0xe1000000 : Nat) % pageSize = 0 ∧
      [0x7000].length * pageSize ≤ Kernel.isizeMax - (pageSize - 1) ∧
      0xe1000000 + [0x7000].length * pageSize < 2 ^ 32 ∧
      ∃ kMapped : Kernel, kMapped.view .linkedBase .kernel 0xe1000000 =
          PageFrame.storedAs (some (Kernel.mappedFrame 0x7000)) ∧
        ∃ k', (mapSample 0x6003).mapMemory .linkedBase ⟨0, none⟩ .kernel (some 0xe1000000) true
            [0x7000] (fun k _ _ => .ok ((), k.memory)) = .ok (.ok (), k') ∧
          ∀ dir w, w < 2 ^ 32 →
            k'.view .linkedBase dir w = (mapSample 0x6003).view .linkedBase dir w := by
  obtain ⟨-, -, hrun⟩ := Kernel.mapMemory_spec .linkedBase (mapSample 0x6003) ⟨0, none⟩ .kernel
    rfl [0x7000] 0xe1000000 (by decide) (by decide) (by decide)
    (fun k _ _ => (.ok ((), k.memory) : Except Fault (Unit × (Nat → UInt8))))
  obtain ⟨kMapped, hmap, -, -, hdone⟩ := hrun (by decide)
    (fun i hi => ⟨0x6000, by
      obtain rfl : i = 0 := by simpa using hi
      decide⟩)
    (fun i hi page h => by
      obtain rfl : i = 0 := by simpa using hi
      obtain rfl : page = ⟨0x6000, true, false, true, false, true, false, false⟩ :=
        Option.some.inj (h.symm.trans (by decide))
      decide)
  obtain ⟨k', hk', -, hviews⟩ := hdone () kMapped.memory rfl
  exact ⟨rfl, by decide, by decide, by decide, kMapped, hmap 0 _ rfl, k', hk', hviews⟩

/-- A buffer page mapped read-only comes back writable: the restoring loop maps the saved
frame present and writable, not the saved entry. -/
theorem mapMemory_restores_writable :
    (mapSample 0x6001).view .linkedBase .kernel 0xe1000000 =
        some ⟨0x6000, true, false, false, false, true, false, false⟩ ∧
      ∃ k', (mapSample 0x6001).mapMemory .linkedBase ⟨0, none⟩ .kernel (some 0xe1000000) true
          [0x7000] (fun k _ _ => (.ok ((), k.memory) : Except Fault (Unit × (Nat → UInt8)))) =
          .ok (.ok (), k') ∧
        k'.view .linkedBase .kernel 0xe1000000 =
          some ⟨0x6000, true, false, true, false, true, false, false⟩ :=
  ⟨by decide, _, rfl, by decide⟩

end Ockernel
