import Ockernel.Paging.Region

/-!
The physical frame allocator and the reference counter of `mm/paging.rs`.  `PageManager`
keeps one bit per frame; `PageRefCounter` keeps, for each frame shared by copy-on-write or
shared memory, how many mappings share it.  In the kernel both are singletons behind spin
locks; here each operation takes their state and returns it.  A frame address is a `u64`:
each function turns it into a bit index as the source does, with `as usize` (truncating)
or with `try_into().unwrap()` (panicking).
-/

namespace Ockernel

/-- Modelled from the spec: `util::array::BitSet` is not under `src/` (§4.A).  Bit `i` set
means the frame at `i * PAGE_SIZE` is in use; `first_unset` scans up from index 0 below
`size`. -/
structure BitSet where
  bits : Nat → Bool
  size : Nat

namespace BitSet

def set (s : BitSet) (i : Nat) : BitSet := { s with bits := Function.update s.bits i true }

def clear (s : BitSet) (i : Nat) : BitSet := { s with bits := Function.update s.bits i false }

/-- the lowest index below `size` whose bit is clear -/
def firstUnset (s : BitSet) : Option Nat := (List.range s.size).find? fun i => !s.bits i

@[simp] theorem set_bits (s : BitSet) (i j : Nat) :
    (s.set i).bits j = if j = i then true else s.bits j := Function.update_apply _ _ _ _

@[simp] theorem clear_bits (s : BitSet) (i j : Nat) :
    (s.clear i).bits j = if j = i then false else s.bits j := Function.update_apply _ _ _ _

theorem firstUnset_some {s : BitSet} {i : Nat} (h : s.firstUnset = some i) :
    i < s.size ∧ s.bits i = false := by
  have hmem := List.mem_of_find?_eq_some h
  have hclear := List.find?_some h
  simp only [List.mem_range, Bool.not_eq_true'] at hmem hclear
  exact ⟨hmem, hclear⟩

theorem firstUnset_none {s : BitSet} (h : s.firstUnset = none) {i : Nat} (hi : i < s.size) :
    s.bits i = true := by
  have := List.find?_eq_none.mp h i (List.mem_range.mpr hi)
  simpa using this

end BitSet

/-- struct to make allocating physical memory for page directories easier; its `page_size`
is `PAGE_SIZE`, the value `platform/ibmpc` creates it with, so the assertions comparing the
two always hold -/
structure PageManager where
  frameSet : BitSet

namespace PageManager

/-- allocates a frame in memory, returning its physical address without assigning it to any
page directories -/
def allocFrame (m : PageManager) : Except PagingError Nat × PageManager :=
  match m.frameSet.firstUnset with
  | some idx => (.ok (idx * pageSize), ⟨m.frameSet.set idx⟩)
  | none => (.error .noAvailableFrames, m)

/-- the physical address of the frame `alloc_frame` would hand out next -/
def firstAvailableFrame (m : PageManager) : Option Nat := m.frameSet.firstUnset.map (· * pageSize)

/-- `(addr / page_size).try_into().unwrap()`: a `u64` frame number as a `usize` bit index. -/
def frameIndex (addr : Nat) : Except Fault Nat :=
  if addr / pageSize < 2 ^ 32 then .ok (addr / pageSize)
  else .error (.panic "called Result::unwrap() on an Err value: TryFromIntError(())")

/-- sets a frame in our list of frames as used, preventing it from being allocated elsewhere -/
def setFrameUsed (m : PageManager) (addr : Nat) : Except Fault PageManager :=
  if addr % pageSize ≠ 0 then .error (.panic "frame address is not page aligned")
  else (frameIndex addr).map fun idx => ⟨m.frameSet.set idx⟩

/-- sets a frame in our list of frames as free, allowing it to be allocated elsewhere -/
def setFrameFree (m : PageManager) (addr : Nat) : Except Fault PageManager :=
  if addr % pageSize ≠ 0 then .error (.panic "frame address is not page aligned")
  else (frameIndex addr).map fun idx => ⟨m.frameSet.clear idx⟩

/-- allocates a frame in the provided page directory at the given physical address, if
available; the bit is set before `set_page`, whose `Err` is returned as it is -/
def allocFrameAt (m : PageManager) (dir : PageDir) (split : KernelSplit) (alloc : TableAlloc)
    (addr phys : Nat) (userMode writable executable : Bool) :
    Outcome (PageManager × PageDir) Unit :=
  if addr % pageSize ≠ 0 then .error (.panic "frame address is not page aligned")
  else if phys % pageSize ≠ 0 then .error (.panic "physical address is not page aligned")
  else if dir.isUnused addr then
    let m : PageManager := ⟨m.frameSet.set (phys / pageSize % 2 ^ 32)⟩
    let frame : PageFrame := { addr := phys, present := true, userMode, writable, executable }
    match dir.setPage split alloc addr (some frame) with
    | .error fault => .error fault
    | .ok (result, dir) => .ok (result, m, dir)
  else .ok (.error .frameInUse, m, dir)

/-- frees a frame in the provided page directory, returning its physical address; the bit is
cleared before `set_page` -/
def freeFrame (m : PageManager) (dir : PageDir) (split : KernelSplit) (alloc : TableAlloc)
    (addr : Nat) : Outcome (PageManager × PageDir) Nat :=
  if addr % pageSize ≠ 0 then .error (.panic "frame address is not page aligned")
  else
    match dir.getPage addr with
    | some page =>
      let m : PageManager := ⟨m.frameSet.clear (page.addr / pageSize % 2 ^ 32)⟩
      match dir.setPage split alloc addr none with
      | .error fault => .error fault
      | .ok (.error err, dir) => .ok (.error err, m, dir)
      | .ok (.ok (), dir) => .ok (.ok page.addr, m, dir)
    | none => .ok (.error .frameUnused, m, dir)

/-- sets all the pages mapped in the given page directory to used: the loop over
`(0..=usize::MAX).step_by(PAGE_SIZE)` sets bit `i / PAGE_SIZE` of each mapped address `i` -/
def syncFromDir (m : PageManager) (dir : PageDir) : PageManager :=
  ⟨(stepBy 0 (2 ^ 32) pageSize).foldl
    (fun set i => if (dir.getPage i).isSome then set.set (i / pageSize) else set) m.frameSet⟩

theorem allocFrame_ok {m m' : PageManager} {phys : Nat}
    (h : m.allocFrame = (.ok phys, m')) :
    ∃ idx, m.frameSet.firstUnset = some idx ∧ phys = idx * pageSize ∧
      m'.frameSet = m.frameSet.set idx := by
  unfold allocFrame at h
  split at h
  · rename_i idx hidx
    cases h
    exact ⟨idx, hidx, rfl, rfl⟩
  · cases h

theorem allocFrame_fst (m : PageManager) :
    m.allocFrame.1 = match m.firstAvailableFrame with
      | some phys => .ok phys
      | none => .error .noAvailableFrames := by
  unfold allocFrame firstAvailableFrame
  split <;> simp_all

theorem allocFrame_error {m m' : PageManager} {err : PagingError}
    (h : m.allocFrame = (.error err, m')) : m' = m ∧ err = .noAvailableFrames := by
  unfold allocFrame at h
  split at h <;> cases h
  exact ⟨rfl, rfl⟩

theorem setFrameFree_ok {m m' : PageManager} {addr : Nat} (h : m.setFrameFree addr = .ok m') :
    addr % pageSize = 0 ∧ m'.frameSet = m.frameSet.clear (addr / pageSize) := by
  unfold setFrameFree frameIndex at h
  split_ifs at h with halign
  · simp only [Except.map, Except.ok.injEq] at h
    exact ⟨by simpa using halign, by rw [← h]⟩
  · cases h

/-! ### What each operation does to the bitset -/

variable {split : KernelSplit}

/-- Every `Err` of `alloc_frame_at` but `FrameInUse` comes from `set_page`, after the bit of
`phys` was set: the bit stays set while the directory reports what it did before. -/
theorem allocFrameAt_error_sets_bit {m m' : PageManager} {dir dir' : PageDir} {alloc : TableAlloc}
    {addr phys : Nat} {userMode writable executable : Bool} {err : PagingError}
    (haddr : addr < 2 ^ 32)
    (h : m.allocFrameAt dir split alloc addr phys userMode writable executable =
      .ok (.error err, m', dir')) :
    (err = .frameInUse ∧ m' = m ∧ dir' = dir) ∨
      (m'.frameSet = m.frameSet.set (phys / pageSize % 2 ^ 32) ∧
        ∀ w, dir'.getPage w = dir.getPage w) := by
  unfold allocFrameAt at h
  split_ifs at h
  · simp only at h
    split at h
    · cases h
    · rename_i hset
      cases h
      exact .inr ⟨rfl, PageDir.getPage_setPage_error haddr hset⟩
  · cases h
    exact .inl ⟨rfl, rfl, rfl⟩

/-- An allocator with no frame in use, and a directory with no table: `set_page` cannot
allocate the table, and `alloc_frame_at` returns `AllocError` with bit 5 set. -/
theorem allocFrameAt_error_sets_bit_emptyDir :
    (0x1000 : Nat) < 2 ^ 32 ∧
      ∃ m' dir', PageManager.allocFrameAt ⟨⟨fun _ => false, 16⟩⟩ (PageDir.empty 0x3000)
          KernelSplit.linkedBase ⟨0, none⟩ 0x1000 0x5000 false true false =
          .ok (.error .allocError, m', dir') ∧
        ((PagingError.allocError = .frameInUse ∧ m' = ⟨⟨fun _ => false, 16⟩⟩ ∧
            dir' = PageDir.empty 0x3000) ∨
          (m'.frameSet = BitSet.set ⟨fun _ => false, 16⟩ (0x5000 / pageSize % 2 ^ 32) ∧
            ∀ w, dir'.getPage w = (PageDir.empty 0x3000).getPage w)) ∧
        m'.frameSet.bits 5 = true :=
  ⟨by decide, _, _, rfl,
    @allocFrameAt_error_sets_bit KernelSplit.linkedBase ⟨⟨fun _ => false, 16⟩⟩ _
      (PageDir.empty 0x3000) _ ⟨0, none⟩ 0x1000 0x5000 false true false _ (by decide) rfl, rfl⟩

/-- What a `free_frame` that returns does, whoever else maps the frame. -/
theorem freeFrame_ok {m m' : PageManager} {dir dir' : PageDir} {alloc : TableAlloc} {addr : Nat}
    {result : Except PagingError Nat}
    (h : m.freeFrame dir split alloc addr = .ok (result, m', dir')) :
    (dir.getPage addr = none ∧ result = .error .frameUnused ∧ m' = m ∧ dir' = dir) ∨
      ∃ page, dir.getPage addr = some page ∧
        m'.frameSet = m.frameSet.clear (page.addr / pageSize % 2 ^ 32) := by
  unfold freeFrame at h
  split_ifs at h
  split at h
  · rename_i page hpage
    refine .inr ⟨page, hpage, ?_⟩
    split at h <;> cases h <;> rfl
  · rename_i hnone
    cases h
    exact .inl ⟨hnone, rfl, rfl, rfl⟩

/-- Every frame that one of `dirs` maps at a 32-bit address has its bit set. -/
def MarksAll (m : PageManager) (dirs : List PageDir) : Prop :=
  ∀ dir ∈ dirs, ∀ v < 2 ^ 32, ∀ page, dir.getPage v = some page →
    m.frameSet.bits (page.addr / pageSize) = true

theorem clear_bits_of_ne {s : BitSet} {a b : Nat} (ha : a % pageSize = 0) (hb : b % pageSize = 0)
    (hne : a ≠ b) (hbit : s.bits (a / pageSize) = true) :
    (s.clear (b / pageSize)).bits (a / pageSize) = true := by
  rw [BitSet.clear_bits, if_neg fun heq => hne (by simp only [pageSize_eq] at *; omega)]
  exact hbit

theorem freeFrame_uncovers_shared_frame {m m' : PageManager} {dir dir' other : PageDir}
    {alloc : TableAlloc} {addr w : Nat} {page : PageFrame} {result : Except PagingError Nat}
    (hpage : dir.getPage addr = some page) (hw : w < 2 ^ 32)
    (hother : (other.getPage w).map PageFrame.addr = some page.addr)
    (h : m.freeFrame dir split alloc addr = .ok (result, m', dir')) :
    ¬ m'.MarksAll [other] := by
  intro hmarks
  obtain ⟨q, hq, hqaddr⟩ := Option.map_eq_some'.mp hother
  have hlt : page.addr / pageSize < 2 ^ 32 := by
    have := PageDir.getPage_addr_lt hpage
    simp only [pageSize_eq] at this ⊢
    omega
  have hmarked := hmarks other (List.mem_singleton_self _) w hw q hq
  rcases freeFrame_ok h with ⟨hnone, -⟩ | ⟨page', hpage', hclear⟩
  · simp [hpage] at hnone
  · rw [hpage, Option.some.injEq] at hpage'
    subst hpage'
    rw [hclear, hqaddr, BitSet.clear_bits, Nat.mod_eq_of_lt hlt, if_pos rfl] at hmarked
    cases hmarked

/-- A directory at `phys` whose page `0x1000` shares frame `0x5000` by copy-on-write:
present, read-only, copy-on-write and referenced. -/
def cowSharedDir (phys : Nat) : PageDir :=
  (PageDir.empty phys).addPageTable KernelSplit.linkedBase 0
    ⟨fun j => if j = 1 then ⟨0x5601⟩ else PageTableEntry.newUnused⟩ (phys + 0x1000) true

theorem syncFromDir_loop (dir : PageDir) (l : List Nat) (s : BitSet) (j : Nat) :
    (l.foldl (fun set i => if (dir.getPage i).isSome then set.set (i / pageSize) else set) s).bits j =
      (s.bits j || l.any fun i => i / pageSize == j && (dir.getPage i).isSome) := by
  induction l generalizing s with
  | nil => simp
  | cons i l ih =>
    rw [List.foldl_cons, ih, List.any_cons]
    by_cases hsome : (dir.getPage i).isSome <;> by_cases hj : i / pageSize = j <;>
      simp [hsome, hj, @eq_comm _ j, beq_false_of_ne]

theorem syncFromDir_frameSet (m : PageManager) (dir : PageDir) :
    (m.syncFromDir dir).frameSet = (stepBy 0 (2 ^ 32) pageSize).foldl
      (fun set i => if (dir.getPage i).isSome then set.set (i / pageSize) else set) m.frameSet := by
  simp only [syncFromDir]

theorem syncFromDir_bits (m : PageManager) (dir : PageDir) (j : Nat) :
    (m.syncFromDir dir).frameSet.bits j =
      (m.frameSet.bits j || decide (j < 2 ^ 20) && (dir.getPage (j * pageSize)).isSome) := by
  have hany : ((stepBy 0 (2 ^ 32) pageSize).any fun i =>
      i / pageSize == j && (dir.getPage i).isSome) =
      (decide (j < 2 ^ 20) && (dir.getPage (j * pageSize)).isSome) := by
    apply Bool.eq_iff_iff.mpr
    simp only [List.any_eq_true, mem_stepBy_pageSize, Bool.and_eq_true, beq_iff_eq,
      decide_eq_true_eq, Nat.sub_zero]
    constructor
    · rintro ⟨i, ⟨-, hi, hmod⟩, rfl, hsome⟩
      have hpage : i / pageSize * pageSize = i := Nat.div_mul_cancel (Nat.dvd_of_mod_eq_zero hmod)
      refine ⟨?_, by rwa [hpage]⟩
      simp only [pageSize_eq] at hpage ⊢
      omega
    · rintro ⟨hj, hsome⟩
      refine ⟨j * pageSize, ⟨Nat.zero_le _, ?_, Nat.mul_mod_left _ _⟩,
        Nat.mul_div_cancel _ (by decide), hsome⟩
      simp only [pageSize_eq]
      omega
  rw [syncFromDir_frameSet, syncFromDir_loop, hany]

/-- Synchronising a fresh allocator with a directory that maps page `0x1000` to frame
`0x5000` marks bit 1, the page number, and leaves bit 5, the frame, clear. -/
theorem syncFromDir_marks_page_number :
    (onePageDir.getPage 0x1000).map PageFrame.addr = some 0x5000 ∧
      (PageManager.syncFromDir ⟨⟨fun _ => false, 16⟩⟩ onePageDir).frameSet.bits 5 = false ∧
      (PageManager.syncFromDir ⟨⟨fun _ => false, 16⟩⟩ onePageDir).frameSet.bits 1 = true := by
  rw [syncFromDir_bits, syncFromDir_bits]
  exact ⟨rfl, rfl, rfl⟩

/-! ### Runs of the allocator -/

/-- A call on the frame allocator. -/
inductive FrameOp where
  | allocFrame
  | setFrameUsed (addr : Nat)
  | setFrameFree (addr : Nat)

/-- One call, with the frames `alloc_frame` has handed out that no `set_frame_free` has given
back since. -/
def frameStep (st : PageManager × List Nat) : FrameOp → Except Fault (PageManager × List Nat)
  | .allocFrame =>
    match st.1.allocFrame with
    | (.ok phys, m) => .ok (m, phys :: st.2)
    | (.error _, m) => .ok (m, st.2)
  | .setFrameUsed addr => (st.1.setFrameUsed addr).map fun m => (m, st.2)
  | .setFrameFree addr => (st.1.setFrameFree addr).map fun m => (m, st.2.filter (· ≠ addr))

/-- A run of calls from `m`, with nothing handed out at its start. -/
def frameRun (m : PageManager) (ops : List FrameOp) : Except Fault (PageManager × List Nat) :=
  ops.foldlM frameStep (m, [])

theorem setFrameUsed_ok {m m' : PageManager} {addr : Nat} (h : m.setFrameUsed addr = .ok m') :
    addr % pageSize = 0 ∧ m'.frameSet = m.frameSet.set (addr / pageSize) := by
  unfold setFrameUsed frameIndex at h
  split_ifs at h with halign
  · simp only [Except.map, Except.ok.injEq] at h
    exact ⟨by simpa using halign, by rw [← h]⟩
  · cases h

/-- `alloc_frame` hands out the lowest frame whose bit is clear. -/
theorem allocFrame_lowest {m m' : PageManager} {phys : Nat} (h : m.allocFrame = (.ok phys, m')) :
    m.frameSet.bits (phys / pageSize) = false ∧ ∀ j < phys / pageSize, m.frameSet.bits j = true := by
  obtain ⟨idx, hfirst, rfl, -⟩ := allocFrame_ok h
  rw [Nat.mul_div_cancel _ (by decide)]
  obtain ⟨hclear, -, hbelow⟩ := List.find?_range_eq_some.mp hfirst
  exact ⟨by simpa using hclear, fun j hj => by simpa using hbelow j hj⟩

/-- The frames handed out and not given back are distinct, page-aligned and marked used. -/
def HandedOut (m : PageManager) (out : List Nat) : Prop :=
  out.Nodup ∧ ∀ a ∈ out, a % pageSize = 0 ∧ m.frameSet.bits (a / pageSize) = true

/-- Every call keeps the frames handed out distinct, page-aligned and marked used. -/
theorem HandedOut.step {m m' : PageManager} {out out' : List Nat} {op : FrameOp}
    (hinv : HandedOut m out) (h : frameStep (m, out) op = .ok (m', out')) : HandedOut m' out' := by
  obtain ⟨hnodup, hmarked⟩ := hinv
  cases op with
  | allocFrame =>
    rcases halloc : m.allocFrame with ⟨_ | phys, m₁⟩ <;> simp only [frameStep, halloc] at h <;>
      cases h
    · obtain ⟨rfl, -⟩ := allocFrame_error halloc
      exact ⟨hnodup, hmarked⟩
    · obtain ⟨hclear, -⟩ := allocFrame_lowest halloc
      obtain ⟨idx, -, rfl, hset⟩ := allocFrame_ok halloc
      have hdiv : idx * pageSize / pageSize = idx := Nat.mul_div_cancel _ (by decide)
      rw [hdiv] at hclear
      refine ⟨List.nodup_cons.2 ⟨fun hmem => ?_, hnodup⟩, fun a ha => ?_⟩
      · have := (hmarked _ hmem).2
        rw [hdiv, hclear] at this
        cases this
      · rw [hset]
        rcases List.mem_cons.1 ha with rfl | ha
        · exact ⟨Nat.mul_mod_left _ _, by simp [hdiv]⟩
        · obtain ⟨hal, hbit⟩ := hmarked a ha
          exact ⟨hal, by simp [hbit]⟩
  | setFrameUsed addr =>
    rcases hset : m.setFrameUsed addr with _ | m₁ <;> simp only [frameStep, hset] at h <;>
      cases h
    refine ⟨hnodup, fun a ha => ⟨(hmarked a ha).1, ?_⟩⟩
    rw [(setFrameUsed_ok hset).2]
    simp [(hmarked a ha).2]
  | setFrameFree addr =>
    rcases hfree : m.setFrameFree addr with _ | m₁ <;> simp only [frameStep, hfree] at h <;>
      cases h
    obtain ⟨haddr, hclear⟩ := setFrameFree_ok hfree
    refine ⟨hnodup.filter _, fun a ha => ?_⟩
    obtain ⟨ha, hne⟩ := List.mem_filter.1 ha
    obtain ⟨hal, hbit⟩ := hmarked a ha
    have hpage : a / pageSize ≠ addr / pageSize := fun heq => by
      simp only [pageSize_eq] at hal haddr heq
      simp only [ne_eq, decide_eq_true_eq] at hne
      omega
    rw [hclear, BitSet.clear_bits, if_neg hpage]
    exact ⟨hal, hbit⟩

theorem HandedOut.run {ops : List FrameOp} :
    ∀ {m m' : PageManager} {out out' : List Nat}, HandedOut m out →
      ops.foldlM frameStep (m, out) = .ok (m', out') → HandedOut m' out' := by
  induction ops with
  | nil =>
    intro m m' out out' hinv h
    cases h
    exact hinv
  | cons op ops ih =>
    intro m m' out out' hinv h
    rw [List.foldlM_cons] at h
    rcases hstep : frameStep (m, out) op with _ | ⟨m₁, out₁⟩ <;> rw [hstep] at h
    · cases h
    · exact ih (hinv.step hstep) h

/-- The frame given back is the lowest clear one, and the next allocation hands it out. -/
example : (match PageManager.frameRun ⟨⟨fun _ => false, 16⟩⟩
    [.allocFrame, .allocFrame, .allocFrame, .setFrameFree 0x1000] with
    | .ok (m', out) => (m'.allocFrame.1, out)
    | .error _ => (.error .noAvailableFrames, [])) = (.ok 0x1000, [0x2000, 0]) := rfl

end PageManager

/-- allows for easy reference counting of copy-on-write pages and memory mappings: the count
of each frame's `PageReference` in the `BTreeMap` (its `phys` field repeats the key) -/
structure PageRefCounter where
  references : Nat → Option Nat

namespace PageRefCounter

def new : PageRefCounter := ⟨fun _ => none⟩

/-- adds `num` references; the `usize` count wraps -/
def addReferences (r : PageRefCounter) (phys num : Nat) : PageRefCounter :=
  match r.references phys with
  | some count => ⟨Function.update r.references phys (some ((count + num) % 2 ^ 32))⟩
  | none => ⟨Function.update r.references phys (some num)⟩

def addReference (r : PageRefCounter) (phys : Nat) : PageRefCounter := r.addReferences phys 1

def removeReferenceNoFree (r : PageRefCounter) (phys : Nat) : PageRefCounter :=
  match r.references phys with
  | some count =>
    if count > 1 then ⟨Function.update r.references phys (some (count - 1))⟩ else r
  | none => r

/-- drops one reference; the last one, or a frame the map does not hold, frees the frame -/
def removeReference (r : PageRefCounter) (m : PageManager) (phys : Nat) :
    Except Fault (PageRefCounter × PageManager) :=
  match r.references phys with
  | some count =>
    if count > 1 then .ok (⟨Function.update r.references phys (some (count - 1))⟩, m)
    else (m.setFrameFree phys).map fun m => (⟨Function.update r.references phys none⟩, m)
  | none => (m.setFrameFree phys).map fun m => (r, m)

def removeAllReferences (r : PageRefCounter) (phys : Nat) : PageRefCounter :=
  if (r.references phys).isSome then ⟨Function.update r.references phys none⟩ else r

def getReferencesFor (r : PageRefCounter) (phys : Nat) : Nat := (r.references phys).getD 0

/-- What `remove_reference` does to the frame's count and bit; no other count changes. -/
theorem removeReference_ok {r r' : PageRefCounter} {m m' : PageManager} {phys : Nat}
    (h : r.removeReference m phys = .ok (r', m')) :
    (∀ q, q ≠ phys → r'.references q = r.references q) ∧
      ((1 < r.getReferencesFor phys ∧ r'.getReferencesFor phys = r.getReferencesFor phys - 1 ∧
          r'.references phys ≠ none ∧ m' = m) ∨
        (r.getReferencesFor phys ≤ 1 ∧ r'.references phys = none ∧
          m.setFrameFree phys = .ok m')) := by
  unfold removeReference at h
  split at h
  · rename_i count hcount
    split_ifs at h with hgt
    · cases h
      refine ⟨fun q hq => Function.update_noteq hq _ _, .inl ⟨?_, ?_, ?_, rfl⟩⟩ <;>
        simp [getReferencesFor, hcount, hgt]
    · rcases hfree : m.setFrameFree phys with fault | m₁ <;>
        simp only [hfree, Except.map] at h
      · cases h
      · cases h
        refine ⟨fun q hq => Function.update_noteq hq _ _, .inr ⟨?_, by simp, rfl⟩⟩
        simp only [getReferencesFor, hcount, Option.getD_some]
        omega
  · rename_i hnone
    rcases hfree : m.setFrameFree phys with fault | m₁ <;> simp only [hfree, Except.map] at h
    · cases h
    · cases h
      exact ⟨fun _ _ => rfl, .inr ⟨by simp [getReferencesFor, hnone], hnone, rfl⟩⟩

/-- A run of `remove_reference` calls, one for each frame of `frames` in order. -/
def removeReferences (r : PageRefCounter) (m : PageManager) (frames : List Nat) :
    Except Fault (PageRefCounter × PageManager) :=
  frames.foldlM (fun st phys => st.1.removeReference st.2 phys) (r, m)

theorem removeReference_of_gt {r : PageRefCounter} {phys count : Nat}
    (h : r.references phys = some count) (hgt : 1 < count) (m : PageManager) :
    r.removeReference m phys = .ok (⟨Function.update r.references phys (some (count - 1))⟩, m) := by
  rw [removeReference, h]
  exact if_pos hgt

theorem removeReference_of_le {r : PageRefCounter} {phys count : Nat}
    (h : r.references phys = some count) (hle : count ≤ 1) (m : PageManager) :
    r.removeReference m phys =
      (m.setFrameFree phys).map fun m => (⟨Function.update r.references phys none⟩, m) := by
  rw [removeReference, h]
  exact if_neg (by omega)

theorem removeReferences_countdown (m : PageManager) (phys : Nat) :
    ∀ (k count : Nat) (r : PageRefCounter), k ≤ count → r.references phys = some (count + 1) →
      ∃ r', removeReferences r m (List.replicate k phys) = .ok (r', m) ∧
        r'.references = Function.update r.references phys (some (count + 1 - k))
  | 0, _, r, _, h => ⟨r, rfl, by rw [Nat.sub_zero, ← h, Function.update_eq_self]⟩
  | k + 1, count, r, hk, h => by
    obtain ⟨r', hrun, hrefs⟩ := removeReferences_countdown m phys k (count - 1)
      ⟨Function.update r.references phys (some count)⟩ (by omega)
      (by dsimp only; rw [Function.update_same, Nat.sub_add_cancel (by omega)])
    refine ⟨r', ?_, ?_⟩
    · rw [removeReferences, List.replicate_succ, List.foldlM_cons,
        removeReference_of_gt h (by omega), Nat.add_sub_cancel]
      exact hrun
    · rw [hrefs, Function.update_idem, Nat.sub_add_cancel (by omega),
        show count + 1 - (k + 1) = count - k by omega]

/-- Adding `n` references to a frame the counter does not hold, then calling
`remove_reference` on it `n` times: each call before the last counts down and leaves the
allocator as it was, and the last one frees the frame as `set_frame_free` does and gives back
the counter as it was before the references were added. -/
theorem addReferences_removeReferences {r : PageRefCounter} {phys n : Nat}
    (hnone : r.references phys = none) (hn : 0 < n) (m : PageManager) :
    (∀ k < n, ∃ r', removeReferences (r.addReferences phys n) m (List.replicate k phys) =
        .ok (r', m) ∧ r'.getReferencesFor phys = n - k) ∧
      removeReferences (r.addReferences phys n) m (List.replicate n phys) =
        (m.setFrameFree phys).map fun m' => (r, m') := by
  obtain ⟨n, rfl⟩ : ∃ c, n = c + 1 := ⟨n - 1, by omega⟩
  have hadd : (r.addReferences phys (n + 1)).references =
      Function.update r.references phys (some (n + 1)) := by
    rw [addReferences, hnone]
  have hcount : (r.addReferences phys (n + 1)).references phys = some (n + 1) := by
    rw [hadd, Function.update_same]
  refine ⟨fun k hk => ?_, ?_⟩
  · obtain ⟨r', hrun, hrefs⟩ := removeReferences_countdown m phys k n _ (by omega) hcount
    refine ⟨r', hrun, ?_⟩
    rw [getReferencesFor, hrefs, Function.update_same, Option.getD_some]
  · obtain ⟨r', hrun, hrefs⟩ := removeReferences_countdown m phys n n _ le_rfl hcount
    have hlast : r'.references phys = some 1 := by
      rw [hrefs, Function.update_same, Nat.add_sub_cancel_left]
    -- the last call drops the entry the additions created
    have hback : (⟨Function.update r'.references phys none⟩ : PageRefCounter) = r := by
      cases r
      congr 1
      funext q
      rw [hrefs, Function.update_idem, hadd, Function.update_idem, Function.update_apply]
      split_ifs with hq
      · exact hq ▸ hnone.symm
      · rfl
    rw [removeReferences, show List.replicate (n + 1) phys = List.replicate n phys ++ [phys] from
      List.append_replicate_replicate.symm, List.foldlM_append, ← removeReferences, hrun]
    simp only [bind, Except.bind, List.foldlM_cons, List.foldlM_nil]
    rw [removeReference_of_le hlast le_rfl, hback]
    cases m.setFrameFree phys <;> rfl

theorem addReferences_removeReferences_sample :
    PageRefCounter.new.references 0x5000 = none ∧ 0 < 3 ∧
      ((∀ k < 3, ∃ r', removeReferences (PageRefCounter.new.addReferences 0x5000 3)
          ⟨⟨fun _ => true, 16⟩⟩ (List.replicate k 0x5000) = .ok (r', ⟨⟨fun _ => true, 16⟩⟩) ∧
          r'.getReferencesFor 0x5000 = 3 - k) ∧
        removeReferences (PageRefCounter.new.addReferences 0x5000 3) ⟨⟨fun _ => true, 16⟩⟩
            (List.replicate 3 0x5000) =
          (PageManager.setFrameFree ⟨⟨fun _ => true, 16⟩⟩ 0x5000).map
            fun m' => (PageRefCounter.new, m')) :=
  ⟨rfl, by decide, addReferences_removeReferences rfl (by decide) _⟩

end PageRefCounter

end Ockernel
