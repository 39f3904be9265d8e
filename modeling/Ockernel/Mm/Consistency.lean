import Ockernel.Mm.Kernel
import Mathlib.Data.Finset.Card
import Mathlib.Data.Finset.Prod

/-!
The consistency of the memory system: frame bits, copy-on-write sharing and reference counts.
It is stated on a `MemView`, what it reads of a state: the live directories, the frame each
reports at each user page, the frame the kernel half reports at each kernel page (pages by
number), the reference counts and the frame bits.

`Accounted` says that the frame bits and reference counts account for every mapping.
`Consistent` adds what the code needs: a frame mapped at a user page is mapped at no kernel
page, a heap page's frame at no other kernel page, and mapped frames are page-aligned.

Four transitions keep `Consistent`: unmapping a user page and releasing its frame as
`free_page` does (`Consistent.release_unmapped`); moving a heap page's frame to an unmapped
user page and backing the heap page with a fresh frame (`Consistent.move_heap_frame`);
rewriting a mapping with the same frame where the frame has no other reference
(`Consistent.setUser_same`, `Consistent.setKernel_same`); and retiring a directory that maps
no user page (`Consistent.retire`).
-/

namespace Ockernel

/-- What the consistency of the memory system reads of a state, pages by number. -/
@[ext] structure MemView where
  live : Finset ProcessOrKernelPageDir
  user : ProcessOrKernelPageDir × Nat → Option PageFrame
  kernel : Nat → Option PageFrame
  count : Nat → Nat
  used : Nat → Bool

namespace MemView

section Defs

variable (n : Nat) (heap : Finset Nat)

/-- The user pages, as (directory, page) pairs, where `s` maps the frame `phys`; `n` is the
number of user pages. -/
def userMaps (s : MemView) (phys : Nat) : Finset (ProcessOrKernelPageDir × Nat) :=
  (s.live ×ˢ Finset.range n).filter fun x => (s.user x).map PageFrame.addr = some phys

/-- The kernel pages where `s` maps the frame `phys`. -/
def kernelMaps (s : MemView) (phys : Nat) : Finset Nat :=
  (Finset.range (2 ^ 20)).filter fun p => n ≤ p ∧ (s.kernel p).map PageFrame.addr = some phys

/-- `s` maps `f` at a user page of a live directory or at a kernel page. -/
def Maps (s : MemView) (f : PageFrame) : Prop :=
  (∃ x ∈ s.live ×ˢ Finset.range n, s.user x = some f) ∨
    ∃ p, n ≤ p ∧ p < 2 ^ 20 ∧ s.kernel p = some f

/-- The bits and counts account for the mappings: every mapped frame has its bit set; a frame
mapped at two user pages or more, or counted twice or more, is mapped at as many user pages as
its count, each copy-on-write, referenced and read-only; a frame mapped writable at a user
page, or backing a heap page, is mapped at no other user page; no mapping is shared. -/
structure Accounted (s : MemView) : Prop where
  used : ∀ f, s.Maps n f → s.used (f.addr / pageSize) = true
  counted : ∀ phys, 2 ≤ (s.userMaps n phys).card ∨ 2 ≤ s.count phys →
    (s.userMaps n phys).card = s.count phys ∧
      ∀ x ∈ s.userMaps n phys, ∀ f, s.user x = some f →
        f.copyOnWrite = true ∧ f.referenced = true ∧ f.writable = false
  writable : ∀ x ∈ s.live ×ˢ Finset.range n, ∀ f, s.user x = some f → f.writable = true →
    s.userMaps n f.addr ⊆ {x}
  heapUser : ∀ p ∈ heap, ∀ f, s.kernel p = some f → s.userMaps n f.addr = ∅
  unshared : ∀ f, s.Maps n f → f.shared = false

/-- The consistency the code keeps: `Accounted`, and a frame mapped at a user page is mapped
at no kernel page, a heap page's frame at no other kernel page, and every mapped frame starts
a page. -/
structure Consistent (s : MemView) extends Accounted n heap s : Prop where
  userKernel : ∀ x ∈ s.live ×ˢ Finset.range n, ∀ f, s.user x = some f →
    s.kernelMaps n f.addr = ∅
  heapKernel : ∀ p ∈ heap, ∀ f, s.kernel p = some f → s.kernelMaps n f.addr = {p}
  aligned : ∀ f, s.Maps n f → f.addr % pageSize = 0

/-- `s` with the user page `x` reporting `frame`. -/
def setUser (s : MemView) (x : ProcessOrKernelPageDir × Nat) (frame : Option PageFrame) :
    MemView :=
  { s with user := Function.update s.user x frame }

/-- `s` with the kernel page `p` reporting `frame`. -/
def setKernel (s : MemView) (p : Nat) (frame : Option PageFrame) : MemView :=
  { s with kernel := Function.update s.kernel p frame }

/-- What `free_page` of an unshared frame does to the counts and bits: a referenced frame
with more than one reference loses one, any other frame is released. -/
def release (s : MemView) (f : PageFrame) : MemView :=
  if f.referenced ∧ 1 < s.count f.addr then
    { s with count := Function.update s.count f.addr (s.count f.addr - 1) }
  else if f.referenced then
    { s with count := Function.update s.count f.addr 0
             used := Function.update s.used (f.addr / pageSize) false }
  else { s with used := Function.update s.used (f.addr / pageSize) false }

/-- `s` with bit `i` set. -/
def markUsed (s : MemView) (i : Nat) : MemView := { s with used := Function.update s.used i true }

/-- `s` with the user pages of `d` below `j` unmapped: a drop of `d` that has released its
first `j` pages. -/
def unmapBelow (s : MemView) (d : ProcessOrKernelPageDir) (j : Nat) : MemView :=
  { s with user := fun x => if x.1 = d ∧ x.2 < j then none else s.user x }

/-- `s` without the directory `d`. -/
def retire (s : MemView) (d : ProcessOrKernelPageDir) : MemView := { s with live := s.live.erase d }

end Defs

/-! ### What each transition changes -/

section Frame

variable {n : Nat} (s : MemView)

@[simp] theorem release_live (f : PageFrame) : (s.release f).live = s.live := by
  unfold release; split_ifs <;> rfl

@[simp] theorem release_user (f : PageFrame) : (s.release f).user = s.user := by
  unfold release; split_ifs <;> rfl

@[simp] theorem release_kernel (f : PageFrame) : (s.release f).kernel = s.kernel := by
  unfold release; split_ifs <;> rfl

@[simp] theorem retire_live (d : ProcessOrKernelPageDir) : (s.retire d).live = s.live.erase d :=
  rfl

@[simp] theorem retire_user (d : ProcessOrKernelPageDir) : (s.retire d).user = s.user := rfl

@[simp] theorem setUser_setUser (x : ProcessOrKernelPageDir × Nat) (a b : Option PageFrame) :
    (s.setUser x a).setUser x b = s.setUser x b := by
  simp only [setUser, Function.update_idem]

theorem setUser_of_eq {x : ProcessOrKernelPageDir × Nat} {frame : Option PageFrame}
    (h : s.user x = frame) : s.setUser x frame = s := by
  subst h
  simp only [setUser, Function.update_eq_self]

@[simp] theorem unmapBelow_zero (d : ProcessOrKernelPageDir) : s.unmapBelow d 0 = s := by
  simp [unmapBelow]

theorem unmapBelow_succ (d : ProcessOrKernelPageDir) (j : Nat) :
    s.unmapBelow d (j + 1) = (s.unmapBelow d j).setUser (d, j) none := by
  simp only [unmapBelow, setUser, MemView.mk.injEq, and_true, true_and]
  funext ⟨e, p⟩
  simp only [Function.update_apply, Prod.mk.injEq]
  by_cases hp : p = j
  · simp [hp]
  · have : p < j + 1 ↔ p < j := by omega
    simp [hp, this]

theorem release_unmapBelow (f : PageFrame) (d : ProcessOrKernelPageDir) (j : Nat) :
    (s.release f).unmapBelow d j = (s.unmapBelow d j).release f := by
  simp only [release, unmapBelow]
  split_ifs <;> rfl

theorem userMaps_congr {s t : MemView} (hlive : t.live = s.live) (huser : t.user = s.user) :
    t.userMaps n = s.userMaps n := by
  funext phys
  simp only [userMaps, hlive, huser]

theorem kernelMaps_congr {s t : MemView} (hkernel : t.kernel = s.kernel) :
    t.kernelMaps n = s.kernelMaps n := by
  funext phys
  simp only [kernelMaps, hkernel]

theorem maps_congr {s t : MemView} (hlive : t.live = s.live) (huser : t.user = s.user)
    (hkernel : t.kernel = s.kernel) (f : PageFrame) : t.Maps n f ↔ s.Maps n f := by
  simp only [Maps, hlive, huser, hkernel]

theorem mem_userMaps {phys : Nat} {x : ProcessOrKernelPageDir × Nat} :
    x ∈ s.userMaps n phys ↔
      x ∈ s.live ×ˢ Finset.range n ∧ (s.user x).map PageFrame.addr = some phys := by
  simp only [userMaps, Finset.mem_filter]

theorem mem_kernelMaps {phys p : Nat} :
    p ∈ s.kernelMaps n phys ↔ n ≤ p ∧ p < 2 ^ 20 ∧ (s.kernel p).map PageFrame.addr = some phys := by
  simp only [kernelMaps, Finset.mem_filter, Finset.mem_range, and_assoc, and_left_comm]

theorem userMaps_setUser_none (x : ProcessOrKernelPageDir × Nat) (phys : Nat) :
    (s.setUser x none).userMaps n phys = (s.userMaps n phys).erase x := by
  ext y
  simp only [mem_userMaps, setUser, Finset.mem_erase]
  by_cases hy : y = x
  · subst hy
    simp
  · simp [Function.update_noteq hy, hy]

theorem userMaps_setUser_of_none {x : ProcessOrKernelPageDir × Nat}
    (hx : x ∈ s.live ×ˢ Finset.range n) (hnone : s.user x = none) (frame : PageFrame)
    (phys : Nat) :
    (s.setUser x (some frame)).userMaps n phys =
      if frame.addr = phys then insert x (s.userMaps n phys) else s.userMaps n phys := by
  ext y
  by_cases hy : y = x
  · subst hy
    split_ifs with hphys <;> simp [mem_userMaps, setUser, hx, hnone, hphys]
  · split_ifs <;> simp [mem_userMaps, setUser, Function.update_noteq hy, hy]

theorem userMaps_setUser_same {x : ProcessOrKernelPageDir × Nat} {f g : PageFrame}
    (hf : s.user x = some f) (haddr : g.addr = f.addr) :
    (s.setUser x (some g)).userMaps n = s.userMaps n := by
  funext phys
  ext y
  simp only [mem_userMaps, setUser]
  by_cases hy : y = x
  · subst hy
    simp [hf, haddr]
  · simp [Function.update_noteq hy]

theorem kernelMaps_setKernel (p : Nat) (frame : Option PageFrame) (phys : Nat) :
    (s.setKernel p frame).kernelMaps n phys =
      if frame.map PageFrame.addr = some phys ∧ n ≤ p ∧ p < 2 ^ 20 then
        insert p ((s.kernelMaps n phys).erase p)
      else (s.kernelMaps n phys).erase p := by
  ext q
  by_cases hq : q = p
  · subst hq
    split_ifs with h
    · simp only [Finset.mem_insert_self, iff_true, mem_kernelMaps, setKernel,
        Function.update_same]
      exact ⟨h.2.1, h.2.2, h.1⟩
    · simp only [mem_kernelMaps, setKernel, Function.update_same, Finset.mem_erase, ne_eq,
        not_true_eq_false, false_and, iff_false]
      exact fun ⟨h₁, h₂, h₃⟩ => h ⟨h₃, h₁, h₂⟩
  · split_ifs <;> simp [mem_kernelMaps, setKernel, Function.update_noteq hq, hq]

theorem maps_setUser {x : ProcessOrKernelPageDir × Nat} {frame : Option PageFrame}
    {f : PageFrame} (h : (s.setUser x frame).Maps n f) :
    frame = some f ∨ (∃ y ∈ s.live ×ˢ Finset.range n, y ≠ x ∧ s.user y = some f) ∨
      ∃ p, n ≤ p ∧ p < 2 ^ 20 ∧ s.kernel p = some f := by
  rcases h with ⟨y, hy, hf⟩ | hkernel
  · by_cases hyx : y = x
    · subst hyx
      simp only [setUser, Function.update_same] at hf
      exact .inl hf
    · simp only [setUser, Function.update_noteq hyx] at hf
      exact .inr (.inl ⟨y, hy, hyx, hf⟩)
  · exact .inr (.inr hkernel)

theorem maps_setKernel {p : Nat} {frame : Option PageFrame} {f : PageFrame}
    (h : (s.setKernel p frame).Maps n f) :
    frame = some f ∨ (∃ y ∈ s.live ×ˢ Finset.range n, s.user y = some f) ∨
      ∃ q, q ≠ p ∧ n ≤ q ∧ q < 2 ^ 20 ∧ s.kernel q = some f := by
  rcases h with huser | ⟨q, hq, hqtop, hf⟩
  · exact .inr (.inl huser)
  · by_cases hqp : q = p
    · subst hqp
      simp only [setKernel, Function.update_same] at hf
      exact .inl hf
    · simp only [setKernel, Function.update_noteq hqp] at hf
      exact .inr (.inr ⟨q, hqp, hq, hqtop, hf⟩)

theorem kernelMaps_setKernel_same {p : Nat} (hp : n ≤ p ∧ p < 2 ^ 20) {f g : PageFrame}
    (hf : s.kernel p = some f) (haddr : g.addr = f.addr) :
    (s.setKernel p (some g)).kernelMaps n = s.kernelMaps n := by
  funext phys
  rw [kernelMaps_setKernel]
  by_cases hphys : f.addr = phys
  · have hmem : p ∈ s.kernelMaps n phys := (s.mem_kernelMaps).mpr ⟨hp.1, hp.2, by simp [hf, hphys]⟩
    rw [if_pos ⟨by simp [haddr, hphys], hp⟩, Finset.insert_erase hmem]
  · have hnot : p ∉ s.kernelMaps n phys := fun hmem => hphys (by
      simpa [hf] using ((s.mem_kernelMaps).mp hmem).2.2)
    rw [if_neg (by simp [haddr, hphys]), Finset.erase_eq_of_not_mem hnot]

@[simp] theorem update_true_of_true {f : Nat → Bool} {i j : Nat} (h : f j = true) :
    Function.update f i true j = true := by
  by_cases hj : j = i
  · subst hj
    simp
  · rwa [Function.update_noteq hj]

end Frame

/-! ### The transitions keep the consistency -/

section Preserve

variable {n : Nat} {heap : Finset Nat} {s : MemView}

theorem Consistent.userMaps_eq_singleton (hs : s.Consistent n heap)
    {x : ProcessOrKernelPageDir × Nat} (hx : x ∈ s.live ×ˢ Finset.range n) {f : PageFrame}
    (hf : s.user x = some f) (hsole : f.referenced = false ∨ s.count f.addr ≤ 1) :
    s.userMaps n f.addr = {x} := by
  have hmem : x ∈ s.userMaps n f.addr := (s.mem_userMaps).mpr ⟨hx, by simp [hf]⟩
  have hcard : (s.userMaps n f.addr).card ≤ 1 := by
    by_contra hmany
    obtain ⟨hcount, hflags⟩ := hs.counted f.addr (.inl (by omega))
    rcases hsole with hunref | hle
    · have := (hflags x hmem f hf).2.1
      simp [hunref] at this
    · omega
  exact Finset.eq_singleton_iff_unique_mem.mpr
    ⟨hmem, fun y hy => Finset.card_le_one.mp hcard y hy x hmem⟩

theorem Consistent.addr_eq_of_index_eq (hs : s.Consistent n heap) {f g : PageFrame}
    (hf : s.Maps n f) (hg : s.Maps n g) (hidx : g.addr / pageSize = f.addr / pageSize) :
    g.addr = f.addr := by
  have := hs.aligned f hf
  have := hs.aligned g hg
  simp only [pageSize_eq] at *
  omega

theorem userMaps_ne_of_mem {x y : ProcessOrKernelPageDir × Nat} {f : PageFrame} {phys : Nat}
    (hf : s.user x = some f) (hy : y ∈ s.userMaps n phys) (hne : f.addr ≠ phys) : y ≠ x := by
  rintro rfl
  have := ((s.mem_userMaps).mp hy).2
  simp only [hf, Option.map_some', Option.some.injEq] at this
  exact hne this

theorem Consistent.count_le_one_of_kernel (hs : s.Consistent n heap) {p : Nat}
    (hp : n ≤ p ∧ p < 2 ^ 20) {f : PageFrame} (hf : s.kernel p = some f) :
    s.count f.addr ≤ 1 := by
  by_contra hmany
  obtain ⟨hcard, -⟩ := hs.counted f.addr (.inr (by omega))
  obtain ⟨y, hy⟩ : (s.userMaps n f.addr).Nonempty := Finset.card_pos.mp (by omega)
  obtain ⟨hylive, hymap⟩ := (s.mem_userMaps).mp hy
  obtain ⟨g, hg, hgaddr⟩ := Option.map_eq_some'.mp hymap
  have hempty := hs.userKernel y hylive g hg
  have hmem : p ∈ s.kernelMaps n g.addr :=
    (s.mem_kernelMaps).mpr ⟨hp.1, hp.2, by simp [hf, hgaddr]⟩
  simp [hempty] at hmem

/-- Unmapping a user page and releasing its frame as `free_page` does keeps the consistency. -/
theorem Consistent.release_unmapped (hs : s.Consistent n heap)
    {x : ProcessOrKernelPageDir × Nat} (hx : x ∈ s.live ×ˢ Finset.range n) {f : PageFrame}
    (hf : s.user x = some f) : ((s.setUser x none).release f).Consistent n heap := by
  set t := (s.setUser x none).release f with ht
  have hlive : t.live = s.live := by simp [ht, setUser]
  have huser : t.user = Function.update s.user x none := by simp [ht, setUser]
  have hkernel : t.kernel = s.kernel := by simp [ht, setUser]
  have hkmaps : t.kernelMaps n = s.kernelMaps n := kernelMaps_congr hkernel
  have hmaps : ∀ phys, t.userMaps n phys = (s.userMaps n phys).erase x := fun phys => by
    rw [@userMaps_congr n (s.setUser x none) t (by simp [ht]) (by simp [ht])]
    exact s.userMaps_setUser_none x phys
  have hback : ∀ g, t.Maps n g → (∃ y ∈ s.live ×ˢ Finset.range n, y ≠ x ∧ s.user y = some g) ∨
      ∃ p, n ≤ p ∧ p < 2 ^ 20 ∧ s.kernel p = some g := fun g hg => by
    rcases s.maps_setUser ((@maps_congr n (s.setUser x none) t (by simp [ht]) (by simp [ht])
      (by simp [ht]) g).mp hg) with h | h | h
    · cases h
    · exact .inl h
    · exact .inr h
  have hmaps_s : ∀ g, t.Maps n g → s.Maps n g := fun g hg => by
    rcases hback g hg with ⟨y, hy, -, hg⟩ | h
    · exact .inl ⟨y, hy, hg⟩
    · exact .inr h
  have hold : ∀ y, y ≠ x → t.user y = s.user y := fun y hyx => by
    rw [huser, Function.update_noteq hyx]
  have hfmem : x ∈ s.userMaps n f.addr := (s.mem_userMaps).mpr ⟨hx, by simp [hf]⟩
  have hcount_ne : ∀ phys, phys ≠ f.addr → t.count phys = s.count phys := fun phys hne => by
    simp only [ht, release]
    split_ifs <;> simp [setUser, Function.update_noteq hne]
  -- the count of every other frame
  have hcounted_ne : ∀ phys, phys ≠ f.addr →
      (2 ≤ (t.userMaps n phys).card ∨ 2 ≤ t.count phys) →
      (t.userMaps n phys).card = t.count phys ∧ ∀ y ∈ t.userMaps n phys, ∀ g,
        t.user y = some g → g.copyOnWrite = true ∧ g.referenced = true ∧ g.writable = false := by
    intro phys hne hphys
    have hsame : t.userMaps n phys = s.userMaps n phys := by
      rw [hmaps, Finset.erase_eq_of_not_mem]
      exact fun hmem => userMaps_ne_of_mem hf hmem (Ne.symm hne) rfl
    rw [hsame, hcount_ne phys hne] at hphys ⊢
    obtain ⟨hc, hflags⟩ := hs.counted phys hphys
    refine ⟨hc, fun y hy g hg => hflags y hy g ?_⟩
    rwa [hold y (userMaps_ne_of_mem hf hy (Ne.symm hne))] at hg
  have hwritable : ∀ y ∈ t.live ×ˢ Finset.range n, ∀ g, t.user y = some g →
      g.writable = true → t.userMaps n g.addr ⊆ {y} := by
    intro y hy g hg hw
    have hyx : y ≠ x := by
      rintro rfl
      simp [huser] at hg
    rw [hlive] at hy
    rw [hold y hyx] at hg
    rw [hmaps]
    exact (Finset.erase_subset _ _).trans (hs.writable y hy g hg hw)
  have hheapUser : ∀ p ∈ heap, ∀ g, t.kernel p = some g → t.userMaps n g.addr = ∅ := by
    intro p hp g hg
    rw [hkernel] at hg
    rw [hmaps, hs.heapUser p hp g hg, Finset.erase_empty]
  have huserKernel : ∀ y ∈ t.live ×ˢ Finset.range n, ∀ g, t.user y = some g →
      t.kernelMaps n g.addr = ∅ := by
    intro y hy g hg
    have hyx : y ≠ x := by
      rintro rfl
      simp [huser] at hg
    rw [hlive] at hy
    rw [hold y hyx] at hg
    rw [hkmaps]
    exact hs.userKernel y hy g hg
  have hheapKernel : ∀ p ∈ heap, ∀ g, t.kernel p = some g → t.kernelMaps n g.addr = {p} := by
    intro p hp g hg
    rw [hkernel] at hg
    rw [hkmaps]
    exact hs.heapKernel p hp g hg
  by_cases hdec : f.referenced = true ∧ 1 < s.count f.addr
  · -- one reference fewer; the bits stay
    have hcount : t.count f.addr = s.count f.addr - 1 := by simp [ht, release, hdec, setUser]
    have hused : t.used = s.used := by simp [ht, release, hdec, setUser]
    refine ⟨⟨fun g hg => by rw [hused]; exact hs.used g (hmaps_s g hg), ?_, hwritable,
      hheapUser, fun g hg => hs.unshared g (hmaps_s g hg)⟩, huserKernel, hheapKernel,
      fun g hg => hs.aligned g (hmaps_s g hg)⟩
    intro phys hphys
    by_cases hp : phys = f.addr
    · subst hp
      have hcard := Finset.card_erase_of_mem hfmem
      rw [hmaps, hcard, hcount] at hphys ⊢
      obtain ⟨hc, hflags⟩ := hs.counted f.addr (by omega)
      refine ⟨by omega, fun y hy g hg => ?_⟩
      obtain ⟨hyx, hy⟩ := Finset.mem_erase.mp hy
      exact hflags y hy g (by rwa [hold y hyx] at hg)
    · exact hcounted_ne phys hp hphys
  · -- the frame has this page only; it is released
    have hsole : s.userMaps n f.addr = {x} := hs.userMaps_eq_singleton hx hf (by
      by_cases href : f.referenced = true
      · exact .inr (Nat.le_of_not_lt fun h => hdec ⟨href, h⟩)
      · exact .inl (by simpa using href))
    have hkf : s.kernelMaps n f.addr = ∅ := hs.userKernel x hx f hf
    have hcount : t.count f.addr ≤ 1 := by
      by_cases href : f.referenced = true
      · have hnot : ¬ 1 < s.count f.addr := fun h => hdec ⟨href, h⟩
        simp [ht, release, hnot, href, setUser]
      · have hle : s.count f.addr ≤ 1 := by
          by_contra hmany
          have := (hs.counted f.addr (.inr (by omega))).1
          rw [hsole] at this
          simp at this
          omega
        simpa [ht, release, hdec, href, setUser] using hle
    have hused : ∀ i, i ≠ f.addr / pageSize → t.used i = s.used i := fun i hi => by
      simp only [ht, release]
      split_ifs <;> simp [setUser, Function.update_noteq hi]
    refine ⟨⟨fun g hg => ?_, ?_, hwritable, hheapUser, fun g hg => hs.unshared g (hmaps_s g hg)⟩,
      huserKernel, hheapKernel, fun g hg => hs.aligned g (hmaps_s g hg)⟩
    · have hne : g.addr / pageSize ≠ f.addr / pageSize := by
        intro hidx
        have haddr := hs.addr_eq_of_index_eq (.inl ⟨x, hx, hf⟩) (hmaps_s g hg) hidx
        rcases hback g hg with ⟨y, hy, hyx, hyg⟩ | ⟨p, hp, hptop, hpg⟩
        · have hmem : y ∈ s.userMaps n f.addr :=
            (s.mem_userMaps).mpr ⟨hy, by simp [hyg, haddr]⟩
          rw [hsole, Finset.mem_singleton] at hmem
          exact hyx hmem
        · have hmem : p ∈ s.kernelMaps n f.addr :=
            (s.mem_kernelMaps).mpr ⟨hp, hptop, by simp [hpg, haddr]⟩
          simp [hkf] at hmem
      rw [hused _ hne]
      exact hs.used g (hmaps_s g hg)
    · intro phys hphys
      by_cases hp : phys = f.addr
      · subst hp
        rw [hmaps, hsole, Finset.erase_singleton] at hphys
        simp at hphys
        omega
      · exact hcounted_ne phys hp hphys

/-- Moving a heap page's frame to an unmapped user page keeps the consistency. -/
theorem Consistent.move_heap_frame (hs : s.Consistent n heap)
    (hheap : ∀ p ∈ heap, n ≤ p ∧ p < 2 ^ 20) {x : ProcessOrKernelPageDir × Nat}
    (hx : x ∈ s.live ×ˢ Finset.range n) (hnone : s.user x = none) {X : Nat} (hX : X ∈ heap)
    {xf : PageFrame} (hxf : s.kernel X = some xf) {idx : Nat} (hidx : s.used idx = false)
    {page newPage : PageFrame} (hpage : page.addr = xf.addr) (hpshared : page.shared = false)
    (hnew : newPage.addr = idx * pageSize) (hnshared : newPage.shared = false) :
    (((s.setUser x (some page)).setKernel X (some newPage)).markUsed idx).Consistent n heap := by
  set t := ((s.setUser x (some page)).setKernel X (some newPage)).markUsed idx with ht
  have hXr := hheap X hX
  have hxmaps : s.Maps n xf := .inr ⟨X, hXr.1, hXr.2, hxf⟩
  have hnewIdx : newPage.addr / pageSize = idx := by
    rw [hnew, Nat.mul_div_cancel _ (by decide)]
  have hfresh : ∀ g, s.Maps n g → g.addr ≠ newPage.addr := fun g hg heq => by
    have := hs.used g hg
    rw [heq, hnewIdx, hidx] at this
    cases this
  have hxUser : s.userMaps n xf.addr = ∅ := hs.heapUser X hX xf hxf
  have hxKernel : s.kernelMaps n xf.addr = {X} := hs.heapKernel X hX xf hxf
  have hxnew : xf.addr ≠ newPage.addr := hfresh xf hxmaps
  have hlive : t.live = s.live := rfl
  have huser : t.user = Function.update s.user x (some page) := rfl
  have hkernel : t.kernel = Function.update s.kernel X (some newPage) := rfl
  have hmaps : ∀ phys, t.userMaps n phys =
      if page.addr = phys then insert x (s.userMaps n phys) else s.userMaps n phys := fun phys => by
    rw [@userMaps_congr n (s.setUser x (some page)) t rfl rfl]
    exact s.userMaps_setUser_of_none hx hnone page phys
  have hkmaps : ∀ phys, t.kernelMaps n phys =
      if newPage.addr = phys then insert X ((s.kernelMaps n phys).erase X)
      else (s.kernelMaps n phys).erase X := fun phys => by
    rw [@kernelMaps_congr n ((s.setUser x (some page)).setKernel X (some newPage)) t rfl,
      kernelMaps_setKernel]
    simp only [Option.map_some', Option.some.injEq, hXr, and_true]
    rfl
  -- every mapping of `t` is `page`, `newPage`, or a mapping of `s` at another page
  have hback : ∀ g, t.Maps n g → g = page ∨ g = newPage ∨
      (s.Maps n g ∧ g.addr ≠ xf.addr ∧ g.addr ≠ newPage.addr) := by
    intro g hg
    rcases hg with ⟨y, hy, hyg⟩ | ⟨q, hq, hqtop, hqg⟩
    · by_cases hyx : y = x
      · subst hyx
        simp only [huser, Function.update_same, Option.some.injEq] at hyg
        exact .inl hyg.symm
      · rw [huser, Function.update_noteq hyx] at hyg
        refine .inr (.inr ⟨.inl ⟨y, hy, hyg⟩, fun heq => ?_, hfresh g (.inl ⟨y, hy, hyg⟩)⟩)
        have hmem : y ∈ s.userMaps n xf.addr := (s.mem_userMaps).mpr ⟨hy, by simp [hyg, heq]⟩
        simp [hxUser] at hmem
    · by_cases hqX : q = X
      · subst hqX
        simp only [hkernel, Function.update_same, Option.some.injEq] at hqg
        exact .inr (.inl hqg.symm)
      · rw [hkernel, Function.update_noteq hqX] at hqg
        refine .inr (.inr ⟨.inr ⟨q, hq, hqtop, hqg⟩, fun heq => hqX ?_,
          hfresh g (.inr ⟨q, hq, hqtop, hqg⟩)⟩)
        have hmem : q ∈ s.kernelMaps n xf.addr :=
          (s.mem_kernelMaps).mpr ⟨hq, hqtop, by simp [hqg, heq]⟩
        rwa [hxKernel, Finset.mem_singleton] at hmem
  have hnewUser : s.userMaps n newPage.addr = ∅ := Finset.eq_empty_of_forall_not_mem fun y hy => by
    obtain ⟨hy, hyg⟩ := (s.mem_userMaps).mp hy
    obtain ⟨g, hg, hgaddr⟩ := Option.map_eq_some'.mp hyg
    exact hfresh g (.inl ⟨y, hy, hg⟩) hgaddr
  have hnewKernel : s.kernelMaps n newPage.addr = ∅ := Finset.eq_empty_of_forall_not_mem fun q hq => by
    obtain ⟨hq, hqtop, hqg⟩ := (s.mem_kernelMaps).mp hq
    obtain ⟨g, hg, hgaddr⟩ := Option.map_eq_some'.mp hqg
    exact hfresh g (.inr ⟨q, hq, hqtop, hg⟩) hgaddr
  -- what a user page of `t` reports
  have huser_cases : ∀ y ∈ s.live ×ˢ Finset.range n, ∀ g, t.user y = some g →
      (y = x ∧ g = page) ∨ (y ≠ x ∧ s.user y = some g ∧ g.addr ≠ xf.addr) := by
    intro y hy g hg
    by_cases hyx : y = x
    · subst hyx
      simp only [huser, Function.update_same, Option.some.injEq] at hg
      exact .inl ⟨rfl, hg.symm⟩
    · rw [huser, Function.update_noteq hyx] at hg
      refine .inr ⟨hyx, hg, fun heq => ?_⟩
      have hmem : y ∈ s.userMaps n xf.addr := (s.mem_userMaps).mpr ⟨hy, by simp [hg, heq]⟩
      simp [hxUser] at hmem
  refine ⟨⟨fun g hg => ?_, fun phys hphys => ?_, fun y hy g hg hw => ?_, fun p hp g hg => ?_,
    fun g hg => ?_⟩, fun y hy g hg => ?_, fun p hp g hg => ?_, fun g hg => ?_⟩
  · -- used
    rcases hback g hg with rfl | rfl | ⟨hgs, -, -⟩
    · rw [hpage]
      exact update_true_of_true (hs.used xf hxmaps)
    · rw [hnewIdx]
      simp [ht, markUsed]
    · exact update_true_of_true (hs.used g hgs)
  · -- counted
    rw [hmaps] at hphys ⊢
    by_cases hp : page.addr = phys
    · subst hp
      rw [if_pos rfl] at hphys ⊢
      rw [hpage, hxUser] at hphys
      have hcount : 2 ≤ s.count xf.addr := by simpa using hphys
      have := (hs.counted xf.addr (.inr hcount)).1
      rw [hxUser] at this
      simp at this
      omega
    · rw [if_neg hp] at hphys ⊢
      obtain ⟨hc, hflags⟩ := hs.counted phys hphys
      refine ⟨hc, fun y hy g hg => hflags y hy g ?_⟩
      have hyx : y ≠ x := by
        rintro rfl
        have := ((s.mem_userMaps).mp hy).2
        simp [hnone] at this
      rwa [huser, Function.update_noteq hyx] at hg
  · -- writable
    rcases huser_cases y hy g hg with ⟨rfl, rfl⟩ | ⟨hyx, hyg, hgx⟩
    · rw [hmaps, if_pos rfl, hpage, hxUser]
      simp
    · rw [hmaps, if_neg (by rw [hpage]; exact Ne.symm hgx)]
      exact hs.writable y hy g hyg hw
  · -- heapUser
    by_cases hpX : p = X
    · subst hpX
      simp only [hkernel, Function.update_same, Option.some.injEq] at hg
      subst hg
      rw [hmaps, if_neg (by rw [hpage]; exact hxnew), hnewUser]
    · rw [hkernel, Function.update_noteq hpX] at hg
      have hgx : g.addr ≠ xf.addr := fun heq => hpX (by
        have hmem : p ∈ s.kernelMaps n xf.addr :=
          (s.mem_kernelMaps).mpr ⟨(hheap p hp).1, (hheap p hp).2, by simp [hg, heq]⟩
        rwa [hxKernel, Finset.mem_singleton] at hmem)
      rw [hmaps, if_neg (by rw [hpage]; exact Ne.symm hgx)]
      exact hs.heapUser p hp g hg
  · -- unshared
    rcases hback g hg with rfl | rfl | ⟨hgs, -, -⟩
    · exact hpshared
    · exact hnshared
    · exact hs.unshared g hgs
  · -- userKernel
    rcases huser_cases y hy g hg with ⟨rfl, rfl⟩ | ⟨hyx, hyg, hgx⟩
    · rw [hkmaps, if_neg (by rw [hpage]; exact Ne.symm hxnew), hpage, hxKernel]
      simp
    · rw [hkmaps, if_neg (Ne.symm (hfresh g (.inl ⟨y, hy, hyg⟩))), hs.userKernel y hy g hyg]
      simp
  · -- heapKernel
    by_cases hpX : p = X
    · subst hpX
      simp only [hkernel, Function.update_same, Option.some.injEq] at hg
      subst hg
      rw [hkmaps, if_pos rfl, hnewKernel]
      simp
    · rw [hkernel, Function.update_noteq hpX] at hg
      have hgs : s.Maps n g := .inr ⟨p, (hheap p hp).1, (hheap p hp).2, hg⟩
      rw [hkmaps, if_neg (Ne.symm (hfresh g hgs)), hs.heapKernel p hp g hg,
        Finset.erase_eq_of_not_mem (by simpa using Ne.symm hpX)]
  · -- aligned
    rcases hback g hg with rfl | rfl | ⟨hgs, -, -⟩
    · rw [hpage]
      exact hs.aligned xf hxmaps
    · rw [hnew]
      exact Nat.mul_mod_left _ _
    · exact hs.aligned g hgs

/-- The copying branch of `copy_on_write` keeps the consistency. -/
theorem Consistent.copy_page (hs : s.Consistent n heap)
    (hheap : ∀ p ∈ heap, n ≤ p ∧ p < 2 ^ 20) {x : ProcessOrKernelPageDir × Nat}
    (hx : x ∈ s.live ×ˢ Finset.range n) {f : PageFrame} (hf : s.user x = some f)
    (hcount : 1 < s.count f.addr) {X : Nat} (hX : X ∈ heap) {xf : PageFrame}
    (hxf : s.kernel X = some xf) {idx : Nat} (hidx : s.used idx = false)
    {page newPage : PageFrame} (hpage : page.addr = xf.addr) (hpshared : page.shared = false)
    (hnew : newPage.addr = idx * pageSize) (hnshared : newPage.shared = false) :
    ((((s.setUser x (some page)).markUsed idx).setKernel X (some newPage)).release f).Consistent
      n heap := by
  have href : f.referenced = true :=
    ((hs.counted f.addr (.inr (by omega))).2 x ((s.mem_userMaps).mpr ⟨hx, by simp [hf]⟩) f
      hf).2.1
  have hmoved := (hs.release_unmapped hx hf).move_heap_frame hheap (by simpa [setUser] using hx)
    (by simp [setUser]) hX (by simpa [setUser] using hxf)
    (by simp [release, setUser, href, hcount, hidx]) hpage hpshared hnew hnshared
  convert hmoved using 1
  simp [release, setUser, markUsed, setKernel, href, hcount]

/-- Rewriting a user page with the same frame, counted at most once, keeps the consistency. -/
theorem Consistent.setUser_same (hs : s.Consistent n heap) {x : ProcessOrKernelPageDir × Nat}
    (hx : x ∈ s.live ×ˢ Finset.range n) {f g : PageFrame} (hf : s.user x = some f)
    (haddr : g.addr = f.addr) (hshared : g.shared = false) (hsole : s.count f.addr ≤ 1) :
    (s.setUser x (some g)).Consistent n heap := by
  have hmaps := @userMaps_setUser_same n s x f g hf haddr
  have hsingle := hs.userMaps_eq_singleton hx hf (.inr hsole)
  have hback : ∀ h, (s.setUser x (some g)).Maps n h → h = g ∨ s.Maps n h := fun h hh => by
    rcases s.maps_setUser hh with hg | ⟨y, hy, -, hyh⟩ | hk
    · exact .inl (Option.some.inj hg).symm
    · exact .inr (.inl ⟨y, hy, hyh⟩)
    · exact .inr (.inr hk)
  have hfs : s.Maps n f := .inl ⟨x, hx, hf⟩
  have hold : ∀ y, y ≠ x → (s.setUser x (some g)).user y = s.user y := fun y hyx =>
    Function.update_noteq hyx _ _
  refine ⟨⟨fun h hh => ?_, fun phys hphys => ?_, fun y hy h hh hw => ?_, fun p hp h hh => ?_,
    fun h hh => ?_⟩, fun y hy h hh => ?_, fun p hp h hh => ?_, fun h hh => ?_⟩
  · rcases hback h hh with rfl | hs'
    · rw [haddr]
      exact hs.used f hfs
    · exact hs.used h hs'
  · have hcount : (s.setUser x (some g)).count = s.count := rfl
    rw [hmaps, hcount] at hphys ⊢
    by_cases hp : phys = f.addr
    · subst hp
      rw [hsingle] at hphys
      simp at hphys
      omega
    · obtain ⟨hc, hflags⟩ := hs.counted phys hphys
      exact ⟨hc, fun y hy h hh => hflags y hy h (by
        rwa [hold y (userMaps_ne_of_mem hf hy (Ne.symm hp))] at hh)⟩
  · by_cases hyx : y = x
    · subst hyx
      simp only [setUser, Function.update_same, Option.some.injEq] at hh
      subst hh
      rw [hmaps, haddr, hsingle]
    · rw [hold y hyx] at hh
      rw [hmaps]
      exact hs.writable y hy h hh hw
  · rw [hmaps]
    exact hs.heapUser p hp h hh
  · rcases hback h hh with rfl | hs'
    · exact hshared
    · exact hs.unshared h hs'
  · by_cases hyx : y = x
    · subst hyx
      simp only [setUser, Function.update_same, Option.some.injEq] at hh
      subst hh
      rw [kernelMaps_congr rfl, haddr]
      exact hs.userKernel _ hx f hf
    · rw [hold y hyx] at hh
      rw [kernelMaps_congr rfl]
      exact hs.userKernel y hy h hh
  · rw [kernelMaps_congr rfl]
    exact hs.heapKernel p hp h hh
  · rcases hback h hh with rfl | hs'
    · rw [haddr]
      exact hs.aligned f hfs
    · exact hs.aligned h hs'

/-- Rewriting a kernel page with a frame at the same address keeps the consistency. -/
theorem Consistent.setKernel_same (hs : s.Consistent n heap) {p : Nat}
    (hp : n ≤ p ∧ p < 2 ^ 20) {f g : PageFrame} (hf : s.kernel p = some f)
    (haddr : g.addr = f.addr) (hshared : g.shared = false) :
    (s.setKernel p (some g)).Consistent n heap := by
  have hkmaps := s.kernelMaps_setKernel_same hp hf haddr
  have hmaps : (s.setKernel p (some g)).userMaps n = s.userMaps n := userMaps_congr rfl rfl
  have hback : ∀ h, (s.setKernel p (some g)).Maps n h → h = g ∨ s.Maps n h := fun h hh => by
    rcases s.maps_setKernel hh with hg | hu | ⟨q, -, hq, hqtop, hqh⟩
    · exact .inl (Option.some.inj hg).symm
    · exact .inr (.inl hu)
    · exact .inr (.inr ⟨q, hq, hqtop, hqh⟩)
  have hfs : s.Maps n f := .inr ⟨p, hp.1, hp.2, hf⟩
  refine ⟨⟨fun h hh => ?_, fun phys hphys => ?_, fun y hy h hh hw => ?_, fun q hq h hh => ?_,
    fun h hh => ?_⟩, fun y hy h hh => ?_, fun q hq h hh => ?_, fun h hh => ?_⟩
  · rcases hback h hh with rfl | hs'
    · rw [haddr]
      exact hs.used f hfs
    · exact hs.used h hs'
  · rw [hmaps] at hphys ⊢
    exact hs.counted phys hphys
  · rw [hmaps]
    exact hs.writable y hy h hh hw
  · rw [hmaps]
    by_cases hqp : q = p
    · subst hqp
      simp only [setKernel, Function.update_same, Option.some.injEq] at hh
      subst hh
      rw [haddr]
      exact hs.heapUser q hq f hf
    · exact hs.heapUser q hq h (by
        simpa only [setKernel, Function.update_noteq hqp] using hh)
  · rcases hback h hh with rfl | hs'
    · exact hshared
    · exact hs.unshared h hs'
  · rw [hkmaps]
    exact hs.userKernel y hy h hh
  · rw [hkmaps]
    by_cases hqp : q = p
    · subst hqp
      simp only [setKernel, Function.update_same, Option.some.injEq] at hh
      subst hh
      rw [haddr]
      exact hs.heapKernel q hq f hf
    · exact hs.heapKernel q hq h (by
        simpa only [setKernel, Function.update_noteq hqp] using hh)
  · rcases hback h hh with rfl | hs'
    · rw [haddr]
      exact hs.aligned f hfs
    · exact hs.aligned h hs'

/-- Retiring a directory that maps no user page keeps the consistency. -/
theorem Consistent.retire (hs : s.Consistent n heap) {d : ProcessOrKernelPageDir}
    (hnone : ∀ p < n, s.user (d, p) = none) : (s.retire d).Consistent n heap := by
  have hmaps : (s.retire d).userMaps n = s.userMaps n := by
    funext phys
    ext ⟨e, p⟩
    rw [mem_userMaps, mem_userMaps, Finset.mem_product, Finset.mem_product]
    simp only [retire_live, retire_user, Finset.mem_erase, Finset.mem_range]
    constructor
    · rintro ⟨⟨⟨-, he⟩, hp⟩, hmap⟩
      exact ⟨⟨he, hp⟩, hmap⟩
    · rintro ⟨⟨he, hp⟩, hmap⟩
      refine ⟨⟨⟨fun hed => ?_, he⟩, hp⟩, hmap⟩
      subst hed
      rw [hnone p hp] at hmap
      cases hmap
  have hlive : (s.retire d).live ×ˢ Finset.range n ⊆ s.live ×ˢ Finset.range n :=
    Finset.product_subset_product_left (Finset.erase_subset _ _)
  have hback : ∀ h, (s.retire d).Maps n h → s.Maps n h := fun h hh => by
    rcases hh with ⟨y, hy, hyh⟩ | hk
    · exact .inl ⟨y, hlive hy, hyh⟩
    · exact .inr hk
  refine ⟨⟨fun h hh => hs.used h (hback h hh), fun phys hphys => ?_,
    fun y hy h hh hw => ?_, fun q hq h hh => ?_, fun h hh => hs.unshared h (hback h hh)⟩,
    fun y hy h hh => hs.userKernel y (hlive hy) h hh, fun q hq h hh => hs.heapKernel q hq h hh,
    fun h hh => hs.aligned h (hback h hh)⟩
  · rw [hmaps] at hphys ⊢
    exact hs.counted phys hphys
  · rw [hmaps]
    exact hs.writable y (hlive hy) h hh hw
  · rw [hmaps]
    exact hs.heapUser q hq h hh

end Preserve

end MemView

end Ockernel
