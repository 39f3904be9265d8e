import Ockernel.Mm.Invariant

/-!
`try_copy_on_write` on several CPUs at once.  A call runs as a thread of locked steps: the
`get_page` of the faulting address, the read of the page's reference count, the copy into the
buffer, the `virt_to_phys` of the buffer, each `set_page`, the `alloc_frame` and the
`free_page`.  Between two steps of one thread any other thread may take a step of its own;
`runSchedule` replays a schedule of thread indices over the shared state.

A thread that runs alone ends as `try_copy_on_write` does (`runThread_fault`), so the steps
are the sequential code cut at its locks.  Cut there, two threads of one process that fault
on the same copy-on-write page can both read two references before either writes: both copy,
both release the old frame, and the second release frees a frame another process still maps.
-/

namespace Ockernel

/-- Where a thread running `try_copy_on_write` stands between two locked steps, with what it
holds: the page-rounded faulting address and the page it read, then the buffer's frame or the
fresh frame. -/
inductive CowPc where
  | fault (addr : Nat)
  | counting (addr : Nat) (page : PageFrame)
  | copying (addr : Nat) (page : PageFrame)
  | translating (addr : Nat) (page : PageFrame)
  | remapping (addr : Nat) (page : PageFrame) (new : Nat)
  | allocating (addr : Nat) (page : PageFrame)
  | restoring (addr : Nat) (page : PageFrame) (err : PagingError)
  | backing (page : PageFrame) (phys : Nat)
  | freeing (page : PageFrame) (newPage : PageFrame)
  | upgrading (addr : Nat) (page : PageFrame)
  | done (result : Except Errno Bool)
deriving Repr

/-- A CPU thread handling a page fault: the process of its current task, the directory loaded
in its MMU, the buffer the heap gives its `copy_on_write`, and where it stands. -/
structure CowThread where
  pid : Nat
  mmu : ProcessOrKernelPageDir
  copied : Nat
  pc : CowPc
deriving Repr

/-- What `try_copy_on_write` makes of the result of `copy_on_write`. -/
def cowResult : Except PagingError PageFrame → Except Errno Bool
  | .ok _ => .ok true
  | .error err => .error err.toErrno

namespace Kernel

variable (split : KernelSplit) (alloc : TableAlloc) (freeShared : Nat → Bool)

/-- One locked step of a thread; a `panic!` or a page fault stops the whole system. -/
def cowStep (k : Kernel) (t : CowThread) : Except Fault (Kernel × CowThread) :=
  let pid := t.pid
  match t.pc with
  | .fault addr =>
    match k.lookup (.process pid) with
    | none => .ok (k, { t with pc := .done (.error .noSuchProcess) })
    | some d =>
      match k.pageIn split d addr with
      | none => .ok (k, { t with pc := .done (.error .badAddress) })
      | some page =>
        if !page.writable && page.copyOnWrite && page.referenced then
          .ok (k, { t with pc := .counting (addr / pageSize * pageSize) page })
        else .ok (k, { t with pc := .done (.ok false) })
  | .counting addr page =>
    if k.refs.getReferencesFor page.addr > 1 then .ok (k, { t with pc := .copying addr page })
    else .ok (k, { t with pc := .upgrading addr page })
  | .copying addr page =>
    match k.copyBytes split t.mmu addr t.copied pageSize with
    | .error fault => .error fault
    | .ok k => .ok (k, { t with pc := .translating addr page })
  | .translating addr page =>
    match k.virtToPhys split (.process pid) t.copied with
    | .error fault => .error fault
    | .ok none => .ok (k, { t with pc := .done (cowResult (.error .badAddress)) })
    | .ok (some new) => .ok (k, { t with pc := .remapping addr page new })
  | .remapping addr page new =>
    let remapped := { page with
      addr := new, writable := true, copyOnWrite := false, referenced := false }
    match k.setPage split alloc (.process pid) addr (some remapped) with
    | .error fault => .error fault
    | .ok (.error err, k) => .ok (k, { t with pc := .done (cowResult (.error err)) })
    | .ok (.ok (), k) => .ok (k, { t with pc := .allocating addr page })
  | .allocating addr page =>
    match k.manager.allocFrame with
    | (.error err, _) => .ok (k, { t with pc := .restoring addr page err })
    | (.ok phys, manager) => .ok ({ k with manager }, { t with pc := .backing page phys })
  | .restoring addr page err =>
    match k.setPage split alloc (.process pid) addr (some page) with
    | .error fault => .error fault
    | .ok (.error e, _) => .error (.expectFailed "copy on write cleanup failed" e)
    | .ok (.ok (), k) => .ok (k, { t with pc := .done (cowResult (.error err)) })
  | .backing page phys =>
    let newPage : PageFrame := { addr := phys, present := true, writable := true }
    match k.setPage split alloc (.process pid) t.copied (some newPage) with
    | .error fault => .error fault
    | .ok (.error e, _) =>
      .error (.expectFailed "couldn't set page in copy on write cleanup" e)
    | .ok (.ok (), k) => .ok (k, { t with pc := .freeing page newPage })
  | .freeing page newPage =>
    match k.freePage freeShared page with
    | .error fault => .error fault
    | .ok k => .ok (k, { t with pc := .done (cowResult (.ok newPage)) })
  | .upgrading addr page =>
    let page := { page with writable := true }
    match k.setPage split alloc (.process pid) addr (some page) with
    | .error fault => .error fault
    | .ok (.error err, k) => .ok (k, { t with pc := .done (cowResult (.error err)) })
    | .ok (.ok (), k) => .ok (k, { t with pc := .done (cowResult (.ok page)) })
  | .done _ => .ok (k, t)

/-- `n` steps of one thread with no step of another between them. -/
def runThread (k : Kernel) (t : CowThread) : Nat → Except Fault (Kernel × CowThread)
  | 0 => .ok (k, t)
  | n + 1 =>
    match cowStep split alloc freeShared k t with
    | .error fault => .error fault
    | .ok (k, t) => runThread k t n

/-- Replay a schedule: each entry runs one step of the thread it names. -/
def runSchedule (k : Kernel) (threads : List CowThread) :
    List Nat → Except Fault (Kernel × List CowThread)
  | [] => .ok (k, threads)
  | i :: schedule =>
    match threads[i]? with
    | none => runSchedule k threads schedule
    | some t =>
      match cowStep split alloc freeShared k t with
      | .error fault => .error fault
      | .ok (k, t) => runSchedule k (threads.set i t) schedule

/-! ### A thread alone is `try_copy_on_write` -/

theorem runThread_done (k : Kernel) (t : CowThread) {r : Except Errno Bool}
    (ht : t.pc = .done r) : ∀ n, runThread split alloc freeShared k t n = .ok (k, t)
  | 0 => rfl
  | n + 1 => by
    simp only [runThread, cowStep, ht]
    exact runThread_done k t ht n

theorem runThread_copying (k : Kernel) (t : CowThread) {addr : Nat} {page : PageFrame}
    (ht : t.pc = .copying addr page) {n : Nat} (hn : 6 ≤ n) :
    runThread split alloc freeShared k t n =
      match k.copyBytes split t.mmu addr t.copied pageSize with
      | .error fault => .error fault
      | .ok k => (k.cowRemap split alloc freeShared (.process t.pid) addr page t.copied).map
          fun (r, k') => (k', { t with pc := .done (cowResult r) }) := by
  obtain ⟨n, rfl⟩ : ∃ m, n = m + 6 := ⟨n - 6, by omega⟩
  rw [runThread]
  simp only [cowStep, ht]
  rcases h₁ : k.copyBytes split t.mmu addr t.copied pageSize with fault | k₁ <;> simp only [h₁]
  rw [runThread]
  simp only [cowStep, cowRemap]
  rcases h₂ : k₁.virtToPhys split (.process t.pid) t.copied with fault | _ | new <;>
    simp only [h₂, Except.map]
  · exact runThread_done split alloc freeShared k₁ _ rfl _
  rw [runThread]
  simp only [cowStep]
  rcases h₃ : k₁.setPage split alloc (.process t.pid) addr (some { page with
      addr := new, writable := true, copyOnWrite := false, referenced := false })
    with fault | ⟨err | ⟨⟩, k₂⟩ <;> simp only [h₃, Except.map]
  · exact runThread_done split alloc freeShared k₂ _ rfl _
  rw [runThread]
  simp only [cowStep]
  rcases h₄ : k₂.manager.allocFrame with ⟨err | phys, manager⟩ <;> simp only [h₄]
  · rw [runThread]
    simp only [cowStep]
    rcases h₅ : k₂.setPage split alloc (.process t.pid) addr (some page)
      with fault | ⟨e | ⟨⟩, k₃⟩ <;> simp only [h₅, Except.map]
    exact runThread_done split alloc freeShared k₃ _ rfl _
  · rw [runThread]
    simp only [cowStep]
    rcases h₅ : ({ k₂ with manager } : Kernel).setPage split alloc (.process t.pid) t.copied
        (some { addr := phys, present := true, writable := true })
      with fault | ⟨e | ⟨⟩, k₄⟩ <;> simp only [h₅, Except.map]
    rw [runThread]
    simp only [cowStep]
    rcases h₆ : k₄.freePage freeShared page with fault | k₅ <;> simp only [h₆, Except.map]
    exact runThread_done split alloc freeShared k₅ _ rfl _

theorem runThread_copying_page (k : Kernel) (t : CowThread) {addr : Nat} {page ps pd : PageFrame}
    (ht : t.pc = .copying addr page) (hlive : (k.lookup t.mmu).isSome)
    (hsrc : addr % pageSize = 0) (hdst : t.copied % pageSize = 0)
    (hvs : k.view split t.mmu addr = some ps) (hvd : k.view split t.mmu t.copied = some pd)
    (hps : ps.present = true) (hpd : pd.present = true) (hne : ps.addr ≠ pd.addr) {n : Nat}
    (hn : 6 ≤ n) :
    runThread split alloc freeShared k t n =
      (({ k with memory := fun q =>
          if pd.addr ≤ q ∧ q < pd.addr + pageSize then k.memory (ps.addr + (q - pd.addr))
          else k.memory q } : Kernel).cowRemap split alloc freeShared (.process t.pid) addr page
        t.copied).map fun (r, k') => (k', { t with pc := .done (cowResult r) }) := by
  rw [runThread_copying split alloc freeShared k t ht hn,
    copyBytes_page split hlive hsrc hdst hvs hvd hps hpd hne]

theorem runThread_fault (k : Kernel) {queue : TaskQueue} {current : TaskQueueEntry}
    (hq : queue.current = some current) (mmu : ProcessOrKernelPageDir) (addr copied : Nat)
    {n : Nat} (hn : 8 ≤ n) :
    runThread split alloc freeShared k ⟨current.id.process, mmu, copied, .fault addr⟩ n =
      (k.tryCopyOnWrite split alloc freeShared queue mmu addr copied).map
        fun (r, k') => (k', ⟨current.id.process, mmu, copied, .done r⟩) := by
  obtain ⟨n, rfl⟩ : ∃ m, n = m + 8 := ⟨n - 8, by omega⟩
  rw [runThread]
  simp only [cowStep, tryCopyOnWrite, hq]
  rcases hd : k.lookup (.process current.id.process) with _ | d <;> simp only [hd, Except.map]
  · exact runThread_done split alloc freeShared k _ rfl _
  rcases hp : k.pageIn split d addr with _ | page <;> simp only [hp, Except.map]
  · exact runThread_done split alloc freeShared k _ rfl _
  split_ifs with hcow
  · dsimp only
    rw [runThread]
    simp only [cowStep, copyOnWrite]
    split_ifs with hcount <;> dsimp only
    · rw [runThread_copying split alloc freeShared k ⟨_, _, _, .copying _ _⟩ rfl (by omega)]
      rcases hcopy : k.copyBytes split mmu (addr / pageSize * pageSize) copied pageSize
        with fault | k₁ <;> simp only [hcopy]
      rcases hr : k₁.cowRemap split alloc freeShared (.process current.id.process)
          (addr / pageSize * pageSize) page copied with fault | ⟨r | g, k'⟩ <;>
        simp only [hr, Except.map, cowResult]
    · rw [runThread]
      simp only [cowStep]
      rcases hset : k.setPage split alloc (.process current.id.process)
          (addr / pageSize * pageSize) (some { page with writable := true })
        with fault | ⟨err | ⟨⟩, k'⟩ <;> simp only [hset, Except.map]
      all_goals exact runThread_done split alloc freeShared k' _ rfl _
  · exact runThread_done split alloc freeShared k _ rfl _

/-! ### Schedules -/

private theorem set_of_getElem? {α : Type} {l : List α} {i : Nat} {a : α} (h : l[i]? = some a) :
    l.set i a = l := by
  obtain ⟨hi, -⟩ := List.getElem?_eq_some_iff.mp h
  refine List.ext_getElem? fun j => ?_
  rw [List.getElem?_set]
  split_ifs with hij
  · subst hij
    exact h.symm
  · rfl

theorem runSchedule_append (k : Kernel) (threads : List CowThread) (first rest : List Nat) :
    runSchedule split alloc freeShared k threads (first ++ rest) =
      match runSchedule split alloc freeShared k threads first with
      | .error fault => .error fault
      | .ok (k, threads) => runSchedule split alloc freeShared k threads rest := by
  induction first generalizing k threads with
  | nil => rfl
  | cons i first ih =>
    simp only [List.cons_append, runSchedule]
    rcases threads[i]? with _ | t <;> dsimp only
    · exact ih k threads
    · rcases cowStep split alloc freeShared k t with fault | ⟨k', t'⟩ <;> dsimp only
      exact ih k' (threads.set i t')

theorem runSchedule_replicate (k : Kernel) (threads : List CowThread) {i : Nat} {t : CowThread}
    (ht : threads[i]? = some t) (n : Nat) :
    runSchedule split alloc freeShared k threads (List.replicate n i) =
      match runThread split alloc freeShared k t n with
      | .error fault => .error fault
      | .ok (k, t) => .ok (k, threads.set i t) := by
  induction n generalizing k threads t with
  | zero => simp only [List.replicate_zero, runSchedule, runThread, set_of_getElem? ht]
  | succ n ih =>
    obtain ⟨hi, -⟩ := List.getElem?_eq_some_iff.mp ht
    simp only [List.replicate_succ, runSchedule, ht, runThread]
    rcases cowStep split alloc freeShared k t with fault | ⟨k', t'⟩ <;> dsimp only
    simp only [ih k' (threads.set i t') (List.getElem?_set_self hi), List.set_set]

end Kernel

/-! ### Two threads of one process fault on one shared page -/

/-- Processes 1 and 2 both map their page `0x1000` copy-on-write to frame `0x5000`, which has
two references; the kernel heap pages `0xe1000000` and `0xe1001000` are backed by frames
`0x6000` and `0x7000`; the frames below `0x8000` are in use. -/
def raceSample : Kernel where
  kernelDir := .ofTable 900 fun j => if j = 0 then ⟨0x6003⟩ else if j = 1 then ⟨0x7003⟩ else ⟨0⟩
  processes := {1, 2}
  dirs := fun _ => .ofTable 0 fun j => if j = 1 then ⟨0x5605⟩ else ⟨0⟩
  refs := ⟨fun phys => if phys = 0x5000 then some 2 else none⟩
  manager := ⟨⟨fun i => decide (i < 8), 16⟩⟩
  memory := fun _ => 0

/-- The frame both processes map at `0x1000`, as `get_page` reports it. -/
def raceFrame : PageFrame :=
  { addr := 0x5000, present := true, userMode := true, copyOnWrite := true, executable := true,
    referenced := true }

/-- Two CPU threads running process 1 that fault at `0x1000`, with the heap buffers
`0xe1000000` and `0xe1001000`. -/
def raceThreads : List CowThread :=
  [⟨1, .process 1, 0xe1000000, .fault 0x1000⟩, ⟨1, .process 1, 0xe1001000, .fault 0x1000⟩]

/-- Both threads read the page and its count; then the first runs to its end, then the
second. -/
def raceSchedule : List Nat := [0, 1, 0, 1] ++ List.replicate 6 0 ++ List.replicate 6 1

/-- The state once the first thread has run to its end: it copied frame `0x5000` into its
buffer's frame `0x6000`, then ran the rest of the copying branch. -/
def raceMid : Kernel :=
  let copied : Kernel :=
    { raceSample with
      memory := fun q =>
        if heapFrame.addr ≤ q ∧ q < heapFrame.addr + pageSize then
          raceSample.memory (raceFrame.addr + (q - heapFrame.addr))
        else raceSample.memory q }
  match copied.cowRemap .linkedBase ⟨0, none⟩ (fun _ => false) (.process 1) 0x1000 raceFrame
      0xe1000000 with
  | .ok (_, k) => k
  | .error _ => raceSample

theorem raceSchedule_first :
    raceSample.runSchedule .linkedBase ⟨0, none⟩ (fun _ => false) raceThreads
        ([0, 1, 0, 1] ++ List.replicate 6 0) =
      .ok (raceMid, [⟨1, .process 1, 0xe1000000, .done (.ok true)⟩,
        ⟨1, .process 1, 0xe1001000, .copying 0x1000 raceFrame⟩]) := by
  have hreads : raceSample.runSchedule .linkedBase ⟨0, none⟩ (fun _ => false) raceThreads
      [0, 1, 0, 1] = .ok (raceSample, [⟨1, .process 1, 0xe1000000, .copying 0x1000 raceFrame⟩,
        ⟨1, .process 1, 0xe1001000, .copying 0x1000 raceFrame⟩]) := rfl
  rw [Kernel.runSchedule_append, hreads]
  dsimp only
  rw [Kernel.runSchedule_replicate _ _ _ _ _
      (rfl : _ = some (⟨1, .process 1, 0xe1000000, .copying 0x1000 raceFrame⟩ : CowThread)),
    @Kernel.runThread_copying_page .linkedBase ⟨0, none⟩ (fun _ => false) raceSample
      ⟨1, .process 1, 0xe1000000, .copying 0x1000 raceFrame⟩ 0x1000 raceFrame raceFrame heapFrame
      rfl (by decide) (by decide) (by decide) (by decide) (by decide) rfl rfl (by decide) 6
      le_rfl]
  rfl

/-- Both threads copy and both return `Ok(true)`, and each releases frame `0x5000` once: its
count goes from two to none and its bit is cleared, while process 2 still maps it. -/
theorem cowRace_frees_mapped_frame :
    ∃ k' threads',
      raceSample.runSchedule .linkedBase ⟨0, none⟩ (fun _ => false) raceThreads raceSchedule =
        .ok (k', threads') ∧
      threads'.map CowThread.pc = [.done (.ok true), .done (.ok true)] ∧
      raceSample.refs.getReferencesFor 0x5000 = 2 ∧
      raceSample.view .linkedBase (.process 2) 0x1000 = some raceFrame ∧
      k'.view .linkedBase (.process 2) 0x1000 = some raceFrame ∧
      k'.refs.getReferencesFor 0x5000 = 0 ∧ k'.manager.frameSet.bits 5 = false := by
  rw [raceSchedule, Kernel.runSchedule_append, raceSchedule_first]
  dsimp only
  rw [Kernel.runSchedule_replicate _ _ _ _ _
      (rfl : _ = some (⟨1, .process 1, 0xe1001000, .copying 0x1000 raceFrame⟩ : CowThread)),
    @Kernel.runThread_copying_page .linkedBase ⟨0, none⟩ (fun _ => false) raceMid
      ⟨1, .process 1, 0xe1001000, .copying 0x1000 raceFrame⟩ 0x1000 raceFrame
      ⟨0x6000, true, true, true, false, true, false, false⟩
      ⟨0x7000, true, false, true, false, true, false, false⟩
      rfl (by decide) (by decide) (by decide) (by decide) (by decide) rfl rfl (by decide) 6
      le_rfl]
  exact ⟨_, _, rfl, rfl, by decide, by decide, by decide, by decide, by decide⟩

end Ockernel
