import Ockernel.Task.Queue
import Mathlib.Data.List.Enum

/-!
Load balancing over the CPU topology of `task/cpu.rs`.  A CPU is its cores in order, a core
its threads in order, and of a thread only the task queue is read here.
`find_emptiest_thread` scans one core for its least loaded thread, a current task counting
as one; `find_thread_to_add_to` takes each core's emptiest thread, returns at once one with
no task, and otherwise the least loaded of the candidates.  Both loops keep the first
thread of strictly least load, starting from `usize::MAX`.
`find_busiest_thread` keeps the first thread of strictly longest waiting queue, starting
from 0; `find_thread_to_steal_from` asks the caller's core first, then the other cores in
order.

The main results are `findThreadToAddTo_spec`: the thread returned is the first of least
load over all threads in (core, thread) order; and `findThreadToStealFrom_spec`: the thread
returned is the first of longest waiting queue on the first core, in that search order, with
a waiting task.
-/

namespace Ockernel

/-- a thread of a CPU core; its message queues, timer and flags are not read here -/
structure CPUThread where
  taskQueue : TaskQueue

/-- a core of a CPU; `num_tasks` is not read here -/
structure CPUCore where
  threads : List CPUThread

/-- describes a CPU and its layout of cores and threads -/
structure CPU where
  cores : List CPUCore

/-- the position of a thread in the CPU topology -/
structure ThreadID where
  core : Nat
  thread : Nat
deriving DecidableEq, Repr

/-- `usize::MAX` of a 32-bit target. -/
def usizeMax : Nat := 2 ^ 32 - 1

/-- The load `find_emptiest_thread` reads: the waiting tasks, plus one for a current task.
A `VecDeque` holds fewer than `isize::MAX` entries, so the sum does not wrap. -/
def CPUThread.numTasks (thread : CPUThread) : Nat :=
  thread.taskQueue.queue.length + if thread.taskQueue.current.isSome then 1 else 0

/-- The scan both loops run over `(key, count)` pairs: keep the first entry whose count is
strictly below the least seen so far. -/
def leastScan {α : Type} : List (α × Nat) → Option α → Nat → Option α × Nat
  | [], best, least => (best, least)
  | (a, n) :: rest, best, least =>
    if n < least then leastScan rest (some a) n else leastScan rest best least

/-- Each thread of a core with its load, numbered from 0. -/
def CPUCore.loads (core : CPUCore) : List (Nat × Nat) :=
  core.threads.enum.map fun (id, thread) => (id, thread.numTasks)

/-- finds the thread in this core with the least tasks waiting in its queue, with how many
tasks it has -/
def CPUCore.findEmptiestThread (core : CPUCore) : Option (Nat × Nat) :=
  let (threadId, numTasks) := leastScan core.loads none usizeMax
  threadId.map fun i => (i, numTasks)

/-- The first loop of `find_thread_to_add_to` over the numbered cores: a thread with no task
is returned at once (`inl`), otherwise each core's emptiest thread is pushed onto
`possible_threads` (`inr` at the end). -/
def possibleThreads :
    List (Nat × CPUCore) → List (ThreadID × Nat) → ThreadID ⊕ List (ThreadID × Nat)
  | [], possible => .inr possible
  | (coreId, core) :: rest, possible =>
    match core.findEmptiestThread with
    | some (threadNum, numTasks) =>
      let id : ThreadID := ⟨coreId, threadNum⟩
      if numTasks = 0 then .inl id else possibleThreads rest (possible ++ [(id, numTasks)])
    | none => possibleThreads rest possible

/-- searches through cores and threads in this CPU to find the one with the least amount of
tasks -/
def CPU.findThreadToAddTo (cpu : CPU) : Option ThreadID :=
  match possibleThreads cpu.cores.enum [] with
  | .inl id => some id
  | .inr possible => (leastScan possible none usizeMax).1

/-- The scan of `find_busiest_thread` over `(key, count)` pairs: keep the first entry whose
count is strictly above the greatest seen so far. -/
def greatestScan {α : Type} : List (α × Nat) → Option α → Nat → Option α × Nat
  | [], best, greatest => (best, greatest)
  | (a, n) :: rest, best, greatest =>
    if n > greatest then greatestScan rest (some a) n else greatestScan rest best greatest

/-- Each thread of a core with the length of its waiting queue, numbered from 0. -/
def CPUCore.queueLens (core : CPUCore) : List (Nat × Nat) :=
  core.threads.enum.map fun (id, thread) => (id, thread.taskQueue.len)

/-- finds the thread in this core with the most tasks waiting in its queue -/
def CPUCore.findBusiestThread (core : CPUCore) : Option Nat :=
  (greatestScan core.queueLens none 0).1

/-- The loop of `find_thread_to_steal_from` over the numbered cores, skipping the core
`skip` it searched first. -/
def stealLoop (skip : Nat) : List (Nat × CPUCore) → Option ThreadID
  | [] => none
  | (coreId, core) :: rest =>
    if coreId = skip then stealLoop skip rest
    else
      match core.findBusiestThread with
      | some threadId => some ⟨coreId, threadId⟩
      | none => stealLoop skip rest

/-- searches through threads in this CPU in hierarchical order to find a thread with at least
one extra task -/
def CPU.findThreadToStealFrom (cpu : CPU) (id : ThreadID) : Option ThreadID :=
  match cpu.cores[id.core]? with
  | none => none
  | some core =>
    match core.findBusiestThread with
    | some threadId => some ⟨id.core, threadId⟩
    | none => stealLoop id.core cpu.cores.enum

/-! ### The first entry of least count -/

/-- `a` with count `n` is the first entry of `l` of least count: every entry before it counts
more, every entry after it at least as much. -/
def FirstLeast {α : Type} (l : List (α × Nat)) (a : α) (n : Nat) : Prop :=
  ∃ l₁ l₂, l = l₁ ++ (a, n) :: l₂ ∧ (∀ p ∈ l₁, n < p.2) ∧ ∀ p ∈ l₂, n ≤ p.2

section FirstLeast

variable {α : Type} {l l' : List (α × Nat)} {a : α} {n : Nat}

theorem FirstLeast.mem (h : FirstLeast l a n) : (a, n) ∈ l := by
  obtain ⟨l₁, l₂, rfl, -, -⟩ := h
  simp

theorem FirstLeast.le (h : FirstLeast l a n) : ∀ p ∈ l, n ≤ p.2 := by
  obtain ⟨l₁, l₂, rfl, hbefore, hafter⟩ := h
  intro p hp
  simp only [List.mem_append, List.mem_cons] at hp
  rcases hp with hp | rfl | hp
  · exact Nat.le_of_lt (hbefore p hp)
  · exact Nat.le_refl _
  · exact hafter p hp

theorem FirstLeast.ne_nil (h : FirstLeast l a n) : l ≠ [] := by
  obtain ⟨l₁, l₂, rfl, -, -⟩ := h
  simp

theorem FirstLeast.append_left (h : FirstLeast l a n) (h' : ∀ p ∈ l', n ≤ p.2) :
    FirstLeast (l ++ l') a n := by
  obtain ⟨l₁, l₂, rfl, hbefore, hafter⟩ := h
  refine ⟨l₁, l₂ ++ l', by simp, hbefore, fun p hp => ?_⟩
  rcases List.mem_append.mp hp with hp | hp
  · exact hafter p hp
  · exact h' p hp

theorem FirstLeast.append_right (h : ∀ p ∈ l, n < p.2) (h' : FirstLeast l' a n) :
    FirstLeast (l ++ l') a n := by
  obtain ⟨l₁, l₂, rfl, hbefore, hafter⟩ := h'
  refine ⟨l ++ l₁, l₂, by simp, fun p hp => ?_, hafter⟩
  rcases List.mem_append.mp hp with hp | hp
  · exact h p hp
  · exact hbefore p hp

theorem FirstLeast.cons (h : FirstLeast l a n) {b : α} {m : Nat} (hlt : n < m) :
    FirstLeast ((b, m) :: l) a n :=
  @FirstLeast.append_right α [(b, m)] l a n (by simpa using hlt) h

theorem FirstLeast.map {β : Type} (f : α → β) (h : FirstLeast l a n) :
    FirstLeast (l.map fun p => (f p.1, p.2)) (f a) n := by
  obtain ⟨l₁, l₂, rfl, hbefore, hafter⟩ := h
  refine ⟨l₁.map fun p => (f p.1, p.2), l₂.map fun p => (f p.1, p.2), by simp, ?_, ?_⟩
  · intro p hp
    obtain ⟨q, hq, rfl⟩ := List.mem_map.mp hp
    exact hbefore q hq
  · intro p hp
    obtain ⟨q, hq, rfl⟩ := List.mem_map.mp hp
    exact hafter q hq

theorem FirstLeast.unique {b : α} {m : Nat} (h : FirstLeast l a n) (h' : FirstLeast l b m) :
    a = b ∧ n = m := by
  have hnm : n = m := Nat.le_antisymm (h.le _ h'.mem) (h'.le _ h.mem)
  subst hnm
  obtain ⟨l₁, l₂, rfl, hbefore, -⟩ := h
  obtain ⟨l₁', l₂', heq, hbefore', -⟩ := h'
  rcases List.append_eq_append_iff.mp heq with ⟨c, rfl, hc⟩ | ⟨c, rfl, hc⟩
  · cases c with
    | nil => simp_all
    | cons p c =>
      simp only [List.cons_append, List.cons.injEq] at hc
      exact absurd (hbefore' (a, n) (by simp [hc.1])) (Nat.lt_irrefl _)
  · cases c with
    | nil => simp_all
    | cons p c =>
      simp only [List.cons_append, List.cons.injEq] at hc
      exact absurd (hbefore (b, n) (by simp [hc.1])) (Nat.lt_irrefl _)

end FirstLeast

/-! ### The scan -/

theorem leastScan_append {α : Type} (l l' : List (α × Nat)) (best : Option α) (least : Nat) :
    leastScan (l ++ l') best least =
      leastScan l' (leastScan l best least).1 (leastScan l best least).2 := by
  induction l generalizing best least with
  | nil => rfl
  | cons p l ih =>
    obtain ⟨a, n⟩ := p
    simp only [List.cons_append, leastScan]
    split_ifs <;> exact ih _ _

theorem leastScan_spec {α : Type} (l : List (α × Nat)) (best : Option α) (least : Nat) :
    ((∀ p ∈ l, least ≤ p.2) ∧ leastScan l best least = (best, least)) ∨
      ∃ a n, leastScan l best least = (some a, n) ∧ n < least ∧ FirstLeast l a n := by
  induction l generalizing best least with
  | nil => exact .inl ⟨by simp, rfl⟩
  | cons p l ih =>
    obtain ⟨b, m⟩ := p
    simp only [leastScan]
    split_ifs with hlt
    · refine .inr ?_
      rcases ih (some b) m with ⟨hle, hscan⟩ | ⟨a, n, hscan, hn, hfirst⟩
      · exact ⟨b, m, hscan, hlt, [], l, rfl, by simp, hle⟩
      · exact ⟨a, n, hscan, by omega, hfirst.cons hn⟩
    · rcases ih best least with ⟨hle, hscan⟩ | ⟨a, n, hscan, hn, hfirst⟩
      · exact .inl ⟨by simp only [List.mem_cons, forall_eq_or_imp]; exact ⟨by omega, hle⟩, hscan⟩
      · exact .inr ⟨a, n, hscan, hn, hfirst.cons (by omega)⟩

theorem leastScan_none {α : Type} {l : List (α × Nat)} {bound : Nat}
    (hbound : ∀ p ∈ l, p.2 < bound) :
    (l = [] ∧ leastScan l none bound = (none, bound)) ∨
      ∃ a n, leastScan l none bound = (some a, n) ∧ FirstLeast l a n := by
  rcases leastScan_spec l none bound with ⟨hle, hscan⟩ | ⟨a, n, hscan, -, hfirst⟩
  · refine .inl ⟨List.eq_nil_iff_forall_not_mem.mpr fun p hp => ?_, hscan⟩
    exact absurd (hbound p hp) (Nat.not_lt.mpr (hle p hp))
  · exact .inr ⟨a, n, hscan, hfirst⟩

/-! ### `find_emptiest_thread` -/

theorem findEmptiestThread_spec (core : CPUCore) (hload : ∀ p ∈ core.loads, p.2 < usizeMax) :
    (core.findEmptiestThread = none ∧ core.loads = []) ∨
      ∃ i n, core.findEmptiestThread = some (i, n) ∧ FirstLeast core.loads i n := by
  simp only [CPUCore.findEmptiestThread]
  rcases leastScan_none hload with ⟨hnil, hscan⟩ | ⟨a, n, hscan, hfirst⟩
  · exact .inl ⟨by rw [hscan]; rfl, hnil⟩
  · exact .inr ⟨a, n, by rw [hscan]; rfl, hfirst⟩

/-! ### `find_thread_to_add_to` -/

/-- Every thread of the numbered cores `cores`, in (core, thread) order, with its load. -/
def coreLoads (cores : List (Nat × CPUCore)) : List (ThreadID × Nat) :=
  cores.flatMap fun (coreId, core) => core.loads.map fun p => (⟨coreId, p.1⟩, p.2)

/-- Every thread of the CPU, in (core, thread) order, with its load. -/
def CPU.loads (cpu : CPU) : List (ThreadID × Nat) := coreLoads cpu.cores.enum

theorem CPU.loads_eq_nil_iff (cpu : CPU) : cpu.loads = [] ↔ ∀ core ∈ cpu.cores, core.threads = [] := by
  simp only [CPU.loads, coreLoads, List.flatMap_eq_nil_iff, List.map_eq_nil_iff, CPUCore.loads,
    List.enum_eq_nil]
  constructor
  · intro h core hcore
    obtain ⟨i, hi, rfl⟩ := List.getElem_of_mem hcore
    exact h (i, cpu.cores[i]) (List.mem_enum_iff_getElem?.mpr (List.getElem?_eq_getElem hi))
  · rintro h ⟨i, core⟩ hmem
    exact h core (List.snd_mem_of_mem_enum hmem)

/-- What the scan over `possible_threads` knows of the threads `seen` so far: nothing was
seen, or it holds the first of least load among them, and that load is not zero. -/
def SeenLeast (seen : List (ThreadID × Nat)) : Option ThreadID × Nat → Prop
  | (best, least) => (seen = [] ∧ best = none ∧ least = usizeMax) ∨
      ∃ a, best = some a ∧ FirstLeast seen a least ∧ 0 < least

theorem SeenLeast.pos {seen : List (ThreadID × Nat)} {s : Option ThreadID × Nat}
    (h : SeenLeast seen s) : ∀ p ∈ seen, 0 < p.2 := by
  obtain ⟨best, least⟩ := s
  rcases h with ⟨rfl, -, -⟩ | ⟨a, -, hfirst, hpos⟩
  · simp
  · exact fun p hp => Nat.lt_of_lt_of_le hpos (hfirst.le p hp)

theorem SeenLeast.push {seen core : List (ThreadID × Nat)} {s : Option ThreadID × Nat}
    (h : SeenLeast seen s) {id : ThreadID} {m : Nat} (hfirst : FirstLeast core id m)
    (hm : m ≠ 0) (hbound : m < usizeMax) :
    SeenLeast (seen ++ core) (leastScan [(id, m)] s.1 s.2) := by
  obtain ⟨best, least⟩ := s
  simp only [leastScan]
  split_ifs with hlt
  · have hbelow : ∀ p ∈ seen, m < p.2 := by
      rcases h with ⟨rfl, -, -⟩ | ⟨a, -, hseen, -⟩
      · simp
      · exact fun p hp => Nat.lt_of_lt_of_le hlt (hseen.le p hp)
    exact .inr ⟨id, rfl, FirstLeast.append_right hbelow hfirst, Nat.pos_of_ne_zero hm⟩
  · rcases h with ⟨-, -, rfl⟩ | ⟨a, rfl, hseen, hpos⟩
    · exact absurd hbound hlt
    · exact .inr ⟨a, rfl, hseen.append_left fun p hp => by
        have := hfirst.le p hp
        omega, hpos⟩

/-- The loop over the cores: an early return of a zero load, or a scan that saw every thread. -/
theorem possibleThreads_spec (cores : List (Nat × CPUCore)) (possible seen : List (ThreadID × Nat))
    (hseen : SeenLeast seen (leastScan possible none usizeMax))
    (hload : ∀ p ∈ coreLoads cores, p.2 < usizeMax) :
    match possibleThreads cores possible with
    | .inl id => FirstLeast (seen ++ coreLoads cores) id 0
    | .inr possible => SeenLeast (seen ++ coreLoads cores) (leastScan possible none usizeMax) := by
  induction cores generalizing possible seen with
  | nil => simpa [possibleThreads, coreLoads] using hseen
  | cons c cores ih =>
    obtain ⟨coreId, core⟩ := c
    have hsplit : coreLoads ((coreId, core) :: cores) =
        core.loads.map (fun p => (⟨coreId, p.1⟩, p.2)) ++ coreLoads cores := rfl
    rw [hsplit] at hload ⊢
    have hcore : ∀ p ∈ core.loads, p.2 < usizeMax := fun p hp =>
      hload _ (List.mem_append_left _ (List.mem_map_of_mem _ hp))
    have hrest : ∀ p ∈ coreLoads cores, p.2 < usizeMax := fun p hp =>
      hload _ (List.mem_append_right _ hp)
    rcases findEmptiestThread_spec core hcore with ⟨hnone, hnil⟩ | ⟨i, m, hsome, hfirst⟩
    · simpa [possibleThreads, hnone, hnil] using ih possible seen hseen hrest
    · have hfirst' := hfirst.map fun t => (⟨coreId, t⟩ : ThreadID)
      simp only [possibleThreads, hsome]
      split_ifs with hzero
      · subst hzero
        exact FirstLeast.append_right (fun p hp => hseen.pos p hp)
          (hfirst'.append_left fun _ _ => Nat.zero_le _)
      · have hnext := ih (possible ++ [(⟨coreId, i⟩, m)]) (seen ++ _)
          (by
            rw [leastScan_append]
            exact hseen.push hfirst' hzero (hcore _ hfirst.mem))
          hrest
        simpa only [List.append_assoc] using hnext

/-- `find_thread_to_add_to` returns nothing exactly for a CPU without threads, and otherwise
the first thread of least load in (core, thread) order, when every load is below
`usize::MAX`. -/
theorem findThreadToAddTo_spec (cpu : CPU) (hload : ∀ p ∈ cpu.loads, p.2 < usizeMax) :
    (cpu.findThreadToAddTo = none ↔ ∀ core ∈ cpu.cores, core.threads = []) ∧
      ∀ id, cpu.findThreadToAddTo = some id → ∃ n, FirstLeast cpu.loads id n := by
  rw [← CPU.loads_eq_nil_iff]
  have hrun := possibleThreads_spec cpu.cores.enum [] [] (.inl ⟨rfl, rfl, rfl⟩) hload
  simp only [CPU.findThreadToAddTo, CPU.loads]
  split at hrun
  · rename_i id hfound
    simp only [hfound, List.nil_append] at hrun ⊢
    exact ⟨by simpa using hrun.ne_nil, fun _ hid => ⟨0, Option.some.inj hid ▸ hrun⟩⟩
  · rename_i possible hfound
    simp only [hfound, List.nil_append] at hrun ⊢
    rcases hscan : leastScan possible none usizeMax with ⟨best, least⟩
    rw [hscan] at hrun
    rcases hrun with ⟨hnil, rfl, -⟩ | ⟨a, rfl, hfirst, -⟩
    · exact ⟨by simp [hnil], fun _ hid => by cases hid⟩
    · exact ⟨by simpa using hfirst.ne_nil, fun _ hid => ⟨least, Option.some.inj hid ▸ hfirst⟩⟩

/-- Two cores of two threads each, loaded 2, 1 and 1, 3; the second thread of core 0 has no
waiting task but a current one. -/
def cpuSample : CPU :=
  let entry (process : Nat) : TaskQueueEntry := ⟨⟨process, 0⟩, 0⟩
  ⟨[⟨[⟨⟨none, [entry 1, entry 2]⟩⟩, ⟨⟨some (entry 3), []⟩⟩]⟩,
    ⟨[⟨⟨none, [entry 4]⟩⟩, ⟨⟨none, [entry 5, entry 6, entry 7]⟩⟩]⟩]⟩

theorem findThreadToAddTo_spec_cpuSample :
    (∀ p ∈ cpuSample.loads, p.2 < usizeMax) ∧
      (cpuSample.findThreadToAddTo = none ↔ ∀ core ∈ cpuSample.cores, core.threads = []) ∧
      ∀ id, cpuSample.findThreadToAddTo = some id → ∃ n, FirstLeast cpuSample.loads id n :=
  have hload : ∀ p ∈ cpuSample.loads, p.2 < usizeMax := by decide
  ⟨hload, findThreadToAddTo_spec _ hload⟩

example : cpuSample.findThreadToAddTo = some ⟨0, 1⟩ := rfl

/-! ### `find_thread_to_steal_from` -/

/-- `a` with count `n` is the first entry of `l` of greatest count: every entry before it
counts less, every entry after it at most as much. -/
def FirstGreatest {α : Type} (l : List (α × Nat)) (a : α) (n : Nat) : Prop :=
  ∃ l₁ l₂, l = l₁ ++ (a, n) :: l₂ ∧ (∀ p ∈ l₁, p.2 < n) ∧ ∀ p ∈ l₂, p.2 ≤ n

section FirstGreatest

variable {α : Type} {l : List (α × Nat)} {a : α} {n : Nat}

theorem FirstGreatest.mem (h : FirstGreatest l a n) : (a, n) ∈ l := by
  obtain ⟨l₁, l₂, rfl, -, -⟩ := h
  simp

theorem FirstGreatest.cons (h : FirstGreatest l a n) {b : α} {m : Nat} (hlt : m < n) :
    FirstGreatest ((b, m) :: l) a n := by
  obtain ⟨l₁, l₂, rfl, hbefore, hafter⟩ := h
  refine ⟨(b, m) :: l₁, l₂, rfl, ?_, hafter⟩
  simpa only [List.mem_cons, forall_eq_or_imp] using ⟨hlt, hbefore⟩

end FirstGreatest

theorem greatestScan_spec {α : Type} (l : List (α × Nat)) (best : Option α) (greatest : Nat) :
    ((∀ p ∈ l, p.2 ≤ greatest) ∧ greatestScan l best greatest = (best, greatest)) ∨
      ∃ a n, greatestScan l best greatest = (some a, n) ∧ greatest < n ∧
        FirstGreatest l a n := by
  induction l generalizing best greatest with
  | nil => exact .inl ⟨by simp, rfl⟩
  | cons p l ih =>
    obtain ⟨b, m⟩ := p
    simp only [greatestScan]
    split_ifs with hgt
    · refine .inr ?_
      rcases ih (some b) m with ⟨hle, hscan⟩ | ⟨a, n, hscan, hn, hfirst⟩
      · exact ⟨b, m, hscan, hgt, [], l, rfl, by simp, hle⟩
      · exact ⟨a, n, hscan, by omega, hfirst.cons hn⟩
    · rcases ih best greatest with ⟨hle, hscan⟩ | ⟨a, n, hscan, hn, hfirst⟩
      · exact .inl ⟨by simp only [List.mem_cons, forall_eq_or_imp]; exact ⟨by omega, hle⟩, hscan⟩
      · exact .inr ⟨a, n, hscan, hn, hfirst.cons (by omega)⟩

/-- Some thread of `core` has a task waiting in its queue. -/
def CPUCore.HasWaiting (core : CPUCore) : Prop :=
  ∃ thread ∈ core.threads, 0 < thread.taskQueue.len

theorem CPUCore.hasWaiting_iff (core : CPUCore) :
    core.HasWaiting ↔ ∃ p ∈ core.queueLens, 0 < p.2 := by
  simp only [CPUCore.HasWaiting, CPUCore.queueLens, List.mem_map]
  constructor
  · rintro ⟨thread, hmem, hpos⟩
    obtain ⟨i, hi, rfl⟩ := List.getElem_of_mem hmem
    exact ⟨_, ⟨(i, core.threads[i]),
      List.mem_enum_iff_getElem?.mpr (List.getElem?_eq_getElem hi), rfl⟩, hpos⟩
  · rintro ⟨_, ⟨⟨i, thread⟩, hmem, rfl⟩, hpos⟩
    exact ⟨thread, List.snd_mem_of_mem_enum hmem, hpos⟩

theorem findBusiestThread_spec (core : CPUCore) :
    (core.findBusiestThread = none ↔ ¬core.HasWaiting) ∧
      ∀ i, core.findBusiestThread = some i → ∃ n, 0 < n ∧ FirstGreatest core.queueLens i n := by
  rw [CPUCore.hasWaiting_iff, CPUCore.findBusiestThread]
  rcases greatestScan_spec core.queueLens none 0 with ⟨hle, hscan⟩ | ⟨a, n, hscan, hpos, hfirst⟩
  · rw [hscan]
    refine ⟨iff_of_true rfl fun ⟨p, hp, hpos⟩ => ?_, fun _ h => by cases h⟩
    have := hle p hp
    omega
  · rw [hscan]
    exact ⟨iff_of_false (by simp) (not_not.mpr ⟨_, hfirst.mem, hpos⟩),
      fun i h => ⟨n, hpos, Option.some.inj h ▸ hfirst⟩⟩

theorem CPUCore.hasWaiting_of_findBusiestThread {core : CPUCore} {i : Nat}
    (h : core.findBusiestThread = some i) : core.HasWaiting :=
  not_not.mp fun hidle => by simp [(findBusiestThread_spec core).1.mpr hidle] at h

theorem CPUCore.not_hasWaiting_iff (core : CPUCore) :
    ¬core.HasWaiting ↔ ∀ thread ∈ core.threads, thread.taskQueue.len = 0 := by
  simp [CPUCore.HasWaiting]

theorem stealLoop_eq_none_iff (skip : Nat) (cores : List (Nat × CPUCore)) :
    stealLoop skip cores = none ↔ ∀ p ∈ cores, p.1 ≠ skip → ¬p.2.HasWaiting := by
  induction cores with
  | nil => simp [stealLoop]
  | cons p cores ih =>
    obtain ⟨coreId, core⟩ := p
    simp only [stealLoop, List.forall_mem_cons]
    split_ifs with hskip
    · simpa [hskip] using ih
    · rcases hbusy : core.findBusiestThread with _ | threadId
      · simpa [(findBusiestThread_spec core).1.mp hbusy] using ih
      · simp [hskip, CPUCore.hasWaiting_of_findBusiestThread hbusy]

theorem stealLoop_some {skip k : Nat} {cores : List CPUCore} {found : ThreadID}
    (h : stealLoop skip (cores.enumFrom k) = some found) :
    ∃ core, (found.core, core) ∈ cores.enumFrom k ∧ found.core ≠ skip ∧
      core.findBusiestThread = some found.thread ∧
      ∀ p ∈ cores.enumFrom k, p.1 < found.core → p.1 ≠ skip → ¬p.2.HasWaiting := by
  induction cores generalizing k with
  | nil => cases h
  | cons core cores ih =>
    simp only [List.enumFrom_cons, stealLoop] at h
    simp only [List.enumFrom_cons, List.mem_cons, forall_eq_or_imp]
    split_ifs at h with hskip
    · obtain ⟨c, hmem, hne, hbusy, hbefore⟩ := ih h
      exact ⟨c, .inr hmem, hne, hbusy, fun _ hne' => absurd hskip hne', hbefore⟩
    · rcases hbusy : core.findBusiestThread with _ | threadId <;> rw [hbusy] at h
      · obtain ⟨c, hmem, hne, hb, hbefore⟩ := ih h
        exact ⟨c, .inr hmem, hne, hb,
          fun _ _ => (findBusiestThread_spec core).1.mp hbusy, hbefore⟩
      · cases h
        refine ⟨core, .inl rfl, hskip, hbusy, fun hlt => absurd hlt (Nat.lt_irrefl _),
          fun p hp hlt => ?_⟩
        have := (List.mem_enumFrom hp).1
        dsimp only at hlt
        omega

/-- Some thread of core `c` of the CPU has a task waiting in its queue. -/
def CPU.CoreWaiting (cpu : CPU) (c : Nat) : Prop :=
  ∃ core, cpu.cores[c]? = some core ∧ core.HasWaiting

/-- `find_thread_to_steal_from`, called for a thread of an existing core, returns nothing
exactly when no thread has a waiting task; otherwise it returns the first thread of longest
waiting queue of a core with a waiting task: the caller's core when it has one, else the
lowest-numbered other core that has one. -/
theorem findThreadToStealFrom_spec (cpu : CPU) (id : ThreadID)
    (hcore : id.core < cpu.cores.length) :
    (cpu.findThreadToStealFrom id = none ↔
      ∀ core ∈ cpu.cores, ∀ thread ∈ core.threads, thread.taskQueue.len = 0) ∧
    ∀ found, cpu.findThreadToStealFrom id = some found →
      (∃ core, cpu.cores[found.core]? = some core ∧
        ∃ n, 0 < n ∧ FirstGreatest core.queueLens found.thread n) ∧
      (cpu.CoreWaiting id.core → found.core = id.core) ∧
      (¬cpu.CoreWaiting id.core →
        found.core ≠ id.core ∧ ∀ c < found.core, c ≠ id.core → ¬cpu.CoreWaiting c) := by
  have hown : cpu.cores[id.core]? = some cpu.cores[id.core] := List.getElem?_eq_getElem hcore
  have hidle : (∀ core ∈ cpu.cores, ∀ thread ∈ core.threads, thread.taskQueue.len = 0) ↔
      ∀ p ∈ cpu.cores.enum, ¬p.2.HasWaiting := by
    simp only [CPUCore.not_hasWaiting_iff, List.forall_mem_enum]
    exact List.forall_mem_iff_getElem
  rw [CPU.findThreadToStealFrom, hown]
  dsimp only
  rcases hbusy : cpu.cores[id.core].findBusiestThread with _ | threadId
  · -- the caller's core has no waiting task: the loop over the other cores decides
    have hownIdle := (findBusiestThread_spec _).1.mp hbusy
    have hnotOwn : ¬cpu.CoreWaiting id.core := fun ⟨core, hc, hw⟩ =>
      hownIdle (Option.some.inj (hown.symm.trans hc) ▸ hw)
    rcases hloop : stealLoop id.core cpu.cores.enum with _ | found
    · refine ⟨iff_of_true rfl (hidle.mpr fun p hp => ?_), fun _ h => by cases h⟩
      by_cases hp1 : p.1 = id.core
      · have hp2 := List.mem_enum_iff_getElem?.mp hp
        rw [hp1, hown] at hp2
        exact Option.some.inj hp2 ▸ hownIdle
      · exact (stealLoop_eq_none_iff _ _).mp hloop p hp hp1
    · obtain ⟨core, hmem, hne, hb, hbefore⟩ := stealLoop_some hloop
      refine ⟨iff_of_false (by simp) fun hall =>
        hidle.mp hall _ hmem (CPUCore.hasWaiting_of_findBusiestThread hb), fun f h => ?_⟩
      obtain rfl := Option.some.inj h
      exact ⟨⟨core, List.mem_enum_iff_getElem?.mp hmem, (findBusiestThread_spec core).2 _ hb⟩,
        fun h => absurd h hnotOwn, fun _ => ⟨hne, fun c hc hcid ⟨core', hc', hw'⟩ =>
          hbefore (c, core') (List.mem_enum_iff_getElem?.mpr hc') hc hcid hw'⟩⟩
  · -- the caller's core has a waiting task: its busiest thread is returned
    have hownWait := CPUCore.hasWaiting_of_findBusiestThread hbusy
    refine ⟨iff_of_false (by simp) fun hall =>
      hidle.mp hall (id.core, _) (List.mem_enum_iff_getElem?.mpr hown) hownWait, fun f h => ?_⟩
    obtain rfl := Option.some.inj h
    exact ⟨⟨_, hown, (findBusiestThread_spec _).2 _ hbusy⟩, fun _ => rfl,
      fun h => absurd ⟨_, hown, hownWait⟩ h⟩

/-- Three cores: core 0 has a current task but none waiting, core 1 one idle thread, and core 2
waiting queues of lengths 1, 2 and 2. -/
def stealSample : CPU :=
  let entry (process : Nat) : TaskQueueEntry := ⟨⟨process, 0⟩, 0⟩
  ⟨[⟨[⟨⟨none, []⟩⟩, ⟨⟨some (entry 1), []⟩⟩]⟩, ⟨[⟨⟨none, []⟩⟩]⟩,
    ⟨[⟨⟨none, [entry 2]⟩⟩, ⟨⟨none, [entry 3, entry 4]⟩⟩, ⟨⟨none, [entry 5, entry 6]⟩⟩]⟩]⟩

theorem findThreadToStealFrom_spec_stealSample :
    (⟨1, 0⟩ : ThreadID).core < stealSample.cores.length ∧
    (stealSample.findThreadToStealFrom ⟨1, 0⟩ = none ↔
      ∀ core ∈ stealSample.cores, ∀ thread ∈ core.threads, thread.taskQueue.len = 0) ∧
    ∀ found, stealSample.findThreadToStealFrom ⟨1, 0⟩ = some found →
      (∃ core, stealSample.cores[found.core]? = some core ∧
        ∃ n, 0 < n ∧ FirstGreatest core.queueLens found.thread n) ∧
      (stealSample.CoreWaiting (⟨1, 0⟩ : ThreadID).core → found.core = (⟨1, 0⟩ : ThreadID).core) ∧
      (¬stealSample.CoreWaiting (⟨1, 0⟩ : ThreadID).core →
        found.core ≠ (⟨1, 0⟩ : ThreadID).core ∧
          ∀ c < found.core, c ≠ (⟨1, 0⟩ : ThreadID).core → ¬stealSample.CoreWaiting c) :=
  ⟨by decide, findThreadToStealFrom_spec stealSample ⟨1, 0⟩ (by decide)⟩

example : stealSample.findThreadToStealFrom ⟨1, 0⟩ = some ⟨2, 1⟩ := rfl

end Ockernel
