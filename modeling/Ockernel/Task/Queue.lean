import Ockernel.Types
import Mathlib.Data.List.InsertIdx
import Mathlib.Data.List.Nodup

/-!
The per-CPU task queue of `task/queue.rs`: a current entry and a `VecDeque` of waiting
entries kept in non-increasing priority order.  The outcome of `try_reserve` is an input
of `insert`.  To speak of insertion order, a run is replayed on waiting entries stamped
with the index of the `insert` that queued them; the stamps are erased to the code's queue.
`remove_process` is characterised by the original positions its shifting indices hit.
-/

namespace Ockernel

/-- Modelled from the spec: `task::ProcessID` is declared outside `src/`; the queue compares
whole ids and reads their `process` field. -/
structure ProcessID where
  process : Nat
  thread : Nat
deriving DecidableEq, Repr

/-- an entry in a task queue -/
structure TaskQueueEntry where
  id : ProcessID
  priority : Nat
deriving DecidableEq, Repr

/-- gets the full priority index of this task queue entry -/
def TaskQueueEntry.fullPriority (entry : TaskQueueEntry) : Nat := entry.priority

namespace TaskQueueEntry

/-! ### The packed priority byte

The `priority` byte holds two nibbles, each a value of `-7 ..= 8` biased by 7: the priority
above and the sub priority below.  The values are `i8`: their biased sums wrap, and `as u8`
keeps their bits. -/

/-- `(value + 7) as u8` of an `i8` value -/
def biased (value : Int) : Nat := ((value + 7) % 256).toNat

/-- creates a new task queue entry for the given process with the given priority -/
def new (id : ProcessID) (priority : Int) : TaskQueueEntry :=
  ⟨id, (biased priority <<< 4) % 256 ||| 7⟩

/-- gets the priority of this task queue entry (`priority()`; the field holding the byte has
the method's name) -/
def priority' (entry : TaskQueueEntry) : Int := ((entry.priority >>> 4 : Nat) : Int) - 7

/-- sets the priority of this task queue entry -/
def setPriority (entry : TaskQueueEntry) (priority : Int) : TaskQueueEntry :=
  { entry with priority := entry.priority &&& 0x0f ||| (biased priority <<< 4) % 256 }

/-- gets the sub-priority of this task queue entry -/
def subPriority (entry : TaskQueueEntry) : Int := ((entry.priority &&& 0xf : Nat) : Int) - 7

/-- sets the sub-priority of this task queue entry -/
def setSubPriority (entry : TaskQueueEntry) (subPriority : Int) : TaskQueueEntry :=
  { entry with priority := entry.priority &&& 0xf0 ||| biased subPriority }

theorem land_low (x : Nat) : x &&& 0xf = x % 16 := Nat.and_pow_two_sub_one_eq_mod x 4

theorem priority'_eq (entry : TaskQueueEntry) :
    entry.priority' = ((entry.priority / 16 : Nat) : Int) - 7 := by
  rw [priority', Nat.shiftRight_eq_div_pow]

theorem subPriority_eq (entry : TaskQueueEntry) :
    entry.subPriority = ((entry.priority % 16 : Nat) : Int) - 7 := by
  rw [subPriority, land_low]

end TaskQueueEntry

/-- a per-CPU task queue; its `timer` is not read by the modelled methods -/
structure TaskQueue where
  current : Option TaskQueueEntry
  queue : List TaskQueueEntry
deriving DecidableEq, Repr

namespace TaskQueue

def new : TaskQueue := ⟨none, []⟩

/-- gets the first task in the queue -/
def consume (q : TaskQueue) : Option TaskQueueEntry × TaskQueue :=
  match q.queue with
  | [] => (none, { q with current := none })
  | entry :: rest => (some entry, { current := some entry, queue := rest })

/-- gets how many tasks are in this queue -/
def len (q : TaskQueue) : Nat := q.queue.length

end TaskQueue

/-- The `for` loop of `insert`: `Exists` on a waiting entry with the same id, otherwise the
index of the first waiting entry of strictly lower full priority, if any. -/
def insertPosition (entry : TaskQueueEntry) :
    List TaskQueueEntry → Nat → Option Nat → Except Errno (Option Nat)
  | [], _, position => .ok position
  | item :: rest, idx, position =>
    if item.id = entry.id then .error .exists
    else if position.isNone ∧ entry.fullPriority > item.fullPriority then
      insertPosition entry rest (idx + 1) (some idx)
    else insertPosition entry rest (idx + 1) position

/-- `VecDeque::insert` at the found index, or `push_back` when there is none. -/
def placeAt {α : Type} (position : Option Nat) (queue : List α) (a : α) : List α :=
  match position with
  | some index => queue.insertIdx index a
  | none => queue ++ [a]

/-- The indices `remove_process` collects: those of the entries of process `id`. -/
def processIndices (id : Nat) (queue : List TaskQueueEntry) : List Nat :=
  (queue.enum.filter fun (_, entry) => entry.id.process = id).map (·.1)

namespace TaskQueue

/-- inserts a task into the queue; `reserved` is whether `try_reserve(1)` succeeds -/
def insert (q : TaskQueue) (reserved : Bool) (entry : TaskQueueEntry) :
    Except Errno Unit × TaskQueue :=
  if !reserved then (.error .outOfMemory, q)
  else
    match insertPosition entry q.queue 0 none with
    | .error err => (.error err, q)
    | .ok position => (.ok (), { q with queue := placeAt position q.queue entry })

/-- given a fully qualified process id, remove the thread corresponding to it from the queue -/
def removeThread (q : TaskQueue) (id : ProcessID) : TaskQueue :=
  match q.queue.findIdx? (fun e => e.id = id) with
  | some index => { q with queue := q.queue.eraseIdx index }
  | none => q

/-- given a process id, remove the entries at the collected indices one after another,
each index taken in the queue as the earlier removals left it -/
def removeProcess (q : TaskQueue) (id : Nat) : TaskQueue :=
  { q with queue := (processIndices id q.queue).foldl List.eraseIdx q.queue }

end TaskQueue

/-- A queue operation, with what it depends on outside the queue: whether `try_reserve`
succeeds for an `insert`. -/
inductive QueueOp where
  | insert (reserved : Bool) (entry : TaskQueueEntry)
  | consume
  | removeThread (id : ProcessID)
  | removeProcess (id : Nat)

namespace TaskQueue

def step (q : TaskQueue) : QueueOp → TaskQueue
  | .insert reserved entry => (q.insert reserved entry).2
  | .consume => q.consume.2
  | .removeThread id => q.removeThread id
  | .removeProcess id => q.removeProcess id

/-- The queue `TaskQueue::new()` and a sequence of operations leave. -/
def run (ops : List QueueOp) : TaskQueue := ops.foldl step new

end TaskQueue

/-! ### The insertion scan -/

theorem insertPosition_some {α : Type} (f : α → TaskQueueEntry) (entry : TaskQueueEntry)
    (l : List α) (idx p : Nat) {r : Option Nat}
    (h : insertPosition entry (l.map f) idx (some p) = .ok r) :
    r = some p ∧ ∀ x ∈ l, (f x).id ≠ entry.id := by
  induction l generalizing idx with
  | nil =>
    cases h
    simp
  | cons x rest ih =>
    simp only [List.map_cons, insertPosition, Option.isNone_some, Bool.false_eq_true, false_and,
      if_false] at h
    split_ifs at h with hid
    obtain ⟨rfl, hrest⟩ := ih (idx + 1) h
    exact ⟨rfl, by simpa [hid] using hrest⟩

theorem insertPosition_error_iff (entry : TaskQueueEntry) (l : List TaskQueueEntry)
    (idx : Nat) (position : Option Nat) :
    (∃ err, insertPosition entry l idx position = .error err) ↔ ∃ x ∈ l, x.id = entry.id := by
  induction l generalizing idx position with
  | nil => simp [insertPosition]
  | cons x rest ih =>
    simp only [insertPosition, List.mem_cons]
    split_ifs with hid
    · simp [hid]
    · rw [ih]
      simp [hid]
    · rw [ih]
      simp [hid]

theorem insertPosition_error {entry : TaskQueueEntry} {l : List TaskQueueEntry}
    {idx : Nat} {position : Option Nat} {err : Errno}
    (h : insertPosition entry l idx position = .error err) : err = .exists := by
  induction l generalizing idx position with
  | nil => cases h
  | cons x rest ih =>
    simp only [insertPosition] at h
    split_ifs at h
    · cases h
      rfl
    · exact ih h
    · exact ih h

theorem insertPosition_split {α : Type} (f : α → TaskQueueEntry) (entry : TaskQueueEntry)
    (l : List α) (idx : Nat) {position : Option Nat}
    (h : insertPosition entry (l.map f) idx none = .ok position) :
    (∀ x ∈ l, (f x).id ≠ entry.id) ∧ ∃ l₁ l₂, l = l₁ ++ l₂ ∧
      (∀ x ∈ l₁, entry.fullPriority ≤ (f x).fullPriority) ∧
      (∀ x ∈ l₂.head?, (f x).fullPriority < entry.fullPriority) ∧
      ((position = none ∧ l₂ = []) ∨ position = some (idx + l₁.length)) := by
  induction l generalizing idx with
  | nil =>
    cases h
    exact ⟨by simp, [], [], rfl, by simp, by simp, .inl ⟨rfl, rfl⟩⟩
  | cons x rest ih =>
    simp only [List.map_cons, insertPosition, Option.isNone_none, true_and] at h
    split_ifs at h with hid hlt
    · obtain ⟨rfl, hrest⟩ := insertPosition_some f entry rest (idx + 1) idx h
      refine ⟨?_, [], x :: rest, rfl, by simp, by simpa using hlt, .inr (by simp)⟩
      simpa [hid] using hrest
    · obtain ⟨hrest, l₁, l₂, rfl, hle, hhead, hpos⟩ := ih (idx + 1) h
      refine ⟨by simpa [hid] using hrest, x :: l₁, l₂, rfl, ?_, hhead, ?_⟩
      · simp only [List.mem_cons, forall_eq_or_imp]
        exact ⟨by omega, hle⟩
      · rcases hpos with hnone | hsome
        · exact .inl hnone
        · exact .inr (by simp only [hsome, List.length_cons]; congr 1; omega)

/-! ### List facts the simulation needs -/

theorem insertIdx_length_append {α : Type} (l₁ l₂ : List α) (a : α) :
    (l₁ ++ l₂).insertIdx l₁.length a = l₁ ++ a :: l₂ := by
  induction l₁ with
  | nil => simp [List.insertIdx_zero]
  | cons x rest ih => simp [List.insertIdx_succ_cons, ih]

theorem map_insertIdx {α β : Type} (f : α → β) (l : List α) (n : Nat) (a : α) :
    (l.insertIdx n a).map f = (l.map f).insertIdx n (f a) := by
  induction l generalizing n with
  | nil => cases n <;> simp [List.insertIdx_zero, List.insertIdx_succ_nil]
  | cons x rest ih => cases n <;> simp [List.insertIdx_zero, List.insertIdx_succ_cons, ih]

theorem map_eraseIdx {α β : Type} (f : α → β) (l : List α) (n : Nat) :
    (l.eraseIdx n).map f = (l.map f).eraseIdx n := by
  induction l generalizing n with
  | nil => simp
  | cons x rest ih => cases n <;> simp [ih]

theorem map_foldl_eraseIdx {α β : Type} (f : α → β) (indices : List Nat) (l : List α) :
    (indices.foldl List.eraseIdx l).map f = indices.foldl List.eraseIdx (l.map f) := by
  induction indices generalizing l with
  | nil => rfl
  | cons i rest ih => simp [ih, map_eraseIdx]

theorem foldl_eraseIdx_sublist {α : Type} (indices : List Nat) (l : List α) :
    (indices.foldl List.eraseIdx l).Sublist l := by
  induction indices generalizing l with
  | nil => exact List.Sublist.refl l
  | cons i rest ih => exact (ih _).trans (List.eraseIdx_sublist l i)

/-- The original positions the removals of `remove_process` hit: the `j`-th collected index
is taken in a queue that `j` earlier removals, all at lower positions, have shortened, so it
names original position `index + j`. -/
def shiftedIndices : List Nat → List Nat
  | [] => []
  | index :: rest => index :: (shiftedIndices rest).map (· + 1)

example : shiftedIndices [0, 1, 3] = [0, 2, 5] := rfl

theorem le_of_mem_shiftedIndices {b : Nat} : ∀ {indices : List Nat}, (∀ i ∈ indices, b ≤ i) →
    ∀ r ∈ shiftedIndices indices, b ≤ r
  | [], _, _, h => by cases h
  | i :: rest, hb, r, hr => by
    simp only [shiftedIndices, List.mem_cons, List.mem_map] at hr
    rcases hr with rfl | ⟨s, hs, rfl⟩
    · exact hb r (List.mem_cons_self _ _)
    · exact Nat.le_succ_of_le (le_of_mem_shiftedIndices (fun i hi => hb i (List.mem_cons_of_mem _ hi)) s hs)

theorem shiftedIndices_map_pred : ∀ {indices : List Nat}, (∀ i ∈ indices, 0 < i) →
    (shiftedIndices (indices.map (· - 1))).map (· + 1) = shiftedIndices indices
  | [], _ => rfl
  | i :: rest, h => by
    simp only [List.map_cons, shiftedIndices, List.cons.injEq]
    refine ⟨Nat.sub_add_cancel (h i (List.mem_cons_self _ _)), ?_⟩
    rw [shiftedIndices_map_pred fun j hj => h j (List.mem_cons_of_mem _ hj)]

theorem shiftedIndices_of_length_le_one :
    ∀ {indices : List Nat}, indices.length ≤ 1 → shiftedIndices indices = indices
  | [], _ | [_], _ => rfl
  | _ :: _ :: _, h => by simp at h

theorem foldl_eraseIdx_nil {α : Type} (indices : List Nat) :
    indices.foldl List.eraseIdx ([] : List α) = [] := by
  induction indices with
  | nil => rfl
  | cons i rest ih => exact ih

theorem foldl_eraseIdx_cons_of_pos {α : Type} (a : α) :
    ∀ {indices : List Nat} (l : List α), (∀ i ∈ indices, 0 < i) →
      indices.foldl List.eraseIdx (a :: l) = a :: (indices.map (· - 1)).foldl List.eraseIdx l
  | [], _, _ => rfl
  | 0 :: _, _, h => absurd (h 0 (List.mem_cons_self _ _)) (Nat.lt_irrefl 0)
  | (i + 1) :: rest, l, h => by
    rw [List.foldl_cons, List.eraseIdx_cons_succ,
      foldl_eraseIdx_cons_of_pos a _ fun j hj => h j (List.mem_cons_of_mem _ hj)]
    rfl

theorem foldl_eraseIdx_eq_filter {α : Type} : ∀ (l : List α) (k : Nat) {indices : List Nat},
    indices.Pairwise (· ≤ ·) → indices.foldl List.eraseIdx l =
      ((l.enumFrom k).filter fun x => x.1 ∉ (shiftedIndices indices).map (· + k)).map Prod.snd
  | [], k, indices, _ => by rw [foldl_eraseIdx_nil]; rfl
  | a :: l, k, [], _ => by simp [shiftedIndices, List.enumFrom_map_snd]
  | a :: l, k, 0 :: rest, h => by
    have hcomp : ((· + k) ∘ (· + 1)) = (· + (k + 1)) := funext fun x => by
      show x + 1 + k = x + (k + 1)
      omega
    rw [List.foldl_cons, List.eraseIdx_cons_zero,
      foldl_eraseIdx_eq_filter l (k + 1) (List.pairwise_cons.mp h).2, List.enumFrom_cons]
    simp only [shiftedIndices, List.map_cons, List.map_map, hcomp, Nat.zero_add]
    rw [List.filter_cons_of_neg (by simp)]
    refine congrArg _ (List.filter_congr fun x hx => ?_)
    have hne : x.1 ≠ k := Nat.ne_of_gt (List.le_fst_of_mem_enumFrom hx)
    simp only [List.mem_cons, hne, false_or]
  | a :: l, k, (i + 1) :: rest, h => by
    have hpos : ∀ j ∈ (i + 1) :: rest, 0 < j := fun j hj => by
      rcases List.mem_cons.mp hj with rfl | hj
      · exact Nat.succ_pos i
      · exact Nat.lt_of_lt_of_le (Nat.succ_pos i) ((List.pairwise_cons.mp h).1 j hj)
    have hcomp : ((· + k) ∘ (· + 1)) = (· + (k + 1)) := funext fun x => by
      show x + 1 + k = x + (k + 1)
      omega
    have hkeep : k ∉ (shiftedIndices ((i + 1) :: rest)).map (· + k) := fun hk => by
      obtain ⟨r, hr, hrk⟩ := List.mem_map.mp hk
      have := le_of_mem_shiftedIndices hpos r hr
      omega
    rw [foldl_eraseIdx_cons_of_pos a l hpos,
      foldl_eraseIdx_eq_filter l (k + 1) (h.map (· - 1) fun _ _ hle => Nat.sub_le_sub_right hle 1),
      List.enumFrom_cons, List.filter_cons_of_pos (by exact decide_eq_true hkeep),
      ← shiftedIndices_map_pred hpos, List.map_map, hcomp]
    rfl

theorem placeAt_split {α : Type} {position : Option Nat} {l₁ l₂ : List α} (a : α)
    (hpos : (position = none ∧ l₂ = []) ∨ position = some l₁.length) :
    placeAt position (l₁ ++ l₂) a = l₁ ++ a :: l₂ := by
  rcases hpos with ⟨rfl, rfl⟩ | rfl
  · simp [placeAt]
  · exact insertIdx_length_append l₁ l₂ a

theorem map_placeAt {α β : Type} (f : α → β) (position : Option Nat) (l : List α) (a : α) :
    (placeAt position l a).map f = placeAt position (l.map f) (f a) := by
  cases position <;> simp [placeAt, map_insertIdx]

/-! ### Insertion order -/

/-- A waiting entry with the index, in the run, of the `insert` that queued it. -/
structure Stamped where
  entry : TaskQueueEntry
  stamp : Nat
deriving DecidableEq, Repr

/-- One operation replayed on stamped entries, as the code performs it on plain ones; the
entry queued by the operation at index `clock` is stamped `clock`. -/
def stampedStep (waiting : List Stamped) (clock : Nat) : QueueOp → List Stamped
  | .insert reserved entry =>
    if !reserved then waiting
    else
      match insertPosition entry (waiting.map Stamped.entry) 0 none with
      | .error _ => waiting
      | .ok position => placeAt position waiting ⟨entry, clock⟩
  | .consume => waiting.tail
  | .removeThread id =>
    match (waiting.map Stamped.entry).findIdx? (fun e => e.id = id) with
    | some index => waiting.eraseIdx index
    | none => waiting
  | .removeProcess id =>
    (processIndices id (waiting.map Stamped.entry)).foldl List.eraseIdx waiting

/-- The stamped replay of a run from `TaskQueue::new()`. -/
def stampedRun (ops : List QueueOp) : List Stamped :=
  ops.enum.foldl (fun waiting (clock, op) => stampedStep waiting clock op) []

theorem run_append_singleton (ops : List QueueOp) (op : QueueOp) :
    TaskQueue.run (ops ++ [op]) = (TaskQueue.run ops).step op := by
  simp [TaskQueue.run, List.foldl_append]

theorem stampedRun_append_singleton (ops : List QueueOp) (op : QueueOp) :
    stampedRun (ops ++ [op]) = stampedStep (stampedRun ops) ops.length op := by
  simp [stampedRun, List.enum_append, List.enumFrom_singleton, List.foldl_append]

theorem stampedStep_entries {q : TaskQueue} {waiting : List Stamped}
    (h : q.queue = waiting.map Stamped.entry) (clock : Nat) (op : QueueOp) :
    (q.step op).queue = (stampedStep waiting clock op).map Stamped.entry := by
  cases op with
  | insert reserved entry =>
    cases reserved
    · simpa [TaskQueue.step, TaskQueue.insert, stampedStep] using h
    · simp only [TaskQueue.step, TaskQueue.insert, stampedStep, h, Bool.not_true,
        Bool.false_eq_true, if_false]
      split <;> simp [map_placeAt, h]
  | consume =>
    simp only [TaskQueue.step, TaskQueue.consume, stampedStep, h]
    cases waiting <;> rfl
  | removeThread id =>
    simp only [TaskQueue.step, TaskQueue.removeThread, stampedStep, h]
    split <;> simp [map_eraseIdx, h]
  | removeProcess id =>
    simp [TaskQueue.step, TaskQueue.removeProcess, stampedStep, h, map_foldl_eraseIdx]

theorem run_queue_eq (ops : List QueueOp) :
    (TaskQueue.run ops).queue = (stampedRun ops).map Stamped.entry := by
  induction ops using List.reverseRecOn with
  | nil => rfl
  | append_singleton ops op ih =>
    rw [run_append_singleton, stampedRun_append_singleton]
    exact stampedStep_entries ih _ op

theorem stampedStep_cases (waiting : List Stamped) (clock : Nat) (op : QueueOp) :
    (stampedStep waiting clock op).Sublist waiting ∨
      ∃ entry, op = .insert true entry ∧ (∀ x ∈ waiting, x.entry.id ≠ entry.id) ∧
        ∃ l₁ l₂, waiting = l₁ ++ l₂ ∧
          (∀ x ∈ l₁, entry.fullPriority ≤ x.entry.fullPriority) ∧
          (∀ x ∈ l₂.head?, x.entry.fullPriority < entry.fullPriority) ∧
          stampedStep waiting clock op = l₁ ++ ⟨entry, clock⟩ :: l₂ := by
  cases op with
  | insert reserved entry =>
    cases reserved
    · exact .inl (by simp [stampedStep])
    · simp only [stampedStep, Bool.not_true, Bool.false_eq_true, if_false]
      split
      · exact .inl (List.Sublist.refl _)
      · rename_i position hpos
        obtain ⟨hid, l₁, l₂, rfl, hle, hhead, hplace⟩ :=
          insertPosition_split Stamped.entry entry waiting 0 hpos
        exact .inr ⟨entry, rfl, hid, l₁, l₂, rfl, hle, hhead,
          placeAt_split _ (by simpa using hplace)⟩
  | consume => exact .inl (List.tail_sublist waiting)
  | removeThread id =>
    refine .inl ?_
    simp only [stampedStep]
    split
    · exact List.eraseIdx_sublist _ _
    · exact List.Sublist.refl _
  | removeProcess id => exact .inl (foldl_eraseIdx_sublist _ _)

/-- Waiting entries are in non-increasing full priority, those of equal full priority in the
order they were inserted. -/
def QueueOrdered (waiting : List Stamped) : Prop :=
  waiting.Pairwise fun a b => b.entry.fullPriority < a.entry.fullPriority ∨
    (a.entry.fullPriority = b.entry.fullPriority ∧ a.stamp < b.stamp)

/-- What the stamped replay of `ops` keeps: the order, distinct ids, and every stamp the
index of an `insert` of `ops` that queued that very entry. -/
structure StampedInv (ops : List QueueOp) (waiting : List Stamped) : Prop where
  ordered : QueueOrdered waiting
  nodup : (waiting.map fun s => s.entry.id).Nodup
  stamped : ∀ s ∈ waiting, ops[s.stamp]? = some (.insert true s.entry)

theorem StampedInv.stamp_lt {ops : List QueueOp} {waiting : List Stamped}
    (hinv : StampedInv ops waiting) {s : Stamped} (hs : s ∈ waiting) : s.stamp < ops.length := by
  exact (List.getElem?_eq_some_iff.1 (hinv.stamped s hs)).1

theorem StampedInv.sublist {ops : List QueueOp} {waiting : List Stamped}
    (hinv : StampedInv ops waiting) (op : QueueOp) {waiting' : List Stamped}
    (hsub : waiting'.Sublist waiting) : StampedInv (ops ++ [op]) waiting' where
  ordered := hinv.ordered.sublist hsub
  nodup := (hsub.map _).nodup hinv.nodup
  stamped s hs := by
    rw [List.getElem?_append_left (hinv.stamp_lt (hsub.subset hs))]
    exact hinv.stamped s (hsub.subset hs)

theorem QueueOrdered.le_head {l : List Stamped} {a : Stamped} (h : QueueOrdered (a :: l)) :
    ∀ b ∈ l, b.entry.fullPriority ≤ a.entry.fullPriority := by
  intro b hb
  rcases List.rel_of_pairwise_cons h hb with hlt | ⟨heq, -⟩ <;> omega

theorem QueueOrdered.insert {l₁ l₂ : List Stamped} {s : Stamped}
    (hord : QueueOrdered (l₁ ++ l₂)) (hfresh : ∀ x ∈ l₁, x.stamp < s.stamp)
    (hle : ∀ x ∈ l₁, s.entry.fullPriority ≤ x.entry.fullPriority)
    (hhead : ∀ x ∈ l₂.head?, x.entry.fullPriority < s.entry.fullPriority) :
    QueueOrdered (l₁ ++ s :: l₂) := by
  rw [QueueOrdered, List.pairwise_append] at hord ⊢
  obtain ⟨h₁, h₂, h₁₂⟩ := hord
  have hbelow : ∀ b ∈ l₂, b.entry.fullPriority < s.entry.fullPriority := by
    cases l₂ with
    | nil => simp
    | cons c rest =>
      have hc := hhead c rfl
      intro b hb
      rcases List.mem_cons.1 hb with rfl | hb
      · exact hc
      · exact lt_of_le_of_lt (QueueOrdered.le_head h₂ b hb) hc
  refine ⟨h₁, List.pairwise_cons.2 ⟨fun b hb => .inl (hbelow b hb), h₂⟩, ?_⟩
  intro a ha b hb
  rcases List.mem_cons.1 hb with rfl | hb
  · rcases Nat.lt_or_eq_of_le (hle a ha) with hlt | heq
    · exact .inl hlt
    · exact .inr ⟨heq.symm, hfresh a ha⟩
  · exact h₁₂ a ha b hb

/-- One replayed step keeps the invariant. -/
theorem StampedInv.step {ops : List QueueOp} {waiting : List Stamped}
    (hinv : StampedInv ops waiting) (op : QueueOp) :
    StampedInv (ops ++ [op]) (stampedStep waiting ops.length op) := by
  rcases stampedStep_cases waiting ops.length op with hsub | ⟨entry, rfl, hid, l₁, l₂, rfl, hle, hhead, heq⟩
  · exact hinv.sublist op hsub
  · rw [heq]
    have hlast : (ops ++ [.insert true entry])[ops.length]? = some (.insert true entry) :=
      List.getElem?_concat_length ops _
    refine ⟨hinv.ordered.insert (fun x hx => hinv.stamp_lt (by simp [hx])) hle hhead, ?_, ?_⟩
    · rw [List.map_append, List.map_cons, List.nodup_middle, List.nodup_cons, ← List.map_append]
      refine ⟨fun hmem => ?_, hinv.nodup⟩
      obtain ⟨x, hx, hxid⟩ := List.mem_map.1 hmem
      exact hid x hx hxid
    · intro s hs
      rcases List.mem_append.1 hs with hs | hs
      · exact (hinv.sublist _ (List.sublist_append_left l₁ l₂)).stamped s hs
      · rcases List.mem_cons.1 hs with rfl | hs
        · exact hlast
        · exact (hinv.sublist _ (List.sublist_append_right l₁ l₂)).stamped s hs

theorem stampedRun_inv (ops : List QueueOp) : StampedInv ops (stampedRun ops) := by
  induction ops using List.reverseRecOn with
  | nil => exact ⟨List.Pairwise.nil, List.nodup_nil, by simp [stampedRun]⟩
  | append_singleton ops op ih =>
    rw [stampedRun_append_singleton]
    exact ih.step op

/-! ### `insert` -/

/-- What `insert` does to any queue: `OutOfMemory` when `try_reserve` fails, `Exists`
exactly when an entry with the same id waits, the queue unchanged on either error, and
otherwise the entry added and nothing else. -/
def InsertSpec (q : TaskQueue) (reserved : Bool) (entry : TaskQueueEntry) : Prop :=
  (reserved = false → q.insert reserved entry = (.error .outOfMemory, q)) ∧
  (reserved = true →
    (((q.insert reserved entry).1 = .error .exists) ↔ ∃ x ∈ q.queue, x.id = entry.id) ∧
    ((q.insert reserved entry).1 = .error .exists → (q.insert reserved entry).2 = q) ∧
    ((q.insert reserved entry).1 ≠ .error .exists → (q.insert reserved entry).1 = .ok () ∧
      (q.insert reserved entry).2.current = q.current ∧
      ∃ l₁ l₂, q.queue = l₁ ++ l₂ ∧ (q.insert reserved entry).2.queue = l₁ ++ entry :: l₂))

theorem insert_spec (q : TaskQueue) (reserved : Bool) (entry : TaskQueueEntry) :
    InsertSpec q reserved entry := by
  cases reserved with
  | false => exact ⟨fun _ => rfl, fun h => nomatch h⟩
  | true =>
    refine ⟨fun h => (nomatch h), fun _ => ?_⟩
    have hiff := insertPosition_error_iff entry q.queue 0 none
    rcases hpos : insertPosition entry q.queue 0 none with err | position
    · obtain rfl := insertPosition_error hpos
      simp only [TaskQueue.insert, hpos, Bool.not_true, Bool.false_eq_true, if_false, true_iff]
      exact ⟨hiff.1 ⟨_, hpos⟩, fun _ => trivial, fun h => absurd rfl h⟩
    · have hnone : ¬ ∃ x ∈ q.queue, x.id = entry.id := fun h => by
        obtain ⟨err, herr⟩ := hiff.2 h
        rw [hpos] at herr
        cases herr
      obtain ⟨-, l₁, l₂, hsplit, -, -, hplace⟩ :=
        insertPosition_split id entry q.queue 0 (by simpa using hpos)
      simp only [TaskQueue.insert, hpos, Bool.not_true, Bool.false_eq_true, if_false]
      refine ⟨⟨fun h => (by cases h), fun h => absurd h hnone⟩, fun h => (by cases h),
        fun _ => ⟨trivial, trivial, l₁, l₂, hsplit, ?_⟩⟩
      rw [hsplit]
      exact placeAt_split _ (by simpa using hplace)

/-- Every queue a run from `TaskQueue::new()` leaves is the stamped replay with its stamps
erased; the waiting entries are in non-increasing full priority, those of equal full
priority in the order of the `insert`s that queued them, with no id twice; and `insert`
then behaves as `InsertSpec` says. -/
theorem run_queue_ordered (ops : List QueueOp) :
    (TaskQueue.run ops).queue = (stampedRun ops).map Stamped.entry ∧
      QueueOrdered (stampedRun ops) ∧
      ((TaskQueue.run ops).queue.map TaskQueueEntry.id).Nodup ∧
      (∀ s ∈ stampedRun ops, ops[s.stamp]? = some (.insert true s.entry)) ∧
      ∀ reserved entry, InsertSpec (TaskQueue.run ops) reserved entry := by
  have hinv := stampedRun_inv ops
  refine ⟨run_queue_eq ops, hinv.ordered, ?_, hinv.stamped, insert_spec _⟩
  rw [run_queue_eq, List.map_map]
  exact hinv.nodup

/-- With `try_reserve` failing, `insert` on the new queue reports `OutOfMemory` and does not
add the entry, though no entry with its id waits. -/
theorem insert_fails_without_reservation :
    (¬ ∃ x ∈ (TaskQueue.run []).queue, x.id = ⟨0, 0⟩) ∧
      (TaskQueue.run []).insert false ⟨⟨0, 0⟩, 0⟩ = (.error .outOfMemory, TaskQueue.run []) :=
  ⟨by simp [TaskQueue.run, TaskQueue.new], rfl⟩

/-! ### Order by the decoded priority -/

theorem TaskQueueEntry.decoded_le_of_fullPriority_le {a b : TaskQueueEntry}
    (h : b.fullPriority ≤ a.fullPriority) :
    b.priority' < a.priority' ∨ (b.priority' = a.priority' ∧ b.subPriority ≤ a.subPriority) := by
  simp only [TaskQueueEntry.fullPriority] at h
  simp only [TaskQueueEntry.priority'_eq, TaskQueueEntry.subPriority_eq]
  omega

/-- In every queue a run of operations from `TaskQueue::new()` leaves, the waiting entries are
in non-increasing `priority()`, those of equal `priority()` in non-increasing
`sub_priority()`: `consume` takes an entry of the highest priority, and of the highest sub
priority among those. -/
theorem run_queue_priority_ordered (ops : List QueueOp) :
    (TaskQueue.run ops).queue.Pairwise fun a b =>
      b.priority' < a.priority' ∨ (b.priority' = a.priority' ∧ b.subPriority ≤ a.subPriority) := by
  rw [run_queue_eq, List.pairwise_map]
  exact (stampedRun_inv ops).ordered.imp fun h =>
    TaskQueueEntry.decoded_le_of_fullPriority_le (by rcases h with h | ⟨h, -⟩ <;> omega)

/-! ### Removal -/

theorem eraseIdx_findIdx? {α : Type} (p : α → Bool) :
    ∀ l : List α, (match l.findIdx? p with
      | some index => l.eraseIdx index
      | none => l) = l.eraseP p
  | [] => rfl
  | a :: l => by
    have ih := eraseIdx_findIdx? p l
    rw [List.findIdx?_cons, List.eraseP_cons]
    cases p a
    · rw [if_neg (by decide), List.findIdx?_succ]
      rcases hl : l.findIdx? p with _ | index <;> simp only [hl] at ih <;> simp [← ih]
    · rfl

theorem eraseP_eq_filter_of_nodup (id : ProcessID) :
    ∀ l : List TaskQueueEntry, (l.map TaskQueueEntry.id).Nodup →
      (l.eraseP fun e => e.id = id) = l.filter fun e => e.id ≠ id
  | [], _ => rfl
  | e :: rest, hnodup => by
    simp only [List.map_cons, List.nodup_cons, List.mem_map] at hnodup
    by_cases he : e.id = id
    · subst he
      rw [List.eraseP_cons_of_pos (by simp), List.filter_cons_of_neg (by simp),
        List.filter_eq_self.mpr fun x hx => by simpa using fun h => hnodup.1 ⟨x, hx, h⟩]
    · rw [List.eraseP_cons_of_neg (by simpa using he), List.filter_cons_of_pos (by simpa using he),
        eraseP_eq_filter_of_nodup id rest hnodup.2]

theorem removeThread_queue (q : TaskQueue) (id : ProcessID) :
    (q.removeThread id).queue = q.queue.eraseP fun e => e.id = id := by
  rw [← eraseIdx_findIdx?]
  simp only [TaskQueue.removeThread]
  split <;> simp_all

theorem removeThread_run_queue (ops : List QueueOp) (id : ProcessID) :
    ((TaskQueue.run ops).removeThread id).queue =
      (TaskQueue.run ops).queue.filter fun e => e.id ≠ id := by
  have hnodup : ((TaskQueue.run ops).queue.map TaskQueueEntry.id).Nodup := by
    rw [run_queue_eq, List.map_map]
    exact (stampedRun_inv ops).nodup
  rw [removeThread_queue, eraseP_eq_filter_of_nodup id _ hnodup]

theorem processIndices_pairwise (id : Nat) (queue : List TaskQueueEntry) :
    (processIndices id queue).Pairwise (· < ·) := by
  have hsub : List.Sublist (processIndices id queue) (queue.enum.map Prod.fst) :=
    (List.filter_sublist _).map _
  rw [List.enum_map_fst] at hsub
  exact (List.pairwise_lt_range _).sublist hsub

theorem length_processIndices (id : Nat) (queue : List TaskQueueEntry) :
    (processIndices id queue).length = queue.countP fun e => e.id.process = id := by
  rw [processIndices, List.length_map, ← List.countP_eq_length_filter]
  conv_rhs => rw [← List.enum_map_snd queue, List.countP_map]
  rfl

theorem mem_processIndices {id i : Nat} {queue : List TaskQueueEntry} :
    i ∈ processIndices id queue ↔ ∃ e, (i, e) ∈ queue.enum ∧ e.id.process = id := by
  simp [processIndices]

namespace TaskQueue

/-- `remove_process` keeps the entries at the original positions that the shifted indices miss. -/
theorem removeProcess_queue_eq (q : TaskQueue) (id : Nat) :
    (q.removeProcess id).queue = (q.queue.enum.filter fun x =>
      x.1 ∉ shiftedIndices (processIndices id q.queue)).map Prod.snd := by
  rw [removeProcess, foldl_eraseIdx_eq_filter q.queue 0
    ((processIndices_pairwise id q.queue).imp Nat.le_of_lt)]
  simp only [Nat.add_zero, List.map_id']
  rfl

/-- `remove_process(id)` leaves no entry of process `id` waiting exactly when at most one was
waiting: with two or more, the second of them survives, since the index collected for it is
taken after the first removal has moved it down. -/
theorem removeProcess_clears_iff (q : TaskQueue) (id : Nat) :
    (∀ e ∈ (q.removeProcess id).queue, e.id.process ≠ id) ↔
      (q.queue.countP fun e => e.id.process = id) ≤ 1 := by
  rw [removeProcess_queue_eq, ← length_processIndices]
  have hsorted := processIndices_pairwise id q.queue
  constructor
  · intro hclear
    rcases hps : processIndices id q.queue with _ | ⟨first, _ | ⟨second, rest⟩⟩
    · exact Nat.zero_le _
    · exact Nat.le_refl _
    rw [hps] at hsorted
    obtain ⟨e, he, hid⟩ := mem_processIndices.mp
      (hps ▸ List.mem_cons_of_mem _ (List.mem_cons_self _ _))
    refine absurd hid (hclear e (List.mem_map.mpr ⟨(second, e), List.mem_filter.mpr ⟨he, ?_⟩, rfl⟩))
    obtain ⟨hfirst, hsecond⟩ : first < second ∧ ∀ r ∈ rest, second < r := by
      simp only [List.pairwise_cons, List.mem_cons] at hsorted
      exact ⟨hsorted.1 second (.inl rfl), hsorted.2.1⟩
    have hlow := le_of_mem_shiftedIndices hsecond
    rw [hps, decide_eq_true_iff]
    simp only [shiftedIndices, List.map_cons, List.mem_cons, List.mem_map, Function.comp,
      List.map_map, not_or]
    refine ⟨by omega, by omega, fun ⟨r, hr, h⟩ => ?_⟩
    have := hlow r hr
    omega
  · intro hle e he hid
    obtain ⟨x, hx, rfl⟩ := List.mem_map.mp he
    obtain ⟨hxq, hxnot⟩ := List.mem_filter.mp hx
    rw [shiftedIndices_of_length_le_one hle] at hxnot
    exact of_decide_eq_true hxnot (mem_processIndices.mpr ⟨x.2, hxq, hid⟩)

end TaskQueue

/-- Three waiting entries of equal priority, two of process 1 first: `remove_process(1)`
collects the indices 0 and 1, removes index 0, and then removes index 1 of the shortened
queue, which is process 2's entry, keeping a thread of process 1. -/
theorem removeProcess_removes_wrong_entry :
    (TaskQueue.run [.insert true ⟨⟨1, 0⟩, 0x77⟩, .insert true ⟨⟨1, 1⟩, 0x77⟩,
        .insert true ⟨⟨2, 0⟩, 0x77⟩]).queue = [⟨⟨1, 0⟩, 0x77⟩, ⟨⟨1, 1⟩, 0x77⟩, ⟨⟨2, 0⟩, 0x77⟩] ∧
      ((TaskQueue.run [.insert true ⟨⟨1, 0⟩, 0x77⟩, .insert true ⟨⟨1, 1⟩, 0x77⟩,
        .insert true ⟨⟨2, 0⟩, 0x77⟩]).removeProcess 1).queue = [⟨⟨1, 1⟩, 0x77⟩] :=
  ⟨rfl, rfl⟩

end Ockernel
