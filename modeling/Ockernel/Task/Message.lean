import Ockernel.Task.Cpu

/-!
The two message channels of a CPU thread in `task/cpu.rs`: the urgent queue, which carries
TLB updates, and the message queue, which carries kill requests and IPC sends.  Any thread
may send to any other: `send_urgent_message` and `send_message` reserve room in the target's
queue under its lock and push at the back.  The owner drains each queue with a `while let`
loop that pops the front under the lock and then handles the message.

A system state gives every `ThreadID` its thread.  An event is one send, one turn of either
loop, or a scheduler step on a thread's task queue.  A scheduler step stands for everything
outside `src/` that changes a task queue: the context switch and the IPC send.  A turn that
finds its queue empty is the loop's exit, and leaves the thread as it was.  The calls a
thread makes on hooks outside `src/` (`refresh_page`, `manual_context_switch`,
`ipc::send_message`) are logged in the thread's state.

The main results hold for every interleaving of events:
* `urgent_channel_fifo`: an urgent queue always holds the messages sent to it, less a
  handled prefix.  Every kernel page update handled has been refreshed, and no address is
  refreshed without a handled message behind it.
* `message_channel_fifo`: the same for the message queue.  Each handled `SendMessage` made
  exactly one IPC call, and the thread's task queue is one that `TaskQueue::new()` reaches.
* `killThread_removes_thread`: handling `KillThread(id)` leaves no waiting task with `id`.
  It asks for a context switch exactly when `id` is the current task.
-/

namespace Ockernel

/-- a page update a thread must take into its TLB -/
inductive UrgentMessage where
  /-- update a page in the current task's address space -/
  | taskPageUpdate (processId addr : Nat)
  /-- update a page in the kernel's address space -/
  | kernelPageUpdate (addr : Nat)
deriving DecidableEq, Repr

/-- a request to a thread, handled at its scheduling points -/
inductive Message where
  /-- kill the specified thread -/
  | killThread (id : ProcessID)
  /-- kill all threads of the specified process -/
  | killProcess (id : Nat)
  | sendMessage (process message : Nat) (data : Option (Nat × Nat))
deriving DecidableEq, Repr

/-- The address an urgent message names. -/
def UrgentMessage.addr : UrgentMessage → Nat
  | .taskPageUpdate _ addr | .kernelPageUpdate addr => addr

/-- The address of a kernel page update. -/
def UrgentMessage.kernelAddr? : UrgentMessage → Option Nat
  | .taskPageUpdate _ _ => none
  | .kernelPageUpdate addr => some addr

/-- The arguments a `SendMessage` passes to `ipc::send_message`. -/
def Message.ipcArgs? : Message → Option (Nat × Nat × Option (Nat × Nat))
  | .sendMessage process message data => some (process, message, data)
  | _ => none

/-- The fields of a `CPUThread` its message channels read and write, and the calls it has
made on the hooks outside `src/`, oldest first. -/
structure MessageThread where
  taskQueue : TaskQueue
  urgentMessageQueue : List UrgentMessage
  messageQueue : List Message
  /-- the addresses given to `arch::refresh_page` -/
  refreshed : List Nat
  /-- the calls of `manual_context_switch` in `Remove` mode, each with the current task's id -/
  removeSwitches : List ProcessID
  /-- the process, message and data of each call of `ipc::send_message` -/
  ipcSends : List (Nat × Nat × Option (Nat × Nat))

/-- `queue.try_reserve(1)` under the lock, then `push_back`; `reserved` is whether the
reservation succeeds. -/
def pushMessage {α : Type} (queue : List α) (reserved : Bool) (message : α) :
    Except Errno Unit × List α :=
  if !reserved then (.error .outOfMemory, queue) else (.ok (), queue ++ [message])

namespace MessageThread

/-- `CPUThread::new`: empty queues and a new task queue; no hook called yet. -/
def new : MessageThread := ⟨TaskQueue.new, [], [], [], [], []⟩

def sendUrgentMessage (thread : MessageThread) (reserved : Bool) (message : UrgentMessage) :
    Except Errno Unit × MessageThread :=
  let (result, queue) := pushMessage thread.urgentMessageQueue reserved message
  (result, { thread with urgentMessageQueue := queue })

def sendMessage (thread : MessageThread) (reserved : Bool) (message : Message) :
    Except Errno Unit × MessageThread :=
  let (result, queue) := pushMessage thread.messageQueue reserved message
  (result, { thread with messageQueue := queue })

/-- `crate::arch::refresh_page(addr)` on this thread. -/
def refreshPage (thread : MessageThread) (addr : Nat) : MessageThread :=
  { thread with refreshed := thread.refreshed ++ [addr] }

/-- The body of the loop of `process_urgent_messages` for one message: a task page update
is refreshed only when its process is that of the current task. -/
def handleUrgent (thread : MessageThread) : UrgentMessage → MessageThread
  | .taskPageUpdate id addr =>
    match thread.taskQueue.current.map TaskQueueEntry.id with
    | some pid => if id = pid.process then thread.refreshPage addr else thread
    | none => thread
  | .kernelPageUpdate addr => thread.refreshPage addr

/-- The context switch of a kill: in `Remove` mode when the current task is hit. -/
def switchIfCurrent (thread : MessageThread) (hit : ProcessID → Bool) : MessageThread :=
  match thread.taskQueue.current.map TaskQueueEntry.id with
  | some currentId =>
    if hit currentId then { thread with removeSwitches := thread.removeSwitches ++ [currentId] }
    else thread
  | none => thread

/-- The body of the loop of `process_messages` for one message.  Whatever result
`ipc::send_message` returns is only logged. -/
def handleMessage (thread : MessageThread) : Message → MessageThread
  | .killThread id =>
    switchIfCurrent { thread with taskQueue := thread.taskQueue.removeThread id } (· = id)
  | .killProcess id =>
    switchIfCurrent { thread with taskQueue := thread.taskQueue.removeProcess id }
      (·.process = id)
  | .sendMessage process message data =>
    { thread with ipcSends := thread.ipcSends ++ [(process, message, data)] }

/-- One turn of the loop of `process_urgent_messages`: `pop_front` under the lock, then the
message is handled; `none` when the queue is empty, which ends the loop. -/
def processUrgentMessagesTurn (thread : MessageThread) : Option MessageThread :=
  match thread.urgentMessageQueue with
  | [] => none
  | entry :: rest => some (handleUrgent { thread with urgentMessageQueue := rest } entry)

/-- One turn of the loop of `process_messages`, as for the urgent queue. -/
def processMessagesTurn (thread : MessageThread) : Option MessageThread :=
  match thread.messageQueue with
  | [] => none
  | entry :: rest => some (handleMessage { thread with messageQueue := rest } entry)

end MessageThread

/-- An event of the channels: a send to `target`, whose `try_reserve(1)` succeeds when
`reserved`; one turn of a draining loop of `thread`; or a scheduler step on the task queue of
`thread`. -/
inductive ChannelEvent where
  | sendUrgent (target : ThreadID) (reserved : Bool) (message : UrgentMessage)
  | send (target : ThreadID) (reserved : Bool) (message : Message)
  | processUrgent (thread : ThreadID)
  | process (thread : ThreadID)
  | schedule (thread : ThreadID) (op : QueueOp)

namespace ChannelEvent

/-- The thread an event changes. -/
def thread : ChannelEvent → ThreadID
  | .sendUrgent target _ _ | .send target _ _ => target
  | .processUrgent thread | .process thread | .schedule thread _ => thread

/-- The urgent message an event queues, if it is a send that succeeds. -/
def urgentSent? : ChannelEvent → Option UrgentMessage
  | .sendUrgent _ true message => some message
  | _ => none

/-- The message an event queues, if it is a send that succeeds. -/
def messageSent? : ChannelEvent → Option Message
  | .send _ true message => some message
  | _ => none

end ChannelEvent

/-- What an event does to the thread it changes. -/
def MessageThread.step (thread : MessageThread) : ChannelEvent → MessageThread
  | .sendUrgent _ reserved message => (thread.sendUrgentMessage reserved message).2
  | .send _ reserved message => (thread.sendMessage reserved message).2
  | .processUrgent _ => thread.processUrgentMessagesTurn.getD thread
  | .process _ => thread.processMessagesTurn.getD thread
  | .schedule _ op => { thread with taskQueue := thread.taskQueue.step op }

/-- One event of the system; every other thread is left as it was. -/
def channelStep (threads : ThreadID → MessageThread) (event : ChannelEvent) :
    ThreadID → MessageThread :=
  Function.update threads event.thread ((threads event.thread).step event)

/-- The threads after a sequence of events, each thread starting as `CPUThread::new()`. -/
def channelRun (events : List ChannelEvent) : ThreadID → MessageThread :=
  events.foldl channelStep fun _ => MessageThread.new

/-- The urgent messages sent to thread `t` that were queued, in the order of their sends. -/
def urgentSent (events : List ChannelEvent) (t : ThreadID) : List UrgentMessage :=
  (events.filter (·.thread = t)).filterMap ChannelEvent.urgentSent?

/-- The messages sent to thread `t` that were queued, in the order of their sends. -/
def messagesSent (events : List ChannelEvent) (t : ThreadID) : List Message :=
  (events.filter (·.thread = t)).filterMap ChannelEvent.messageSent?

/-! ### Threads are independent -/

theorem channelRun_apply (events : List ChannelEvent) (t : ThreadID) :
    channelRun events t = (events.filter (·.thread = t)).foldl MessageThread.step .new := by
  induction events using List.reverseRecOn with
  | nil => rfl
  | append_singleton events event ih =>
    rw [channelRun, List.foldl_append, ← channelRun, List.filter_append, List.foldl_append]
    by_cases h : event.thread = t
    · subst h
      simp [channelStep, ih]
    · simp [channelStep, Function.update_noteq (Ne.symm h), ih, h]

/-! ### A queue is the messages sent, less a handled prefix -/

section Fifo

variable {α : Type} {sent queue : List α} {n : Nat}

theorem push_drop (hn : n ≤ sent.length) (hq : queue = sent.drop n) (message : α) :
    queue ++ [message] = (sent ++ [message]).drop n ∧
      (sent ++ [message]).take n = sent.take n := by
  subst hq
  exact ⟨(List.drop_append_of_le_length hn).symm, List.take_append_of_le_length hn⟩

theorem pop_drop {message : α} {rest : List α} (hq : sent.drop n = message :: rest) :
    n + 1 ≤ sent.length ∧ rest = sent.drop (n + 1) ∧
      sent.take (n + 1) = sent.take n ++ [message] := by
  have hlt : n < sent.length := by
    by_contra hle
    rw [List.drop_eq_nil_of_le (Nat.le_of_not_lt hle)] at hq
    cases hq
  have hget : sent[n]? = some message := by
    have h0 := List.getElem?_drop sent n 0
    rw [hq, Nat.add_zero] at h0
    simpa using h0.symm
  refine ⟨hlt, ?_, ?_⟩
  · rw [← List.tail_drop, hq, List.tail_cons]
  · rw [List.take_succ, hget]
    rfl

end Fifo

/-! ### The urgent channel -/

theorem UrgentMessage.kernelAddr?_sublist (message : UrgentMessage) :
    List.Sublist ([message].filterMap UrgentMessage.kernelAddr?) [message.addr] := by
  cases message <;> simp [UrgentMessage.kernelAddr?, UrgentMessage.addr]

namespace MessageThread

theorem handleUrgent_cases (thread : MessageThread) (message : UrgentMessage) :
    thread.handleUrgent message = thread.refreshPage message.addr ∨
      (thread.handleUrgent message = thread ∧ message.kernelAddr? = none) := by
  cases message with
  | taskPageUpdate id addr =>
    simp only [handleUrgent, UrgentMessage.kernelAddr?, and_true]
    split
    · split_ifs
      · exact .inl rfl
      · exact .inr rfl
    · exact .inr rfl
  | kernelPageUpdate addr => exact .inl rfl

theorem switchIfCurrent_eq (thread : MessageThread) (hit : ProcessID → Bool) :
    thread.switchIfCurrent hit = { thread with removeSwitches := thread.removeSwitches ++
      ((thread.taskQueue.current.map TaskQueueEntry.id).filter hit).toList } := by
  unfold switchIfCurrent
  split
  · rename_i currentId hcurrent
    rw [hcurrent, Option.filter_some]
    split_ifs <;> simp
  · rename_i hcurrent
    simp [hcurrent]

theorem handleMessage_urgent (thread : MessageThread) (message : Message) :
    (thread.handleMessage message).urgentMessageQueue = thread.urgentMessageQueue ∧
      (thread.handleMessage message).refreshed = thread.refreshed := by
  cases message <;> simp [handleMessage, switchIfCurrent_eq]

end MessageThread

/-- The urgent-channel invariant of one thread, given the messages queued for it. -/
def UrgentFifo (sent : List UrgentMessage) (thread : MessageThread) : Prop :=
  ∃ n ≤ sent.length, thread.urgentMessageQueue = sent.drop n ∧
    List.Sublist ((sent.take n).filterMap UrgentMessage.kernelAddr?) thread.refreshed ∧
    List.Sublist thread.refreshed ((sent.take n).map UrgentMessage.addr)

theorem UrgentFifo.frame {sent : List UrgentMessage} {thread thread' : MessageThread}
    {event : ChannelEvent} (h : UrgentFifo sent thread) (hnone : event.urgentSent? = none)
    (hq : thread'.urgentMessageQueue = thread.urgentMessageQueue)
    (hr : thread'.refreshed = thread.refreshed) :
    UrgentFifo (sent ++ [event].filterMap ChannelEvent.urgentSent?) thread' := by
  rw [List.filterMap_cons_none hnone, List.filterMap_nil, List.append_nil, UrgentFifo, hq, hr]
  exact h

theorem UrgentFifo.step {sent : List UrgentMessage} {thread : MessageThread}
    (h : UrgentFifo sent thread) (event : ChannelEvent) :
    UrgentFifo (sent ++ [event].filterMap ChannelEvent.urgentSent?) (thread.step event) := by
  cases event with
  | sendUrgent target reserved message =>
    cases reserved
    · exact h.frame rfl rfl rfl
    obtain ⟨n, hn, hq, hlow, hhigh⟩ := h
    obtain ⟨hpush, htake⟩ := push_drop hn hq message
    refine ⟨n, by simp only [List.length_append]; omega, hpush, ?_, ?_⟩ <;>
      simp only [List.filterMap_cons, ChannelEvent.urgentSent?, List.filterMap_nil, htake]
    · exact hlow
    · exact hhigh
  | send => exact h.frame rfl rfl rfl
  | processUrgent t =>
    simp only [List.filterMap_cons, ChannelEvent.urgentSent?, List.filterMap_nil,
      List.append_nil, MessageThread.step, MessageThread.processUrgentMessagesTurn]
    obtain ⟨n, hn, hq, hlow, hhigh⟩ := h
    split
    · exact ⟨n, hn, hq, hlow, hhigh⟩
    · rename_i message rest hfront
      obtain ⟨hlt, hrest, htake⟩ := pop_drop (hq ▸ hfront)
      refine ⟨n + 1, hlt, ?_⟩
      rw [htake, List.filterMap_append, List.map_append]
      rcases MessageThread.handleUrgent_cases { thread with urgentMessageQueue := rest } message
        with h | ⟨h, hnone⟩ <;> rw [Option.getD_some, h]
      · exact ⟨hrest, hlow.append message.kernelAddr?_sublist, hhigh.append (List.Sublist.refl _)⟩
      · simp only [List.filterMap_cons, hnone, List.filterMap_nil, List.append_nil]
        exact ⟨hrest, hlow, hhigh.trans (List.sublist_append_left _ _)⟩
  | process t =>
    simp only [MessageThread.step, MessageThread.processMessagesTurn]
    split
    · exact h.frame rfl rfl rfl
    · rename_i message rest _
      obtain ⟨hurgent, hrefreshed⟩ :=
        MessageThread.handleMessage_urgent { thread with messageQueue := rest } message
      exact h.frame rfl hurgent hrefreshed
  | schedule => exact h.frame rfl rfl rfl

/-- Over every interleaving of sends, turns of both draining loops and scheduler steps on
any threads, the urgent queue of each thread holds the messages queued for it with a handled
prefix removed, so none is lost, repeated or reordered; the addresses refreshed on the
thread include every kernel page update handled, and are drawn in order from the handled
messages. -/
theorem urgent_channel_fifo (events : List ChannelEvent) (t : ThreadID) :
    ∃ n ≤ (urgentSent events t).length,
      (channelRun events t).urgentMessageQueue = (urgentSent events t).drop n ∧
      List.Sublist (((urgentSent events t).take n).filterMap UrgentMessage.kernelAddr?)
        (channelRun events t).refreshed ∧
      List.Sublist (channelRun events t).refreshed
        (((urgentSent events t).take n).map UrgentMessage.addr) := by
  rw [channelRun_apply, urgentSent]
  generalize events.filter (·.thread = t) = own
  induction own using List.reverseRecOn with
  | nil => exact ⟨0, Nat.zero_le _, rfl, List.Sublist.refl _, List.Sublist.refl _⟩
  | append_singleton own event ih =>
    rw [List.foldl_append, List.filterMap_append]
    exact UrgentFifo.step ih event

/-! ### The message channel -/

/-- The queue operations a message's handling applies to the task queue. -/
def Message.queueOps : Message → List QueueOp
  | .killThread id => [.removeThread id]
  | .killProcess id => [.removeProcess id]
  | .sendMessage _ _ _ => []

theorem TaskQueue.removeThread_current (q : TaskQueue) (id : ProcessID) :
    (q.removeThread id).current = q.current := by
  unfold TaskQueue.removeThread
  split <;> rfl

namespace MessageThread

theorem handleUrgent_messages (thread : MessageThread) (message : UrgentMessage) :
    (thread.handleUrgent message).messageQueue = thread.messageQueue ∧
      (thread.handleUrgent message).ipcSends = thread.ipcSends ∧
      (thread.handleUrgent message).taskQueue = thread.taskQueue := by
  rcases handleUrgent_cases thread message with h | ⟨h, -⟩ <;> rw [h] <;> exact ⟨rfl, rfl, rfl⟩

/-- Handling a message applies its queue operations and logs the IPC call of a `SendMessage`. -/
theorem handleMessage_spec (thread : MessageThread) (message : Message) :
    (thread.handleMessage message).messageQueue = thread.messageQueue ∧
      (thread.handleMessage message).ipcSends =
        thread.ipcSends ++ [message].filterMap Message.ipcArgs? ∧
      (thread.handleMessage message).taskQueue =
        message.queueOps.foldl TaskQueue.step thread.taskQueue := by
  cases message <;>
    simp [handleMessage, switchIfCurrent_eq, Message.ipcArgs?, Message.queueOps, TaskQueue.step]

end MessageThread

/-- The message-channel invariant of one thread, given the messages queued for it: the
queue is what was queued less a handled prefix, each handled `SendMessage` made one IPC
call, and the task queue is one that `TaskQueue::new()` reaches. -/
def MessageFifo (sent : List Message) (thread : MessageThread) : Prop :=
  ∃ n ≤ sent.length, thread.messageQueue = sent.drop n ∧
    thread.ipcSends = (sent.take n).filterMap Message.ipcArgs? ∧
    ∃ ops, thread.taskQueue = TaskQueue.run ops

theorem MessageFifo.frame {sent : List Message} {thread thread' : MessageThread}
    {event : ChannelEvent} (h : MessageFifo sent thread) (hnone : event.messageSent? = none)
    (hq : thread'.messageQueue = thread.messageQueue) (hipc : thread'.ipcSends = thread.ipcSends)
    (htasks : thread'.taskQueue = thread.taskQueue) :
    MessageFifo (sent ++ [event].filterMap ChannelEvent.messageSent?) thread' := by
  rw [List.filterMap_cons_none hnone, List.filterMap_nil, List.append_nil, MessageFifo, hq, hipc,
    htasks]
  exact h

theorem MessageFifo.step {sent : List Message} {thread : MessageThread}
    (h : MessageFifo sent thread) (event : ChannelEvent) :
    MessageFifo (sent ++ [event].filterMap ChannelEvent.messageSent?) (thread.step event) := by
  cases event with
  | sendUrgent => exact h.frame rfl rfl rfl rfl
  | send target reserved message =>
    cases reserved
    · exact h.frame rfl rfl rfl rfl
    obtain ⟨n, hn, hq, hipc, ops, hops⟩ := h
    obtain ⟨hpush, htake⟩ := push_drop hn hq message
    simp only [List.filterMap_cons, ChannelEvent.messageSent?, List.filterMap_nil]
    exact ⟨n, by simp only [List.length_append]; omega, hpush, by rw [htake]; exact hipc, ops, hops⟩
  | processUrgent t =>
    simp only [MessageThread.step, MessageThread.processUrgentMessagesTurn]
    split
    · exact h.frame rfl rfl rfl rfl
    · rename_i message rest _
      obtain ⟨hmessages, hsends, htasks⟩ :=
        MessageThread.handleUrgent_messages { thread with urgentMessageQueue := rest } message
      exact h.frame rfl hmessages hsends htasks
  | process t =>
    simp only [List.filterMap_cons, ChannelEvent.messageSent?, List.filterMap_nil,
      List.append_nil, MessageThread.step, MessageThread.processMessagesTurn]
    obtain ⟨n, hn, hq, hipc, ops, hops⟩ := h
    split
    · exact ⟨n, hn, hq, hipc, ops, hops⟩
    · rename_i message rest hfront
      obtain ⟨hlt, hrest, htake⟩ := pop_drop (hq ▸ hfront)
      obtain ⟨hmessages, hsends, htasks⟩ :=
        MessageThread.handleMessage_spec { thread with messageQueue := rest } message
      rw [Option.getD_some]
      refine ⟨n + 1, hlt, hmessages.trans hrest, ?_, ops ++ message.queueOps, ?_⟩
      · rw [hsends, htake, List.filterMap_append, hipc]
      · rw [htasks, TaskQueue.run, List.foldl_append, ← TaskQueue.run, ← hops]
  | schedule t op =>
    obtain ⟨n, hn, hq, hipc, ops, hops⟩ := h
    simp only [List.filterMap_cons, ChannelEvent.messageSent?, List.filterMap_nil,
      List.append_nil]
    refine ⟨n, hn, hq, hipc, ops ++ [op], ?_⟩
    rw [TaskQueue.run, List.foldl_append, ← TaskQueue.run, ← hops]
    rfl

/-- Over every interleaving of sends, turns of both draining loops and scheduler steps on
any threads, the message queue of each thread holds the messages queued for it with a
handled prefix removed; the thread has called `ipc::send_message` once for each
`SendMessage` handled, in order, with its arguments; and its task queue is one that
`TaskQueue::new()` reaches by queue operations, so every property of reachable task queues
holds of it. -/
theorem message_channel_fifo (events : List ChannelEvent) (t : ThreadID) :
    ∃ n ≤ (messagesSent events t).length,
      (channelRun events t).messageQueue = (messagesSent events t).drop n ∧
      (channelRun events t).ipcSends =
        ((messagesSent events t).take n).filterMap Message.ipcArgs? ∧
      ∃ ops, (channelRun events t).taskQueue = TaskQueue.run ops := by
  rw [channelRun_apply, messagesSent]
  generalize events.filter (·.thread = t) = own
  induction own using List.reverseRecOn with
  | nil => exact ⟨0, Nat.zero_le _, rfl, rfl, [], rfl⟩
  | append_singleton own event ih =>
    rw [List.foldl_append, List.filterMap_append]
    exact MessageFifo.step ih event

theorem channelRun_append_self (events : List ChannelEvent) (event : ChannelEvent) :
    channelRun (events ++ [event]) event.thread = (channelRun events event.thread).step event := by
  rw [channelRun, List.foldl_append, ← channelRun]
  exact Function.update_same _ _ _

/-- On a reachable thread whose next message is `KillThread(id)`, the next turn of
`process_messages` leaves no waiting task with `id`, since no id waits twice in a reachable
task queue, and asks for a context switch in `Remove` mode exactly when `id` is the current
task. -/
theorem killThread_removes_thread (events : List ChannelEvent) (t : ThreadID) {id : ProcessID}
    {rest : List Message} (hfront : (channelRun events t).messageQueue = .killThread id :: rest) :
    (∀ e ∈ (channelRun (events ++ [.process t]) t).taskQueue.queue, e.id ≠ id) ∧
      (channelRun (events ++ [.process t]) t).removeSwitches =
        (channelRun events t).removeSwitches ++
          if (channelRun events t).taskQueue.current.map TaskQueueEntry.id = some id then [id]
          else [] := by
  obtain ⟨-, -, -, -, ops, hops⟩ := message_channel_fifo events t
  have hturn := channelRun_append_self events (.process t)
  simp only [ChannelEvent.thread, MessageThread.step, MessageThread.processMessagesTurn, hfront,
    Option.getD_some, MessageThread.handleMessage, MessageThread.switchIfCurrent_eq,
    TaskQueue.removeThread_current] at hturn
  rw [hturn]
  refine ⟨fun e he => ?_, ?_⟩
  · rw [hops, removeThread_run_queue] at he
    simpa using (List.mem_filter.mp he).2
  · rcases (channelRun events t).taskQueue.current.map TaskQueueEntry.id with _ | currentId
    · rfl
    · by_cases hid : currentId = id <;> simp [hid, Option.filter_some]

/-- Thread `(0, 0)` runs task `(1, 0)`, has queued it again, and is sent `KillThread` for
it. -/
def killSample : List ChannelEvent :=
  [.schedule ⟨0, 0⟩ (.insert true ⟨⟨1, 0⟩, 0x77⟩), .schedule ⟨0, 0⟩ .consume,
    .schedule ⟨0, 0⟩ (.insert true ⟨⟨1, 0⟩, 0x77⟩), .send ⟨0, 0⟩ true (.killThread ⟨1, 0⟩)]

/-- Handling the kill in `killSample` empties the waiting queue and asks for one switch. -/
theorem killThread_removes_thread_killSample :
    (channelRun killSample ⟨0, 0⟩).messageQueue = [.killThread ⟨1, 0⟩] ∧
      (∀ e ∈ (channelRun (killSample ++ [.process ⟨0, 0⟩]) ⟨0, 0⟩).taskQueue.queue,
        e.id ≠ ⟨1, 0⟩) ∧
      (channelRun (killSample ++ [.process ⟨0, 0⟩]) ⟨0, 0⟩).removeSwitches =
        (channelRun killSample ⟨0, 0⟩).removeSwitches ++
          if (channelRun killSample ⟨0, 0⟩).taskQueue.current.map TaskQueueEntry.id =
            some ⟨1, 0⟩ then [⟨1, 0⟩] else [] :=
  ⟨rfl, killThread_removes_thread killSample ⟨0, 0⟩ rfl⟩

example : (channelRun (killSample ++ [.process ⟨0, 0⟩]) ⟨0, 0⟩).removeSwitches = [⟨1, 0⟩] ∧
    (channelRun (killSample ++ [.process ⟨0, 0⟩]) ⟨0, 0⟩).taskQueue.queue = [] := ⟨rfl, rfl⟩

end Ockernel
