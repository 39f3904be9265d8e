import Mathlib.Data.Nat.Bitwise

/-!
Shared vocabulary of the paging layer (`mm/paging.rs`): the error sum type, the system
call error codes it is mapped to, the ways an operation can end without returning, and
the two architecture constants that are declared outside `src/`.
-/

namespace Ockernel

/-- an error that can be returned from paging operations -/
inductive PagingError where
  | noAvailableFrames
  | frameUnused
  | frameInUse
  | allocError
  | badFrame
  | badAddress
deriving DecidableEq, Repr

/-- `impl fmt::Debug for PagingError`: the text a failed `expect` prints after its message. -/
def PagingError.debugText : PagingError → String
  | .noAvailableFrames => "no available frames (out of memory)"
  | .frameUnused => "frame is unused"
  | .frameInUse => "frame already in use"
  | .allocError => "error allocating memory"
  | .badFrame => "bad frame"
  | .badAddress => "address not mapped"

/-- Modelled from the spec: `common::types::Errno` is not under `src/`; these are the
codes the modelled code returns. -/
inductive Errno where
  | outOfMemory
  | badAddress
  | noSuchProcess
  | exists
deriving DecidableEq, Repr

/-- `impl From<PagingError> for Errno`: everything but `BadAddress` is out of memory. -/
def PagingError.toErrno : PagingError → Errno
  | .badAddress => .badAddress
  | _ => .outOfMemory

/-- How a call ends without returning: a `panic!` (a failed `assert!`, `expect` or
`unwrap`, with its message), or a page fault taken by kernel code touching an unmapped
address. -/
inductive Fault where
  | panic (msg : String)
  | pageFault (addr : Nat)
deriving DecidableEq, Repr

/-- The panic of `Result::expect(msg)` on `Err(err)`: the message, then the error's `Debug`. -/
def Fault.expectFailed (msg : String) (err : PagingError) : Fault :=
  .panic (msg ++ ": " ++ err.debugText)

/-- What a call that mutates a state `σ` ends with: Rust's `Result` together with the state
as the call left it (a Rust `Err` keeps the mutations made before it), or no return. -/
abbrev Outcome (σ α : Type) := Except Fault (Except PagingError α × σ)

/-- Modelled from the spec: `arch::PAGE_SIZE` is not under `src/`; the spec fixes it at
4096 on this target. -/
def pageSize : Nat := 4096

/-- `arch::KERNEL_PAGE_DIR_SPLIT`, declared outside `src/`: the first address of the kernel
half.  The code turns it into a table slot as `KERNEL_PAGE_DIR_SPLIT / PAGE_SIZE / 1024`, so
it is a positive multiple of 4 MiB below `2^32`; its value is a parameter of the model. -/
structure KernelSplit where
  addr : Nat
  pos : 0 < addr
  aligned : addr % 0x400000 = 0
  lt : addr < 2 ^ 32

theorem KernelSplit.pages_lt (split : KernelSplit) : 2 ^ 20 ≤ split.addr := by
  have := split.pos
  have := split.aligned
  omega

/-- The split at the platform's `LINKED_BASE = 0xe0000000`, where the kernel is linked. -/
def KernelSplit.linkedBase : KernelSplit := ⟨0xe0000000, by decide, by decide, by decide⟩

end Ockernel
