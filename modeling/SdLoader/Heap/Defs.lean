import SdLoader.Lib.Blocks
import SdLoader.Lib.Loop
import SdLoader.Lib.Machine
import SdLoader.Lib.Store

/-!
# The heap

`bdk/mem/heap.c`, as it is built here: with the joining of free nodes.

A node is a header of 32 bytes in memory, in front of the bytes that were asked for.  The headers
are a doubly linked list, and nothing keeps a store through a pointer from hitting one of them.
Memory is bytes; the four fields are words, and addresses and sizes are 32-bit numbers.

* `heapAlloc` and `heapFree` — `_heap_alloc` and `_heap_free`; `malloc`, `calloc`, `zalloc` and
  `free` are made of them, and `heapMonitor` counts the nodes.
* `Call` — what the rest of the program does with the heap: it calls one of these, or it stores
  something in a buffer.
* `Sys.step` — one such call.  Next to memory and the heap a `Sys` has the ledger of the callers:
  each buffer that was handed out and not given back, with what its owner has put there.

A loop over the nodes has as many passes as there can be headers in 4 GiB.  One that is not over by
then goes in circles, and the call does not return: `none`.
-/

set_option autoImplicit false

namespace SdLoader
namespace Heap

open Loop (Pass)

abbrev Mem := ℕ → UInt8

/-- `sizeof(hnode_t)` -/
def hnodeSize : ℕ := 32

/-- `ALIGN(size, sizeof(hnode_t))` -/
def alignUp (size : ℕ) : ℕ := (size + (hnodeSize - 1)) % 2 ^ 32 / hnodeSize * hnodeSize

/-- `heap_t` -/
structure HeapT where
  start : ℕ
  first : ℕ
  last : ℕ

/-! ## Nodes -/

/-- `node->used` -/
def usedAt (m : Mem) (node : ℕ) : ℕ := Store.word m node

/-- `node->size` -/
def sizeAt (m : Mem) (node : ℕ) : ℕ := Store.word m (node + 4)

/-- `node->prev` -/
def prevAt (m : Mem) (node : ℕ) : ℕ := Store.word m (node + 8)

/-- `node->next` -/
def nextAt (m : Mem) (node : ℕ) : ℕ := Store.word m (node + 12)

/-- A word is stored. -/
def setWord (m : Mem) (a v : ℕ) : Mem := Store.blit m a 4 (Store.wordByte v)

def setUsed (m : Mem) (node v : ℕ) : Mem := setWord m node v

def setSize (m : Mem) (node v : ℕ) : Mem := setWord m (node + 4) v

def setPrev (m : Mem) (node v : ℕ) : Mem := setWord m (node + 8) v

def setNext (m : Mem) (node v : ℕ) : Mem := setWord m (node + 12) v

/-- The most headers there can be in 4 GiB, and one more. -/
def nodeLimit : ℕ := 2 ^ 27 + 1

/-! ## Allocation -/

/-- The address behind the bytes of a node whose size is `size`. -/
def behind (node size : ℕ) : ℕ := (node + hnodeSize + size) % 2 ^ 32

/-- How the search for a node ends. -/
inductive Found
  /-- At an unused node that is large enough. -/
  | unused (node : ℕ)
  /-- At the last node. -/
  | last (node : ℕ)

/-- The body of the loop of `_heap_alloc`. -/
def seekPass (m : Mem) (size node : ℕ) : Pass ℕ Found :=
  if usedAt m node = 0 ∧ size ≤ sizeAt m node then .leave (.unused node)
  else if nextAt m node ≠ 0 then .again (nextAt m node)
  else .leave (.last node)

/-- An unused node is cut in two: `size` bytes of it are taken, and `newSize` are left over. -/
def cutNode (m : Mem) (node size newSize : ℕ) : Mem :=
  let newNode := behind node size
  let m := setSize m newNode (newSize - hnodeSize)
  let m := setUsed m newNode 0
  let m := setNext m newNode (nextAt m node)
  let m := if nextAt m newNode ≠ 0 then setPrev m (nextAt m newNode) newNode else m
  let m := setPrev m newNode node
  let m := setNext m node newNode
  setUsed (setSize m node size) node 1

/-- An unused node is taken, and cut in two if four headers or more are left of it. -/
def takeNode (m : Mem) (node size : ℕ) : Mem :=
  let newSize := sizeAt m node - size
  if hnodeSize * 4 ≤ newSize then cutNode m node size newSize
  else setUsed (setSize m node (size + newSize)) node 1

/-- A new node behind the last one. -/
def appendNode (m : Mem) (node size : ℕ) : Mem :=
  let newNode := behind node (sizeAt m node)
  let m := setUsed m newNode 1
  let m := setSize m newNode size
  let m := setPrev m newNode node
  let m := setNext m newNode 0
  setNext m node newNode

/-- `_heap_create` -/
def heapCreate (start : ℕ) : HeapT := { start, first := 0, last := 0 }

/-- `_heap_alloc`: memory, the heap and the address of the buffer. -/
def heapAlloc (m : Mem) (h : HeapT) (size : ℕ) : Option (Mem × HeapT × ℕ) :=
  let size := alignUp size
  if h.first = 0 then
    let m := setUsed m h.start 1
    let m := setSize m h.start size
    let m := setPrev m h.start 0
    let m := setNext m h.start 0
    some (m, { h with first := h.start, last := h.start }, behind h.start 0)
  else
    match Loop.run (seekPass m size) nodeLimit h.first with
    | .again _ => none
    | .leave (.unused node) => some (takeNode m node size, h, behind node 0)
    | .leave (.last node) =>
      let newNode := behind node (sizeAt m node)
      some (appendNode m node size, { h with last := newNode }, behind newNode 0)

/-! ## Release -/

/-- The body of the loop of `_heap_free`. -/
def defragPass : Mem × ℕ → Pass (Mem × ℕ) Mem
  | (m, node) =>
    if node = 0 then .leave m
    else if usedAt m node = 0 ∧ prevAt m node ≠ 0 ∧ usedAt m (prevAt m node) = 0 then
      let prev := prevAt m node
      let m := setSize m prev ((sizeAt m prev + (sizeAt m node + hnodeSize)) % 2 ^ 32)
      let m := setNext m prev (nextAt m node)
      let m := if nextAt m node ≠ 0 then setPrev m (nextAt m node) (prevAt m node) else m
      .again (m, nextAt m node)
    else .again (m, nextAt m node)

/-- `_heap_free` -/
def heapFree (m : Mem) (h : HeapT) (addr : ℕ) : Option Mem :=
  let node := (addr + (2 ^ 32 - hnodeSize)) % 2 ^ 32
  match Loop.run defragPass nodeLimit (setUsed m node 0, h.first) with
  | .again _ => none
  | .leave m => some m

/-! ## The interface -/

/-- `malloc` -/
def malloc (m : Mem) (h : HeapT) (size : ℕ) : Option (Mem × HeapT × ℕ) := heapAlloc m h size

/-- `calloc` -/
def calloc (m : Mem) (h : HeapT) (num size : ℕ) : Option (Mem × HeapT × ℕ) :=
  (heapAlloc m h (num * size % 2 ^ 32)).map fun (m, h, res) ↦
    (Store.fill m res (alignUp (num * size % 2 ^ 32)) 0, h, res)

/-- `zalloc` -/
def zalloc (m : Mem) (h : HeapT) (size : ℕ) : Option (Mem × HeapT × ℕ) :=
  (heapAlloc m h size).map fun (m, h, res) ↦ (Store.fill m res (alignUp size) 0, h, res)

/-- `free` -/
def free (m : Mem) (h : HeapT) (buf : ℕ) : Option Mem :=
  if h.start ≤ buf then heapFree m h buf else some m

/-- `heap_monitor_t` -/
structure Monitor where
  total : ℕ
  used : ℕ
  nodesTotal : ℕ
  nodesUsed : ℕ
  deriving DecidableEq

/-- The body of the loop of `heap_monitor`, which leaves it with `count` in `nodesTotal`. -/
def monitorPass (m : Mem) : ℕ × Monitor → Pass (ℕ × Monitor) Monitor
  | (node, mon) =>
    let bytes := sizeAt m node + hnodeSize
    let mon :=
      if usedAt m node ≠ 0 then
        { mon with nodesUsed := mon.nodesUsed + 1, used := (mon.used + bytes) % 2 ^ 32 }
      else { mon with total := (mon.total + bytes) % 2 ^ 32 }
    let mon := { mon with nodesTotal := mon.nodesTotal + 1 }
    if nextAt m node ≠ 0 then .again (nextAt m node, mon) else .leave mon

/-- `heap_monitor` -/
def heapMonitor (m : Mem) (h : HeapT) : Option Monitor :=
  match Loop.run (monitorPass m) nodeLimit (h.first, ⟨0, 0, 0, 0⟩) with
  | .again _ => none
  | .leave mon => some { mon with total := (mon.total + mon.used) % 2 ^ 32 }

/-! ## The callers -/

/-- What is done with the heap. -/
inductive Call
  | malloc (size : ℕ)
  | calloc (num size : ℕ)
  | zalloc (size : ℕ)
  | free (buf : ℕ)
  /-- `data` is stored in a buffer, `off` bytes behind its start. -/
  | store (buf off : ℕ) (data : List UInt8)

/-- Memory, the heap, and the ledger of the callers. -/
structure Sys where
  mem : Mem
  heap : HeapT
  /-- The buffers that were handed out and not given back, with what their owners know of them. -/
  ledger : List (ℕ × List UInt8)

/-- `data` put in place of what is `off` bytes behind the start of `bytes`. -/
def overwrite (bytes : List UInt8) (off : ℕ) (data : List UInt8) : List UInt8 :=
  bytes.take off ++ data ++ bytes.drop (off + data.length)

/-- One call; `none` if it does not return. -/
def Sys.call (s : Sys) : Call → Option Sys
  | .malloc size => (Heap.malloc s.mem s.heap size).map fun (mem, heap, buf) ↦
      { mem, heap, ledger := (buf, Store.slice mem buf size) :: s.ledger }
  | .calloc num size => (Heap.calloc s.mem s.heap num size).map fun (mem, heap, buf) ↦
      { mem, heap, ledger := (buf, List.replicate (num * size) 0) :: s.ledger }
  | .zalloc size => (Heap.zalloc s.mem s.heap size).map fun (mem, heap, buf) ↦
      { mem, heap, ledger := (buf, List.replicate size 0) :: s.ledger }
  | .free buf => (Heap.free s.mem s.heap buf).map fun mem ↦
      { s with mem, ledger := s.ledger.filter fun e ↦ e.1 ≠ buf }
  | .store buf off data => some
      { s with
        mem := Store.blit s.mem (buf + off) data.length fun k ↦ data.getD k 0
        ledger := s.ledger.map fun e ↦
          if e.1 = buf then (buf, overwrite e.2 off data) else e }

end Heap
end SdLoader
