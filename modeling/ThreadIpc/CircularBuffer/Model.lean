import ThreadIpc.Lib.Ring

/-!
# `CircularBuffer`

`buffer_` is only null or not; its bytes are a memory of their own, since the block may be shared.
A read returns the bytes it copies, a write the stores it makes. Sizes are below half of the address
space, so no sum wraps. The loops stop with a fault where the code asserts, divides by zero or
copies past the end of the block.
-/

namespace ThreadIpc

inductive BufferFault
  | badBuffer
  | divideByZero
  | thirdIteration
  | zeroCopy
  | outOfBounds
  deriving DecidableEq, Repr

structure CircularBuffer where
  head : Nat
  tail : Nat
  capacity : Nat
  bufSize : Nat
  buffer : Bool
  deriving DecidableEq, Repr

namespace CircularBuffer

def new : CircularBuffer where
  head := 0
  tail := 0
  capacity := 0
  bufSize := 0
  buffer := false

def setBuffer (buffer : Bool) (size : Nat) : Except BufferFault CircularBuffer :=
  if (buffer && size != 0) || (!buffer && size == 0) then
    .ok ⟨0, 0, if buffer then size - 1 else 0, size, buffer⟩
  else .error .badBuffer

def setHead (buf : CircularBuffer) (head : Nat) : Option CircularBuffer :=
  if !buf.buffer || buf.bufSize ≤ head then none else some { buf with head := head }

def setTail (buf : CircularBuffer) (tail : Nat) : Option CircularBuffer :=
  if !buf.buffer || buf.bufSize ≤ tail then none else some { buf with tail := tail }

def modulo (value size : Nat) : Except BufferFault Nat :=
  if size = 0 then .error .divideByZero else .ok (value % size)

def isEmpty (buf : CircularBuffer) : Bool :=
  buf.tail = buf.head

def isFull (buf : CircularBuffer) : Except BufferFault Bool := do
  let next ← modulo (buf.tail + 1) buf.bufSize
  .ok (next = buf.head)

def dataAvailable (buf : CircularBuffer) : Nat :=
  if buf.tail ≥ buf.head then buf.tail - buf.head
  else buf.bufSize - buf.head + buf.tail

def spaceAvailable (buf : CircularBuffer) : Nat :=
  buf.capacity - buf.dataAvailable

def contiguousDataAvailable (buf : CircularBuffer) : Nat :=
  if buf.tail ≥ buf.head then buf.tail - buf.head else buf.bufSize - buf.head

def contiguousSpaceAvailable (buf : CircularBuffer) : Except BufferFault Nat := do
  if ← buf.isFull then .ok 0
  else if buf.head > buf.tail then .ok (buf.head - buf.tail - 1)
  else
    let contig := buf.bufSize - buf.tail
    .ok (if buf.head = 0 then contig - 1 else contig)

def advanceHead (buf : CircularBuffer) (amt : Nat) : Except BufferFault (Nat × CircularBuffer) := do
  let amt := min amt buf.dataAvailable
  let head ← modulo (buf.head + amt) buf.bufSize
  .ok (amt, { buf with head := head })

def advanceTail (buf : CircularBuffer) (amt : Nat) : Except BufferFault (Nat × CircularBuffer) := do
  let amt := min amt buf.spaceAvailable
  let tail ← modulo (buf.tail + amt) buf.bufSize
  .ok (amt, { buf with tail := tail })

def copyOut (memory : Nat → UInt8) (bufSize position amount : Nat) :
    Except BufferFault (List UInt8) :=
  if position + amount ≤ bufSize then
    .ok ((List.range amount).map fun i => memory (position + i))
  else .error .outOfBounds

def copyIn (bufSize position : Nat) (data : List UInt8) :
    Except BufferFault (List (Nat × UInt8)) :=
  if position + data.length ≤ bufSize then .ok ((List.range' position data.length).zip data)
  else .error .outOfBounds

def readLoop (memory : Nat → UInt8) : Nat → CircularBuffer → Nat →
    Except BufferFault (CircularBuffer × List UInt8)
  | _, buf, 0 => .ok (buf, [])
  | 0, _, _ + 1 => .error .thirdIteration
  | iters + 1, buf, remaining + 1 => do
      let readAmount := min (remaining + 1) buf.contiguousDataAvailable
      if readAmount = 0 then .error .zeroCopy
      else do
        let copied ← copyOut memory buf.bufSize buf.head readAmount
        let head ← modulo (buf.head + readAmount) buf.bufSize
        let (buf, later) ←
          readLoop memory iters { buf with head := head } (remaining + 1 - readAmount)
        .ok (buf, copied ++ later)

def read (memory : Nat → UInt8) (buf : CircularBuffer) (size : Nat) :
    Except BufferFault (CircularBuffer × List UInt8) :=
  readLoop memory 2 buf (min size buf.dataAvailable)

def peek (memory : Nat → UInt8) (buf : CircularBuffer) (size : Nat) :
    Except BufferFault (CircularBuffer × List UInt8) := do
  let (after, data) ← read memory buf size
  .ok ({ after with head := buf.head }, data)

def writeLoop : Nat → CircularBuffer → List UInt8 →
    Except BufferFault (CircularBuffer × List (Nat × UInt8))
  | _, buf, [] => .ok (buf, [])
  | 0, _, _ :: _ => .error .thirdIteration
  | iters + 1, buf, data => do
      let contiguous ← buf.contiguousSpaceAvailable
      let writeAmount := min data.length contiguous
      if writeAmount = 0 then .error .zeroCopy
      else do
        let copied ← copyIn buf.bufSize buf.tail (data.take writeAmount)
        let tail ← modulo (buf.tail + writeAmount) buf.bufSize
        let (buf, later) ← writeLoop iters { buf with tail := tail } (data.drop writeAmount)
        .ok (buf, copied ++ later)

def write (buf : CircularBuffer) (data : List UInt8) :
    Except BufferFault (CircularBuffer × List (Nat × UInt8)) :=
  writeLoop 2 buf (data.take (min data.length buf.spaceAvailable))

end CircularBuffer

end ThreadIpc
