import LibuvNet.Foundation.BorrowedWrite
import LibuvNet.Wire.Message

/-!
# Handles of the event loop

What the library observes of a libuv TCP handle and of a timer, and what each call it makes does
to them; `UvTcp.readStart` stands for `uv_read_start`, and so on.  `uv_close` makes a handle
inactive and closing at once and leaves its callback for a later turn of the loop; it also takes
the unfinished writes off the queue, to be reported as canceled.

Two calls that the library can make are not allowed by libuv: starting a handle over whose close
is pending, and closing a handle that was never initialised.  They have some effect here, so that
the run goes on; behind one of them it may do more than the program can.
-/

namespace LibuvNet

open Foundation

/-- `uv_tcp_t`.  The three counts of requests are of those whose callback is due. -/
structure UvTcp where
  initialised : Bool
  active : Bool
  closing : Bool
  reading : Bool
  connectReqs : ℕ
  closeCalls : ℕ
  closeReqs : ℕ
  canceledWrites : ℕ
  writer : Writer UInt8
  deriving DecidableEq

namespace UvTcp

/-- A handle of which no call has been made, on memory in which `uv_is_active` and `uv_is_closing`
find these flags.  Nothing but these two reads a handle before `uv_tcp_init`, unless it is passed
to `uv_close`. -/
def raw (active closing : Bool) : UvTcp where
  initialised := false
  active := active
  closing := closing
  reading := false
  connectReqs := 0
  closeCalls := 0
  closeReqs := 0
  canceledWrites := 0
  writer := .idle

/-- `uv_tcp_init`.  On a handle whose close is pending it is not allowed: the callbacks that are due
stay due here, where the loop of libuv aborts when it comes to finish the close, or forgets to call
back. -/
def init (socket : UvTcp) : UvTcp :=
  { socket with
    initialised := true
    active := false
    closing := false
    reading := false
    writer := { Writer.idle with completed := socket.writer.completed } }

def connect (socket : UvTcp) : UvTcp :=
  { socket with active := true, connectReqs := socket.connectReqs + 1 }

/-- The callback of a connect request is about to be called.  The handle is active only for as long
as it does something. -/
def connectDone (socket : UvTcp) : UvTcp :=
  { socket with active := socket.reading, connectReqs := socket.connectReqs - 1 }

def readStart (socket : UvTcp) : UvTcp :=
  { socket with active := true, reading := true }

def readStop (socket : UvTcp) : UvTcp :=
  { socket with reading := false }

/-- `uv_close`, with or without a callback. -/
def close (socket : UvTcp) (callback : Bool) : UvTcp :=
  { socket with
    active := false
    closing := true
    reading := false
    closeCalls := socket.closeCalls + 1
    closeReqs := socket.closeReqs + callback.toNat
    canceledWrites := socket.canceledWrites + socket.writer.queue.length
    writer := { socket.writer with queue := [] } }

def transmit (heap : Memory UInt8) (socket : UvTcp) (count : ℕ) : UvTcp :=
  { socket with writer := socket.writer.take heap count }

/-- A write callback of this status can be due: of a write that was finished, of one that
`uv_close` canceled, or of the oldest unfinished one, which has failed. -/
def CanReportWrite (socket : UvTcp) (status : ℤ) : Prop :=
  if status < 0 then 0 < socket.canceledWrites ∨ socket.writer.queue ≠ []
  else 0 < socket.writer.completed

instance (socket : UvTcp) (status : ℤ) : Decidable (socket.CanReportWrite status) := by
  unfold CanReportWrite
  infer_instance

def reportWrite (socket : UvTcp) (status : ℤ) : UvTcp :=
  if status < 0 then
    if 0 < socket.canceledWrites then
      { socket with canceledWrites := socket.canceledWrites - 1 }
    else { socket with writer := { socket.writer with queue := socket.writer.queue.tail } }
  else
    { socket with writer := { socket.writer with completed := socket.writer.completed - 1 } }

/-- Only the account of its writes is another. -/
theorem reportWrite_eq (socket : UvTcp) (status : ℤ) :
    ∃ canceledWrites writer, socket.reportWrite status =
      { socket with canceledWrites := canceledWrites, writer := writer } := by
  unfold reportWrite
  split_ifs <;> exact ⟨_, _, rfl⟩

end UvTcp

/-- `uv_timer_t` with a repeat interval. -/
structure UvTimer where
  active : Bool
  due : ℕ
  interval : ℕ
  deriving DecidableEq, Repr

namespace UvTimer

def init : UvTimer := ⟨false, 0, 0⟩

def start (now timeout interval : ℕ) : UvTimer := ⟨true, now + timeout, interval⟩

def stop (timer : UvTimer) : UvTimer := { timer with active := false }

/-- The loop arms a repeating timer again before it calls back. -/
def again (timer : UvTimer) (now : ℕ) : UvTimer := { timer with due := now + timer.interval }

end UvTimer

/-- What a call of `uv_write` meets: where its data was allocated, what the unwritten padding of
the header held, its result, and how many bytes the transport takes during the call. -/
structure WriteCall where
  address : ℕ
  padding : Padding
  result : ℤ
  taken : ℕ
  deriving DecidableEq

/-- The bytes that `uv_buf_init(data.data(), data.size())` describes: its second parameter is an
`unsigned int`. -/
def uvBufInit (data : Bytes) : Bytes := data.take (data.length % 2 ^ 32)

theorem uvBufInit_length (data : Bytes) : (uvBufInit data).length = data.length % 2 ^ 32 := by
  rw [uvBufInit, List.length_take]
  exact Nat.min_eq_left (Nat.mod_le _ _)

theorem uvBufInit_length_le (data : Bytes) : (uvBufInit data).length ≤ data.length := by
  rw [uvBufInit_length]
  exact Nat.mod_le _ _

theorem take_uvBufInit_length (data : Bytes) :
    data.take (uvBufInit data).length = uvBufInit data := by
  rw [uvBufInit_length, uvBufInit]

/-- A vector of fewer bytes is described whole. -/
theorem uvBufInit_of_lt {data : Bytes} (hlength : data.length < 2 ^ 32) :
    uvBufInit data = data := by
  rw [uvBufInit, Nat.mod_eq_of_lt hlength, List.take_length]

/-- The common part of the two `send` functions.  `data` is a local vector: its cell is allocated
for the call and released when the function returns, whether or not `uv_write` is done with it. -/
def writeLocal (host : Host) (packet : Packet) (write : WriteCall) (heap : Memory UInt8)
    (socket : UvTcp) : Memory UInt8 × UvTcp :=
  let data := packet.serialize host write.padding
  let address := heap.place write.address
  let allocated := heap.allocate write.address data
  let buf := uvBufInit data
  let written :=
    if write.result ≠ 0 then socket
    else
      { socket with
        writer := socket.writer.submit allocated address data buf.length write.taken }
  (allocated.release address, written)

section WriteLocal

variable (host : Host) (packet : Packet) {write : WriteCall} (heap : Memory UInt8)
  (socket : UvTcp)

theorem writeLocal_accepted (hresult : write.result = 0) :
    (writeLocal host packet write heap socket).2 =
      { socket with
        writer := socket.writer.submit
          (heap.allocate write.address (packet.serialize host write.padding))
          (heap.place write.address) (packet.serialize host write.padding)
          (uvBufInit (packet.serialize host write.padding)).length write.taken } := by
  simp only [writeLocal, hresult, ne_eq, not_true_eq_false, if_false]

theorem writeLocal_rejected (hresult : write.result ≠ 0) :
    (writeLocal host packet write heap socket).2 = socket :=
  if_pos hresult

/-- Of the handle a write changes the unfinished and finished writes only. -/
theorem writeLocal_socket (write : WriteCall) :
    ∃ writer, (writeLocal host packet write heap socket).2 = { socket with writer := writer } := by
  simp only [writeLocal]
  split
  · exact ⟨socket.writer, rfl⟩
  · exact ⟨_, rfl⟩

/-- After the call the vector has no owner any more. -/
theorem writeLocal_live : (writeLocal host packet write heap socket).1.live = heap.live :=
  heap.release_allocate_live write.address _

end WriteLocal

end LibuvNet
