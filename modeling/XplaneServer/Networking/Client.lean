/-
  Networking/Client.lean --- `Client`, from src/Networking/Client.cpp.

  The receive path goes through a fixed buffer: `recv` stores its bytes at the
  start of `_buffer`, its count is thrown away, and `getAndEmptyBuffer` recovers
  the length from the first NUL.  A full buffer may have none, and the scan then runs
  on into the member declared after it.  The model follows it there: it takes
  `_dataInBuffer` to lie directly behind `_buffer`, its bytes least significant
  first, and calls undefined only a scan that leaves the object.  By the standard the
  scan is undefined as soon as it leaves `_buffer`, which `Networking.Checked` has.
-/
import XplaneServer.Platform

set_option autoImplicit false

namespace XplaneServer.Networking

open Foundation

/-- `MAX_BUFFER_SIZE` -/
def MAX_BUFFER_SIZE : Nat := 2048

/-- `char _buffer[MAX_BUFFER_SIZE]` -/
structure Buffer where
  bytes : Bytes
  size_eq : bytes.length = MAX_BUFFER_SIZE

/-- What one successful `recv` of at most `MAX_BUFFER_SIZE` bytes stores. -/
structure Chunk where
  bytes : Bytes
  length_pos : 0 < bytes.length
  length_le : bytes.length ≤ MAX_BUFFER_SIZE
  deriving DecidableEq

/-- The outcomes of `recv(sock, _buffer, MAX_BUFFER_SIZE, 0)`. -/
inductive RecvOutcome where
  /-- bytes arrived and were stored -/
  | data (chunk : Chunk)
  /-- the peer has closed the connection -/
  | closed
  /-- `SOCKET_ERROR`, with the code of `WSAGetLastError` -/
  | error (code : Int)
  deriving DecidableEq

namespace Buffer

/-- `memset(_buffer, 0x00, MAX_BUFFER_SIZE)` -/
def zero : Buffer := ⟨List.replicate MAX_BUFFER_SIZE 0, List.length_replicate⟩

/-- The buffer after `recv` stored a chunk at its start. -/
def store (b : Buffer) (chunk : Chunk) : Buffer where
  bytes := chunk.bytes ++ b.bytes.drop chunk.bytes.length
  size_eq := by
    have hsize := b.size_eq
    have hle := chunk.length_le
    rw [List.length_append, List.length_drop]
    omega

end Buffer

/-- The bytes of an `int` in memory, least significant first. -/
def intBytes (i : Int32) : Bytes :=
  let n := i.toUInt32.toNat
  [n.toUInt8, (n / 2 ^ 8).toUInt8, (n / 2 ^ 16).toUInt8, (n / 2 ^ 24).toUInt8]

/-- The data members of `class Client`. -/
structure Client where
  sock : SOCKET
  buffer : Buffer
  dataInBuffer : Int32

namespace Client

/-- `Client(SOCKET socket)` -/
def ofSocket (socket : SOCKET) : Client :=
  { sock := socket, buffer := .zero, dataInBuffer := 0 }

/-- `Client::receiveTCPData`: the value it returns, and the client after it. -/
def receiveTCPData (c : Client) : RecvOutcome → Int × Client
  | .data chunk => (chunk.bytes.length, { c with buffer := c.buffer.store chunk })
  | .closed => (0, c)
  | .error code => if code = WSAEWOULDBLOCK then (0, c) else (SOCKET_ERROR, c)

/-- The object from `_buffer` on, as a scan from `_buffer` sees it, if the members are
laid out in the order of their declaration without a gap. -/
def memory (c : Client) : Bytes := c.buffer.bytes ++ intBytes c.dataInBuffer

/-- `Client::getAndEmptyBuffer`: the string it returns, and the client after it.
`_dataInBuffer` is converted to `size_t` for `substr`. -/
def getAndEmptyBuffer (c : Client) : Except Halt (Bytes × Client) :=
  match stringOfPointer c.memory with
  | none => .error (.ub .overread)
  | some output =>
      match substr output c.dataInBuffer.toUInt32.toNat with
      | none => .error (.exn .outOfRange)
      | some output => .ok (output, { c with buffer := .zero })

/-! ## Clean clients -/

/-- A client between two receives: an all-zero buffer, and `_dataInBuffer` as
the constructor left it. -/
def Clean (c : Client) : Prop := c.buffer = .zero ∧ c.dataInBuffer = 0

theorem clean_ofSocket (s : SOCKET) : (ofSocket s).Clean := ⟨rfl, rfl⟩

/-- Only a `recv` that stored bytes makes `receiveTCPData` positive. -/
theorem receiveTCPData_pos_iff (c : Client) (o : RecvOutcome) :
    0 < (c.receiveTCPData o).1 ↔ ∃ chunk, o = .data chunk := by
  cases o with
  | data chunk =>
      have hpos := chunk.length_pos
      simp [receiveTCPData]
      omega
  | closed => simp [receiveTCPData]
  | error code =>
      simp only [receiveTCPData]
      split <;> simp [SOCKET_ERROR]

/-- A `recv` without bytes leaves the client as it was. -/
theorem receiveTCPData_eq_self {c : Client} {o : RecvOutcome}
    (h : ∀ chunk, o ≠ .data chunk) : (c.receiveTCPData o).2 = c := by
  cases o with
  | data chunk => exact absurd rfl (h chunk)
  | closed => rfl
  | error code =>
      simp only [receiveTCPData]
      split <;> rfl

/-- The memory of a clean client after a chunk: the chunk, and a NUL at once. -/
theorem memory_store {c : Client} (hc : c.Clean) (chunk : Chunk) :
    ∃ rest, (c.receiveTCPData (.data chunk)).2.memory = chunk.bytes ++ 0 :: rest := by
  obtain ⟨hbuffer, hdata⟩ := hc
  have hint : intBytes 0 = List.replicate 4 0 := by decide
  refine ⟨List.replicate (MAX_BUFFER_SIZE - chunk.bytes.length + 3) 0, ?_⟩
  simp only [memory, receiveTCPData, Buffer.store, hbuffer, hdata, hint, Buffer.zero]
  rw [List.append_assoc, List.drop_replicate, List.replicate_append_replicate,
    ← List.replicate_succ]

/-- **Receive and empty.**  From a clean client, a chunk is handed on up to its
first NUL, and the client is clean again. -/
theorem getAndEmptyBuffer_receive {c : Client} (hc : c.Clean) (chunk : Chunk) :
    (c.receiveTCPData (.data chunk)).2.getAndEmptyBuffer =
      .ok (beforeNul chunk.bytes, c) := by
  obtain ⟨rest, hmemory⟩ := memory_store hc chunk
  have hscan : stringOfPointer (c.receiveTCPData (.data chunk)).2.memory =
      some (beforeNul chunk.bytes) := by
    rw [hmemory, stringOfPointer, if_pos (by simp), beforeNul_append_nul]
  obtain ⟨sock, buffer, dataInBuffer⟩ := c
  obtain ⟨hbuffer, hdata⟩ := hc
  simp only at hbuffer hdata
  subst hbuffer hdata
  have hpos : (0 : Int32).toUInt32.toNat = 0 := rfl
  unfold getAndEmptyBuffer
  rw [hscan]
  simp [receiveTCPData, substr, hpos]

/-! ## Exact delivery -/

/-- The scan for the end of the string stays inside `_buffer`, and the string is
the received chunk, no byte missing and none added. -/
def DeliversExactly (c : Client) (chunk : Chunk) : Prop :=
  (beforeNul (c.receiveTCPData (.data chunk)).2.memory).length < MAX_BUFFER_SIZE ∧
    ∃ emptied, (c.receiveTCPData (.data chunk)).2.getAndEmptyBuffer = .ok (chunk.bytes, emptied)

/-- Both depend on the first NUL of the chunk. -/
theorem deliversExactly_iff_beforeNul {c : Client} (hc : c.Clean) (chunk : Chunk) :
    c.DeliversExactly chunk ↔
      (beforeNul chunk.bytes).length < MAX_BUFFER_SIZE ∧ beforeNul chunk.bytes = chunk.bytes := by
  obtain ⟨rest, hmemory⟩ := memory_store hc chunk
  unfold DeliversExactly
  rw [getAndEmptyBuffer_receive hc, hmemory, beforeNul_append_nul]
  simp

/-- **Exact delivery, exactly**: a chunk without a NUL that does not fill the
buffer. -/
theorem deliversExactly_iff {c : Client} (hc : c.Clean) (chunk : Chunk) :
    c.DeliversExactly chunk ↔
      (0 : UInt8) ∉ chunk.bytes ∧ chunk.bytes.length < MAX_BUFFER_SIZE := by
  rw [deliversExactly_iff_beforeNul hc, beforeNul_eq_self_iff, and_comm]
  refine and_congr_right fun hnul => ?_
  rw [beforeNul_eq_self hnul]

/-- A NUL between two letters. -/
def nulChunk : Chunk := ⟨[97, 0, 98], Nat.succ_pos 2, by unfold MAX_BUFFER_SIZE; simp⟩

/-- A buffer full of letters. -/
def fullChunk : Chunk where
  bytes := List.replicate MAX_BUFFER_SIZE 97
  length_pos := by rw [List.length_replicate, MAX_BUFFER_SIZE]; omega
  length_le := by rw [List.length_replicate]

/-- The equivalence for a new client. -/
theorem deliversExactly_iff_ofSocket :
    (ofSocket 7).DeliversExactly nulChunk ↔
      (0 : UInt8) ∉ nulChunk.bytes ∧ nulChunk.bytes.length < MAX_BUFFER_SIZE :=
  deliversExactly_iff (clean_ofSocket 7) nulChunk

/-- The letter after the NUL is lost, and the scan of the full buffer leaves it. -/
theorem not_deliversExactly_samples :
    ¬ (ofSocket 7).DeliversExactly nulChunk ∧ ¬ (ofSocket 7).DeliversExactly fullChunk := by
  rw [deliversExactly_iff_beforeNul (clean_ofSocket 7),
    deliversExactly_iff_beforeNul (clean_ofSocket 7)]
  constructor
  · rintro ⟨-, hsame⟩
    revert hsame
    decide
  · rintro ⟨hinside, -⟩
    have hnul : (0 : UInt8) ∉ fullChunk.bytes := by
      intro hmem
      exact absurd (List.eq_of_mem_replicate hmem) (by decide)
    rw [beforeNul_eq_self hnul, fullChunk, List.length_replicate] at hinside
    omega

end Client

end XplaneServer.Networking
