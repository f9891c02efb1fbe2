import CoroutineService.Http.DoRequest
import CoroutineService.Http.Write

/-!
# A connection

`handleClient` reads what has come, processes it and writes the response, over and over
until one of the three fails. What it works on is one element of the array `users`, which
belongs to a descriptor number and not to a connection: it is used again, with `init()`
between two requests and between two connections.

## Main definitions

* `HttpConn`: an `http_conn`
* `Backend.answer`: `do_request` with all that it leaves behind
* `Backend.processRead`, `Backend.process`, `HttpConn.write`
* `Backend.pass`: one pass through the loop of `handleClient`

## Main results

* `Backend.doRequest_eq_answer`: what `do_request` answers
* `Conn.init_of_write`, `HttpConn.reader_of_write`: when `write` has called `init()`
-/

set_option autoImplicit false

namespace CoroutineService.Http

open CString

/-- An `http_conn`: the members that concern a request and those that concern a response. -/
structure HttpConn where
  reader : Reader
  conn : Conn

/-- `init(client, ..., keepalive)`. -/
def HttpConn.init (c : HttpConn) (keepalive : Bool) : HttpConn :=
  ⟨c.reader.init, { c.conn with linger := keepalive }.init⟩

/-- What `do_request` or `process_read` returns and leaves behind: the path that `stat` was
called with, and `st_size`. -/
structure Answer where
  ret : HttpCode
  path : Option (List Char)
  size : ℕ
  users : Users
  reader : Reader

/-- The bytes of an `http_conn` from `m_read_buf` on. Behind it stand `m_read_idx`,
`m_checked_idx` and `m_start_line`. What has not been read into is taken to be zero, also where
an earlier page has left something. -/
def Reader.image (r : Reader) : List Char :=
  r.readBuf ++ (List.replicate (readBufferSize - r.readIdx) '\x00' ++
    (bytesOf 8 r.readIdx ++ (bytesOf 8 r.checkedIdx ++ bytesOf 4 r.startLine)))

/-- The members that are found in these bytes. No others are known behind them. -/
def Reader.ofImage (r : Reader) (m : List Char) : Reader :=
  let readIdx := numberIn ((m.drop readBufferSize).take 8)
  { r with
    readBuf := m.take readIdx ++ List.replicate (readIdx - m.length) '\x00'
    checkedIdx := numberIn ((m.drop (readBufferSize + 8)).take 8)
    startLine := numberIn ((m.drop (readBufferSize + 16)).take 4) }

/-- The reader after a page has been copied to a place. The page may run over the end of
`m_read_buf`. -/
def Reader.copied (r : Reader) (url : ℕ) (page : List Char) : Reader :=
  r.ofImage (store r.image url (page ++ ['\x00']))

/-- The reader after `do_request`. The page for a form is copied to `m_url`. -/
def Reader.rewritten (r : Reader) (s : Prepared) : Reader :=
  match r.url, s.scanned with
  | some p, some _ => r.copied p s.url
  | _, _ => r

/-- What `process` returns and leaves behind. -/
structure Processed where
  value : Bool
  conn : HttpConn
  users : Users
  path : Option (List Char)

namespace Backend

variable (b : Backend) (proxy : ProxyType)

/-- The `st_size` of the file. -/
def fileSize (path : List Char) : ℕ :=
  match b.stat path with
  | none => 0
  | some stat => stat.size

/-- `do_request`. -/
def answer (decideProxy : Bool) (users : Users) (r : Reader) : Except Fault Answer :=
  if mismatch proxy decideProxy then .ok ⟨.badRequest, none, 0, users, r⟩
  else do
    let s ← b.prepare users r
    let ret ← b.finish s
    let path := strAt s.realFile 0
    return ⟨ret, some path, b.fileSize path, s.users, r.rewritten s⟩

/-- The end of `process_read`. -/
def conclude (users : Users) : Exit × Bool × Reader → Except Fault Answer
  | (.bad, _, r) => .ok ⟨.badRequest, none, 0, users, r⟩
  | (.request, decideProxy, r) => b.answer proxy decideProxy users r
  | (.left, decideProxy, r) =>
    .ok ⟨if mismatch proxy decideProxy then .badRequest else .noRequest, none, 0, users, r⟩
  | (.fault, _, _) => .error .parsing

/-- `process_read`. -/
def processRead (users : Users) (r : Reader) : Except Fault Answer :=
  b.conclude proxy users (r.loop proxy .ok true)

/-- `process`. -/
def process (users : Users) (c : HttpConn) : Except Fault Processed := do
  let a ← b.processRead proxy users c.reader
  -- An incomplete request is a failure, which ends the connection.
  if a.ret = .noRequest then return ⟨false, ⟨a.reader, c.conn⟩, a.users, a.path⟩
  else
    let (value, conn) := c.conn.processWrite a.ret a.size
    return ⟨value, ⟨a.reader, conn⟩, a.users, a.path⟩

variable {b proxy}

/-- What `do_request` answers, and what it leaves of the users. -/
theorem doRequest_eq_answer {decideProxy : Bool} {users : Users} {r : Reader} :
    b.doRequest proxy decideProxy users r =
      (b.answer proxy decideProxy users r).map fun a => (a.ret, a.users) := by
  unfold doRequest answer
  split
  · rfl
  · cases b.prepare users r with
    | error fault => rfl
    | ok s =>
      dsimp only [bind, Except.bind]
      cases b.finish s with
      | error fault => rfl
      | ok ret => rfl

end Backend

/-! ### The loop of `handleClient` -/

/-- `write`, if it ends within so many rounds, with what has been handed to the socket.
`init()` has been called if it returns `true` with nothing left to send. -/
def HttpConn.write (c : HttpConn) (writev : ℕ → ℕ → ℤ × Bool) (rounds : ℕ) :
    Option (Bool × HttpConn × List Cell) :=
  match c.conn.write writev rounds with
  | none => none
  | some (value, conn, sent) =>
    -- After `EAGAIN` it returns `true` too, with something left to send.
    let reader := if value = true ∧ conn.bytesToSend = 0 then c.reader.init else c.reader
    some (value, ⟨reader, conn⟩, sent)

/-- What the socket does in one pass: the bytes that `recv` gives, and what `writev` makes of
each call. -/
structure Exchange where
  received : List Char
  writev : ℕ → ℕ → ℤ × Bool

/-- What has been sent: `m_write_buf`, the path of the mapped file, and which bytes of them. -/
structure Sent where
  writeBuf : List Char
  path : Option (List Char)
  cells : List Cell
  deriving DecidableEq, Repr

/-- How a pass through the loop ends: `goto end`, at the condition of the loop, with a fault,
or not at all because `write` does not return. -/
inductive Pass
  | ends (c : HttpConn) (users : Users) (sent : List Sent)
  | goesOn (c : HttpConn) (users : Users) (sent : Sent)
  | faults
  | hangs

/-- What follows a call of `process` in the loop. -/
def HttpConn.respond (writev : ℕ → ℕ → ℤ × Bool) (rounds : ℕ) : Except Fault Processed → Pass
  | .error _ => .faults
  | .ok p =>
    if p.value then
      match p.conn.write writev rounds with
      | none => .hangs
      | some (false, c, cells) => .ends c p.users [⟨p.conn.conn.writeBuf, p.path, cells⟩]
      | some (true, c, cells) => .goesOn c p.users ⟨p.conn.conn.writeBuf, p.path, cells⟩
    else .ends p.conn p.users []

/-- A pass through the loop: `read_once`, `process` and `write`. -/
def Backend.pass (b : Backend) (proxy : ProxyType) (rounds : ℕ) (users : Users) (c : HttpConn)
    (e : Exchange) : Pass :=
  -- `read_once` fails when the buffer is full.
  if c.reader.readIdx ≥ readBufferSize then .ends c users []
  else
    HttpConn.respond e.writev rounds
      (b.process proxy users ⟨c.reader.feed e.received, c.conn⟩)

/-- `recv` gives at least one byte, and no more than there is room for. -/
def Exchange.Fits (e : Exchange) (c : HttpConn) : Prop :=
  e.received ≠ [] ∧ c.reader.readIdx + e.received.length ≤ readBufferSize

/-! ### After `write` -/

namespace Conn

variable {c c' : Conn} {writev : ℕ → ℕ → ℤ × Bool} {rounds i : ℕ} {value : Bool}
  {sent done : List Cell}

/-- The rounds of the loop end with `init()`, or because the socket is full with something left
to send, or with `false`. -/
theorem init_of_loop (left : c.bytesToSend ≠ 0)
    (returned : Conn.loop writev rounds i c done = some (value, c', sent))
    (success : value = true) :
    (∃ c'' : Conn, c' = c''.init ∧ c''.linger = c.linger) ∨
      c'.bytesToSend ≠ 0 ∧ ∃ i given, (writev i given).2 = true := by
  induction rounds generalizing i c done with
  | zero => cases returned
  | succ rounds ih =>
    unfold loop at returned
    dsimp only at returned
    unfold round at returned
    dsimp only at returned
    have linger : (c.account (int32 (writev i c.pending.length).1)).linger = c.linger := by
      unfold account
      dsimp only
      split <;> rfl
    split at returned
    · -- `writev` has failed, and it returns `true` after `EAGAIN` alone.
      rw [Round.elim] at returned
      cases returned
      exact .inr ⟨left, i, _, success⟩
    · split at returned
      · split at returned
        · rw [Round.elim] at returned
          cases returned
          exact .inl ⟨_, rfl, linger⟩
        · rw [Round.elim] at returned
          cases returned
          cases success
      · next more =>
        rw [Round.elim] at returned
        rcases ih (ne_of_gt (not_le.mp more)) returned with ⟨c'', same, kept⟩ | left'
        · exact .inl ⟨c'', same, kept.trans linger⟩
        · exact .inr left'

/-- `write` has called `init()` if it returns `true` with nothing left to send. -/
theorem init_of_write (returned : c.write writev rounds = some (true, c', sent))
    (all : c'.bytesToSend = 0) : ∃ c'' : Conn, c' = c''.init ∧ c''.linger = c.linger := by
  unfold write at returned
  split at returned
  · cases returned
    exact ⟨c, rfl, rfl⟩
  · next left => exact (init_of_loop left returned rfl).resolve_right fun more => more.1 all

/-- On a socket that is never full, `write` has called `init()` if it returns `true`. -/
theorem init_of_write_socket {socket : Socket}
    (returned : c.write socket.writev rounds = some (true, c', sent)) :
    ∃ c'' : Conn, c' = c''.init ∧ c''.linger = c.linger := by
  unfold write at returned
  split at returned
  · cases returned
    exact ⟨c, rfl, rfl⟩
  · next left =>
    refine (init_of_loop left returned rfl).resolve_right ?_
    rintro ⟨-, i, given, full⟩
    exact Bool.false_ne_true full

end Conn

/-- The reader that `write` leaves. -/
theorem HttpConn.reader_of_write {c c' : HttpConn} {writev : ℕ → ℕ → ℤ × Bool} {rounds : ℕ}
    {value : Bool} {sent : List Cell} (written : c.write writev rounds = some (value, c', sent)) :
    c'.reader = if value = true ∧ c'.conn.bytesToSend = 0 then c.reader.init else c.reader := by
  unfold HttpConn.write at written
  split at written
  · cases written
  · cases written
    rfl

end CoroutineService.Http
