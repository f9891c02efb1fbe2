import CoroutineService.Database.ConnectionPool

/-!
# Connections on their way through the server

`startAccept` accepts a connection, wraps its descriptor in a `Socket` and schedules
`handleClient` for it. `handleClient` works on `users[fd]`, the `http_conn` with the number of the
descriptor, and closes the `Socket` in the end. The kernel gives the number of a closed descriptor
to the next connection, so that one `http_conn` serves many connections, and it still has the
`Socket` of the last one when `init` gives it the next.

## Main definitions

* `ClientSocket`, `HttpConn`: what the steps use of a `Socket` and of an `http_conn`
* `Fiber`: where a fiber stands in `startAccept` or `handleClient`
* `Service`, `serviceMachine`: the server with its kernel and its database connections, and the
  steps of all fibers
-/

set_option autoImplicit false

namespace CoroutineService.Server

open CoroutineService.Transition CoroutineService.Database

/-- A `Socket` that `accept` has made; `m_sock` is `none` for `-1`. -/
structure ClientSocket where
  sock : Option ℕ
  isConnected : Bool
  deriving DecidableEq, Repr

/-- An `http_conn` of the array `users`: `m_client`, and `mysql` with its own `nullptr` and what
`get_connection` gives. -/
structure HttpConn where
  client : Option ℕ
  mysql : Option ℕ
  deriving DecidableEq, Repr

/-- Where a fiber stands. `k` is the socket, and `fd` its descriptor, `client_socket`. -/
inductive Fiber
  | idle
  -- In the loop of `startAccept`.
  | accepting
  -- In `Socket::accept`, with the descriptor `::accept` has returned.
  | accepted (k fd : ℕ)
  -- `Socket::accept` has returned this socket.
  | announcing (k : ℕ)
  -- `handleClient` has begun.
  | entered (k : ℕ)
  -- In `init`.
  | initialising (k fd : ℕ)
  -- At the head of the loop.
  | testing (k fd : ℕ)
  -- In `read_once`.
  | reading (k fd : ℕ)
  -- In the constructor of `connectionRAII`.
  | getting (k fd : ℕ)
  -- In `process`.
  | processing (k fd : ℕ)
  -- In `write`.
  | writing (k fd : ℕ)
  -- In the destructor of `connectionRAII`. The loop goes on behind it if `ok`.
  | leaving (k fd : ℕ) (ok : Bool)
  -- Before `client->close()`.
  | ending (k : ℕ)
  -- In `Socket::close`, before `::close`.
  | closing (k : ℕ)
  -- Behind `::close`.
  | closed (k : ℕ)
  deriving DecidableEq, Repr

namespace Fiber

/-- The socket a fiber has. -/
def client : Fiber → Option ℕ
  | idle | accepting => none
  | accepted k _ | announcing k | entered k | initialising k _ | testing k _ | reading k _
  | getting k _ | processing k _ | writing k _ | leaving k _ _ | ending k | closing k
  | closed k => some k

/-- The `http_conn` a fiber works on. -/
def user : Fiber → Option ℕ
  | initialising _ fd | testing _ fd | reading _ fd | getting _ fd | processing _ fd
  | writing _ fd | leaving _ fd _ => some fd
  | _ => none

/-- The steps of `get_connection`, `mysql_query` and `release_connection` are taken in different
places. -/
def performs {Fid : Type*} : Fiber → PoolMove Fid → Bool
  | getting _ _, .size _ | getting _ _, .wait _ | getting _ _, .pop _ => true
  | processing _ _, .query _ => true
  | leaving _ _ _, .release _ | leaving _ _ _, .post _ => true
  | _, _ => false

end Fiber

/-- Whose step it is. -/
def performer {Fid : Type*} : PoolMove Fid → Fid
  | .size p | .wait p | .pop p | .query p | .release p | .post p => p

/-- The server. Connections, and the sockets made for them, are numbered in the order in which the
kernel accepts them. `closed` collects the connections that the kernel has closed, `finished` those
whose `handleClient` is through, and `dropped` those for which `Socket::init` has failed. -/
structure Service (Fid : Type*) where
  -- The kernel: the connection behind each open descriptor.
  file : ℕ → Option ℕ
  connections : ℕ
  closed : List ℕ
  socket : ℕ → ClientSocket
  -- The scheduled calls of `handleClient`.
  tasks : List ℕ
  fiber : Fid → Fiber
  users : ℕ → HttpConn
  pool : ConnectionPool Fid
  finished : List ℕ
  dropped : List ℕ

/-- The steps of the fibers. -/
inductive ServiceMove (Fid : Type*)
  | launch (p : Fid)
  | quit (p : Fid)
  | accept (p : Fid) (fd : ℕ)
  | init (p : Fid) (k fd : ℕ) (ok : Bool)
  | schedule (p : Fid) (k : ℕ)
  | take (p : Fid) (k : ℕ)
  | enter (p : Fid) (k : ℕ)
  | initialise (p : Fid) (k fd : ℕ)
  | test (p : Fid) (k fd : ℕ)
  | readOnce (p : Fid) (k fd : ℕ) (ok : Bool)
  | pool (a : PoolMove Fid)
  | assign (p : Fid) (k fd : ℕ) (con : Option ℕ)
  | process (p : Fid) (k fd : ℕ) (ok : Bool)
  | write (p : Fid) (k fd : ℕ) (ok renews : Bool)
  | leave (p : Fid) (k fd : ℕ) (ok : Bool)
  | shut (p : Fid) (k : ℕ)
  | close (p : Fid) (k : ℕ)
  | forget (p : Fid) (k : ℕ)
  | destroy (k : ℕ)

namespace Service

variable {Fid : Type*}

/-- The server before the first connection. -/
def initial (n : ℕ) : Service Fid where
  file _ := none
  connections := 0
  closed := []
  socket _ := ⟨none, false⟩
  tasks := []
  fiber _ := .idle
  users _ := ⟨none, none⟩
  pool := .init n
  finished := []
  dropped := []

/-- The kernel closes a descriptor. -/
def closeFile (s : Service Fid) (fd : ℕ) : Service Fid :=
  { s with file := Function.update s.file fd none, closed := (s.file fd).toList ++ s.closed }

/-- `Socket::~Socket`, which calls `close`. -/
def destroy (s : Service Fid) (k : ℕ) : Service Fid :=
  match (s.socket k).sock with
  | none => { s with socket := Function.update s.socket k ⟨none, false⟩ }
  | some fd => { s.closeFile fd with socket := Function.update s.socket k ⟨none, false⟩ }

variable [DecidableEq Fid] (s : Service Fid) (p : Fid) (k fd : ℕ)

/-- The fiber goes on. -/
def become (phase : Fiber) : Service Fid :=
  { s with fiber := Function.update s.fiber p phase }

/-- `::accept` returns a descriptor for a new connection. The new `Socket` has no descriptor yet. -/
def accept : Service Fid :=
  { s.become p (.accepted s.connections fd) with
    file := Function.update s.file fd (some s.connections)
    connections := s.connections + 1
    socket := Function.update s.socket s.connections ⟨none, false⟩ }

/-- `Socket::init`. If it fails, `accept` returns `nullptr`. -/
def init (ok : Bool) : Service Fid :=
  if ok then
    { s.become p (.announcing k) with socket := Function.update s.socket k ⟨some fd, true⟩ }
  else { s.become p .accepting with dropped := k :: s.dropped }

/-- `m_ioWorker->scheduleLock`. -/
def schedule : Service Fid := { s.become p .accepting with tasks := s.tasks ++ [k] }

/-- A fiber begins with the first call that is scheduled. -/
def take : Service Fid := { s.become p (.entered k) with tasks := s.tasks.tail }

/-- `getSocket` and the test of `isValid`. -/
def enter : Service Fid :=
  match (s.socket k).sock with
  | none => s.become p (.ending k)
  | some fd => s.become p (.initialising k fd)

/-- `users[client_socket].init`. -/
def initialise : Service Fid :=
  { s.become p (.testing k fd) with users := Function.update s.users fd ⟨some k, none⟩ }

/-- `while(client->isConnected())`. -/
def test : Service Fid :=
  if (s.socket k).isConnected then s.become p (.reading k fd) else s.become p (.ending k)

/-- `read_once`. -/
def readOnce (ok : Bool) : Service Fid :=
  if ok then s.become p (.getting k fd) else s.become p (.ending k)

/-- `connectionRAII` writes `users[client_socket].mysql`. -/
def assign (con : Option ℕ) : Service Fid :=
  { s.become p (.processing k fd) with
    users := Function.update s.users fd { s.users fd with mysql := con } }

/-- `process`. -/
def process (ok : Bool) : Service Fid :=
  if ok then s.become p (.writing k fd) else s.become p (.leaving k fd false)

/-- `write`, which sets `mysql` to `nullptr` if it calls `init`. -/
def write (ok renews : Bool) : Service Fid :=
  let s := s.become p (.leaving k fd ok)
  if renews then { s with users := Function.update s.users fd { s.users fd with mysql := none } }
  else s

/-- The end of the body of the loop. -/
def leave (ok : Bool) : Service Fid :=
  if ok then s.become p (.testing k fd) else s.become p (.ending k)

/-- `Socket::close` up to `::close`. -/
def shut : Service Fid :=
  if (s.socket k).isConnected = false ∧ (s.socket k).sock = none then
    { s.become p .idle with finished := k :: s.finished }
  else
    { s.become p (.closing k) with
      socket := Function.update s.socket k { s.socket k with isConnected := false } }

/-- `::close(m_sock)`, which is left out for `-1`. -/
def close : Service Fid :=
  match (s.socket k).sock with
  | none => s.become p (.closed k)
  | some fd => (s.closeFile fd).become p (.closed k)

/-- `m_sock = -1`, and `handleClient` returns. -/
def forget : Service Fid :=
  { s.become p .idle with
    socket := Function.update s.socket k { s.socket k with sock := none }
    finished := k :: s.finished }

end Service

section Machine

variable {Fid : Type*} [DecidableEq Fid]

/-- The fibers of the server, over a pool of `n` database connections. A fiber may begin and end
`startAccept` at any time. A `Socket` may be destroyed when no fiber and no task has it. -/
def serviceMachine (fibers : Finset Fid) (n : ℕ) : Machine (Service Fid) (ServiceMove Fid) where
  init s := s = .initial n
  enabled s
    | .launch p => p ∈ fibers ∧ s.fiber p = .idle
    | .quit p => s.fiber p = .accepting
    | .accept p fd => s.fiber p = .accepting ∧ s.file fd = none
    | .init p k fd _ => s.fiber p = .accepted k fd
    | .schedule p k => s.fiber p = .announcing k
    | .take p k => p ∈ fibers ∧ s.fiber p = .idle ∧ s.tasks.head? = some k
    | .enter p k => s.fiber p = .entered k
    | .initialise p k fd => s.fiber p = .initialising k fd
    | .test p k fd => s.fiber p = .testing k fd
    | .readOnce p k fd _ => s.fiber p = .reading k fd
    | .pool a => (s.fiber (performer a)).performs a = true ∧ (poolMachine fibers n).enabled s.pool a
    | .assign p k fd con => s.fiber p = .getting k fd ∧ s.pool.client p = .holding con
    | .process p k fd _ => s.fiber p = .processing k fd
    | .write p k fd _ _ => s.fiber p = .writing k fd
    | .leave p k fd ok => s.fiber p = .leaving k fd ok ∧ s.pool.client p = .idle
    | .shut p k => s.fiber p = .ending k
    | .close p k => s.fiber p = .closing k
    | .forget p k => s.fiber p = .closed k
    | .destroy k => k < s.connections ∧ k ∉ s.tasks ∧ ∀ p ∈ fibers, (s.fiber p).client ≠ some k
  next s
    | .launch p => s.become p .accepting
    | .quit p => s.become p .idle
    | .accept p fd => s.accept p fd
    | .init p k fd ok => s.init p k fd ok
    | .schedule p k => s.schedule p k
    | .take p k => s.take p k
    | .enter p k => s.enter p k
    | .initialise p k fd => s.initialise p k fd
    | .test p k fd => s.test p k fd
    | .readOnce p k fd ok => s.readOnce p k fd ok
    | .pool a => { s with pool := (poolMachine fibers n).next s.pool a }
    | .assign p k fd con => s.assign p k fd con
    | .process p k fd ok => s.process p k fd ok
    | .write p k fd ok renews => s.write p k fd ok renews
    | .leave p k fd ok => s.leave p k fd ok
    | .shut p k => s.shut p k
    | .close p k => s.close p k
    | .forget p k => s.forget p k
    | .destroy k => s.destroy k

instance (fibers : Finset Fid) (n : ℕ) (s : Service Fid) (a : ServiceMove Fid) :
    Decidable ((serviceMachine fibers n).enabled s a) := by
  induction a using ServiceMove.casesOn <;> (dsimp only [serviceMachine]; infer_instance)

end Machine

end CoroutineService.Server
