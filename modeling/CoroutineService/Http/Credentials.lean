import CoroutineService.Http.BodyPointer
import CoroutineService.Http.Complete
import CoroutineService.Transition.Machine

/-!
# Whose credentials are read

`m_string` points to the body of a request. `init()` leaves it alone, and `parse_content` sets
it when the body has come; but `do_request` reads it for any form, also for one that was sent
without a body. An `http_conn` is used for one request after another and for one connection
after another, so that the pointer can be that of an earlier request, or of none.

## Main definitions

* `slotMachine`: the connections that are given one descriptor number, one after the other
* `Record`: which request set `m_string`, and who has read it

## Main results

* `current_iff`: the runs in which all credentials come from the current request
* `not_current`: a form without a body
-/

set_option autoImplicit false

namespace CoroutineService.Http

open CString CoroutineService.Transition

/-! ### One slot of the array -/

/-- Whether a connection has the slot. After a fault nothing is known of it any more. -/
inductive Tenancy
  | free | taken | lost
  deriving DecidableEq, Repr

/-- An element of the array `users`, which is used by one connection after another. -/
structure Slot where
  conn : HttpConn
  tenancy : Tenancy

/-- What happens to a slot: a connection is given it, a pass through the loop of `handleClient`
begins with bytes that have come, or `read_once` finds none. Files, users and the database are
what they are when the pass is made. -/
inductive SlotMove
  | accept (keepalive : Bool)
  | pass (b : Backend) (users : Users) (e : Exchange) (rounds : ℕ)
  | hangUp

namespace Slot

variable (proxy : ProxyType)

/-- The slot after a pass. -/
def afterPass (c : HttpConn) : Pass → Slot
  | .ends c _ _ => ⟨c, .free⟩
  | .goesOn c _ _ => ⟨c, .taken⟩
  | .faults | .hangs => ⟨c, .lost⟩

/-- The pass has called `init()`. -/
def restarts : Pass → Bool
  | .goesOn c _ _ => c.conn.bytesToSend = 0
  | _ => false

end Slot

/-- The life of a slot, from `new http_conn[MAX_FD]` on. -/
def slotMachine (proxy : ProxyType) : Machine Slot SlotMove where
  init s := s.tenancy = .free ∧ s.conn.reader.string = none
  enabled s
    | .accept _ => s.tenancy = .free
    | .pass _ _ e _ => s.tenancy = .taken ∧ e.Fits s.conn
    | .hangUp => s.tenancy = .taken
  next s
    | .accept keepalive => ⟨s.conn.init keepalive, .taken⟩
    | .pass b users e rounds => Slot.afterPass s.conn (b.pass proxy rounds users s.conn e)
    | .hangUp => ⟨s.conn, .free⟩

instance (proxy : ProxyType) (s : Slot) (a : SlotMove) :
    Decidable ((slotMachine proxy).enabled s a) := by
  induction a using SlotMove.casesOn <;> (dsimp only [slotMachine, Exchange.Fits]; infer_instance)

/-! ### Whose body it is -/

/-- `do_request` has read `m_string`: in which request, which request set it, and the
`m_content_length` of the one that reads. -/
structure Login where
  request : ℕ
  setBy : Option ℕ
  contentLength : ℤ
  deriving DecidableEq, Repr

/-- What is remembered of a slot: how many requests have begun in it, the one in which
`parse_content` has set `m_string` last, and who has read it. -/
structure Record where
  request : ℕ
  setBy : Option ℕ
  logins : List Login
  deriving DecidableEq, Repr

namespace Record

variable (proxy : ProxyType)

/-- Nothing has happened yet. -/
def fresh : Record := ⟨0, none, []⟩

/-- `init()` has been called. -/
def begun (h : Record) : Record := { h with request := h.request + 1 }

/-- The loop of `process_read` has ended like this. -/
def parsed (h : Record) (x : Exit × Bool × Reader) : Record :=
  { h with setBy := if Reader.setsString x then some h.request else h.setBy }

/-- `do_request` has been called, if it has. -/
def requested (h : Record) (x : Exit × Bool × Reader) : Record :=
  if x.1 = .request ∧ entersForm proxy x.2.1 x.2.2 then
    { h with logins := h.logins ++ [⟨h.request, h.setBy, x.2.2.contentLength⟩] }
  else h

/-- What is remembered after a move. -/
def after (s : Slot) (a : SlotMove) (h : Record) : Record :=
  match a with
  | .accept _ => h.begun
  | .pass b users e rounds =>
    if s.conn.reader.readIdx ≥ readBufferSize then h
    else
      let x := (s.conn.reader.feed e.received).loop proxy .ok true
      let h := (h.parsed x).requested proxy x
      if Slot.restarts (b.pass proxy rounds users s.conn e) then h.begun else h
  | .hangUp => h

/-- All credentials come from the request that reads them. -/
def Current (h : Record) : Prop := ∀ e ∈ h.logins, e.setBy = some e.request

end Record

/-- The slot with what is remembered of it. -/
abbrev recordedSlot (proxy : ProxyType) : Machine (Slot × Record) SlotMove :=
  (slotMachine proxy).observe .fresh (Record.after proxy)

/-! ### What a pass leaves -/

section passes

variable {proxy : ProxyType} {b : Backend} {users users' : Users} {e : Exchange} {rounds : ℕ}
  {c c' : HttpConn} {r : Reader} {a : Answer} {sent : Sent}

/-- Two readers are in the same state of `process_read`, with the same pointer to the body. -/
structure SameState (r r' : Reader) : Prop where
  checkState : r'.checkState = r.checkState
  contentLength : r'.contentLength = r.contentLength
  string : r'.string = r.string

theorem SameState.refl (r : Reader) : SameState r r := ⟨rfl, rfl, rfl⟩

theorem sameState_rewritten (r : Reader) (s : Prepared) : SameState r (r.rewritten s) := by
  unfold Reader.rewritten
  split
  · exact ⟨rfl, rfl, rfl⟩
  · exact .refl r

/-- `do_request` leaves the state of `process_read` alone. -/
theorem sameState_of_processRead (decided : b.processRead proxy users r = .ok a) :
    SameState (r.loop proxy .ok true).2.2 a.reader := by
  unfold Backend.processRead at decided
  rcases looped : r.loop proxy .ok true with ⟨exit, decideProxy, r'⟩
  rw [looped] at decided
  cases exit with
  | bad =>
    cases decided
    exact .refl _
  | left =>
    cases decided
    exact .refl _
  | fault => cases decided
  | request =>
    replace decided : b.answer proxy decideProxy users r' = .ok a := decided
    unfold Backend.answer at decided
    split at decided
    · cases decided
      exact .refl _
    · obtain ⟨s, -, decided⟩ := exists_of_bind decided
      obtain ⟨ret, -, same⟩ := exists_of_bind decided
      cases same
      exact sameState_rewritten _ _

/-- The reader that `process` leaves is that of `process_read`. -/
theorem sameState_of_process {p : Processed} (processed : b.process proxy users c = .ok p) :
    SameState (c.reader.loop proxy .ok true).2.2 p.conn.reader := by
  unfold Backend.process at processed
  obtain ⟨a, decided, processed⟩ := exists_of_bind processed
  split at processed
  · cases processed
    exact sameState_of_processRead decided
  · cases processed
    exact sameState_of_processRead decided

variable (b users rounds) in
/-- What a pass leaves of the reader. One that goes on has called `init()`, or has left the state
of `process_read` alone; the pointer to the body stays in any case. -/
theorem reader_of_pass (room : ¬ c.reader.readIdx ≥ readBufferSize) {x : Exit × Bool × Reader}
    (isX : x = (c.reader.feed e.received).loop proxy .ok true) :
    match b.pass proxy rounds users c e with
      | .ends c' _ _ => c'.reader.string = x.2.2.string
      | .goesOn c' _ _ => c'.reader.string = x.2.2.string ∧
          if c'.conn.bytesToSend = 0 then ∃ r : Reader, c'.reader = r.init
          else SameState x.2.2 c'.reader
      | .faults | .hangs => True := by
  unfold Backend.pass
  rw [if_neg room, isX]
  cases processed : b.process proxy users ⟨c.reader.feed e.received, c.conn⟩ with
  | error fault => exact trivial
  | ok p =>
    have same := sameState_of_process processed
    unfold HttpConn.respond
    dsimp only
    cases p.value with
    | false => exact same.string
    | true =>
      rw [if_pos rfl]
      rcases written : p.conn.write e.writev rounds with _ | ⟨value, c', cells⟩
      · exact trivial
      · have reader := HttpConn.reader_of_write written
        have string : c'.reader.string = p.conn.reader.string := by
          rw [reader]
          split <;> rfl
        cases value with
        | false => exact string.trans same.string
        | true =>
          refine ⟨string.trans same.string, ?_⟩
          by_cases all : c'.conn.bytesToSend = 0
          · rw [if_pos all]
            rw [if_pos ⟨rfl, all⟩] at reader
            exact ⟨_, reader⟩
          · rw [if_neg all]
            rw [if_neg fun both => all both.2] at reader
            rw [reader]
            exact same

end passes

/-! ### What is remembered is right -/

/-- A slot in use reads a body only if its length was declared, and is in the body if the current
request has set `m_string`. The pointer has been set if anyone has set it. Whoever has read it had
set it if he had declared a body. -/
structure Faithful (s : Slot × Record) : Prop where
  declared : s.1.tenancy = .taken → s.1.conn.reader.Declared
  body : s.1.tenancy = .taken → s.2.setBy = some s.2.request →
    s.1.conn.reader.checkState = .content
  string : s.1.tenancy ≠ .lost → s.1.conn.reader.string.isSome = s.2.setBy.isSome
  past : ∀ k ∈ s.2.setBy, k ≤ s.2.request
  logins : ∀ e ∈ s.2.logins, (e.setBy = some e.request ↔ e.contentLength ≠ 0)

section records

variable {proxy : ProxyType} {s : Slot × Record} {h : Record} {x : Exit × Bool × Reader}

variable (proxy) in
theorem requested_fields (h : Record) (x : Exit × Bool × Reader) :
    (h.requested proxy x).request = h.request ∧ (h.requested proxy x).setBy = h.setBy := by
  unfold Record.requested
  split <;> exact ⟨rfl, rfl⟩

/-- Nothing has been set yet by a request that begins. -/
theorem setBy_begun (past : ∀ k ∈ h.setBy, k ≤ h.request) : h.begun.setBy ≠ some h.begun.request :=
  fun current => Nat.not_succ_le_self _ (past _ current)

theorem past_begun (past : ∀ k ∈ h.setBy, k ≤ h.request) :
    ∀ k ∈ h.begun.setBy, k ≤ h.begun.request :=
  fun k set => Nat.le_succ_of_le (past k set)

variable (proxy) in
/-- After a call of `process_read`: what is remembered of the pointer, and of the login. -/
theorem faithful_read {inBody : Prop} (faithful : Faithful s)
    (body : s.2.setBy = some s.2.request → inBody) (ended : Reader.Ended inBody x.1 x.2.2) :
    (((s.2.parsed x).requested proxy x).setBy = some s.2.request → x.2.2.checkState = .content) ∧
      (∀ k ∈ ((s.2.parsed x).requested proxy x).setBy, k ≤ s.2.request) ∧
      ∀ e ∈ ((s.2.parsed x).requested proxy x).logins,
        (e.setBy = some e.request ↔ e.contentLength ≠ 0) := by
  have current : (s.2.parsed x).setBy = some s.2.request → x.2.2.checkState = .content := by
    unfold Record.parsed Reader.setsString
    dsimp only
    split
    · next set =>
      rw [Bool.and_eq_true, decide_eq_true_eq, decide_eq_true_eq] at set
      exact fun _ => set.2
    · exact fun earlier => ended.stays (body earlier)
  have past : ∀ k ∈ (s.2.parsed x).setBy, k ≤ s.2.request := by
    unfold Record.parsed
    dsimp only
    split
    · rintro k ⟨⟩
      exact Nat.le_refl _
    · exact faithful.past
  rw [(requested_fields proxy (s.2.parsed x) x).2]
  refine ⟨current, past, ?_⟩
  unfold Record.requested
  split
  · next called =>
    -- The request is complete, and a body is one that `parse_content` has just seen.
    refine List.forall_mem_append.mpr ⟨faithful.logins, List.forall_mem_singleton.mpr ?_⟩
    constructor
    · exact fun set => ended.declared (current set)
    · intro some
      have set : Reader.setsString x = true := by
        unfold Reader.setsString
        rw [Bool.and_eq_true, decide_eq_true_eq, decide_eq_true_eq]
        exact ⟨called.1, ended.parsed called.1 some⟩
      exact if_pos set
  · exact faithful.logins

/-- The pointer is set after a call of `process_read` if it was before, or if the call sets it. -/
theorem string_of_read {r : Reader} {inBody : Prop} (before : r.string.isSome = h.setBy.isSome)
    (isX : x = r.loop proxy .ok true) (ended : Reader.Ended inBody x.1 x.2.2) :
    x.2.2.string.isSome = ((h.parsed x).requested proxy x).setBy.isSome := by
  rw [(requested_fields proxy (h.parsed x) x).2]
  unfold Record.parsed
  dsimp only
  cases set : Reader.setsString x with
  | true =>
    rw [if_pos rfl]
    unfold Reader.setsString at set
    rw [Bool.and_eq_true, decide_eq_true_eq, decide_eq_true_eq] at set
    exact ended.stored set.1 set.2
  | false =>
    rw [if_neg Bool.false_ne_true, ← before]
    subst isX
    rw [Reader.string_of_loop set]

/-- What is remembered of a slot that is not in use. -/
theorem faithful_of_not_taken {conn : HttpConn} {tenancy : Tenancy} (idle : tenancy ≠ .taken)
    (string : tenancy ≠ .lost → conn.reader.string.isSome = h.setBy.isSome)
    (past : ∀ k ∈ h.setBy, k ≤ h.request)
    (logins : ∀ e ∈ h.logins, (e.setBy = some e.request ↔ e.contentLength ≠ 0)) :
    Faithful (⟨conn, tenancy⟩, h) :=
  ⟨fun taken => absurd taken idle, fun taken => absurd taken idle, string, past, logins⟩

/-- A slot that is free. -/
theorem faithful_free {conn : HttpConn} (string : conn.reader.string.isSome = h.setBy.isSome)
    (past : ∀ k ∈ h.setBy, k ≤ h.request)
    (logins : ∀ e ∈ h.logins, (e.setBy = some e.request ↔ e.contentLength ≠ 0)) :
    Faithful (⟨conn, .free⟩, h) :=
  faithful_of_not_taken (by decide) (fun _ => string) past logins

/-- A slot of which nothing is known any more. -/
theorem faithful_lost (conn : HttpConn) (past : ∀ k ∈ h.setBy, k ≤ h.request)
    (logins : ∀ e ∈ h.logins, (e.setBy = some e.request ↔ e.contentLength ≠ 0)) :
    Faithful (⟨conn, .lost⟩, h) :=
  faithful_of_not_taken (by decide) (fun known => absurd rfl known) past logins

/-- A slot in which a request begins. -/
theorem faithful_begun {conn : HttpConn} {r : Reader} (reset : conn.reader = r.init)
    (string : conn.reader.string.isSome = h.setBy.isSome) (past : ∀ k ∈ h.setBy, k ≤ h.request)
    (logins : ∀ e ∈ h.logins, (e.setBy = some e.request ↔ e.contentLength ≠ 0)) :
    Faithful (⟨conn, .taken⟩, h.begun) := by
  refine ⟨fun _ body => ?_, fun _ set => absurd set (setBy_begun past), fun _ => string,
    past_begun past, logins⟩
  have first : conn.reader.checkState = .requestLine := by
    rw [reset]
    rfl
  exact absurd (first.symm.trans body) (by decide)

/-- A pass through the loop of `handleClient`. -/
theorem faithful_pass {b : Backend} {users : Users} {e : Exchange} {rounds : ℕ}
    (faithful : Faithful s) (taken : s.1.tenancy = .taken) :
    Faithful ((recordedSlot proxy).next s (.pass b users e rounds)) := by
  have before : s.1.conn.reader.string.isSome = s.2.setBy.isSome :=
    faithful.string (by rw [taken]; decide)
  by_cases full : s.1.conn.reader.readIdx ≥ readBufferSize
  · have ends : b.pass proxy rounds users s.1.conn e = .ends s.1.conn users [] := if_pos full
    have next : (recordedSlot proxy).next s (.pass b users e rounds) =
        (Slot.afterPass s.1.conn (b.pass proxy rounds users s.1.conn e), s.2) :=
      Prod.ext rfl (if_pos full)
    rw [next, ends]
    exact faithful_free before faithful.past faithful.logins
  · obtain ⟨x, isX⟩ : ∃ x, x = (s.1.conn.reader.feed e.received).loop proxy .ok true := ⟨_, rfl⟩
    have ended : Reader.Ended (s.1.conn.reader.checkState = .content) x.1 x.2.2 := by
      rw [isX]
      exact Reader.body_of_loop (r := s.1.conn.reader.feed e.received) (faithful.declared taken)
    -- What `process_read` leaves is remembered right, whatever becomes of the response.
    obtain ⟨current, past, logins⟩ := faithful_read proxy faithful (faithful.body taken) ended
    have string := string_of_read (r := s.1.conn.reader.feed e.received) before isX ended
    have reader := reader_of_pass b users rounds full isX
    have same := (requested_fields proxy (s.2.parsed x) x).1
    have next : (recordedSlot proxy).next s (.pass b users e rounds) =
        (Slot.afterPass s.1.conn (b.pass proxy rounds users s.1.conn e),
          if Slot.restarts (b.pass proxy rounds users s.1.conn e) then
            ((s.2.parsed x).requested proxy x).begun
          else (s.2.parsed x).requested proxy x) := by
      rw [isX]
      exact Prod.ext rfl (if_neg full)
    generalize (s.2.parsed x).requested proxy x = h at current past logins string same next
    replace same : h.request = s.2.request := same
    rw [← same] at current past
    rw [next]
    cases passed : b.pass proxy rounds users s.1.conn e with
    | ends c users' sent =>
      rw [passed] at reader
      exact faithful_free ((congrArg Option.isSome reader).trans string) past logins
    | faults => exact faithful_lost _ past logins
    | hangs => exact faithful_lost _ past logins
    | goesOn c users' sent =>
      rw [passed] at reader
      obtain ⟨pointer, reader⟩ := reader
      have string' : c.reader.string.isSome = h.setBy.isSome :=
        (congrArg Option.isSome pointer).trans string
      show Faithful (⟨c, .taken⟩, if decide (c.conn.bytesToSend = 0) = true then h.begun else h)
      -- With everything sent the next request begins; after `EAGAIN` the same one goes on.
      by_cases all : c.conn.bytesToSend = 0
      · rw [if_pos all] at reader
        obtain ⟨r, reset⟩ := reader
        rw [if_pos (decide_eq_true all)]
        exact faithful_begun reset string' past logins
      · rw [if_neg all] at reader
        rw [if_neg (by rw [decide_eq_true_eq]; exact all)]
        refine ⟨fun _ body => ?_, fun _ set => ?_, fun _ => string', past, logins⟩
        · rw [reader.contentLength]
          exact ended.declared (reader.checkState.symm.trans body)
        · exact reader.checkState.trans (current set)

/-- What is remembered of a slot is right. -/
theorem faithful_of_reachable (reached : (recordedSlot proxy).Reachable s) : Faithful s := by
  refine reached.invariant ?_ ?_
  · rintro ⟨s, h⟩ ⟨⟨free, unset⟩, rfl⟩
    refine ⟨fun taken => ?_, fun taken => ?_, fun _ => ?_, nofun, nofun⟩
    · exact absurd (taken.symm.trans free) (by decide)
    · exact absurd (taken.symm.trans free) (by decide)
    · exact congrArg Option.isSome unset
  · rintro s a faithful available -
    cases a with
    | accept keepalive =>
      replace available : s.1.tenancy = .free := available
      have string := faithful.string (by rw [available]; decide)
      exact faithful_begun rfl string faithful.past faithful.logins
    | pass b users e rounds => exact faithful_pass faithful available.1
    | hangUp =>
      replace available : s.1.tenancy = .taken := available
      have string := faithful.string (by rw [available]; decide)
      exact faithful_free string faithful.past faithful.logins

/-- In every run of a slot, the credentials come from the current request exactly when every
request that reads them has declared a body. -/
theorem current_iff (proxy : ProxyType) {s : Slot × Record}
    (reached : (recordedSlot proxy).Reachable s) :
    s.2.Current ↔ ∀ e ∈ s.2.logins, e.contentLength ≠ 0 :=
  forall₂_congr (faithful_of_reachable reached).logins

end records

/-- A socket that takes all it is given, after these bytes have come. -/
def receive (text : String) : Exchange := ⟨text.toList, fun _ given => (given, false)⟩

/-- A pass in which these bytes come. -/
def passOf (text : String) : SlotMove := .pass pageServer (initmysqlResult []) (receive text) 1

/-- A slot that has not been used. -/
def unusedSlot : Slot × Record := (⟨⟨unused, unusedConn⟩, .free⟩, .fresh)

/-- A connection on which a user logs in. -/
def loggedIn : List SlotMove :=
  [.accept true, passOf "POST /2 HTTP/1.1\r\nContent-length: 19\r\n\r\nuser=ann&password=x"]

theorem current_login :
    ((recordedSlot .noProxy).after unusedSlot loggedIn).2.logins = [⟨1, some 1, 19⟩] ∧
      (((recordedSlot .noProxy).after unusedSlot loggedIn).2.Current ↔
        ∀ e ∈ ((recordedSlot .noProxy).after unusedSlot loggedIn).2.logins, e.contentLength ≠ 0) :=
  ⟨by decide +kernel, current_iff .noProxy
    (Machine.reachable_after ⟨⟨rfl, rfl⟩, rfl⟩ (by decide +kernel))⟩

/-- Somebody else asks for the same page without sending a form. -/
def askedAgain : List SlotMove := loggedIn ++ [passOf "POST /2 HTTP/1.1\r\n\r\n"]

/-- The second login is made with the pointer of the first. -/
theorem not_current : ¬ ∀ (proxy : ProxyType) (s : Slot × Record),
    (recordedSlot proxy).Reachable s → s.2.Current := by
  intro current
  obtain ⟨follows, logins⟩ :
      (recordedSlot .noProxy).Follows (fun _ _ => True) unusedSlot askedAgain ∧
        ((recordedSlot .noProxy).after unusedSlot askedAgain).2.logins =
          [⟨1, some 1, 19⟩, ⟨2, some 1, 0⟩] := by
    decide +kernel
  have starts : (recordedSlot .noProxy).init unusedSlot := ⟨⟨rfl, rfl⟩, rfl⟩
  have reached := Machine.reachable_after starts follows
  have second := current .noProxy _ reached ⟨2, some 1, 0⟩ (by rw [logins]; decide)
  exact absurd second (by decide)

end CoroutineService.Http
