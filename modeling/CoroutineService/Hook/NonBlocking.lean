import CoroutineService.Hook.Machine

/-!
# Sockets in non-blocking mode

`FdCtx::init` puts a socket into non-blocking mode, so that `do_io` can wait in the scheduler.
What the program asks for with `fcntl` or `ioctl` is kept in the `FdCtx`, and `F_GETFL` answers
with that. `fcntl` masks the flags it passes on to the kernel; `ioctl` passes its argument on as
it is.

## Main definitions

* `FlagKernel`, `FlagKernel.Lawful`: `fcntl_f` and `ioctl_f` on a descriptor
* `Descriptor.call`: the hooked calls
* `asked`: what the program has asked for

## Main results

* `Managed.call`: the `FdCtx` follows the program
* `stays_nonblocking_iff`: the kernel's flag stays set until `FIONBIO` is called with zero
-/

set_option autoImplicit false

namespace CoroutineService.Hook

/-- `O_NONBLOCK`. -/
def O_NONBLOCK : BitVec 32 := 2048#32

/-- `flags & O_NONBLOCK`, as a condition. -/
def nonblock (flags : BitVec 32) : Bool := flags &&& O_NONBLOCK != 0#32

theorem nonblock_or (flags : BitVec 32) : nonblock (flags ||| O_NONBLOCK) = true := by
  have kept : (flags ||| O_NONBLOCK) &&& O_NONBLOCK = O_NONBLOCK := by
    ext i bound
    rw [BitVec.getElem_and, BitVec.getElem_or]
    cases flags[i] <;> cases O_NONBLOCK[i] <;> rfl
  unfold nonblock
  rw [kept]
  decide

theorem nonblock_and_not (flags : BitVec 32) : nonblock (flags &&& ~~~O_NONBLOCK) = false := by
  have cleared : flags &&& ~~~O_NONBLOCK &&& O_NONBLOCK = 0#32 := by
    ext i bound
    simp
  unfold nonblock
  rw [cleared]
  decide

/-- The original `fcntl` and `ioctl` on one descriptor. The requests of `ioctl` other than
`FIONBIO` are those in `R`. -/
structure FlagKernel (κ R : Type*) where
  getfl : κ → BitVec 32
  setfl : κ → BitVec 32 → κ
  fionbio : κ → BitVec 32 → κ
  ioctl : κ → R → κ

variable {κ R : Type*}

/-- The flag of the descriptor is set as it is asked for, and stays so. -/
structure FlagKernel.Lawful (K : FlagKernel κ R) : Prop where
  setfl : ∀ k arg, nonblock (K.getfl (K.setfl k arg)) = nonblock arg
  fionbio : ∀ k value, nonblock (K.getfl (K.fionbio k value)) = (value != 0#32)
  ioctl : ∀ k request, nonblock (K.getfl (K.ioctl k request)) = nonblock (K.getfl k)

/-- `FdCtx`, with the other members that `FdCtx::init` sets. -/
structure SocketCtx extends FdCtx where
  isInit : Bool
  sysNonblock : Bool

namespace SocketCtx

/-- The members before `init`. -/
def blank : SocketCtx := { FdCtx.create false with isInit := false, sysNonblock := false }

/-- `FdCtx::init`, with the answer of `fstat`: whether the descriptor is a socket. -/
def init (K : FlagKernel κ R) (ctx : SocketCtx) (stat : Option Bool) (kernel : κ) : SocketCtx × κ :=
  if ctx.isInit then (ctx, kernel)
  else
    let ctx : SocketCtx :=
      match stat with
      | none => { ctx with isInit := false, isSocket := false }
      | some socket => { ctx with isInit := true, isSocket := socket }
    if ctx.isSocket then
      let flags := K.getfl kernel
      let kernel := if nonblock flags = false then K.setfl kernel (flags ||| O_NONBLOCK) else kernel
      ({ ctx with sysNonblock := true }, kernel)
    else ({ ctx with sysNonblock := false }, kernel)

end SocketCtx

/-- A descriptor: what `FdMgr` has for it, and its state in the kernel. -/
structure Descriptor (κ : Type*) where
  ctx : Option SocketCtx
  kernel : κ

/-- The hooked calls. -/
inductive FlagCall (R : Type*)
  | setfl (arg : BitVec 32)
  | getfl
  | fionbio (value : BitVec 32)
  | ioctl (request : R)
  deriving DecidableEq

namespace Descriptor

/-- A socket that `FdMgr` has just been told of. -/
def opened (K : FlagKernel κ R) (kernel : κ) : Descriptor κ :=
  let (ctx, kernel) := SocketCtx.blank.init K (some true) kernel
  ⟨some ctx, kernel⟩

variable (K : FlagKernel κ R) (s : Descriptor κ)

/-- `fcntl(fd, F_SETFL, arg)`. -/
def fcntlSetfl (arg : BitVec 32) : Descriptor κ :=
  match s.ctx with
  | none => { s with kernel := K.setfl s.kernel arg }
  | some ctx =>
    if ctx.isClosed ∨ ctx.isSocket = false then { s with kernel := K.setfl s.kernel arg }
    else
      let ctx : SocketCtx := { ctx with userNonblock := nonblock arg }
      let arg := if ctx.sysNonblock then arg ||| O_NONBLOCK else arg &&& ~~~O_NONBLOCK
      ⟨some ctx, K.setfl s.kernel arg⟩

/-- What `fcntl(fd, F_GETFL)` returns. -/
def fcntlGetfl : BitVec 32 :=
  let arg := K.getfl s.kernel
  match s.ctx with
  | none => arg
  | some ctx =>
    if ctx.isClosed ∨ ctx.isSocket = false then arg
    else if ctx.userNonblock then arg ||| O_NONBLOCK
    else arg &&& ~~~O_NONBLOCK

/-- `ioctl(fd, FIONBIO, &value)`. -/
def ioctlFionbio (value : BitVec 32) : Descriptor κ :=
  let userNonblock := value != 0#32
  let ctx := s.ctx.map fun ctx =>
    if ctx.isClosed ∨ ctx.isSocket = false then ctx else { ctx with userNonblock := userNonblock }
  -- the value goes to the kernel as it is
  ⟨ctx, K.fionbio s.kernel value⟩

/-- A hooked call. -/
def call : FlagCall R → Descriptor κ
  | .setfl arg => s.fcntlSetfl K arg
  | .getfl => s
  | .fionbio value => s.ioctlFionbio K value
  | .ioctl request => { s with kernel := K.ioctl s.kernel request }

/-- Some calls, one after the other. -/
def calls (calls : List (FlagCall R)) : Descriptor κ := calls.foldl (call K) s

end Descriptor

/-- What the program has asked for after a call. -/
def FlagCall.asks (before : Bool) : FlagCall R → Bool
  | .setfl arg => nonblock arg
  | .fionbio value => value != 0#32
  | .getfl | .ioctl _ => before

/-- What the last call asked for that asked for anything. -/
def asked (calls : List (FlagCall R)) : Bool := calls.foldl FlagCall.asks false

/-- An open socket in the hands of `FdMgr`, for which the program has last asked for `user`. -/
structure Managed (s : Descriptor κ) (user : Bool) : Prop where
  ctx : ∃ ctx, s.ctx = some ctx ∧ ctx.isClosed = false ∧ ctx.isSocket = true ∧
    ctx.sysNonblock = true ∧ ctx.userNonblock = user

section Calls

variable {K : FlagKernel κ R} {s : Descriptor κ} {user : Bool}

theorem managed_opened (K : FlagKernel κ R) (kernel : κ) :
    Managed (Descriptor.opened K kernel) false :=
  ⟨_, rfl, rfl, rfl, rfl, rfl⟩

/-- `FdCtx::init` leaves the flag of the kernel set. -/
theorem nonblock_opened (lawful : K.Lawful) (kernel : κ) :
    nonblock (K.getfl (Descriptor.opened K kernel).kernel) = true := by
  show nonblock (K.getfl (if nonblock (K.getfl kernel) = false then
    K.setfl kernel (K.getfl kernel ||| O_NONBLOCK) else kernel)) = true
  split
  case isTrue =>
    rw [lawful.setfl]
    exact nonblock_or _
  case isFalse set => exact Bool.eq_true_of_not_eq_false set

namespace Managed

theorem fcntlSetfl (managed : Managed s user) (arg : BitVec 32) :
    Managed (s.fcntlSetfl K arg) (nonblock arg) ∧
      (s.fcntlSetfl K arg).kernel = K.setfl s.kernel (arg ||| O_NONBLOCK) := by
  obtain ⟨ctx, there, opened, socket, sys, -⟩ := managed.ctx
  have handled : ¬(ctx.isClosed = true ∨ ctx.isSocket = false) := by simp [opened, socket]
  unfold Descriptor.fcntlSetfl
  rw [there]
  dsimp only
  rw [if_neg handled, if_pos sys]
  exact ⟨⟨_, rfl, opened, socket, sys, rfl⟩, rfl⟩

theorem ioctlFionbio (managed : Managed s user) (value : BitVec 32) :
    Managed (s.ioctlFionbio K value) (value != 0#32) := by
  obtain ⟨ctx, there, opened, socket, sys, -⟩ := managed.ctx
  have handled : ¬(ctx.isClosed = true ∨ ctx.isSocket = false) := by simp [opened, socket]
  unfold Descriptor.ioctlFionbio
  rw [there]
  dsimp only [Option.map_some]
  rw [if_neg handled]
  exact ⟨_, rfl, opened, socket, sys, rfl⟩

theorem call (managed : Managed s user) (c : FlagCall R) : Managed (s.call K c) (c.asks user) := by
  cases c with
  | setfl arg => exact (managed.fcntlSetfl arg).1
  | getfl => exact managed
  | fionbio value => exact managed.ioctlFionbio value
  | ioctl request => exact ⟨managed.ctx⟩

/-- `F_GETFL` reports what the program has asked for. -/
theorem nonblock_fcntlGetfl (managed : Managed s user) : nonblock (s.fcntlGetfl K) = user := by
  obtain ⟨ctx, there, opened, socket, -, said⟩ := managed.ctx
  have handled : ¬(ctx.isClosed = true ∨ ctx.isSocket = false) := by simp [opened, socket]
  unfold Descriptor.fcntlGetfl
  rw [there]
  dsimp only
  rw [if_neg handled, said]
  cases user with
  | true => exact nonblock_or _
  | false => exact nonblock_and_not _

/-- The flag of the kernel after a call: only `FIONBIO` with zero clears it. -/
theorem nonblock_call (managed : Managed s user) (lawful : K.Lawful) (c : FlagCall R)
    (set : nonblock (K.getfl s.kernel) = true) :
    nonblock (K.getfl (s.call K c).kernel) = true ↔ c ≠ .fionbio 0#32 := by
  cases c with
  | setfl arg =>
    have result : (s.call K (.setfl arg)).kernel = K.setfl s.kernel (arg ||| O_NONBLOCK) :=
      (managed.fcntlSetfl arg).2
    rw [result, lawful.setfl]
    exact iff_of_true (nonblock_or arg) (fun same => by cases same)
  | getfl => exact iff_of_true set (fun same => by cases same)
  | fionbio value =>
    show nonblock (K.getfl (K.fionbio s.kernel value)) = true ↔ _
    rw [lawful.fionbio, bne_iff_ne]
    exact not_congr
      ⟨fun zero => congrArg FlagCall.fionbio zero, fun same => FlagCall.fionbio.inj same⟩
  | ioctl request =>
    show nonblock (K.getfl (K.ioctl s.kernel request)) = true ↔ _
    rw [lawful.ioctl]
    exact iff_of_true set (fun same => by cases same)

/-- The flag stays set, and `F_GETFL` reports what was asked for, as long as no call is
`FIONBIO` with zero. -/
theorem calls_iff (managed : Managed s user) (lawful : K.Lawful)
    (set : nonblock (K.getfl s.kernel) = true) (calls : List (FlagCall R)) :
    (∀ done, done <+: calls → nonblock (K.getfl (s.calls K done).kernel) = true ∧
      nonblock ((s.calls K done).fcntlGetfl K) = done.foldl FlagCall.asks user) ↔
      ∀ c ∈ calls, c ≠ .fionbio 0#32 := by
  induction calls generalizing s user with
  | nil =>
    refine iff_of_true ?_ fun c mem => absurd mem List.not_mem_nil
    intro done first
    rw [List.prefix_nil.mp first]
    exact ⟨set, managed.nonblock_fcntlGetfl⟩
  | cons c rest ih =>
    have managed' := managed.call (K := K) c
    rw [List.forall_mem_cons, ← managed.nonblock_call lawful c set]
    constructor
    · intro after
      have set' := (after [c] (List.prefix_append [c] rest)).1
      refine ⟨set', (ih managed' set').mp fun done first => ?_⟩
      exact after (c :: done) ((List.prefix_cons_inj c).mpr first)
    · rintro ⟨set', others⟩ done first
      cases done with
      | nil => exact ⟨set, managed.nonblock_fcntlGetfl⟩
      | cons c' done =>
        obtain ⟨rfl, first'⟩ := List.cons_prefix_cons.mp first
        exact (ih managed' set').mpr others done first'

end Managed

end Calls

/-- After each of a sequence of hooked calls on a socket the flag of the kernel is set and
`F_GETFL` reports what was asked for, if and only if none of them is `FIONBIO` with zero. -/
theorem stays_nonblocking_iff (K : FlagKernel κ R) (lawful : K.Lawful) (kernel : κ)
    (calls : List (FlagCall R)) :
    (∀ done, done <+: calls →
      nonblock (K.getfl ((Descriptor.opened K kernel).calls K done).kernel) = true ∧
        nonblock (((Descriptor.opened K kernel).calls K done).fcntlGetfl K) = asked done) ↔
      ∀ c ∈ calls, c ≠ .fionbio 0#32 :=
  (managed_opened K kernel).calls_iff lawful (nonblock_opened lawful kernel) calls

/-- A kernel that keeps the flags of the descriptor and knows no other requests. -/
def plainKernel : FlagKernel (BitVec 32) Empty where
  getfl k := k
  setfl _ arg := arg
  fionbio k value := if value != 0#32 then k ||| O_NONBLOCK else k &&& ~~~O_NONBLOCK
  ioctl k _ := k

theorem lawful_plainKernel : plainKernel.Lawful where
  setfl _ _ := rfl
  fionbio k value := by
    show nonblock (if (value != 0#32) = true then k ||| O_NONBLOCK else k &&& ~~~O_NONBLOCK) = _
    split
    case isTrue given => rw [given, nonblock_or]
    case isFalse zero => rw [Bool.eq_false_of_not_eq_true zero, nonblock_and_not]
  ioctl _ _ := rfl

/-- A non-blocking socket is asked for, and then a blocking one. -/
def askedTwice : List (FlagCall Empty) := [.fionbio 1#32, .getfl, .setfl 0#32]

/-- The program may ask for a blocking socket with `fcntl`, and the kernel does not hear of it. -/
theorem stays_nonblocking_fcntl :
    asked askedTwice = false ∧ ∀ done, done <+: askedTwice →
      nonblock (plainKernel.getfl
        ((Descriptor.opened plainKernel 2#32).calls plainKernel done).kernel) = true ∧
      nonblock (((Descriptor.opened plainKernel 2#32).calls plainKernel done).fcntlGetfl
        plainKernel) = asked done :=
  ⟨by decide, (stays_nonblocking_iff plainKernel lawful_plainKernel 2#32 _).mpr (by decide)⟩

/-- With `ioctl` it does. -/
theorem blocking_ioctl :
    ¬ ∀ (K : FlagKernel (BitVec 32) Empty), K.Lawful → ∀ kernel calls done, done <+: calls →
      nonblock (K.getfl ((Descriptor.opened K kernel).calls K done).kernel) = true ∧
        nonblock (((Descriptor.opened K kernel).calls K done).fcntlGetfl K) = asked done := by
  intro stays
  have set := (stays plainKernel lawful_plainKernel 2#32 [.fionbio 0#32] [.fionbio 0#32]
    (List.prefix_refl _)).1
  exact absurd set (by decide)

end CoroutineService.Hook
