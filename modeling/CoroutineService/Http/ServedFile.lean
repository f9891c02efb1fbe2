import CoroutineService.Http.Complete

/-!
# The file that is served

`do_request` asks for a file with `stat`, `open` and `mmap`. It looks at what `stat` returns
only. `!(m_file_stat.st_mode)&S_IROTH` is a test of `!(m_file_stat.st_mode)`, which is zero or
one, and never has this bit.

## Main definitions

* `FileCalls`: what `open` and `mmap` return
* `FileAddress`: `m_file_address`
* `Backend.outcome`: the verdict on a path, and `m_file_address` afterwards
* `Backend.doRequestMapped`: `do_request` with `m_file_address`
* `ServesFiles`: a verdict says what has become of the file
* `Servable`: a path for which the verdict is right

## Main results

* `doRequest_eq_mapped`: `m_file_address` does not matter for the verdict
* `servesFiles_iff`: the calls of `do_request` whose verdict is right
-/

set_option autoImplicit false

namespace CoroutineService.Http

open CString

/-! ### `open` and `mmap` -/

/-- What `open` returns for a path, where `none` is `-1`, and whether `mmap` maps so many bytes
of a descriptor. -/
structure FileCalls where
  openFd : List Char → Option ℕ
  maps : ℕ → Option ℕ → Bool

/-- `m_file_address`: a null pointer, `MAP_FAILED`, or so many bytes that can be read. -/
inductive FileAddress
  | null | mapFailed | mapped (size : ℕ)
  deriving DecidableEq, Repr

/-- What `mmap` returns. -/
def FileCalls.mmap (k : FileCalls) (size : ℕ) (fd : Option ℕ) : FileAddress :=
  if k.maps size fd then .mapped size else .mapFailed

/-- `S_IROTH`. -/
def Readable (mode : ℕ) : Prop := mode &&& 0o4 ≠ 0

instance (mode : ℕ) : Decidable (Readable mode) := inferInstanceAs (Decidable (_ ≠ _))

/-- What `do_request` returns and leaves behind: the path that `stat` was called with, and
`m_file_address`. -/
structure Served where
  ret : HttpCode
  path : Option (List Char)
  address : FileAddress
  users : Users

namespace Backend

variable (b : Backend) (k : FileCalls) (address : FileAddress)

/-- `do_request` from its call of `stat` on. The results of `open` and `mmap` are not looked
at. -/
def outcome (path : List Char) : HttpCode × FileAddress :=
  match b.stat path with
  | none => (.noResource, address)
  | some stat =>
    if forbidden stat.mode then (.forbiddenRequest, address)
    else if isDir stat.mode then (.badRequest, address)
    else (.fileRequest, k.mmap stat.size (k.openFd path))

/-- `do_request`. -/
def doRequestMapped (proxy : ProxyType) (decideProxy : Bool) (users : Users) (r : Reader) :
    Except Fault Served :=
  if mismatch proxy decideProxy then .ok ⟨.badRequest, none, address, users⟩
  else do
    let s ← b.prepare users r
    if '\x00' ∈ s.realFile then
      let path := strAt s.realFile 0
      let (ret, address) := b.outcome k address path
      return ⟨ret, some path, address, s.users⟩
    else .error .overrun

variable {b k address} {proxy : ProxyType} {decideProxy : Bool} {users : Users} {r : Reader}

theorem finish_eq_outcome {s : Prepared} : b.finish s =
    if '\x00' ∈ s.realFile then .ok (b.outcome k address (strAt s.realFile 0)).1
    else .error .overrun := by
  unfold finish outcome
  cases b.stat (strAt s.realFile 0) with
  | none => rfl
  | some stat =>
    dsimp only
    split_ifs <;> rfl

/-- `m_file_address` does not matter for the verdict. -/
theorem doRequest_eq_mapped : b.doRequest proxy decideProxy users r =
    (b.doRequestMapped k address proxy decideProxy users r).map fun o => (o.ret, o.users) := by
  unfold doRequest doRequestMapped
  split
  · rfl
  · cases b.prepare users r with
    | error fault => rfl
    | ok s =>
      dsimp only [bind, Except.bind]
      rw [finish_eq_outcome (k := k)]
      by_cases ended : '\x00' ∈ s.realFile
      · rw [if_pos ended, if_pos ended]
        rfl
      · rw [if_neg ended, if_neg ended]
        rfl

end Backend

/-! ### The verdict -/

/-- `FILE_REQUEST` means that the file can be read by others, is no directory and has been
mapped. The two other verdicts tell what is wrong with it. -/
structure Tells (b : Backend) (k : FileCalls) (o : Served) : Prop where
  file : o.ret = .fileRequest → ∃ path stat, o.path = some path ∧ b.stat path = some stat ∧
    Readable stat.mode ∧ Backend.isDir stat.mode = false ∧ k.openFd path ≠ none ∧
    o.address = .mapped stat.size
  forbidden : o.ret = .forbiddenRequest ↔ ∃ path stat, o.path = some path ∧
    b.stat path = some stat ∧ ¬Readable stat.mode
  missing : o.ret = .noResource ↔ ∃ path, o.path = some path ∧ b.stat path = none

/-- The verdict of a call of `do_request` that returns one tells this. -/
def ServesFiles (b : Backend) (k : FileCalls) (address : FileAddress) (proxy : ProxyType)
    (decideProxy : Bool) (users : Users) (r : Reader) : Prop :=
  ∀ o, b.doRequestMapped k address proxy decideProxy users r = .ok o → Tells b k o

/-- There is no file, or others may read it, and it is a directory or can be mapped. -/
def Servable (b : Backend) (k : FileCalls) (path : List Char) : Prop :=
  b.stat path = none ∨ ∃ stat, b.stat path = some stat ∧ Readable stat.mode ∧
    (Backend.isDir stat.mode = true ∨
      ∃ fd, k.openFd path = some fd ∧ k.maps stat.size (some fd) = true)

section verdict

variable {b : Backend} {k : FileCalls} {address : FileAddress} {proxy : ProxyType}
  {decideProxy : Bool} {users : Users} {r : Reader} {path : List Char}

/-- What can be told if the gate has not been passed. -/
theorem tells_refused : Tells b k ⟨.badRequest, none, address, users⟩ := by
  refine ⟨fun verdict => ?_, ⟨fun verdict => ?_, ?_⟩, ⟨fun verdict => ?_, ?_⟩⟩
  · cases verdict
  · cases verdict
  · rintro ⟨path, stat, reached, -⟩
    cases reached
  · cases verdict
  · rintro ⟨path, reached, -⟩
    cases reached

/-- Where the verdict is given on a path, it is on this one. -/
theorem tells_iff {ret : HttpCode} : Tells b k ⟨ret, some path, address, users⟩ ↔
    (ret = .fileRequest → ∃ stat, b.stat path = some stat ∧ Readable stat.mode ∧
      Backend.isDir stat.mode = false ∧ k.openFd path ≠ none ∧ address = .mapped stat.size) ∧
    (ret = .forbiddenRequest ↔ ∃ stat, b.stat path = some stat ∧ ¬Readable stat.mode) ∧
    (ret = .noResource ↔ b.stat path = none) := by
  constructor
  · rintro ⟨file, forbidden, missing⟩
    exact ⟨by simpa using file, by simpa using forbidden, by simpa using missing⟩
  · rintro ⟨file, forbidden, missing⟩
    exact ⟨by simpa using file, by simpa using forbidden, by simpa using missing⟩

variable (address users) in
/-- The verdict on a path. -/
theorem tells_outcome_iff :
    Tells b k ⟨(b.outcome k address path).1, some path, (b.outcome k address path).2, users⟩ ↔
      Servable b k path := by
  rw [tells_iff]
  unfold Backend.outcome Servable
  cases found : b.stat path with
  | none => simp
  | some stat =>
    dsimp only
    rw [forbidden_eq_false, if_neg Bool.false_ne_true]
    by_cases readable : Readable stat.mode
    · by_cases directory : Backend.isDir stat.mode = true
      · rw [if_pos directory]
        simp [readable, directory]
      · -- the file is mapped, if it can be opened
        rw [if_neg directory]
        unfold FileCalls.mmap
        cases opened : k.openFd path with
        | none => simp [readable, directory]
        | some fd =>
          by_cases maps : k.maps stat.size (some fd) = true
          · simp [readable, directory, maps]
          · simp [readable, directory, maps]
    · -- nobody is told that the file is not for others
      have told : (if Backend.isDir stat.mode = true then (HttpCode.badRequest, address)
          else (.fileRequest, k.mmap stat.size (k.openFd path))).1 ≠ .forbiddenRequest := by
        split
        · intro refused
          cases refused
        · intro refused
          cases refused
      simp [readable, told]

end verdict

/-- The verdict of `do_request` is right if and only if the path it comes to is of one of
these kinds. -/
theorem servesFiles_iff {b : Backend} {k : FileCalls} {address : FileAddress} {proxy : ProxyType}
    {decideProxy : Bool} {users : Users} {r : Reader} :
    ServesFiles b k address proxy decideProxy users r ↔
      (mismatch proxy decideProxy = false → ∀ s, b.prepare users r = .ok s →
        '\x00' ∈ s.realFile → Servable b k (strAt s.realFile 0)) := by
  unfold ServesFiles Backend.doRequestMapped
  cases refused : mismatch proxy decideProxy with
  | true =>
    rw [if_pos rfl]
    refine iff_of_true (fun o answered => ?_) fun passes => absurd passes.symm Bool.false_ne_true
    cases answered
    exact tells_refused
  | false =>
    rw [if_neg Bool.false_ne_true, forall_prop_of_true rfl]
    cases prepared : b.prepare users r with
    | error fault =>
      refine iff_of_true (fun o answered => ?_) fun s same => ?_
      · cases answered
      · cases same
    | ok s =>
      simp only [bind, Except.bind, pure, Except.pure, Except.ok.injEq, forall_eq']
      by_cases ended : '\x00' ∈ s.realFile
      · rw [if_pos ended, forall_prop_of_true ended, ← tells_outcome_iff address s.users]
        constructor
        · exact fun tells => tells _ rfl
        · rintro tells o ⟨⟩
          exact tells
      · rw [if_neg ended]
        refine iff_of_true (fun o answered => ?_) fun inside => absurd inside ended
        cases answered

/-- A server whose files are not for others. -/
def privateFiles : Backend := { emptyServer with stat := fun _ => some ⟨0o100640, 3⟩ }

/-- Its answer to a request for a page. -/
def privateAnswer : Except Fault Served :=
  privateFiles.doRequestMapped ⟨fun _ => some 7, fun _ _ => true⟩ .null .noProxy true
    (initmysqlResult []) (pageRequest.loop .noProxy .ok true).2.2

/-- A file that is not for others is served. -/
theorem not_servesFiles : ¬∀ (b : Backend) (k : FileCalls) (address : FileAddress)
    (proxy : ProxyType) (decideProxy : Bool) (users : Users) (r : Reader),
    ServesFiles b k address proxy decideProxy users r := by
  intro serves
  have verdict : privateAnswer.toOption.map (fun o => (o.ret, o.path.isSome)) =
      some (.fileRequest, true) := by decide +kernel
  cases answered : privateAnswer with
  | error fault =>
    rw [answered] at verdict
    cases verdict
  | ok o =>
    rw [answered] at verdict
    obtain ⟨file, reached⟩ := Prod.mk.inj (Option.some_inj.mp verdict)
    obtain ⟨path, here⟩ := Option.isSome_iff_exists.mp reached
    have tells := serves _ _ _ _ _ _ _ o answered
    have refused := tells.forbidden.mpr ⟨path, ⟨0o100640, 3⟩, here, rfl, by decide⟩
    rw [file] at refused
    cases refused

end CoroutineService.Http
