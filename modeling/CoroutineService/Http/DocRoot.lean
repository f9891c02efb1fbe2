import CoroutineService.Http.Buffers
import CoroutineService.Http.DoRequest
import CoroutineService.Text.LexicalPath

/-!
# Files under the document root

The path in `m_real_file` is the document root followed by a page, or by as much of the
URL as there is room for. The URL is copied as it is, and `..` in it climbs out of the
root.

## Main definitions

* `UnderRoot`: the file served lies under the document root
* `Returns`: a text climbs no further than it comes back
* `Contained`: the requests that cannot leave the root

## Main results

* `path_of_prepare`: the path that is composed
* `underRoot_iff`: the requests that are served from under the root
* `not_underRoot`: a URL that leaves the root
-/

set_option autoImplicit false

namespace CoroutineService.Http

open CString CoroutineService.Text Reader

/-- If the request is answered with a file, its path leads below the document root. -/
def UnderRoot (b : Backend) (proxy : ProxyType) (decideProxy : Bool) (users : Users)
    (r : Reader) : Prop :=
  ∀ s users', b.prepare users r = .ok s →
    b.doRequest proxy decideProxy users r = .ok (.fileRequest, users') →
    resolve [] b.docRoot <+: resolve [] (strAt s.realFile 0)

/-- Behind this root, a text climbs no level, or the names it then goes down begin with
those of the levels it has climbed. -/
def Returns (docRoot text : List Char) : Prop :=
  let root := resolve [] docRoot
  root.drop (root.length - (relative text).up) <+: (relative text).names

/-- There is a file at this path, and `do_request` does not refuse it. -/
def Backend.serves (b : Backend) (path : List Char) : Bool :=
  match b.stat path with
  | none => false
  | some stat => !Backend.forbidden stat.mode && !Backend.isDir stat.mode

/-- The requests that cannot leave the root: those that are turned away, those for a page,
and those whose URL, as far as it is copied, leads to no file or comes back. -/
def Contained (b : Backend) (proxy : ProxyType) (decideProxy : Bool) (r : Reader) : Prop :=
  mismatch proxy decideProxy = true ∨ filenameLen ≤ b.docRoot.length ∨
    ∀ p ∈ r.url, ∀ k ∈ lastSlash (strAt r.readBuf p),
      let url := strAt r.readBuf p
      let kind := url.getD (k + 1) '\x00'
      isForm r.cgi kind = true ∨ (fixedPage kind).isSome = true ∨
        b.serves (b.docRoot ++ url.take b.room) = false ∨ Returns b.docRoot (url.take b.room)

/-! ### `m_real_file` -/

/-- `m_real_file` begins with the document root, and its last byte is a NUL. -/
structure Rooted (docRoot file : List Char) : Prop where
  length : file.length = filenameLen
  root : file.take docRoot.length = docRoot
  last : strAt file (filenameLen - 1) = []

section file

variable {b : Backend} {file file' text : List Char}

/-- The string that begins at the front when a text is stored there and ended. -/
theorem strAt_store {m root text pad : List Char} {p : ℕ} (front : m.take p = root)
    (noNul : '\x00' ∉ root) (noNul' : '\x00' ∉ text)
    (fits : p + (text ++ pad).length ≤ m.length)
    (ends : (pad ++ m.drop (p + (text ++ pad).length)).takeWhile (· ≠ '\x00') = []) :
    strAt (store m p (text ++ pad)) 0 = root ++ text := by
  have visible : ∀ l : List Char, '\x00' ∉ l → ∀ c ∈ l, decide (c ≠ '\x00') = true :=
    fun l out c mem => decide_eq_true (ne_of_mem_of_not_mem mem out)
  unfold strAt
  rw [store_eq fits, front, List.drop_zero, List.append_assoc,
    List.takeWhile_append_of_pos (visible root noNul),
    List.takeWhile_append_of_pos (visible text noNul'), ends, List.append_nil]

/-- `m_real_file` after the first copy: zeros follow the document root. -/
theorem rooted_rootFile (made : b.rootFile = .ok file) :
    b.docRoot.length < filenameLen ∧ Rooted b.docRoot file ∧
      ∀ p, b.docRoot.length ≤ p → strAt file p = [] := by
  obtain ⟨short, rfl⟩ := strcpy_eq_ok_iff.mp made
  rw [Nat.zero_add, List.length_replicate] at short
  have shape : store (List.replicate filenameLen '\x00') 0 (b.docRoot ++ ['\x00']) =
      b.docRoot ++ List.replicate (filenameLen - b.docRoot.length) '\x00' := by
    have room : filenameLen - b.docRoot.length =
        1 + (filenameLen - (0 + (b.docRoot ++ ['\x00']).length)) := by
      rw [List.length_append, List.length_singleton]
      omega
    rw [store_eq, List.take_zero, List.nil_append, List.append_assoc, List.drop_replicate, room,
      List.replicate_add]
    · rfl
    · rw [List.length_append, List.length_singleton, List.length_replicate]
      omega
  have zeros : ∀ p, b.docRoot.length ≤ p →
      strAt (b.docRoot ++ List.replicate (filenameLen - b.docRoot.length) '\x00') p = [] := by
    intro p behind
    apply strAt_eq_nil
    obtain ⟨k, rfl⟩ := Nat.exists_eq_add_of_le behind
    rw [charAt_append_length, charAt, List.getD_eq_getElem?_getD, List.getElem?_replicate]
    split <;> rfl
  rw [shape]
  refine ⟨short, ⟨?_, List.take_left, zeros _ (Nat.le_sub_one_of_lt short)⟩, zeros⟩
  rw [List.length_append, List.length_replicate]
  omega

/-- A text that is copied behind the document root, as far as there is room. -/
theorem rooted_strncpy (rooted : Rooted b.docRoot file) (short : b.docRoot.length < filenameLen)
    (noNul : '\x00' ∉ text) (copied : strncpy file b.docRoot.length text b.room = .ok file') :
    Rooted b.docRoot file' ∧ strAt file' 0 = b.docRoot ++ text.take b.room := by
  obtain ⟨fits, rfl⟩ := strncpy_eq_ok_iff.mp copied
  have full : b.docRoot.length + b.room = filenameLen - 1 := by
    unfold Backend.room
    omega
  have padded : (text ++ List.replicate b.room '\x00').take b.room =
      text.take b.room ++ List.replicate (b.room - text.length) '\x00' := by
    rw [List.take_append, List.take_replicate, Nat.min_eq_left (Nat.sub_le _ _)]
  have length : (text.take b.room ++ List.replicate (b.room - text.length) '\x00').length =
      b.room := by
    rw [List.length_append, List.length_take, List.length_replicate]
    omega
  have front : (file.take b.docRoot.length).length = b.docRoot.length := by rw [rooted.root]
  rw [padded]
  refine ⟨⟨(length_store _).trans rooted.length, ?_, ?_⟩, ?_⟩
  · rw [store_eq (by rwa [length]), rooted.root]
    exact List.take_left
  · have behind : (store file b.docRoot.length (text.take b.room ++
        List.replicate (b.room - text.length) '\x00')).drop (filenameLen - 1) =
          file.drop (filenameLen - 1) := by
      rw [store_eq (by rwa [length]), ← List.append_assoc, length, full]
      apply List.drop_left'
      rw [List.length_append, front, length, full]
    unfold strAt
    rw [behind]
    exact rooted.last
  · refine strAt_store rooted.root b.isText (fun mem => noNul (List.mem_of_mem_take mem))
      (by rwa [length]) ?_
    rw [length, full]
    cases b.room - text.length with
    | zero => exact rooted.last
    | succ k =>
      rw [List.replicate_succ, List.cons_append, List.takeWhile_cons, if_neg (by decide)]

/-- A page that is copied behind the document root without its NUL. -/
theorem strAt_page (rooted : Rooted b.docRoot file)
    (zeros : ∀ p, b.docRoot.length ≤ p → strAt file p = []) (noNul : '\x00' ∉ text)
    (copied : strncpy file b.docRoot.length text text.length = .ok file') :
    strAt file' 0 = b.docRoot ++ text := by
  obtain ⟨fits, rfl⟩ := strncpy_eq_ok_iff.mp copied
  have whole : (text ++ List.replicate text.length '\x00').take text.length = text ++ [] := by
    rw [List.take_left, List.append_nil]
  rw [whole]
  refine strAt_store rooted.root b.isText noNul (by rwa [List.append_nil]) ?_
  exact zeros _ (Nat.le_add_right _ _)

end file

/-! ### The path -/

section path

variable {b : Backend} {proxy : ProxyType} {decideProxy : Bool} {users users' : Users} {r : Reader}
  {s : Prepared} {p k : ℕ}

/-- A text that begins with a slash, or is empty, and does not climb. -/
structure Tame (text : List Char) : Prop where
  head : text = [] ∨ text.head? = some '/'
  descends : ['.', '.'] ∉ components text

instance (text : List Char) : Decidable (Tame text) :=
  decidable_of_iff ((text = [] ∨ text.head? = some '/') ∧ ['.', '.'] ∉ components text)
    ⟨fun ⟨head, descends⟩ => ⟨head, descends⟩, fun tame => ⟨tame.head, tame.descends⟩⟩

theorem tame_fixedPage {kind : Char} {page : String} (found : fixedPage kind = some page) :
    '\x00' ∉ page.toList ∧ Tame page.toList := by
  unfold fixedPage at found
  split_ifs at found <;> cases found <;> decide +kernel

/-- The pages of a form, cut anywhere. -/
theorem tame_userPage {page : String} (answer : page ∈ userPages) :
    '\x00' ∉ page.toList ∧ ∀ n, Tame (page.toList.take n) := by
  have short : ∀ page ∈ userPages, '\x00' ∉ page.toList ∧
      ∀ n ≤ page.toList.length, Tame (page.toList.take n) := by
    decide +kernel
  obtain ⟨noNul, tame⟩ := short page answer
  refine ⟨noNul, fun n => ?_⟩
  rcases le_total n page.toList.length with within | beyond
  · exact tame n within
  · rw [List.take_of_length_le beyond, ← List.take_length (l := page.toList)]
    exact tame _ le_rfl

/-- What a form leaves for the copy that follows. -/
theorem prepareForm_eq_ok {kind : Char} {file url : List Char} (rooted : Rooted b.docRoot file)
    (short : b.docRoot.length < filenameLen) (noNul : '\x00' ∉ url)
    (prepared : b.prepareForm users r kind file url = .ok s) :
    Rooted b.docRoot s.realFile ∧ ∃ page ∈ userPages, s.url = page.toList := by
  obtain ⟨first, made, prepared⟩ := exists_of_bind prepared
  obtain ⟨real, made', prepared⟩ := exists_of_bind prepared
  obtain ⟨file', copied, prepared⟩ := exists_of_bind prepared
  obtain ⟨f, -, prepared⟩ := exists_of_bind prepared
  obtain ⟨⟨page, users'⟩, answered, prepared⟩ := exists_of_bind prepared
  cases prepared
  obtain ⟨-, rfl⟩ := append_eq_ok_iff.mp made
  obtain ⟨-, rfl⟩ := append_eq_ok_iff.mp made'
  have text : '\x00' ∉ [] ++ ['/'] ++ url.drop 2 := fun mem => by
    rcases List.mem_append.mp mem with slash | rest
    · exact absurd slash (by decide)
    · exact noNul (List.mem_of_mem_drop rest)
  refine ⟨(rooted_strncpy rooted short text copied).1, page, ?_, rfl⟩
  unfold Backend.answerForm at answered
  split at answered
  · obtain ⟨sql, -, registered⟩ := exists_of_bind answered
    have same : (register users f.name f.password (b.mysqlQuery sql)).1 = page :=
      congrArg Prod.fst (Except.ok.inj registered)
    exact same ▸ register_mem_userPages _ _ _ _
  · have same : (login users f.name f.password).1 = page :=
      congrArg Prod.fst (Except.ok.inj answered)
    exact same ▸ login_mem_userPages _ _ _

/-- The branches after the form. -/
theorem prepareFile_eq_ok {kind : Char} {s s' : Prepared} (rooted : Rooted b.docRoot s.realFile)
    (short : b.docRoot.length < filenameLen) (none : fixedPage kind = none) (noNul : '\x00' ∉ s.url)
    (prepared : b.prepareFile kind s = .ok s') :
    strAt s'.realFile 0 = b.docRoot ++ s.url.take b.room := by
  unfold Backend.prepareFile at prepared
  rw [none] at prepared
  obtain ⟨file, copied, same⟩ := exists_of_bind prepared
  cases same
  exact (rooted_strncpy rooted short noNul copied).2

/-- The path that is composed: the document root, followed by a page or by the URL. -/
theorem path_of_prepare (prepared : b.prepare users r = .ok s) (pointer : r.url = some p)
    (slash : lastSlash (strAt r.readBuf p) = some k) :
    let url := strAt r.readBuf p
    let kind := url.getD (k + 1) '\x00'
    ∃ text, strAt s.realFile 0 = b.docRoot ++ text ∧
      ((isForm r.cgi kind = true ∨ (fixedPage kind).isSome = true) ∧ Tame text ∨
        (isForm r.cgi kind = false ∧ fixedPage kind = none) ∧ text = url.take b.room) := by
  intro url kind
  have noNul : '\x00' ∉ url := fun mem => ne_nul_of_mem mem rfl
  obtain ⟨file, made, prepared⟩ := exists_of_bind prepared
  obtain ⟨short, rooted, zeros⟩ := rooted_rootFile made
  rw [pointer] at prepared
  dsimp only at prepared
  rw [slash] at prepared
  dsimp only at prepared
  split at prepared
  case isTrue form =>
    obtain ⟨s', asked, prepared⟩ := exists_of_bind prepared
    obtain ⟨rooted', page, answer, same⟩ := prepareForm_eq_ok rooted short noNul asked
    obtain ⟨noNul', tame⟩ := tame_userPage answer
    have digit := form
    simp only [isForm, Bool.and_eq_true, Bool.or_eq_true, beq_iff_eq] at digit
    have none := Backend.fixedPage_urlByte answer digit.2
    rw [← same] at none noNul'
    refine ⟨s'.url.take b.room, prepareFile_eq_ok rooted' short none noNul' prepared,
      .inl ⟨.inl form, ?_⟩⟩
    rw [same]
    exact tame _
  case isFalse noForm =>
    cases found : fixedPage kind with
    | none =>
      exact ⟨_, prepareFile_eq_ok (s := ⟨file, url, users, none⟩) rooted short found noNul prepared,
        .inr ⟨⟨eq_false_of_ne_true noForm, rfl⟩, rfl⟩⟩
    | some page =>
      obtain ⟨noNul', tame⟩ := tame_fixedPage found
      unfold Backend.prepareFile at prepared
      rw [show fixedPage (url.getD (k + 1) '\x00') = some page from found] at prepared
      obtain ⟨file', copied, same⟩ := exists_of_bind prepared
      cases same
      exact ⟨page.toList, strAt_page rooted zeros noNul' copied, .inl ⟨.inr rfl, tame⟩⟩

/-- A file is served if it is there and not refused. -/
theorem finish_eq_fileRequest : b.finish s = .ok .fileRequest ↔
    '\x00' ∈ s.realFile ∧ b.serves (strAt s.realFile 0) = true := by
  unfold Backend.finish Backend.serves
  by_cases ended : '\x00' ∈ s.realFile
  · rw [if_pos ended, and_iff_right ended]
    cases b.stat (strAt s.realFile 0) with
    | none => exact iff_of_false nofun nofun
    | some stat =>
      dsimp only
      cases Backend.forbidden stat.mode with
      | true => exact iff_of_false nofun nofun
      | false =>
        cases Backend.isDir stat.mode with
        | true => exact iff_of_false nofun nofun
        | false => exact iff_of_true rfl rfl
  · rw [if_neg ended]
    exact iff_of_false nofun fun both => ended both.1

/-- A file is served only by a request that is not turned away. -/
theorem serves_of_doRequest (prepared : b.prepare users r = .ok s)
    (served : b.doRequest proxy decideProxy users r = .ok (.fileRequest, users')) :
    mismatch proxy decideProxy = false ∧ b.serves (strAt s.realFile 0) = true := by
  unfold Backend.doRequest at served
  split at served
  case isTrue => cases served
  case isFalse passes =>
    obtain ⟨s', prepared', served⟩ := exists_of_bind served
    obtain ⟨code, finished, same⟩ := exists_of_bind served
    cases prepared.symm.trans prepared'
    cases same
    exact ⟨eq_false_of_ne_true passes, (finish_eq_fileRequest.mp finished).2⟩

theorem Rooted.mem {file : List Char} (rooted : Rooted b.docRoot file) : '\x00' ∈ file := by
  have inside : filenameLen - 1 < file.length := by
    rw [rooted.length]
    decide
  have last := rooted.last
  unfold strAt at last
  rw [List.drop_eq_getElem_cons inside, List.takeWhile_cons] at last
  split at last
  case isTrue => cases last
  case isFalse nul =>
    have byte : file[filenameLen - 1] = '\x00' := by simpa using nul
    exact byte ▸ List.getElem_mem inside

/-- The URL is copied as far as there is room, and if there is a file it is served. -/
theorem exists_served (passes : mismatch proxy decideProxy = false)
    (short : b.docRoot.length < filenameLen) (pointer : r.url = some p)
    (slash : lastSlash (strAt r.readBuf p) = some k)
    (noForm : isForm r.cgi ((strAt r.readBuf p).getD (k + 1) '\x00') = false)
    (noPage : fixedPage ((strAt r.readBuf p).getD (k + 1) '\x00') = none)
    (there : b.serves (b.docRoot ++ (strAt r.readBuf p).take b.room) = true) (users : Users) :
    ∃ s, b.prepare users r = .ok s ∧
      strAt s.realFile 0 = b.docRoot ++ (strAt r.readBuf p).take b.room ∧
      b.doRequest proxy decideProxy users r = .ok (.fileRequest, s.users) := by
  have noNul : '\x00' ∉ strAt r.readBuf p := fun mem => ne_nul_of_mem mem rfl
  obtain ⟨file, made⟩ : ∃ file, b.rootFile = .ok file :=
    ⟨_, strcpy_eq_ok_iff.mpr ⟨by rwa [Nat.zero_add, List.length_replicate], rfl⟩⟩
  obtain ⟨-, rooted, -⟩ := rooted_rootFile made
  obtain ⟨file', copied⟩ : ∃ file', strncpy file b.docRoot.length (strAt r.readBuf p) b.room =
      .ok file' := by
    refine ⟨_, strncpy_eq_ok_iff.mpr ⟨?_, rfl⟩⟩
    rw [rooted.length]
    unfold Backend.room
    omega
  obtain ⟨rooted', path⟩ := rooted_strncpy rooted short noNul copied
  have prepared : b.prepare users r = .ok ⟨file', strAt r.readBuf p, users, none⟩ := by
    unfold Backend.prepare Backend.prepareFile
    rw [made, pointer]
    dsimp only [bind, Except.bind]
    rw [slash]
    dsimp only
    rw [noForm, if_neg Bool.false_ne_true, noPage]
    dsimp only
    rw [copied]
    rfl
  have finished : b.finish ⟨file', strAt r.readBuf p, users, none⟩ = .ok .fileRequest :=
    finish_eq_fileRequest.mpr ⟨rooted'.mem, by rw [path, there]⟩
  refine ⟨_, prepared, path, ?_⟩
  unfold Backend.doRequest
  rw [passes, if_neg Bool.false_ne_true, prepared]
  show (b.finish _ >>= _) = _
  rw [finished]
  rfl

end path

/-- What is copied of a URL begins with a slash, unless it is empty. -/
theorem HasUrl.head {r : Reader} (url : HasUrl r) {p : ℕ} (pointer : r.url = some p) (n : ℕ) :
    (strAt r.readBuf p).take n = [] ∨ ((strAt r.readBuf p).take n).head? = some '/' := by
  obtain ⟨q, pointer', inside, begins⟩ := url
  obtain rfl : p = q := Option.some_inj.mp (pointer.symm.trans pointer')
  rcases begins with slash | nul
  · cases n with
    | zero => exact .inl List.take_zero
    | succ n =>
      right
      rw [List.head?_take, if_neg n.succ_ne_zero, head?_strAt (by rw [slash]; decide), slash]
  · left
    rw [strAt_eq_nil nul, List.take_nil]

/-- Below the document root or not, by the levels and names of what follows it. -/
theorem prefix_resolve_iff {docRoot text : List Char} (head : text = [] ∨ text.head? = some '/') :
    resolve [] docRoot <+: resolve [] (docRoot ++ text) ↔ Returns docRoot text := by
  rw [resolve_append_of_head head, resolve_eq_applyTo (resolve [] docRoot) text,
    prefix_applyTo_iff]
  rfl

/-- A request that has been read is served from under the document root if it is contained. -/
theorem underRoot_parsed (b : Backend) (proxy : ProxyType) (decideProxy : Bool) (users : Users)
    {r : Reader} (parsed : Parsed r) :
    UnderRoot b proxy decideProxy users r ↔ Contained b proxy decideProxy r := by
  obtain ⟨p, pointer, -⟩ := parsed.url
  unfold Contained
  simp only [pointer, Option.mem_def, Option.some.injEq, forall_eq']
  constructor
  · intro under
    by_contra escapes
    push Not at escapes
    obtain ⟨passes, short, k, slash, noForm, noPage, there, leaves⟩ := escapes
    obtain ⟨s, prepared, path, served⟩ := exists_served (eq_false_of_ne_true passes) short pointer
      slash (eq_false_of_ne_true noForm)
      (Option.not_isSome_iff_eq_none.mp noPage) (eq_true_of_ne_false there) users
    -- The URL that leaves is served, and so it should have stayed inside.
    have inside := under s s.users prepared served
    rw [path, prefix_resolve_iff (parsed.url.head pointer _)] at inside
    exact leaves inside
  · intro contained s users' prepared served
    obtain ⟨passes, there⟩ := serves_of_doRequest prepared served
    have short : ¬ filenameLen ≤ b.docRoot.length := by
      obtain ⟨file, made, -⟩ := exists_of_bind prepared
      exact not_le.mpr (rooted_rootFile made).1
    replace contained := (contained.resolve_left (by rw [passes]; exact nofun)).resolve_left short
    cases slash : lastSlash (strAt r.readBuf p) with
    | none =>
      obtain ⟨file, made, prepared⟩ := exists_of_bind prepared
      rw [pointer] at prepared
      dsimp only at prepared
      rw [slash] at prepared
      cases prepared
    | some k =>
      obtain ⟨text, path, page | url⟩ := path_of_prepare prepared pointer slash
      -- A fixed page never leaves the root, and the URL is what remains.
      · obtain ⟨-, tame⟩ := page
        rw [path, prefix_resolve_iff tame.head]
        exact prefix_applyTo_iff.mp (prefix_applyTo_of_up (up_relative tame.descends))
      · obtain ⟨⟨noForm, noPage⟩, rfl⟩ := url
        rw [path] at there ⊢
        rw [prefix_resolve_iff (parsed.url.head pointer _)]
        rcases contained k slash with form | page | nothing | returns
        · exact absurd (form.symm.trans noForm) nofun
        · rw [noPage] at page
          cases page
        · exact absurd (there.symm.trans nothing) nofun
        · exact returns

/-- A request is served from under the document root if and only if it is contained. -/
theorem underRoot_iff (b : Backend) {proxy : ProxyType} {decideProxy : Bool} (users : Users)
    {c r : Reader} (reads : Reads proxy c)
    (called : c.loop proxy .ok true = (.request, decideProxy, r)) :
    UnderRoot b proxy decideProxy users r ↔ Contained b proxy decideProxy r :=
  underRoot_parsed b proxy decideProxy users (parsed_of_reads reads called)

/-- A server on which every path leads to a file that everybody may read. -/
def openServer : Backend :=
  { emptyServer with stat := fun _ => some ⟨0o100644, 0⟩ }

/-- A request for a page. -/
def pageRequest : Reader := unused.init.feed "GET /a/../fans.html HTTP/1.1\r\n\r\n".toList

theorem underRoot_page :
    let r := (pageRequest.loop .noProxy .ok true).2.2
    strAt r.readBuf 4 = "/a/../fans.html".toList ∧
      (UnderRoot openServer .noProxy true (initmysqlResult []) r ↔
        Contained openServer .noProxy true r) := by
  refine ⟨by decide +kernel, underRoot_iff openServer _
    (.feed (.init unused) (by decide +kernel)) (c := pageRequest) ?_⟩
  decide +kernel

/-- A URL that climbs out of the document root. -/
def climbing : Reader := unused.init.feed "GET /../../../etc/passwd HTTP/1.1\r\n\r\n".toList

theorem not_underRoot :
    ¬ ∀ (b : Backend) proxy users (c r : Reader) decideProxy, Reads proxy c →
      c.loop proxy .ok true = (.request, decideProxy, r) →
      UnderRoot b proxy decideProxy users r := by
  intro under
  have reads : Reads .noProxy climbing := .feed (.init unused) (by decide +kernel)
  have called : climbing.loop .noProxy .ok true =
      (.request, true, (climbing.loop .noProxy .ok true).2.2) := by
    decide +kernel
  have inside := under openServer .noProxy (initmysqlResult []) _ _ _ reads called
  have contained := (underRoot_parsed openServer .noProxy true (initmysqlResult [])
    (parsed_of_reads reads called)).mp inside
  have url := ((contained.resolve_left (by decide)).resolve_left (by decide)) 4
    (by decide +kernel) 13 (by decide +kernel)
  dsimp only at url
  rcases url with form | page | nothing | returns
  · exact absurd form (by decide +kernel)
  · exact absurd page (by decide +kernel)
  · exact absurd nothing (by decide +kernel)
  · unfold Returns at returns
    exact absurd returns (by decide +kernel)

end CoroutineService.Http
