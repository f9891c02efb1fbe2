import CoroutineService.Http.Pieces
import CoroutineService.Http.Splitting

/-!
# The request line

`parse_request_line` walks along the line with functions of `string.h`, whose arguments
must be pointers to C strings within the buffer, and writes NULs and a page over it. Which
lines it accepts, where it writes to and where it passes a null pointer is told by the
words of the line.

## Main definitions

* `IsRequestLine`, `remaining`: the grammar of the line, and its target without a scheme
* `Accepts`: a request line for a page
* `HostOnly`: a request line whose target is a host only

## Main results

* `parsesGrammar_iff`: the lines of the grammar, and no others, are accepted, unless the
  line is for a host only
* `rewrites_before_checked`: nothing is written behind the line
-/

set_option autoImplicit false

namespace CoroutineService.Http

open CString

/-! ### The grammar -/

/-- One or more blanks or tabs. -/
def Blanks (s : List Char) : Prop := s ≠ [] ∧ ∀ c ∈ s, c ∈ [' ', '\t']

/-- One or more other characters. -/
def IsWord (s : List Char) : Prop := s ≠ [] ∧ ∀ c ∈ s, c ∉ [' ', '\t']

/-- `GET` or `POST`, a target and `HTTP/1.1`, with blanks between them. -/
def IsRequestLine (l target : List Char) : Prop :=
  ∃ method blanks blanks' version, l = method ++ (blanks ++ (target ++ (blanks' ++ version))) ∧
    (sameText method "GET".toList = true ∨ sameText method "POST".toList = true) ∧
    Blanks blanks ∧ IsWord target ∧ Blanks blanks' ∧ sameText version "HTTP/1.1".toList = true

/-- The text from its first slash on. -/
def fromSlash (s : List Char) : Option (List Char) :=
  if '/' ∈ s then some (s.dropWhile (· ≠ '/')) else none

/-- The target without `http://` or `https://` and what comes before the next slash. -/
def remaining (target : List Char) : Option (List Char) :=
  if startsWith target "http://" then fromSlash (target.drop 7)
  else if startsWith target "https://" then fromSlash (target.drop 8)
  else some target

/-- A request line whose target leaves a page. -/
def Accepts (l page : List Char) : Prop :=
  ∃ target, IsRequestLine l target ∧ remaining target = some page ∧ page.head? = some '/'

/-- A request line for `http://` and a host, without a slash behind it. -/
def HostOnly (l : List Char) : Prop :=
  ∃ target, IsRequestLine l target ∧ startsWith target "http://" = true ∧ '/' ∉ target.drop 7

/-- What `m_url` is to be for a page. -/
def pageOf (page : List Char) : List Char := if page = ['/'] then "/judge.html".toList else page

/-- `parse_request_line` passes good pointers only, accepts the lines of the grammar, refuses
the others with `BAD_REQUEST`, and leaves the page in `m_url`. -/
def ParsesGrammar (r : Reader) (text : ℕ) : Prop :=
  ∃ code r' stores, r.parseRequestLine text = .ok (code, r', stores) ∧
    (code = .noRequest ↔ ∃ page, Accepts (strAt r.readBuf text) page) ∧
    (code ≠ .noRequest → code = .badRequest) ∧
    ∀ page, Accepts (strAt r.readBuf text) page →
      ∃ url, r'.url = some url ∧ strAt r'.readBuf url = pageOf page

/-! ### Words -/

/-- The text up to the first blank. -/
def firstWord (l : List Char) : List Char := l.takeWhile (· ∉ [' ', '\t'])

/-- The blanks behind it. -/
def gap (l : List Char) : List Char := (l.dropWhile (· ∉ [' ', '\t'])).takeWhile (· ∈ [' ', '\t'])

/-- What follows these blanks. -/
def skipWord (l : List Char) : List Char :=
  (l.dropWhile (· ∉ [' ', '\t'])).dropWhile (· ∈ [' ', '\t'])

theorem word_gap_skipWord (l : List Char) : firstWord l ++ (gap l ++ skipWord l) = l := by
  unfold firstWord gap skipWord
  rw [List.takeWhile_append_dropWhile, List.takeWhile_append_dropWhile]

theorem head_skipWord (l : List Char) : ∀ c ∈ (skipWord l).head?, c ∉ [' ', '\t'] := by
  intro c head
  have stops := List.head?_dropWhile_not (p := (· ∈ [' ', '\t']))
    (l := l.dropWhile (· ∉ [' ', '\t']))
  unfold skipWord at head
  rw [Option.mem_def.mp head] at stops
  simpa using stops

/-- A word, blanks and something else are told apart. -/
theorem split_word {w b rest : List Char} (word : ∀ c ∈ w, c ∉ [' ', '\t']) (blanks : Blanks b)
    (other : ∀ c ∈ rest.head?, c ∉ [' ', '\t']) :
    firstWord (w ++ (b ++ rest)) = w ∧ skipWord (w ++ (b ++ rest)) = rest := by
  obtain ⟨some, blank⟩ := blanks
  obtain ⟨c, b, rfl⟩ := List.exists_cons_of_ne_nil some
  have first : c ∈ [' ', '\t'] := blank c List.mem_cons_self
  have stops : ¬decide (c ∉ [' ', '\t']) = true := by
    rw [decide_eq_true_eq]
    exact not_not_intro first
  have before : ∀ c ∈ w, decide (c ∉ [' ', '\t']) = true := fun c mem => decide_eq_true (word c mem)
  have between : ∀ x ∈ c :: b, decide (x ∈ [' ', '\t']) = true := fun x mem =>
    decide_eq_true (blank x mem)
  constructor
  · rw [firstWord, List.takeWhile_append_of_pos before, List.cons_append, List.takeWhile_cons,
      if_neg stops, List.append_nil]
  · rw [skipWord, List.dropWhile_append_of_pos before, List.cons_append, List.dropWhile_cons,
      if_neg stops, ← List.cons_append, List.dropWhile_append_of_pos between]
    cases rest with
    | nil => rfl
    | cons x rest => rw [List.dropWhile_cons, if_neg (by simpa using other x rfl)]

/-- Before something that is not empty there are blanks. -/
theorem blanks_gap {l : List Char} (more : skipWord l ≠ []) : Blanks (gap l) := by
  refine ⟨fun none => ?_, fun c mem => ?_⟩
  case refine_2 => exact of_decide_eq_true (List.mem_takeWhile_imp (p := (· ∈ [' ', '\t'])) mem)
  unfold gap at none
  unfold skipWord at more
  have stops := List.head?_dropWhile_not (p := (· ∉ [' ', '\t'])) (l := l)
  cases rest : l.dropWhile (· ∉ [' ', '\t']) with
  | nil => exact more (by rw [rest]; rfl)
  | cons c rest' =>
    rw [rest] at stops none
    have blank : c ∈ [' ', '\t'] := by
      by_contra other
      simp only [List.head?_cons, decide_eq_true other] at stops
      cases stops
    rw [List.takeWhile_cons, if_pos (decide_eq_true blank)] at none
    cases none

/-- Behind a word there is nothing if there are no blanks. -/
theorem skipWord_eq_nil {l : List Char} (none : ∀ c ∈ l, c ∉ [' ', '\t']) : skipWord l = [] := by
  have all : l.dropWhile (· ∉ [' ', '\t']) = [] :=
    List.dropWhile_eq_nil_iff.mpr fun c mem => decide_eq_true (none c mem)
  rw [skipWord, all]
  rfl

theorem firstWord_ne_nil {l : List Char} (some : l ≠ []) (other : ∀ c ∈ l.head?, c ∉ [' ', '\t']) :
    firstWord l ≠ [] := by
  obtain ⟨c, l, rfl⟩ := List.exists_cons_of_ne_nil some
  rw [firstWord, List.takeWhile_cons, if_pos (decide_eq_true (other c rfl))]
  exact List.cons_ne_nil _ _

/-- Letters are not blanks, in whatever case. -/
theorem not_blank_of_sameText {s t : List Char} (same : sameText s t = true)
    (noSpace : ' ' ∉ t.map Char.toLower) (noTab : '\t' ∉ t.map Char.toLower) :
    ∀ c ∈ s, c ∉ [' ', '\t'] := by
  intro c mem blank
  rw [← beq_iff_eq.mp same] at noSpace noTab
  rcases List.mem_pair.mp blank with rfl | rfl
  · exact noSpace (List.mem_map_of_mem mem)
  · exact noTab (List.mem_map_of_mem mem)

/-- The method is one of the two that are known. -/
def Named (l : List Char) : Prop :=
  sameText (firstWord l) "GET".toList = true ∨ sameText (firstWord l) "POST".toList = true

instance (l : List Char) : Decidable (Named l) := inferInstanceAs (Decidable (_ ∨ _))

/-- A line is a request line if its three words are what they should be. -/
theorem isRequestLine_iff {l target : List Char} : IsRequestLine l target ↔
    Named l ∧ target = firstWord (skipWord l) ∧
      sameText (skipWord (skipWord l)) "HTTP/1.1".toList = true := by
  constructor
  · rintro ⟨method, blanks, blanks', version, rfl, named, isBlank, isWord, isBlank', isVersion⟩
    have letters : ∀ c ∈ method, c ∉ [' ', '\t'] := by
      rcases named with get | post
      · exact not_blank_of_sameText get (by decide) (by decide)
      · exact not_blank_of_sameText post (by decide) (by decide)
    have ends : ∀ c ∈ version.head?, c ∉ [' ', '\t'] := fun c head =>
      not_blank_of_sameText isVersion (by decide) (by decide) c (List.mem_of_mem_head? head)
    have next : ∀ c ∈ (target ++ (blanks' ++ version)).head?, c ∉ [' ', '\t'] := by
      intro c head
      rw [List.head?_append_of_ne_nil _ isWord.1] at head
      exact isWord.2 c (List.mem_of_mem_head? head)
    obtain ⟨first, rest⟩ := split_word letters isBlank next
    obtain ⟨second, last⟩ := split_word isWord.2 isBlank' ends
    rw [Named, first, rest, second, last]
    exact ⟨named, rfl, isVersion⟩
  · rintro ⟨named, rfl, isVersion⟩
    have more' : skipWord (skipWord l) ≠ [] := by
      intro none
      rw [none] at isVersion
      exact absurd isVersion (by decide)
    have more : skipWord l ≠ [] := by
      intro none
      rw [none] at more'
      exact more' rfl
    refine ⟨firstWord l, gap l, gap (skipWord l), skipWord (skipWord l), ?_, named, blanks_gap more,
      ⟨firstWord_ne_nil more (head_skipWord l), ?_⟩, blanks_gap more', isVersion⟩
    · rw [word_gap_skipWord (skipWord l), word_gap_skipWord l]
    · exact fun c mem => of_decide_eq_true (List.mem_takeWhile_imp (p := (· ∉ [' ', '\t'])) mem)

/-- The page that is left by what follows the method. -/
def pageIn (s : List Char) : Option (List Char) :=
  if sameText (skipWord s) "HTTP/1.1".toList then remaining (firstWord s) else none

/-- A target that is a host only, and the version behind it. -/
def HostIn (s : List Char) : Prop :=
  sameText (skipWord s) "HTTP/1.1".toList = true ∧
    startsWith (firstWord s) "http://" = true ∧ '/' ∉ (firstWord s).drop 7

theorem accepts_iff {l s : List Char} : Accepts l s ↔
    (if Named l then pageIn (skipWord l) else none) = some s ∧ s.head? = some '/' := by
  unfold Accepts pageIn
  simp only [isRequestLine_iff]
  by_cases named : Named l
  · rw [if_pos named]
    by_cases version : sameText (skipWord (skipWord l)) "HTTP/1.1".toList = true
    · rw [if_pos version]
      constructor
      · rintro ⟨target, ⟨-, rfl, -⟩, both⟩
        exact both
      · exact fun both => ⟨_, ⟨named, rfl, version⟩, both⟩
    · rw [if_neg version]
      constructor
      · rintro ⟨target, ⟨-, -, same⟩, -⟩
        exact absurd same version
      · rintro ⟨found, -⟩
        cases found
  · rw [if_neg named]
    constructor
    · rintro ⟨target, ⟨known, -⟩, -⟩
      exact absurd known named
    · rintro ⟨found, -⟩
      cases found

theorem hostOnly_iff {l : List Char} : HostOnly l ↔ Named l ∧ HostIn (skipWord l) := by
  unfold HostOnly HostIn
  simp only [isRequestLine_iff]
  constructor
  · rintro ⟨target, ⟨named, rfl, version⟩, host⟩
    exact ⟨named, version, host⟩
  · rintro ⟨named, version, host⟩
    exact ⟨_, ⟨named, rfl, version⟩, host⟩

instance (l : List Char) : Decidable (HostOnly l) :=
  decidable_of_iff (Named l ∧ sameText (skipWord (skipWord l)) "HTTP/1.1".toList = true ∧
    startsWith (firstWord (skipWord l)) "http://" = true ∧
    '/' ∉ (firstWord (skipWord l)).drop 7) hostOnly_iff.symm

/-! ### What the parser makes of a line -/

namespace Reader

variable {r : Reader} {text url space : ℕ} {m : List Char}

/-- A C string is cut behind its first word, and the blanks behind it are passed. -/
theorem strAt_word {p : ℕ} (str : IsCStr m p) (found : strpbrk m p [' ', '\t'] = some space) :
    strAt (m.set space '\x00') p = firstWord (strAt m p) ∧
      strAt (m.set space '\x00')
        (space + 1 + strspn (m.set space '\x00') (space + 1) [' ', '\t']) = skipWord (strAt m p) ∧
      IsCStr (m.set space '\x00') p ∧ IsCStr (m.set space '\x00') (space + 1) ∧
      IsCStr (m.set space '\x00')
        (space + 1 + strspn (m.set space '\x00') (space + 1) [' ', '\t']) := by
  obtain ⟨before, behind⟩ := str.cut found
  obtain ⟨c, blank, rest⟩ := strAt_behind found
  refine ⟨strAt_cut found, ?_, before, behind, behind.add (strspn_le _ _ _)⟩
  rw [strAt_strspn, skipWord, rest, List.dropWhile_cons, if_pos (decide_eq_true blank)]

/-- Without a blank there is no second word. -/
theorem skipWord_of_none {p : ℕ} (none : strpbrk m p [' ', '\t'] = none) :
    skipWord (strAt m p) = [] :=
  skipWord_eq_nil (strpbrk_eq_none.mp none)

/-- Past a scheme the pointer is null, or to the first slash. Without one it stays. -/
theorem skipScheme_cases (scheme : String) (str : IsCStr r.readBuf url) :
    startsWith (strAt r.readBuf url) scheme = true ∧
        fromSlash ((strAt r.readBuf url).drop scheme.toList.length) = none ∧
        r.skipScheme scheme (some url) = .ok none ∨
      startsWith (strAt r.readBuf url) scheme = true ∧
        (∃ url', r.skipScheme scheme (some url) = .ok (some url') ∧ IsCStr r.readBuf url' ∧
          fromSlash ((strAt r.readBuf url).drop scheme.toList.length) =
            some (strAt r.readBuf url')) ∨
      startsWith (strAt r.readBuf url) scheme = false ∧
        r.skipScheme scheme (some url) = .ok (some url) := by
  unfold skipScheme
  rw [strArg_ok str]
  dsimp only [bind, Except.bind, pure, Except.pure]
  by_cases starts : strncasecmp r.readBuf url scheme = true
  · have within := length_of_startsWith starts
    have rest := strAt_add (m := r.readBuf) (p := url) within
    rw [if_pos starts, strArg_ok (str.add within), ← rest]
    dsimp only
    unfold strchr fromSlash
    cases found : strpbrk r.readBuf (url + scheme.toList.length) ['/'] with
    | none =>
      refine .inl ⟨starts, if_neg fun slash => ?_, rfl⟩
      exact strpbrk_eq_none.mp found '/' slash (List.mem_singleton_self _)
    | some url' =>
      obtain ⟨behind, before⟩ := strpbrk_within found
      have str' := (str.add within).add (k := url' - (url + scheme.toList.length)) (by omega)
      rw [Nat.add_sub_cancel' behind] at str'
      refine .inr (.inl ⟨starts, url', rfl, str', ?_⟩)
      rw [if_pos, strAt_found found]
      · simp
      · by_contra missing
        have all : strpbrk r.readBuf (url + scheme.toList.length) ['/'] = none := by
          refine strpbrk_eq_none.mpr fun c mem slash => missing ?_
          rwa [← List.mem_singleton.mp slash]
        rw [all] at found
        cases found
  · exact .inr (.inr ⟨by simpa [strncasecmp] using starts, if_neg starts⟩)

/-- What begins with a slash has no scheme. -/
theorem not_startsWith_of_slash {s : List Char} (slash : s.head? = some '/') :
    startsWith s "https://" = false := by
  obtain ⟨rest, rfl⟩ := List.head?_eq_some_iff.mp slash
  refine Bool.eq_false_iff.mpr fun starts => ?_
  have heads := congrArg List.head? (beq_iff_eq.mp starts)
  exact absurd heads (by simp)

theorem head_fromSlash {s page : List Char} (found : fromSlash s = some page) :
    page.head? = some '/' := by
  unfold fromSlash at found
  split at found
  case isFalse => cases found
  case isTrue slash =>
    obtain rfl := Option.some_inj.mp found
    have stops := List.head?_dropWhile_not (p := (· ≠ '/')) (l := s)
    cases rest : s.dropWhile (· ≠ '/') with
    | nil => exact absurd (by simpa using List.dropWhile_eq_nil_iff.mp rest '/' slash) not_false
    | cons c rest' =>
      rw [rest] at stops
      simpa using stops

/-- The two steps past a scheme leave what the grammar leaves, unless the first one leaves a
null pointer. -/
theorem schemes_cases (str : IsCStr r.readBuf url) :
    startsWith (strAt r.readBuf url) "http://" = true ∧ '/' ∉ (strAt r.readBuf url).drop 7 ∧
        r.skipScheme "http://" (some url) = .ok none ∨
      ¬(startsWith (strAt r.readBuf url) "http://" = true ∧
          '/' ∉ (strAt r.readBuf url).drop 7) ∧
        ∃ url', r.skipScheme "http://" (some url) = .ok (some url') ∧ IsCStr r.readBuf url' ∧
          (r.skipScheme "https://" (some url') = .ok none ∧
              remaining (strAt r.readBuf url) = none ∨
            ∃ page, r.skipScheme "https://" (some url') = .ok (some page) ∧
              IsCStr r.readBuf page ∧
              remaining (strAt r.readBuf url) = some (strAt r.readBuf page)) := by
  have seven : "http://".toList.length = 7 := rfl
  have eight : "https://".toList.length = 8 := rfl
  have slash {s : List Char} : fromSlash s = none ↔ '/' ∉ s := by simp [fromSlash]
  rcases skipScheme_cases "http://" str with
    ⟨http, none, null⟩ | ⟨http, url', first, str', page⟩ | ⟨plain, first⟩
  · exact .inl ⟨http, slash.mp none, null⟩
  · -- the slash behind the host begins no other scheme
    rw [seven] at page
    have stays : startsWith (strAt r.readBuf url') "https://" = false :=
      not_startsWith_of_slash (head_fromSlash page)
    refine .inr ⟨fun both => ?_, url', first, str', .inr ⟨url', ?_, str', ?_⟩⟩
    · rw [slash.mpr both.2] at page
      cases page
    · rcases skipScheme_cases "https://" str' with
        ⟨https, -⟩ | ⟨https, -⟩ | ⟨-, second⟩
      · exact absurd (stays.symm.trans https) Bool.false_ne_true
      · exact absurd (stays.symm.trans https) Bool.false_ne_true
      · exact second
    · rw [remaining, if_pos http, page]
  · have noHttp : ¬startsWith (strAt r.readBuf url) "http://" = true := by simp [plain]
    refine .inr ⟨fun both => noHttp both.1, url, first, str, ?_⟩
    rcases skipScheme_cases "https://" str with
      ⟨https, none, null⟩ | ⟨https, page, second, str', rest⟩ | ⟨plain', second⟩
    · refine .inl ⟨null, ?_⟩
      rw [remaining, if_neg noHttp, if_pos https, ← eight, none]
    · refine .inr ⟨page, second, str', ?_⟩
      rw [remaining, if_neg noHttp, if_pos https, ← eight, rest]
    · refine .inr ⟨url, second, str, ?_⟩
      rw [remaining, if_neg noHttp, if_neg (by simp [plain'])]

/-- A page of one byte is a slash. -/
theorem strAt_root {page : ℕ} (slash : charAt m page = '/') (one : strlen m page = 1) :
    strAt m page = ['/'] := by
  have head := head?_strAt (m := m) (p := page) (by rw [slash]; decide)
  obtain ⟨c, only⟩ := List.length_eq_one_iff.mp one
  rw [only, List.head?_cons, slash] at head
  rw [only, Option.some_inj.mp head]

/-- The page that is appended is read back. The last NUL may stand behind the memory, which
is zero there. -/
theorem strAt_strcat_root {page : ℕ} (slash : charAt m page = '/') (one : strlen m page = 1)
    (room : page + 11 ≤ m.length) :
    strAt (strcat m page "judge.html") page = "/judge.html".toList := by
  have ten : "judge.html".toList.length = 10 := rfl
  have whole : "/judge.html".toList = '/' :: "judge.html".toList := rfl
  have written (k : ℕ) (inText : k < ("judge.html".toList ++ ['\x00']).length)
      (inside : page + 1 + k < m.length) :
      charAt (strcat m page "judge.html") (page + 1 + k) =
        ("judge.html".toList ++ ['\x00'])[k] := by
    unfold strcat
    rw [one, charAt_store inside inText]
  rw [whole]
  refine strAt_eq_of_charAt (by decide) (fun k inText => ?_) ?_
  · rw [List.length_cons, ten] at inText
    cases k with
    | zero =>
      unfold strcat
      rw [Nat.add_zero, charAt_store_of_notMem, slash]
      · rfl
      · rw [List.mem_range'_1, one]
        omega
    | succ k =>
      have inText' : k < ("judge.html".toList ++ ['\x00']).length := by
        rw [List.length_append, ten]
        omega
      have place : page + (k + 1) = page + 1 + k := by omega
      rw [place, written k inText' (by omega), List.getElem_cons_succ]
      exact List.getElem_append_left (by omega)
  · rw [List.length_cons, ten]
    by_cases inside : page + 11 < m.length
    · exact written 10 (by decide) inside
    · unfold charAt
      rw [List.getD_eq_getElem?_getD, List.getElem?_eq_none]
      · rfl
      · rw [length_strcat]
        omega

/-- What is known of a parser's result: where it writes to, and that it accepts a text with a
page only. -/
structure Answers (r : Reader) (last : ℕ) (page : Option (List Char)) (code : HttpCode)
    (r' : Reader) (stores : List ℕ) : Prop where
  frame : ∀ i ∉ stores, charAt r'.readBuf i = charAt r.readBuf i
  bound : ∀ i ∈ stores, i ≤ last
  accepted : ∀ s, page = some s → s.head? = some '/' →
    code = .noRequest ∧ ∃ url, r'.url = some url ∧ strAt r'.readBuf url = pageOf s
  refused : (∀ s, page = some s → s.head? ≠ some '/') → code = .badRequest

/-- A parser comes to a null pointer if there is only a host. Otherwise it answers, and adds the
places that it writes to. -/
def Traces (r : Reader) (last : ℕ) (host : Prop) (page : Option (List Char)) (stores : List ℕ)
    (result : Except PointerFault (HttpCode × Reader × List ℕ)) : Prop :=
  host ∧ result = .error .null ∨
    ¬host ∧ ∃ code r' stores', result = .ok (code, r', stores ++ stores') ∧
      Answers r last page code r' stores'

section traces

variable {last : ℕ} {page : Option (List Char)} {stores : List ℕ}

theorem Answers.of_refused {r' : Reader} (same : r'.readBuf = r.readBuf)
    (refused : ∀ s, page = some s → s.head? ≠ some '/') :
    Answers r last page .badRequest r' [] where
  frame i _ := by rw [same]
  bound _ mem := absurd mem List.not_mem_nil
  accepted s found slash := absurd slash (refused s found)
  refused _ := rfl

theorem Traces.answers {host : Prop} {code : HttpCode} {r' : Reader}
    (traces : Traces r last host page [] (.ok (code, r', stores))) :
    Answers r last page code r' stores := by
  rcases traces with ⟨-, fails⟩ | ⟨-, code', r'', stores', ok, answers⟩
  · cases fails
  · cases ok
    exact answers

/-- A result is refused, and nothing has been written. -/
theorem Traces.of_refused {r' : Reader} {host : Prop} (other : ¬host)
    (same : r'.readBuf = r.readBuf) (refused : ∀ s, page = some s → s.head? ≠ some '/') :
    Traces r last host page stores (.ok (.badRequest, r', stores)) := by
  refine .inr ⟨other, _, _, [], ?_, .of_refused same refused⟩
  rw [List.append_nil]

/-- What is traced after a byte has been written. -/
theorem Traces.of_store {r' : Reader} {host : Prop}
    {result : Except PointerFault (HttpCode × Reader × List ℕ)}
    (traces : Traces r' last host page (stores ++ [space]) result)
    (written : r'.readBuf = r.readBuf.set space '\x00') (inside : space ≤ last) :
    Traces r last host page stores result := by
  rcases traces with fails | ⟨other, code, r'', stores', eq, answers⟩
  · exact .inl fails
  · refine .inr ⟨other, code, r'', space :: stores', ?_, ?_, ?_, answers.accepted, answers.refused⟩
    · rw [eq, List.append_assoc, List.singleton_append]
    · intro i out
      rw [List.mem_cons, not_or] at out
      rw [answers.frame i out.2, written, charAt, charAt, List.getD_eq_getElem?_getD,
        List.getD_eq_getElem?_getD, List.getElem?_set_ne (Ne.symm out.1)]
    · intro i mem
      rcases List.mem_cons.mp mem with rfl | mem
      · exact inside
      · exact answers.bound i mem

/-- A result is refused, and one byte has been written. -/
theorem Traces.of_refused_store {r' : Reader} {host : Prop} (other : ¬host)
    (written : r'.readBuf = r.readBuf.set space '\x00') (inside : space ≤ last)
    (refused : ∀ s, page = some s → s.head? ≠ some '/') :
    Traces r last host page stores (.ok (.badRequest, r', stores ++ [space])) := by
  have traces : Traces r' last host page (stores ++ [space])
      (.ok (.badRequest, r', stores ++ [space])) := .of_refused other rfl refused
  exact traces.of_store written inside

/-- What `parse_request_line` does once method and version are there. The target ends at
`n`. -/
theorem traces_parseUrl {n : ℕ} (stores : List ℕ) (reach : url ≤ n)
    (nul : r.readBuf[n]? = some '\x00') (room : n + 10 ≤ last) (inside : last ≤ r.readBuf.length) :
    Traces r last (startsWith (strAt r.readBuf url) "http://" = true ∧
        '/' ∉ (strAt r.readBuf url).drop 7) (remaining (strAt r.readBuf url)) stores
      (r.parseUrl url stores) := by
  have str : IsCStr r.readBuf url := ⟨n, reach, nul⟩
  unfold parseUrl
  dsimp only [bind, Except.bind]
  rcases schemes_cases str with ⟨http, none, null⟩ | ⟨other, url', first, str', rest⟩
  · rw [null]
    exact .inl ⟨⟨http, none⟩, rfl⟩
  rw [first]
  dsimp only
  rcases rest with ⟨null, none⟩ | ⟨page, second, strPage, left⟩
  · rw [null, none]
    exact .of_refused other rfl (fun s found => by cases found)
  rw [second, left]
  dsimp only [pure, Except.pure]
  by_cases slash : charAt r.readBuf page = '/'
  case neg =>
    rw [if_pos slash]
    refine .of_refused other rfl fun s found head => slash ?_
    cases found
    exact charAt_of_head? head
  have reach' : page ≤ n := skipScheme_le (skipScheme_le reach nul first) nul second
  have visible : charAt r.readBuf page ≠ '\x00' := by
    rw [slash]
    decide
  have head := head?_strAt visible
  rw [if_neg (not_not_intro slash), strArg_ok strPage]
  dsimp only
  refine .inr ⟨other, ?_⟩
  by_cases one : strlen r.readBuf page = 1
  · have root := strAt_root slash one
    have ends := add_strlen_le reach' nul
    rw [if_pos one]
    refine ⟨_, _, _, rfl, ?_, ?_, ?_, ?_⟩
    · intro i out
      refine charAt_store_of_notMem ?_
      rwa [List.length_append, List.length_singleton]
    · intro i mem
      have ten : "judge.html".toList.length = 10 := rfl
      rw [strcatStores, one, List.mem_range'_1, ten] at mem
      omega
    · intro s found head
      refine ⟨rfl, page, rfl, ?_⟩
      rw [Option.some_inj.mp found.symm, root, pageOf, if_pos rfl]
      exact strAt_strcat_root slash one (by omega)
    · exact fun none => absurd (head.trans (congrArg some slash)) (none _ rfl)
  · rw [if_neg one]
    refine ⟨_, _, [], congrArg (fun stores => Except.ok (_, _, stores)) (List.append_nil _).symm,
      fun i _ => rfl, fun i mem => ?_, ?_, ?_⟩
    · exact absurd mem List.not_mem_nil
    · intro s found head
      refine ⟨rfl, page, rfl, ?_⟩
      obtain rfl := Option.some_inj.mp found
      rw [pageOf, if_neg fun root => one ?_]
      rw [strlen, root]
      rfl
    · exact fun none => absurd (head.trans (congrArg some slash)) (none _ rfl)

/-- What `parse_request_line` does once the method is there. The line ends at `n`. -/
theorem traces_parseTarget {n : ℕ} (stores : List ℕ) (reach : url ≤ n)
    (nul : r.readBuf[n]? = some '\x00') :
    Traces r (n + 1) (HostIn ((strAt r.readBuf url).dropWhile (· ∈ [' ', '\t'])))
      (pageIn ((strAt r.readBuf url).dropWhile (· ∈ [' ', '\t']))) stores
      (r.parseTarget url stores) := by
  have str : IsCStr r.readBuf url := ⟨n, reach, nul⟩
  have inside := (List.getElem?_eq_some_iff.mp nul).1
  have behind := Nat.le_trans (Nat.add_le_add_left (strspn_le r.readBuf url [' ', '\t']) url)
    (add_strlen_le reach nul)
  rw [← strAt_strspn]
  unfold parseTarget
  simp only [bind, Except.bind, pure, Except.pure, strArg_ok str]
  generalize url + strspn r.readBuf url [' ', '\t'] = target at behind ⊢
  have str' : IsCStr r.readBuf target := ⟨n, behind, nul⟩
  rw [strArg_ok str']
  dsimp only
  cases found : strpbrk r.readBuf target [' ', '\t'] with
  | none =>
    have noVersion : ¬sameText (skipWord (strAt r.readBuf target)) "HTTP/1.1".toList = true := by
      rw [skipWord_of_none found]
      decide
    rw [pageIn, if_neg noVersion]
    have other : ¬HostIn (strAt r.readBuf target) := fun both => noVersion both.1
    exact .of_refused other rfl fun s found => by cases found
  | some space =>
    obtain ⟨word, rest, strWord, strNext, strVersion⟩ := strAt_word str' found
    obtain ⟨before, within⟩ := strpbrk_within found
    have ends := add_strlen_le behind nul
    have nul' := getElem?_set_nul nul space
    have next : space + 1 ≤ n := by omega
    have blanks := Nat.le_trans (Nat.add_le_add_left (strspn_le _ _ [' ', '\t']) _)
      (add_strlen_le next nul')
    have later := Nat.le_add_right (space + 1)
      (strspn (r.readBuf.set space '\x00') (space + 1) [' ', '\t'])
    dsimp only
    rw [strArg_ok strNext]
    dsimp only
    generalize space + 1 + strspn (r.readBuf.set space '\x00') (space + 1) [' ', '\t'] = version
      at rest strVersion blanks later ⊢
    rw [strArg_ok strVersion]
    dsimp only
    unfold strcasecmp
    rw [rest]
    by_cases same : sameText (skipWord (strAt r.readBuf target)) "HTTP/1.1".toList = true
    · have eight : "HTTP/1.1".toList.length = 8 := rfl
      have fits := add_strlen_le blanks nul'
      rw [strlen, rest, length_of_sameText same, eight] at fits
      have room : space + 10 ≤ n + 1 := by omega
      have within : n + 1 ≤ (r.readBuf.set space '\x00').length := by
        rw [List.length_set]
        exact inside
      have traces := traces_parseUrl (r := { r with
        readBuf := r.readBuf.set space '\x00', url := some target, version := some version })
        (stores ++ [space]) before (List.getElem?_set_self (by omega)) room within
      rw [word] at traces
      rw [if_pos same, pageIn, if_pos same, HostIn, and_iff_right same]
      exact traces.of_store rfl (by omega)
    · have other : ¬HostIn (strAt r.readBuf target) := fun both => same both.1
      rw [if_neg same, pageIn, if_neg same]
      refine .of_refused_store other rfl ?_ fun s found => by cases found
      omega

/-- What `parse_request_line` does with a line that ends at `n`. -/
theorem traces_parseRequestLine {n : ℕ} (reach : text ≤ n) (nul : r.readBuf[n]? = some '\x00') :
    Traces r (n + 1) (HostOnly (strAt r.readBuf text))
      (if Named (strAt r.readBuf text) then pageIn (skipWord (strAt r.readBuf text)) else none) []
      (r.parseRequestLine text) := by
  have str : IsCStr r.readBuf text := ⟨n, reach, nul⟩
  unfold parseRequestLine
  simp only [bind, Except.bind, pure, Except.pure, strArg_ok str]
  cases found : strpbrk r.readBuf text [' ', '\t'] with
  | none =>
    have noVersion : ¬sameText (skipWord []) "HTTP/1.1".toList = true := by decide
    have refused : ∀ s, (if Named (strAt r.readBuf text) then
        pageIn (skipWord (strAt r.readBuf text)) else none) = some s → s.head? ≠ some '/' := by
      intro s left
      rw [skipWord_of_none found, pageIn, if_neg noVersion, ite_self] at left
      cases left
    refine .of_refused (fun host => ?_) rfl refused
    have version := (hostOnly_iff.mp host).2.1
    rw [skipWord_of_none found] at version
    exact noVersion version
  | some space =>
    obtain ⟨word, rest, strWord, strNext, -⟩ := strAt_word str found
    obtain ⟨before, within⟩ := strpbrk_within found
    have ends := add_strlen_le reach nul
    dsimp only
    rw [strArg_ok strWord]
    dsimp only
    have target : (strAt (r.readBuf.set space '\x00') (space + 1)).dropWhile (· ∈ [' ', '\t']) =
        skipWord (strAt r.readBuf text) := by
      rw [← strAt_strspn, rest]
    have next : space + 1 ≤ n := by omega
    have nul' := getElem?_set_nul nul space
    unfold strcasecmp
    rw [word]
    by_cases get : sameText (firstWord (strAt r.readBuf text)) "GET".toList = true
    · have named : Named (strAt r.readBuf text) := .inl get
      have traces := traces_parseTarget (r := { r with
        readBuf := r.readBuf.set space '\x00', url := some (space + 1), method := .get })
        [space] next nul'
      rw [target] at traces
      rw [if_pos get, if_pos named, hostOnly_iff, and_iff_right named]
      exact traces.of_store rfl (by omega)
    by_cases post : sameText (firstWord (strAt r.readBuf text)) "POST".toList = true
    · have named : Named (strAt r.readBuf text) := .inr post
      have traces := traces_parseTarget (r := { r with
        readBuf := r.readBuf.set space '\x00', url := some (space + 1), method := .post,
        cgi := true })
        [space] next nul'
      rw [target] at traces
      rw [if_neg get, if_pos post, if_pos named, hostOnly_iff, and_iff_right named]
      exact traces.of_store rfl (by omega)
    · have other : ¬Named (strAt r.readBuf text) := not_or_intro get post
      rw [if_neg get, if_neg post, if_neg other]
      refine .of_refused_store (fun host => other (hostOnly_iff.mp host).1) rfl ?_ fun s found => by
        cases found
      omega

end traces

end Reader

/-! ### Main results -/

/-- A line in memory is parsed by the grammar unless it is for a host only. There the code
goes on with a null pointer. -/
theorem parsesGrammar_iff {r : Reader} {text : ℕ} (line : IsCStr r.readBuf text) :
    ParsesGrammar r text ↔ ¬HostOnly (strAt r.readBuf text) := by
  obtain ⟨n, reach, nul⟩ := line
  unfold ParsesGrammar
  simp only [accepts_iff]
  rcases Reader.traces_parseRequestLine reach nul with
    ⟨host, fails⟩ | ⟨other, code, r', stores, ok, answers⟩
  · rw [fails]
    refine iff_of_false ?_ (not_not_intro host)
    rintro ⟨code, r', stores, eq, -⟩
    cases eq
  · refine iff_of_true ⟨_, _, _, ok, ⟨fun accepted => ?_, ?_⟩, fun rejected => ?_, ?_⟩ other
    · by_contra none
      have refused := answers.refused fun s found head => none ⟨s, found, head⟩
      rw [accepted] at refused
      cases refused
    · rintro ⟨page, found, head⟩
      exact (answers.accepted page found head).1
    · exact answers.refused fun s found head => rejected (answers.accepted s found head).1
    · rintro page ⟨found, head⟩
      exact (answers.accepted page found head).2

theorem parsesGrammar_root : ParsesGrammar (unused.feed "GET / HTTP/1.1\x00\x00".toList) 0 :=
  (parsesGrammar_iff (by decide)).mpr (by decide +kernel)

/-- Behind `http://` there is a host only: the next comparison is with a null pointer. -/
theorem not_parsesGrammar :
    ¬∀ (r : Reader) (text : ℕ), IsCStr r.readBuf text → ParsesGrammar r text := by
  intro all
  have fails : (unused.feed "GET http://host HTTP/1.1\x00\x00".toList).parseRequestLine 0 =
      .error .null := by decide +kernel
  obtain ⟨code, r', stores, ok, -⟩ :=
    all (unused.feed "GET http://host HTTP/1.1\x00\x00".toList) 0 (by decide)
  rw [fails] at ok
  cases ok

/-- `parse_line` has left two NULs before the place it has reached. -/
theorem nuls_of_parseLine {r r' : Reader} (found : r.parseLine = (.ok, r')) :
    ∃ k, r.checkedIdx ≤ k + 1 ∧ r'.checkedIdx = k + 2 ∧ r'.readBuf[k]? = some '\x00' ∧
      r'.readBuf[k + 1]? = some '\x00' := by
  obtain ⟨-, -, onward, within⟩ := Reader.parseLine_ok found
  have here : r.checkedIdx + (r.readBuf.length - r.checkedIdx) = r.readBuf.length := by omega
  have status : (Reader.scan r.readBuf (r.readBuf.length - r.checkedIdx) r.checkedIdx).1 = .ok :=
    congrArg Prod.fst found
  obtain ⟨k, reach, inside, result, -⟩ := Reader.scan_found here status
  have parsed := Reader.parseLine_of_scan result
  obtain rfl := (Prod.ext_iff.mp (found.symm.trans parsed)).2
  refine ⟨k, reach, rfl, ?_, ?_⟩
  · exact getElem?_set_nul (List.getElem?_set_self (by omega)) (k + 1)
  · refine List.getElem?_set_self ?_
    rw [List.length_set]
    exact inside

/-- On a line that `parse_line` has ended, an accepted request line is overwritten up to the
second of its two NULs at most. What has been read behind it stays. -/
theorem rewrites_before_checked {r r' r'' : Reader} {text : ℕ} {stores : List ℕ}
    (found : r.parseLine = (.ok, r')) (start : text ≤ r.checkedIdx)
    (accepted : r'.parseRequestLine text = .ok (.noRequest, r'', stores)) :
    (∀ i ∈ stores, i < r'.checkedIdx) ∧
      r''.readBuf.drop r'.checkedIdx = r'.readBuf.drop r'.checkedIdx := by
  obtain ⟨k, reach, ends, nul, nul'⟩ := nuls_of_parseLine found
  rcases Nat.lt_or_ge k text with behind | behind
  · -- the text begins at the second NUL, so there is no method
    obtain rfl : text = k + 1 := by omega
    have empty : strAt r'.readBuf (k + 1) = [] := strAt_eq_nil (charAt_of_getElem? nul')
    have traces := Reader.traces_parseRequestLine le_rfl nul'
    rw [accepted] at traces
    have refused := traces.answers.refused fun s found => by
      rw [empty, if_neg (by decide)] at found
      cases found
    cases refused
  have traces := Reader.traces_parseRequestLine behind nul
  have same := (Reader.lineParsed_parseRequestLine accepted).place
  rw [accepted] at traces
  have answers := traces.answers
  have early : ∀ i ∈ stores, i < r'.checkedIdx := by
    intro i mem
    have within := answers.bound i mem
    omega
  refine ⟨early, drop_eq_of_charAt same.readIdx fun i behind => answers.frame i fun mem => ?_⟩
  exact Nat.not_lt.mpr behind (early i mem)

/-- A request with a line that has no byte to spare. -/
def tightest : Reader := unused.feed "GET / HTTP/1.1\r\nHost: a\r\n\r\n".toList

/-- The reader once that line has been parsed. -/
def tightestParsed : Reader :=
  ⟨"GET\x00/judge.html\x00Host: a\r\n\r\n".toList, 16, 0, .header, .get, some 4, some 6, none, 0,
    false, none⟩

/-- The page takes the place of the version, and of both NULs. -/
theorem rewrites_before_checked_tightest :
    (∀ i ∈ [3, 5, 5, 6, 7, 8, 9, 10, 11, 12, 13, 14, 15], i < 16) ∧
      tightestParsed.readBuf.drop 16 = tightest.parseLine.2.readBuf.drop 16 := by
  have found : tightest.parseLine = (.ok, tightest.parseLine.2) := by decide +kernel
  have accepted : tightest.parseLine.2.parseRequestLine 0 =
      .ok (.noRequest, tightestParsed, [3, 5, 5, 6, 7, 8, 9, 10, 11, 12, 13, 14, 15]) := by
    decide +kernel
  exact rewrites_before_checked found le_rfl accepted

end CoroutineService.Http
