import CoroutineService.Http.Response
import CoroutineService.Memory.Store

/-!
# Printing into `m_write_buf`

`add_response` lets `vsnprintf` print behind what has been added so far. A text that does not fit
is cut off there, and `m_write_idx` stays where it is, so the next text is printed over the part.

## Main definitions

* `WriteBuf`: the memory from `m_write_buf` on, and `m_write_idx`
* `WriteBuf.addResponse`: `add_response`, with the places that are written to
* `Calls`: what is known after a sequence of calls

## Main results

* `addResponse_printed`: a call prints what `addResponse` adds to the text
* `appended_whole`: after any sequence of calls, the buffer holds the texts that were accepted
-/

set_option autoImplicit false

namespace CoroutineService.Http

open CoroutineService.Memory

/-- What `vsnprintf` returns, which is the length of the whole text (one that an `int` can hold),
and what it stores, where `size` is the room there is. -/
def vsnprintf (size : ℕ) (text : List Char) : ℤ × List Char :=
  (text.length, if size = 0 then [] else text.take (size - 1) ++ ['\x00'])

/-- The memory by its places relative to `m_write_buf`, and `m_write_idx`. -/
structure WriteBuf where
  mem : ℤ → Char
  writeIdx : ℤ

/-- A call of `add_response`: what it returns, what it leaves, and the places it has written to. -/
structure Added where
  result : Bool
  buf : WriteBuf
  stores : List ℤ

/-- `add_response`, for the text that its arguments stand for. -/
def WriteBuf.addResponse (w : WriteBuf) (text : List Char) : Added :=
  if w.writeIdx ≥ writeBufferSize then ⟨false, w, []⟩
  else
    let (len, bytes) := vsnprintf (sizeT (writeBufferSize - 1 - w.writeIdx)) text
    let w' := { w with mem := store w.mem w.writeIdx bytes }
    let stores := places w.writeIdx bytes.length
    if len ≥ writeBufferSize - 1 - w.writeIdx then ⟨false, w', stores⟩
    else ⟨true, { w' with writeIdx := w.writeIdx + len }, stores⟩

namespace WriteBuf

/-- `m_write_buf[0..m_write_idx)`. -/
def printed (w : WriteBuf) : List Char := load w.mem 0 w.writeIdx.toNat

/-- There is room for a NUL at least. -/
def Inside (w : WriteBuf) : Prop := 0 ≤ w.writeIdx ∧ w.writeIdx + 1 < writeBufferSize

variable {w : WriteBuf} {text : List Char}

/-- What has been printed stays below what is stored behind it. -/
theorem printed_store (nonneg : 0 ≤ w.writeIdx) (bytes : List Char) :
    { w with mem := store w.mem w.writeIdx bytes }.printed = w.printed :=
  load_store_before (by
    show (0 : ℤ) + w.writeIdx.toNat ≤ w.writeIdx
    omega)

/-- Moving `m_write_idx` behind a text that is stored there adds the text. -/
theorem printed_store_append (nonneg : 0 ≤ w.writeIdx) (text rest : List Char) :
    (WriteBuf.mk (store w.mem w.writeIdx (text ++ rest)) (w.writeIdx + text.length)).printed =
      w.printed ++ text := by
  have len : (w.writeIdx + text.length).toNat = w.writeIdx.toNat + text.length := by omega
  have next : (0 : ℤ) + w.writeIdx.toNat = w.writeIdx := by omega
  calc load (store w.mem w.writeIdx (text ++ rest)) 0 (w.writeIdx + text.length).toNat
      = load (store w.mem w.writeIdx (text ++ rest)) 0 w.writeIdx.toNat ++
          load (store w.mem w.writeIdx (text ++ rest)) w.writeIdx text.length := by
        rw [len, load_add, next]
    _ = w.printed ++ text := by
        rw [load_store_before (by omega), load_store_take (by simp), List.take_left]
        rfl

/-- A text that fits is added with a NUL behind it. Of another text the room there is holds the
beginning. -/
theorem addResponse_cases (inside : w.Inside) (text : List Char) :
    (w.writeIdx + text.length + 1 < writeBufferSize ∧ w.addResponse text =
        ⟨true, ⟨store w.mem w.writeIdx (text ++ ['\x00']), w.writeIdx + text.length⟩,
          places w.writeIdx (text.length + 1)⟩) ∨
      writeBufferSize ≤ w.writeIdx + text.length + 1 ∧
        ∃ bytes, w.writeIdx + bytes.length < writeBufferSize ∧ w.addResponse text =
          ⟨false, { w with mem := store w.mem w.writeIdx bytes },
            places w.writeIdx bytes.length⟩ := by
  obtain ⟨nonneg, below⟩ := inside
  -- The room that `vsnprintf` is told of leaves out the last place.
  obtain ⟨room, same⟩ : ∃ room : ℕ, (writeBufferSize : ℤ) - 1 - w.writeIdx = room :=
    Int.eq_ofNat_of_zero_le (by omega)
  have size : sizeT (writeBufferSize - 1 - w.writeIdx) = room := by
    rw [same]
    exact sizeT_eq (by unfold writeBufferSize at same; omega)
  have started : ¬w.writeIdx ≥ writeBufferSize := by omega
  have some : room ≠ 0 := by omega
  unfold addResponse
  rw [if_neg started, size]
  unfold vsnprintf
  rw [if_neg some]
  by_cases fits : text.length < room
  · refine .inl ⟨by omega, ?_⟩
    have whole : text.take (room - 1) = text := List.take_of_length_le (by omega)
    simp only [whole]
    rw [if_neg (by omega), List.length_append, List.length_singleton]
  · refine .inr ⟨by omega, text.take (room - 1) ++ ['\x00'], ?_, if_pos (by omega)⟩
    rw [List.length_append, List.length_take, List.length_singleton]
    omega

/-- Only the places in `stores` are written to. -/
theorem mem_addResponse (inside : w.Inside) (text : List Char) {i : ℤ}
    (elsewhere : i ∉ (w.addResponse text).stores) : (w.addResponse text).buf.mem i = w.mem i := by
  obtain ⟨-, added⟩ | ⟨-, bytes, -, cut⟩ := addResponse_cases inside text
  · rw [added] at elsewhere ⊢
    exact store_of_notMem (by rwa [List.length_append, List.length_singleton])
  · rw [cut] at elsewhere ⊢
    exact store_of_notMem elsewhere

/-- Every place that is written to is one of `m_write_buf`. -/
theorem stores_addResponse (inside : w.Inside) (text : List Char) :
    ∀ i ∈ (w.addResponse text).stores, 0 ≤ i ∧ i < writeBufferSize := by
  intro i stored
  have nonneg := inside.1
  obtain ⟨room, added⟩ | ⟨-, bytes, room, cut⟩ := addResponse_cases inside text
  · rw [added, mem_places] at stored
    omega
  · rw [cut, mem_places] at stored
    omega

theorem inside_addResponse (inside : w.Inside) (text : List Char) :
    (w.addResponse text).buf.Inside := by
  obtain ⟨room, added⟩ | ⟨-, bytes, -, cut⟩ := addResponse_cases inside text
  · have nonneg := inside.1
    have ahead : 0 ≤ w.writeIdx + text.length := by omega
    rw [added]
    exact ⟨ahead, room⟩
  · rw [cut]
    exact inside

/-- A call adds the whole text or nothing. -/
theorem printed_addResponse (inside : w.Inside) (text : List Char) :
    (w.addResponse text).buf.printed =
      w.printed ++ if (w.addResponse text).result then text else [] := by
  obtain ⟨-, added⟩ | ⟨-, bytes, -, cut⟩ := addResponse_cases inside text
  · rw [added, if_pos rfl]
    exact printed_store_append inside.1 text ['\x00']
  · rw [cut, if_neg Bool.false_ne_true, List.append_nil]
    exact printed_store inside.1 bytes

/-- After a text that fits, `m_write_buf` is a string that ends at `m_write_idx`, and it can be
logged. -/
theorem nul_addResponse (inside : w.Inside) (fits : (w.addResponse text).result) :
    (w.addResponse text).buf.mem (w.addResponse text).buf.writeIdx = '\x00' := by
  obtain ⟨-, added⟩ | ⟨-, bytes, -, cut⟩ := addResponse_cases inside text
  · rw [added]
    have here : text.length < (text ++ ['\x00']).length := by simp
    exact (store_add here).trans (List.getElem_concat_length rfl here)
  · rw [cut] at fits
    cases fits

/-- `Http.addResponse` says what a call does to the text that has been printed. -/
theorem addResponse_printed (inside : w.Inside) (text : String) :
    Http.addResponse text w.printed =
      ((w.addResponse text.toList).result, (w.addResponse text.toList).buf.printed) := by
  have length : w.printed.length = w.writeIdx.toNat := by simp [printed, load, places]
  have nonneg := inside.1
  have below := inside.2
  rw [printed_addResponse inside]
  obtain ⟨room, added⟩ | ⟨full, bytes, -, cut⟩ := addResponse_cases inside text.toList
  · rw [added, if_pos rfl]
    unfold Http.addResponse
    rw [if_neg (by omega), if_neg (by omega)]
  · rw [cut, if_neg Bool.false_ne_true, List.append_nil]
    unfold Http.addResponse
    rw [if_neg (by omega), if_pos (by omega)]

end WriteBuf

/-- What is known after some calls: the texts with what was returned for them, and the places
that were written to. -/
structure Calls where
  buf : WriteBuf
  results : List (List Char × Bool)
  stores : List ℤ

namespace Calls

/-- Before the first call, whatever the memory holds. -/
def start (mem : ℤ → Char) : Calls := ⟨⟨mem, 0⟩, [], []⟩

/-- One more call. -/
def call (c : Calls) (text : List Char) : Calls :=
  let added := c.buf.addResponse text
  ⟨added.buf, c.results ++ [(text, added.result)], c.stores ++ added.stores⟩

/-- The texts for which `true` was returned, one behind the other. -/
def accepted (c : Calls) : List Char := ((c.results.filter Prod.snd).map Prod.fst).flatten

/-- One call after the other. -/
def callAll (c : Calls) (texts : List (List Char)) : Calls := texts.foldl call c

/-- What holds of the calls since the memory was `mem`. -/
structure Kept (mem : ℤ → Char) (c : Calls) : Prop where
  inside : c.buf.Inside
  stores : ∀ i ∈ c.stores, 0 ≤ i ∧ i < writeBufferSize
  elsewhere : ∀ i ∉ c.stores, c.buf.mem i = mem i
  printed : c.buf.printed = c.accepted

variable {mem : ℤ → Char} {c : Calls}

theorem kept_start : Kept mem (start mem) where
  inside := ⟨Int.le_refl 0, by show (0 : ℤ) + 1 < writeBufferSize; decide⟩
  stores _ stored := absurd stored List.not_mem_nil
  elsewhere _ _ := rfl
  printed := rfl

theorem accepted_call (text : List Char) :
    (c.call text).accepted =
      c.accepted ++ if (c.buf.addResponse text).result then text else [] := by
  unfold accepted call
  rw [List.filter_append, List.map_append, List.flatten_append]
  cases (c.buf.addResponse text).result <;> simp

/-- Every call keeps it, also one behind a text that did not fit. -/
theorem Kept.call (kept : Kept mem c) (text : List Char) : Kept mem (c.call text) where
  inside := WriteBuf.inside_addResponse kept.inside text
  stores i stored := by
    obtain before | now := List.mem_append.mp stored
    · exact kept.stores i before
    · exact WriteBuf.stores_addResponse kept.inside text i now
  elsewhere i unstored := by
    obtain ⟨before, now⟩ := not_or.mp (mt List.mem_append.mpr unstored)
    calc (c.call text).buf.mem i = c.buf.mem i := WriteBuf.mem_addResponse kept.inside text now
      _ = mem i := kept.elsewhere i before
  printed := by
    rw [accepted_call, ← kept.printed]
    exact WriteBuf.printed_addResponse kept.inside text

theorem Kept.callAll (kept : Kept mem c) (texts : List (List Char)) :
    Kept mem (c.callAll texts) := by
  induction texts generalizing c with
  | nil => exact kept
  | cons text texts ih => exact ih (kept.call text)

/-- The results are those of the texts, in order. -/
theorem texts_callAll (texts : List (List Char)) :
    (c.callAll texts).results.map Prod.fst = c.results.map Prod.fst ++ texts := by
  induction texts generalizing c with
  | nil => exact (List.append_nil _).symm
  | cons text texts ih =>
    show ((c.call text).callAll texts).results.map Prod.fst = _
    rw [ih]
    simp [call]

end Calls

/-- After any calls, `m_write_buf[0..m_write_idx)` holds the texts for which `true` was returned,
all of them whole, and nothing outside `m_write_buf` was written to. -/
theorem appended_whole (mem : ℤ → Char) (texts : List (List Char)) :
    ((Calls.start mem).callAll texts).results.map Prod.fst = texts ∧
      ((Calls.start mem).callAll texts).buf.printed =
        ((Calls.start mem).callAll texts).accepted ∧
      0 ≤ ((Calls.start mem).callAll texts).buf.writeIdx ∧
      ((Calls.start mem).callAll texts).buf.writeIdx < writeBufferSize ∧
      (∀ i ∈ ((Calls.start mem).callAll texts).stores, 0 ≤ i ∧ i < writeBufferSize) ∧
      ∀ i ∉ ((Calls.start mem).callAll texts).stores,
        ((Calls.start mem).callAll texts).buf.mem i = mem i := by
  have kept : Calls.Kept mem ((Calls.start mem).callAll texts) := Calls.kept_start.callAll texts
  obtain ⟨nonneg, below⟩ := kept.inside
  exact ⟨Calls.texts_callAll texts, kept.printed, nonneg, by omega, kept.stores, kept.elsewhere⟩

end CoroutineService.Http
