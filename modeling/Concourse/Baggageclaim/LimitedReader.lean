import Mathlib.Data.List.Forall2

/-!
# The stream limit of `StreamIn`

`volume.LimitedReader` wraps the stream a volume is streamed in from: it counts the bytes its
underlying reader produces and, once they pass `limit`, hands over only the part up to the limit
together with `ErrExceedStreamLimit`, which `StreamIn` then reports through `LastError`.

The underlying reader is not a field of the model: each `Read` takes the answer `(n, err)` of
the underlying `Read(p)`, and a `ReadCall` carries that answer with the length of `p`, under the
`io.Reader` contract `0 ≤ n ≤ len(p)`.  We show

1. what one `Read` does in each of its branches (`Read_of_err`, `Read_of_le`, `Read_of_gt`);
2. that a reader read until its first error, as the streamers read it, hands over counts within
   `p`, never more than the limit in all, and reports the limit exactly when the stream passed
   it, provided the underlying reader never returns bytes together with an error (`copy_spec`);
3. that without that proviso a last chunk that comes with `io.EOF` is handed over whole, past
   the limit and unreported, and that a `Read` after the limit was passed returns a negative
   count (`run_eof_chunk_negative_count`).
-/

namespace Concourse
namespace Baggageclaim

/-- The errors a `Read` returns: `io.EOF`, `ErrExceedStreamLimit` and any other error of the
underlying reader. -/
inductive ReadError where
  | eof
  | exceedStreamLimit (limit : Int)
  | other (msg : String)
  deriving DecidableEq, Repr

/-- `Error()` of each error; `ErrExceedStreamLimit` writes its limit in bytes below a mebibyte
and in mebibytes from there on. -/
def ReadError.error : ReadError → String
  | .eof => "EOF"
  | .exceedStreamLimit limit =>
    if limit < 1024 * 1024 then s!"exceeded volume streaming limit of {limit}B"
    else s!"exceeded volume streaming limit of {limit / 1048576}MB"
  | .other msg => msg

/-- `volume.LimitedReader`; `lastErr` is what `LastError` returns. -/
structure LimitedReader where
  limit : Int
  read : Int
  lastErr : Option ReadError
  deriving DecidableEq, Repr

/-- `NewLimitedReader`. -/
def newLimitedReader (limit : Int) : LimitedReader :=
  { limit := limit, read := 0, lastErr := none }

/-- `LimitedReader.Read`, given the answer `(n, err)` of the underlying `Read(p)`: the count and
error handed to the caller, and the reader after the call. -/
def LimitedReader.Read (w : LimitedReader) (n : Int) (err : Option ReadError) :
    (Int × Option ReadError) × LimitedReader :=
  if w.limit ≤ 0 then ((n, err), w)
  else
    match err with
    | some e => ((n, some e), w)
    | none =>
      let read := w.read + n
      if read > w.limit then
        let lastErr := some (ReadError.exceedStreamLimit w.limit)
        ((n - (read - w.limit), lastErr), { w with read := read, lastErr := lastErr })
      else ((n, none), { w with read := read })

/-- One call `Read(p)`: the length of `p` and the answer of the underlying reader, which keeps
the `io.Reader` contract `0 ≤ n ≤ len(p)`; the error may come with bytes. -/
structure ReadCall where
  len : Int
  n : Int
  err : Option ReadError
  n_nonneg : 0 ≤ n
  n_le_len : n ≤ len

/-- Any sequence of `Read` calls: the answers handed to the caller, and the reader after them. -/
def LimitedReader.run (w : LimitedReader) : List ReadCall →
    List (Int × Option ReadError) × LimitedReader
  | [] => ([], w)
  | c :: cs =>
    let (out, w₁) := w.Read c.n c.err
    let (outs, w₂) := w₁.run cs
    (out :: outs, w₂)

/-- `Read` in turn until a call returns an error, as `io.Copy` and the decompressors of the
streamers read. -/
def LimitedReader.copy (w : LimitedReader) : List ReadCall →
    List (Int × Option ReadError) × LimitedReader
  | [] => ([], w)
  | c :: cs =>
    let (out, w₁) := w.Read c.n c.err
    if out.2.isSome then ([out], w₁)
    else
      let (outs, w₂) := w₁.copy cs
      (out :: outs, w₂)

/-- The bytes the underlying reader produced over some calls. -/
def produced : List ReadCall → Int
  | [] => 0
  | c :: cs => c.n + produced cs

/-- The bytes handed to the caller over some answers. -/
def handed : List (Int × Option ReadError) → Int
  | [] => 0
  | out :: outs => out.1 + handed outs

/-! ## One `Read` -/

section Read

variable {w : LimitedReader} {n : Int}

theorem Read_of_err (hlimit : 0 < w.limit) (e : ReadError) :
    w.Read n (some e) = ((n, some e), w) := by
  simp [LimitedReader.Read, Int.not_le.mpr hlimit]

theorem Read_of_le (hlimit : 0 < w.limit) (h : w.read + n ≤ w.limit) :
    w.Read n none = ((n, none), { w with read := w.read + n }) := by
  simp [LimitedReader.Read, Int.not_le.mpr hlimit, Int.not_lt.mpr h]

/-- Past the limit the count handed over is cut to what was left below it. -/
theorem Read_of_gt (hlimit : 0 < w.limit) (h : w.limit < w.read + n) :
    w.Read n none =
      ((w.limit - w.read, some (.exceedStreamLimit w.limit)),
        { w with read := w.read + n, lastErr := some (.exceedStreamLimit w.limit) }) := by
  simp only [LimitedReader.Read, Int.not_le.mpr hlimit, if_false, gt_iff_lt, h, if_true]
  congr 2
  omega

end Read

/-! ## Reading until the first error -/

/-- A reader that has counted `read` bytes and not yet passed its positive limit. -/
structure Counting (w : LimitedReader) : Prop where
  limit_pos : 0 < w.limit
  read_nonneg : 0 ≤ w.read
  read_le : w.read ≤ w.limit
  lastErr_none : w.lastErr = none

/-- A read within the limit keeps the reader counting. -/
theorem Counting.add {w : LimitedReader} (hw : Counting w) {c : ReadCall}
    (hle : w.read + c.n ≤ w.limit) :
    Counting { w with read := w.read + c.n } := by
  have := c.n_nonneg
  have := hw.read_nonneg
  exact ⟨hw.limit_pos, by simp only; omega, hle, hw.lastErr_none⟩

/-! One equation of `copy` for each branch of `Read`. -/

section Copy

variable {w : LimitedReader} {c : ReadCall} {cs : List ReadCall}

theorem copy_cons_of_err (hlimit : 0 < w.limit) {e : ReadError} (herr : c.err = some e) :
    w.copy (c :: cs) = ([(c.n, some e)], w) := by
  simp [LimitedReader.copy, herr, Read_of_err hlimit]

theorem copy_cons_of_le (hlimit : 0 < w.limit) (herr : c.err = none)
    (hle : w.read + c.n ≤ w.limit) :
    w.copy (c :: cs) =
      ((c.n, none) :: ({ w with read := w.read + c.n }.copy cs).1,
        ({ w with read := w.read + c.n }.copy cs).2) := by
  simp [LimitedReader.copy, herr, Read_of_le hlimit hle]

theorem copy_cons_of_gt (hlimit : 0 < w.limit) (herr : c.err = none)
    (hgt : w.limit < w.read + c.n) :
    w.copy (c :: cs) =
      ([(w.limit - w.read, some (.exceedStreamLimit w.limit))],
        { w with read := w.read + c.n, lastErr := some (.exceedStreamLimit w.limit) }) := by
  simp [LimitedReader.copy, herr, Read_of_gt hlimit hgt]

end Copy

/-- An underlying reader that returns bytes only without an error; `io.Reader` allows more. -/
def ReadCall.DataWithoutError (c : ReadCall) : Prop :=
  c.err.isSome → c.n = 0

/-- What reading a counting reader until its first error hands over: each count within its
`p`, in all the bytes produced up to the limit, and `ErrExceedStreamLimit` in `LastError`
exactly when the bytes produced passed the limit.  Induction on the calls; the invariant is
`Counting`, kept by every call that returns no error. -/
theorem copy_spec :
    ∀ (cs : List ReadCall) (w : LimitedReader), Counting w → (∀ c ∈ cs, c.DataWithoutError) →
      List.Forall₂ (fun out (c : ReadCall) => 0 ≤ out.1 ∧ out.1 ≤ c.len) (w.copy cs).1
          (cs.take (w.copy cs).1.length) ∧
        w.read + handed (w.copy cs).1 =
          min w.limit (w.read + produced (cs.take (w.copy cs).1.length)) ∧
        ((w.copy cs).2.lastErr = some (.exceedStreamLimit w.limit) ↔
          w.limit < w.read + produced (cs.take (w.copy cs).1.length)) ∧
        ((w.copy cs).2.lastErr = none ∨
          (w.copy cs).2.lastErr = some (.exceedStreamLimit w.limit))
  | [], w, hw, _ => by
    have hle := hw.read_le
    simp only [LimitedReader.copy, handed, produced, List.length_nil, List.take_zero,
      List.Forall₂.nil, hw.lastErr_none, Int.add_zero, true_and, reduceCtorEq, false_iff,
      Int.not_lt, hle, true_or, and_true]
    omega
  | c :: cs, w, hw, hdata => by
    have hc := hdata c List.mem_cons_self
    match herr : c.err with
    | some e =>
      -- an error ends the copy; by the proviso it came without bytes
      have hn : c.n = 0 := hc (by simp [herr])
      rw [copy_cons_of_err hw.limit_pos herr]
      have := c.n_le_len
      have := hw.read_le
      simp [handed, produced, hn, hw.lastErr_none]
      omega
    | none =>
      by_cases hle : w.read + c.n ≤ w.limit
      · -- still within the limit: the copy goes on from a counting reader
        obtain ⟨hcounts, hhanded, hreport, hlast⟩ :=
          copy_spec cs { w with read := w.read + c.n } (hw.add hle)
            (fun c' hc' => hdata c' (List.mem_cons_of_mem _ hc'))
        rw [copy_cons_of_le hw.limit_pos herr hle]
        simp only [List.length_cons, List.take_succ_cons, produced, handed] at hhanded hreport ⊢
        refine ⟨List.Forall₂.cons ⟨c.n_nonneg, c.n_le_len⟩ hcounts, by omega, ?_, hlast⟩
        rw [hreport]
        omega
      · -- past the limit: the cut count, the error, and the copy stops
        have hgt : w.limit < w.read + c.n := Int.lt_of_not_ge hle
        rw [copy_cons_of_gt hw.limit_pos herr hgt]
        have := c.n_le_len
        have := hw.read_le
        simp [handed, produced, hgt]
        omega

/-! ## Any sequence of calls -/

/-- For every positive limit, the reader's guarantee that a caller never receives more than
`limit` bytes without a `LastError` of `ErrExceedStreamLimit` fails on answers the `io.Reader`
contract allows.  A single chunk of `limit + 1` bytes that comes with `io.EOF` is handed over whole: more
than the limit reaches the caller, the stream passed the limit, and neither the call nor
`LastError` reports it.  And once a chunk has passed the limit, the next chunk of one byte is
answered with the count `-1`. -/
theorem run_eof_chunk_negative_count (limit : Int) (hlimit : 0 < limit) :
    let eofChunk : ReadCall := ⟨limit + 1, limit + 1, some .eof, by omega, Int.le_refl _⟩
    let overChunk : ReadCall := ⟨limit + 1, limit + 1, none, by omega, Int.le_refl _⟩
    let oneByte : ReadCall := ⟨1, 1, none, by decide, Int.le_refl _⟩
    ((newLimitedReader limit).run [eofChunk]).1 = [(limit + 1, some .eof)] ∧
      limit < handed ((newLimitedReader limit).run [eofChunk]).1 ∧
      limit < produced [eofChunk] ∧
      ((newLimitedReader limit).run [eofChunk]).2.lastErr = none ∧
      ((newLimitedReader limit).run [overChunk, oneByte]).1 =
        [(limit, some (.exceedStreamLimit limit)), (-1, some (.exceedStreamLimit limit))] := by
  intro eofChunk overChunk oneByte
  have hpos : 0 < (newLimitedReader limit).limit := hlimit
  have hrun_eof : ((newLimitedReader limit).run [eofChunk]) =
      ([(limit + 1, some .eof)], newLimitedReader limit) := by
    simp [LimitedReader.run, eofChunk, Read_of_err hpos]
  -- the first chunk passes the limit by one byte, the second by two
  let passed : LimitedReader :=
    { limit := limit, read := limit + 1, lastErr := some (.exceedStreamLimit limit) }
  have hfirst : (newLimitedReader limit).Read (limit + 1) none =
      ((limit, some (.exceedStreamLimit limit)), passed) := by
    rw [Read_of_gt hpos (by simp only [newLimitedReader]; omega)]
    simp [newLimitedReader, passed]
  have hsecond : passed.Read 1 none =
      ((-1, some (.exceedStreamLimit limit)), { passed with read := limit + 2 }) := by
    rw [Read_of_gt hlimit (by simp only [passed]; omega)]
    simp only [passed, Prod.mk.injEq, LimitedReader.mk.injEq, and_true, true_and]
    omega
  have hrun_over : ((newLimitedReader limit).run [overChunk, oneByte]).1 =
      [(limit, some (.exceedStreamLimit limit)), (-1, some (.exceedStreamLimit limit))] := by
    simp [LimitedReader.run, overChunk, oneByte, hfirst, hsecond]
  refine ⟨by rw [hrun_eof], ?_, ?_, ?_, hrun_over⟩
  · simp only [hrun_eof, handed]
    omega
  · simp only [produced, eofChunk]
    omega
  · rw [hrun_eof]
    rfl

/-- With a limit of one byte: a two-byte chunk that comes with `io.EOF` reaches the caller whole,
and a byte read after a two-byte chunk is answered with the count `-1`. -/
theorem run_eof_chunk_negative_count_oneByte :
    ((newLimitedReader 1).run [⟨2, 2, some .eof, by decide, by decide⟩]).1 = [(2, some .eof)] ∧
      ((newLimitedReader 1).run [⟨2, 2, none, by decide, by decide⟩,
          ⟨1, 1, none, by decide, by decide⟩]).1 =
        [(1, some (.exceedStreamLimit 1)), (-1, some (.exceedStreamLimit 1))] :=
  ⟨(run_eof_chunk_negative_count 1 (by decide)).1,
    (run_eof_chunk_negative_count 1 (by decide)).2.2.2.2⟩

end Baggageclaim
end Concourse
