/-
Reading an upload into a spool of bounded size: `spool_upload_stream_limited`.

The stream below decides how much of it one read returns, up to the size that is asked for.
The loop writes every chunk behind the ones before it, as long as the total stays within the
limit; so what it makes of the stream does not depend on the reads.
-/
import StarterBackend.App.Models

namespace StarterBackend.Files

open App

/-! ### Spools -/

/-- A `SpooledTemporaryFile`, with the number of the bytes that were written to it. -/
structure Spool where
  content : List UInt8 := []
  position : ℕ := 0
  closed : Bool := false
  written : ℕ := 0
deriving DecidableEq

namespace Spool

/-- `spool.write(chunk)`. -/
def write (spool : Spool) (chunk : List UInt8) : Spool :=
  { spool with
    content := spool.content.take spool.position ++ chunk ++
      spool.content.drop (spool.position + chunk.length)
    position := spool.position + chunk.length
    written := spool.written + chunk.length }

/-- `spool.seek(position)`. -/
def seek (spool : Spool) (position : ℕ) : Spool := { spool with position }

/-- `spool.close()`. -/
def close (spool : Spool) : Spool := { spool with closed := true }

/-- `spool.read(size)`: the bytes, and the spool after it. -/
def read (spool : Spool) (size : ℕ) : List UInt8 × Spool :=
  let bytes := (spool.content.drop spool.position).take size
  (bytes, { spool with position := spool.position + bytes.length })

/-- `spool.read()`. -/
def readAll (spool : Spool) : List UInt8 × Spool :=
  let bytes := spool.content.drop spool.position
  (bytes, { spool with position := spool.position + bytes.length })

/-- A spool at the end of what was written to it in order. -/
def ofBytes (bytes : List UInt8) : Spool where
  content := bytes
  position := bytes.length
  written := bytes.length

lemma ofBytes_write (bytes chunk : List UInt8) :
    (ofBytes bytes).write chunk = ofBytes (bytes ++ chunk) := by
  simp [ofBytes, write]

end Spool

/-! ### Reads -/

/-- How much the reads of a stream return, each of them something and no more than was asked for. -/
structure Reads (chunkSize : ℕ) where
  size : ℕ → ℕ
  size_pos : ∀ i, 0 < size i
  size_le : ∀ i, size i ≤ chunkSize

/-- The `i`-th `file.read(chunk_size)`, of a stream with these bytes left. -/
def Reads.chunk {chunkSize : ℕ} (reads : Reads chunkSize) (i : ℕ) (rest : List UInt8) :
    List UInt8 := rest.take (reads.size i)

/-! ### The loop -/

/-- What becomes of a spool: it is filled with a number of bytes, or the stream was too long. -/
structure Spooled where
  spool : Spool
  result : Except AppError ℕ

section

variable {chunkSize : ℕ} (maxSizeBytes : ℕ) (reads : Reads chunkSize)

/-- The loop of `spool_upload_stream_limited`, before its `i`-th read. -/
def spoolLoop (i totalSize : ℕ) (spool : Spool) (rest : List UInt8) : Spooled :=
  if _ : reads.chunk i rest = [] then ⟨spool.seek 0, .ok totalSize⟩
  else if maxSizeBytes < totalSize + (reads.chunk i rest).length then
    ⟨spool.close, .error (.payloadTooLarge "File too large")⟩
  else
    spoolLoop (i + 1) (totalSize + (reads.chunk i rest).length) (spool.write (reads.chunk i rest))
      (rest.drop (reads.chunk i rest).length)
termination_by rest.length
decreasing_by
  have hchunk : 0 < (reads.chunk i rest).length := List.length_pos_iff.2 ‹_›
  have hle : (reads.chunk i rest).length ≤ rest.length := List.length_take_le' ..
  rw [List.length_drop]
  omega

/-- `spool_upload_stream_limited`. -/
def spoolUploadStreamLimited (stream : List UInt8) : Spooled :=
  spoolLoop maxSizeBytes reads 0 0 {} stream

/-- `read_upload_body_limited`. -/
def readUploadBodyLimited (stream : List UInt8) : Except AppError (List UInt8) :=
  match spoolUploadStreamLimited maxSizeBytes reads stream with
  | ⟨spool, .ok _⟩ => .ok spool.readAll.1
  | ⟨_, .error e⟩ => .error e

variable {maxSizeBytes reads}

lemma chunk_eq_nil_iff {i : ℕ} {rest : List UInt8} : reads.chunk i rest = [] ↔ rest = [] := by
  have hpos := reads.size_pos i
  rw [Reads.chunk, List.take_eq_nil_iff, or_iff_right (by omega)]

variable (reads) in
lemma chunk_append_drop (i : ℕ) (rest : List UInt8) :
    reads.chunk i rest ++ rest.drop (reads.chunk i rest).length = rest :=
  List.prefix_iff_eq_append.1 (List.take_prefix ..)

variable (reads) in
/-- **The loop invariant**: what was read is in the spool, and the rest is what is left of the
stream. -/
lemma spoolLoop_spec (i : ℕ) (done rest : List UInt8) (hdone : done.length ≤ maxSizeBytes) :
    if done.length + rest.length ≤ maxSizeBytes then
      spoolLoop maxSizeBytes reads i done.length (Spool.ofBytes done) rest =
        ⟨(Spool.ofBytes (done ++ rest)).seek 0, .ok (done.length + rest.length)⟩
    else
      ∃ kept, kept.length ≤ maxSizeBytes ∧
        spoolLoop maxSizeBytes reads i done.length (Spool.ofBytes done) rest =
          ⟨(Spool.ofBytes kept).close, .error (.payloadTooLarge "File too large")⟩ := by
  induction hn : rest.length using Nat.strong_induction_on generalizing i done rest with
  | _ n ih =>
      subst hn
      rw [spoolLoop]
      by_cases hchunk : reads.chunk i rest = []
      · obtain rfl := chunk_eq_nil_iff.1 hchunk
        rw [dif_pos hchunk, if_pos (by simpa using hdone), List.append_nil, List.length_nil,
          Nat.add_zero]
      · have hsplit := chunk_append_drop reads i rest
        have hlength := congrArg List.length hsplit
        rw [List.length_append] at hlength
        have hpos := List.length_pos_iff.2 hchunk
        rw [dif_neg hchunk]
        by_cases hlong : maxSizeBytes < done.length + (reads.chunk i rest).length
        · rw [if_pos hlong, if_neg (by omega)]
          exact ⟨done, hdone, rfl⟩
        · rw [if_neg hlong, Spool.ofBytes_write, ← List.length_append]
          have hnext := ih _ (by omega) (i + 1) (done ++ reads.chunk i rest)
            (rest.drop (reads.chunk i rest).length) (by rw [List.length_append]; omega) rfl
          rw [List.append_assoc, hsplit, List.length_append, Nat.add_assoc, hlength] at hnext
          rwa [List.length_append]

variable (maxSizeBytes reads) in
/-- **Bounded spooling does not depend on the reads.** -/
theorem spoolUploadStreamLimited_spec (stream : List UInt8) :
    (if stream.length ≤ maxSizeBytes then
      ∃ spool, spoolUploadStreamLimited maxSizeBytes reads stream = ⟨spool, .ok stream.length⟩ ∧
        spool.content = stream ∧ spool.position = 0 ∧ spool.closed = false
    else
      (spoolUploadStreamLimited maxSizeBytes reads stream).result =
        .error (.payloadTooLarge "File too large")) ∧
    (spoolUploadStreamLimited maxSizeBytes reads stream).spool.written ≤ maxSizeBytes := by
  have hloop := spoolLoop_spec reads 0 [] stream (Nat.zero_le maxSizeBytes)
  rw [List.length_nil, Nat.zero_add, List.nil_append] at hloop
  have hstart : spoolLoop maxSizeBytes reads 0 0 (Spool.ofBytes []) stream =
      spoolUploadStreamLimited maxSizeBytes reads stream := rfl
  rw [hstart] at hloop
  split_ifs at hloop ⊢ with hfits
  · rw [hloop]
    exact ⟨⟨_, rfl, rfl, rfl, rfl⟩, hfits⟩
  · obtain ⟨kept, hkept, heq⟩ := hloop
    rw [heq]
    exact ⟨rfl, hkept⟩

variable (maxSizeBytes reads) in
/-- The body that is read is the stream. -/
theorem readUploadBodyLimited_eq (stream : List UInt8) :
    readUploadBodyLimited maxSizeBytes reads stream =
      if stream.length ≤ maxSizeBytes then .ok stream
      else .error (.payloadTooLarge "File too large") := by
  have hspec := (spoolUploadStreamLimited_spec maxSizeBytes reads stream).1
  unfold readUploadBodyLimited
  split_ifs at hspec ⊢
  · obtain ⟨spool, heq, hcontent, hposition, -⟩ := hspec
    rw [heq]
    simp only [Spool.readAll, hcontent, hposition, List.drop_zero]
  · rcases hspooled : spoolUploadStreamLimited maxSizeBytes reads stream with ⟨spool, result⟩
    rw [hspooled] at hspec
    rw [show result = _ from hspec]

end

end StarterBackend.Files
