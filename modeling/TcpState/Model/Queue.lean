import TcpState.Model.Result

/-!
# Queue of blobs with a FIN marker

The queue keeps the blobs as they were written. Its meaning is the pending
byte stream `bytes`; reading takes a prefix of that stream whatever the blob
boundaries are.
-/

namespace TcpState

structure BlobQueue where
  buffer : List (List UInt8)
  fin : Bool
deriving DecidableEq, Repr

namespace BlobQueue

def new : BlobQueue := ⟨[], false⟩

def markFin (q : BlobQueue) : BlobQueue := { q with fin := true }

def availableBytes (q : BlobQueue) : Nat := (q.buffer.map List.length).sum

def isEmpty (q : BlobQueue) : Bool := decide (q.availableBytes = 0)

/-- The loop of `read_bytes`: pop blobs into `result` until `limit` is
reached, then push the rest of the last blob back. -/
def popBlobs (limit : Nat) :
    List (List UInt8) → List UInt8 → List (List UInt8) × List UInt8
  | [], result => ([], result)
  | value :: buffer, result =>
      let result := result ++ value
      if limit ≤ result.length then (result.drop limit :: buffer, result.take limit)
      else popBlobs limit buffer result

/-- Takes up to `limit` bytes, and returns them and whether fin has been reached. -/
def readBytes (q : BlobQueue) (limit : Nat) : Res (BlobQueue × List UInt8 × Bool) := do
  assert (limit ≠ 0)
  let (buffer, result) := popBlobs limit q.buffer []
  let done := decide (result.length < limit) && q.fin
  return ({ q with buffer := buffer }, result, done)

def writeBytes (q : BlobQueue) (data : List UInt8) : Res BlobQueue :=
  if data.isEmpty then return q
  else do
    assert (q.fin = false)
    return { q with buffer := q.buffer ++ [data] }

/-- The pending byte stream. -/
def bytes (q : BlobQueue) : List UInt8 := q.buffer.flatten

@[simp] theorem bytes_new : new.bytes = [] := rfl

@[simp] theorem fin_new : new.fin = false := rfl

@[simp] theorem bytes_markFin (q : BlobQueue) : q.markFin.bytes = q.bytes := rfl

@[simp] theorem fin_markFin (q : BlobQueue) : q.markFin.fin = true := rfl

theorem availableBytes_eq (q : BlobQueue) : q.availableBytes = q.bytes.length := by
  simp [availableBytes, bytes, List.length_flatten]

theorem isEmpty_iff (q : BlobQueue) : q.isEmpty = true ↔ q.bytes = [] := by
  simp [isEmpty, availableBytes_eq]

/-- Popping splits the stream at the limit, whatever the blob boundaries. -/
theorem popBlobs_eq (limit : Nat) (buffer : List (List UInt8)) (result : List UInt8)
    (h : result.length < limit) :
    (popBlobs limit buffer result).2 = (result ++ buffer.flatten).take limit ∧
      (popBlobs limit buffer result).1.flatten = (result ++ buffer.flatten).drop limit := by
  induction buffer generalizing result with
  | nil =>
      simp only [popBlobs, List.flatten_nil, List.append_nil]
      exact ⟨(List.take_of_length_le (Nat.le_of_lt h)).symm,
        (List.drop_of_length_le (Nat.le_of_lt h)).symm⟩
  | cons value buffer ih =>
      simp only [popBlobs, List.flatten_cons, ← List.append_assoc]
      split
      · rename_i hlimit
        constructor
        · rw [List.take_append_of_le_length hlimit]
        · rw [List.flatten_cons, List.drop_append_of_le_length hlimit]
      · rename_i hlimit
        exact ih (result ++ value) (by omega)

theorem readBytes_ok_iff {q q' : BlobQueue} {limit : Nat} {data : List UInt8} {done : Bool} :
    q.readBytes limit = .ok (q', data, done) ↔
      limit ≠ 0 ∧ q' = { q with buffer := (popBlobs limit q.buffer []).1 } ∧
        data = (popBlobs limit q.buffer []).2 ∧
        done = (decide (data.length < limit) && q.fin) := by
  simp only [readBytes, assert, Fallible.bind_ok_iff, Fallible.ensure_eq_ok,
    Fallible.pure_ok_iff, Prod.mk.injEq]
  constructor
  · rintro ⟨_, h, rfl, rfl, rfl⟩
    exact ⟨h, rfl, rfl, rfl⟩
  · rintro ⟨h, rfl, rfl, rfl⟩
    exact ⟨(), h, rfl, rfl, rfl⟩

/-- A read takes a prefix of the stream, keeps the rest and the marker, and
reports the end exactly when the stream was shorter than the limit. -/
theorem readBytes_spec {q q' : BlobQueue} {limit : Nat} {data : List UInt8} {done : Bool}
    (h : q.readBytes limit = .ok (q', data, done)) :
    data = q.bytes.take limit ∧ q'.bytes = q.bytes.drop limit ∧ q'.fin = q.fin ∧
      done = (decide (q.bytes.length < limit) && q.fin) := by
  obtain ⟨hlimit, rfl, rfl, rfl⟩ := readBytes_ok_iff.mp h
  obtain ⟨hdata, hrest⟩ := popBlobs_eq limit q.buffer [] (Nat.pos_of_ne_zero hlimit)
  refine ⟨hdata, hrest, rfl, ?_⟩
  rw [hdata, List.nil_append, List.length_take]
  congr 2
  exact propext ⟨fun h => by simp only [bytes]; omega, fun h => by simp only [bytes] at h; omega⟩

theorem readBytes_succeeds {q : BlobQueue} {limit : Nat} (h : limit ≠ 0) :
    ∃ q' data done, q.readBytes limit = .ok (q', data, done) :=
  ⟨_, _, _, readBytes_ok_iff.mpr ⟨h, rfl, rfl, rfl⟩⟩

/-- A write appends to the stream and refuses bytes after the marker. -/
theorem writeBytes_spec {q q' : BlobQueue} {data : List UInt8}
    (h : q.writeBytes data = .ok q') :
    q'.bytes = q.bytes ++ data ∧ q'.fin = q.fin ∧ (data = [] ∨ q.fin = false) := by
  rw [writeBytes] at h
  split at h
  · rename_i hdata
    rw [List.isEmpty_iff] at hdata
    subst hdata
    obtain rfl := Fallible.pure_ok_iff.mp h
    simp
  · simp only [assert, Fallible.bind_ok_iff, Fallible.ensure_eq_ok, Fallible.pure_ok_iff] at h
    obtain ⟨_, hfin, rfl⟩ := h
    simp [bytes, hfin]

theorem writeBytes_succeeds_iff {q : BlobQueue} {data : List UInt8} :
    (∃ q', q.writeBytes data = .ok q') ↔ data = [] ∨ q.fin = false := by
  constructor
  · rintro ⟨q', h⟩
    exact (writeBytes_spec h).2.2
  · intro h
    rw [writeBytes]
    split
    · exact ⟨q, rfl⟩
    · rename_i hdata
      rw [List.isEmpty_iff] at hdata
      refine ⟨{ q with buffer := q.buffer ++ [data] }, ?_⟩
      simp [assert, Fallible.ensure, h.resolve_left hdata]

end BlobQueue

end TcpState
